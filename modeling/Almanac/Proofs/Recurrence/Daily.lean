import Almanac.Proofs.Recurrence.Weekly

/-!
Daily rules in closed form, and the weekly rules that say the same.  A daily walk visits the event
moved by each multiple of its interval, up to the first that is at the bound or off the time line
(`upTo_spans_daily`).  A weekly walk on the weekday of the event goes on by whole weeks, and one on
all seven weekdays, from that of the event on, goes on day by day.

    DAILY   every 14 days          start ──14──▶ ──14──▶
    WEEKLY  every 2 weeks, We      start ──1, skip 7, search 6──▶ ──1, skip 7, search 6──▶

On the way from one visit to the next a weekly walk takes more steps than a daily one, but what lies
between two moments of the time line is on it.  So both walks visit the terms of one sequence up to
one bound, and there is only one list of these.
-/

namespace Almanac

namespace Rule

variable {event : Span} {bound : Instant} {stride : Nat}

/-! ### The course of a daily walk -/

/-- The event moved by a multiple of the interval. -/
def multiple? (event : Span) (stride j : Nat) : Option Span := event.addDays? (stride * j : Nat)

/-- The place of a daily walk that comes to a multiple. -/
structure AtMultiple (event : Span) (stride : Nat) (bound : Instant) (j : Nat) (place : Span) :
    Prop where
  /-- The place is the multiple. -/
  moved : multiple? event stride j = some place
  /-- It has been compared with the bound. -/
  before : place.Before bound

theorem multiple?_succ {j : Nat} {place : Span} (h : multiple? event stride j = some place) :
    multiple? event stride (j + 1) = place.addDays? stride := by
  rw [multiple?, Nat.mul_succ, ← Span.addDays?_add, ← multiple?, h, Option.bind_some]

/-- A daily walk visits the multiples one after the other. -/
theorem dailyStep_follows {j : Nat} {place : Span} (h : AtMultiple event stride bound j place) :
    (dailyStep stride bound place).Follows
      (fun j => ∃ span ∈ multiple? event stride j, span.Before bound) (multiple? event stride)
      (AtMultiple event stride bound) j := by
  have hnext := multiple?_succ h.moved
  rw [dailyStep]
  refine .visit ⟨place, h.moved, h.before⟩ h.moved (fun next hn => ?_) fun hnone => ?_
  · obtain ⟨hmoved, hreached⟩ := Option.filter_eq_some_iff.1 hn
    exact ⟨hnext.trans hmoved, Span.not_reached_iff.1 (by simpa using hreached)⟩
  · rintro ⟨span, hspan, hbefore⟩
    rw [hnext, Option.mem_def] at hspan
    rw [← Span.not_reached_iff] at hbefore
    simp [hspan, hbefore] at hnone

/-- The spans of a daily rule without a count are the multiples up to the bound. -/
theorem upTo_spans_daily (r : Rule) (hf : r.frequency = .daily) (hc : r.count = none)
    (hb : event.Before bound) : UpTo (multiple? event r.stride) bound (r.spans event bound) := by
  obtain ⟨spans, hw⟩ := exists_walks_daily r.one_le_stride bound event
  have hspans : r.spans event bound = spans := by
    simp only [Rule.spans, hf, room, hc, Option.map_none]
    exact hw.collect_none (Nat.le_refl _)
  have hstart : AtMultiple event r.stride bound 0 event :=
    ⟨Span.addDays?_zero event, hb⟩
  rw [hspans]
  exact .of_listed (hw.listed dailyStep_follows hstart)

/-! ### Rules that say the same -/

/-- A count takes the first of the spans. -/
theorem spans_eq_takeRoom (r : Rule) (event : Span) (bound : Instant) : r.spans event bound
    = takeRoom r.room (({ r with count := none } : Rule).spans event bound) := by
  obtain ⟨id, frequency, byDay, byMonth, ending, interval, count, weekStart⟩ := r
  cases count with
  | none => rfl
  | some count =>
    exact spans_take ⟨id, frequency, byDay, byMonth, ending, interval, none, weekStart⟩ count event
      bound

/-- Two rules that count alike have the same spans if, without the count, both have those of one
sequence up to the bound. -/
theorem spans_eq_of_upTo {r other : Rule} {sequence : Nat → Option Span}
    (hcount : r.count = other.count)
    (h : UpTo sequence bound (({ r with count := none } : Rule).spans event bound))
    (ho : UpTo sequence bound (({ other with count := none } : Rule).spans event bound)) :
    r.spans event bound = other.spans event bound := by
  rw [spans_eq_takeRoom r, spans_eq_takeRoom other, h.unique ho, room, room, hcount]

/-! ### Weeks and days -/

theorem turn_singleton (day : Weekday) (j : Nat) : turn [day] j = day := by
  rw [turn, List.length_singleton, Nat.mod_one]
  rfl

/-- One weekday comes every week that is not skipped. -/
theorem shift_singleton (here : Weekday) (stride j : Nat) :
    shift here [here] stride j = 7 * stride * j := by
  have hahead : here.ahead here = 0 := by
    rw [Weekday.ahead, Nat.add_sub_cancel_left]
  rw [shift_eq_ahead (by simp) (by simp), turn_singleton, hahead, List.length_singleton, Nat.div_one,
    Nat.zero_add, Nat.mul_assoc, Nat.mul_comm j]

end Rule

/-- The seven weekdays in order, beginning with one of them. -/
def Weekday.weekFrom (first : Weekday) : List Weekday :=
  (List.range 7).map fun i => .ofIndex (first.index + i)

@[simp] theorem Weekday.length_weekFrom (first : Weekday) : first.weekFrom.length = 7 := by
  simp [weekFrom]

theorem Weekday.weekFrom_ne_nil (first : Weekday) : first.weekFrom ≠ [] :=
  List.ne_nil_of_length_pos (by simp)

/-- They are no day, one day and so on up to six days ahead. -/
theorem Weekday.map_ahead_weekFrom (first : Weekday) :
    first.weekFrom.map first.ahead = List.range 7 := by
  cases first <;> rfl

namespace Rule

theorem ahead_turn_weekFrom (here : Weekday) {i : Nat} (hi : i < 7) :
    here.ahead (turn here.weekFrom i) = i := by
  have hget : (here.weekFrom.map here.ahead)[i]? = some i := by
    rw [Weekday.map_ahead_weekFrom, List.getElem?_range hi]
  rw [List.getElem?_map, Option.map_eq_some_iff] at hget
  obtain ⟨day, hday, hahead⟩ := hget
  rw [turn, here.length_weekFrom, Nat.mod_eq_of_lt hi, List.getD_eq_getElem?_getD, hday]
  exact hahead

/-- Of all weekdays one comes every day. -/
theorem shift_weekFrom (here : Weekday) (j : Nat) : shift here here.weekFrom 1 j = j := by
  have hdays : (here.weekFrom.map here.ahead).Pairwise (· < ·) := by
    rw [Weekday.map_ahead_weekFrom]
    exact List.pairwise_lt_range
  rw [shift_eq_ahead hdays here.weekFrom_ne_nil, here.length_weekFrom,
    ahead_turn_weekFrom here (Nat.mod_lt j (by decide)), Nat.mul_one, Nat.mod_add_div]

section
variable (r : Rule) (event : Span) (hl : event.start.isLeapSecond = false) {asked : Option Instant}
  {now : Instant} {horizon : Delta} (hb : event.Before (r.bound asked now horizon))
include hl hb

/-- A daily and a weekly rule say the same if their intervals lead to the same days. -/
theorem expand_eq_of_shift {m n : UInt32} {days : List Weekday} (hne : days ≠ [])
    (hdays : ∀ j, shift event.start.weekday days (max n.toNat 1) j = max m.toNat 1 * j) :
    ({ r with frequency := .daily, interval := m } : Rule).expand event asked now horizon
      = ({ r with frequency := .weekly, interval := n, byDay := some (.plain days) } : Rule).expand
          event asked now horizon := by
  have hdaily := upTo_spans_daily { r with frequency := .daily, interval := m, count := none } rfl
    rfl hb
  have hweekly := upTo_spans
    { r with frequency := .weekly, interval := n, byDay := some (.plain days), count := none } rfl
    rfl hne rfl hl (r.bound asked now horizon)
  have hsame : turnSpan? event days (max n.toNat 1) = multiple? event (max m.toNat 1) := by
    funext j
    rw [turnSpan?, hdays, multiple?]
  rw [stride, hsame] at hweekly
  rw [expand, expand]
  split
  · rfl
  · exact congrArg _ (spans_eq_of_upTo rfl hdaily hweekly)

/-- Without a leap second at the beginning, an event before the bound occurs every seven times so
many days just as it does every so many weeks on its own weekday, and it occurs every day just as
it does every week on all weekdays from its own on, whatever else the rule says and wherever the
occurrences end. -/
theorem expand_daily_eq_weekly :
    (∀ n : UInt32, 1 ≤ n.toNat → 7 * n.toNat ≤ 4294967295 →
      ({ r with frequency := .daily, interval := 7 * n } : Rule).expand event asked now horizon
        = ({ r with
              frequency := .weekly
              interval := n
              byDay := some (.plain [event.start.weekday]) } : Rule).expand
            event asked now horizon) ∧
    ({ r with frequency := .daily, interval := 1 } : Rule).expand event asked now horizon
      = ({ r with
            frequency := .weekly
            interval := 1
            byDay := some (.plain event.start.weekday.weekFrom) } : Rule).expand
          event asked now horizon := by
  constructor
  · intro n hpos hfits
    have hinterval : (7 * n).toNat = 7 * n.toNat := by
      rw [UInt32.toNat_mul]
      exact Nat.mod_eq_of_lt (Nat.lt_succ_of_le hfits)
    refine expand_eq_of_shift r event hl hb (by simp) fun j => ?_
    rw [hinterval, shift_singleton, Nat.max_eq_left hpos, Nat.max_eq_left (by omega)]
  · refine expand_eq_of_shift r event hl hb event.start.weekday.weekFrom_ne_nil fun j => ?_
    have hone : max (1 : UInt32).toNat 1 = 1 := by decide
    rw [hone, shift_weekFrom, Nat.one_mul]

end

/-- An hour that begins fifteen days and half an hour before the end of the time line.  It occurs on
three days a week apart, and on fifteen days one after the other; on the next day it would begin
on the time line and end off it. -/
theorem lastHours_expand_daily_eq_weekly :
    let hour : Span := ⟨⟨8210265578999, 0, by decide⟩, ⟨8210265582599, 0, by decide⟩⟩
    let expand (r : Rule) : List Slot := r.expand hour (some .latest) .epoch .zero
    let weeks : Rule := { default with frequency := .daily, interval := 7 * 1 }
    let onItsDay : Rule :=
      { default with
        frequency := .weekly
        interval := 1
        byDay := some (.plain [hour.start.weekday]) }
    let days : Rule := { default with frequency := .daily, interval := 1 }
    let onAllDays : Rule :=
      { default with
        frequency := .weekly
        interval := 1
        byDay := some (.plain hour.start.weekday.weekFrom) }
    hour.start.isLeapSecond = false ∧ hour.Before (default.bound (some .latest) .epoch .zero) ∧
      ((expand weeks).length = 3 ∧ expand weeks = expand onItsDay) ∧
      (expand days).length = 15 ∧ expand days = expand onAllDays := by
  intro hour expand weeks onItsDay days onAllDays
  have hl : hour.start.isLeapSecond = false := rfl
  have hb : hour.Before (default.bound (some .latest) .epoch .zero) := by
    rw [← Span.not_reached_iff]
    decide
  obtain ⟨hweeks, hdays⟩ := expand_daily_eq_weekly default hour hl hb
  exact ⟨hl, hb, ⟨by decide, hweeks 1 (by decide) (by decide)⟩, by decide, hdays⟩

end Rule

end Almanac
