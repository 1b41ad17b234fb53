import Almanac.Proofs.Recurrence.Monthly
import Almanac.Proofs.Recurrence.Truncate
import Almanac.Proofs.Time.LastWeekday
import Mathlib.Data.List.Forall2

/-!
A monthly rule month by month.  The months are counted from that of the event, whatever its day, a
stride at a time.  For some number of months the occurrences are, one for one and in order, the
weekdays of those months that have such a weekday; the other months are passed over, and none is
come to twice.

    5th Friday    Jan  Feb  Mar   Apr  May
                   ·    ·   29th   ·   31st      five months, two occurrences

The walk stops where the rule has counted enough, or where it cannot go on in the next month.
-/

namespace Almanac

/-! ### The event on another day -/

/-- A span that begins on a day at the time of day of an event and ends as much later than the event
as it begins. -/
structure Span.OnDay (event : Span) (d : Int) (span : Span) : Prop where
  /-- It begins on that day. -/
  day : span.start.day = d
  /-- It begins at the second of the day at which the event begins. -/
  clock : span.start.clock = event.start.clock
  /-- It begins at the same fraction of the second. -/
  nano : span.start.nano = event.start.nano
  /-- Its end is moved by as much as its beginning. -/
  finish : event.finish.add? (span.start.since event.start) = some span.finish

/-- It lasts as long as the event, unless the event begins or ends in a leap second. -/
theorem Span.OnDay.lasts {event span : Span} {d : Int} (h : event.OnDay d span)
    (hs : event.start.isLeapSecond = false) (hf : event.finish.isLeapSecond = false) :
    span.start.add? (event.finish.since event.start) = some span.finish := by
  have hl : span.start.isLeapSecond = false := by
    rw [Instant.isLeapSecond, h.nano]
    exact hs
  rw [← h.finish, Instant.add?_since_comm hl hf hs]

namespace Rule

variable {event : Span} {n : Int8} {day : Weekday} {stride : Nat} {bound : Instant} {k : Nat}

/-! ### One month -/

/-- A walk looks for the weekday of a month if it goes on there; from the end it looks only if the
next month begins on the time line. -/
def LooksIn (event : Span) (n : Int8) (day : Weekday) (stride : Nat) (bound : Instant)
    (k : Nat) : Prop :=
  ReachesMonth event n day stride bound k ∧
    (n < 0 → 86400 * Date.firstDay (month event stride k + 1) ≤ lastSecond)

section
variable (hn : n ≠ 0) (h5 : n.toInt.natAbs ≤ 5)
include hn h5

/-- Where a walk looks, it visits the event on the weekday of the month, or nothing if the month
has no such weekday. -/
theorem rel_monthSpan? (h : LooksIn event n day stride bound k) :
    Option.Rel event.OnDay (Date.nthDay? day (month event stride k) n.toInt)
      (monthSpan? event n day stride k) := by
  obtain ⟨⟨anchor, ha, -, hmoves⟩, hnext⟩ := h
  obtain ⟨hmonth, hlater⟩ := Instant.monthNumber_of_addMonths? ha
  rw [← month] at hmonth
  have hfound : occurrence? n day anchor
      = (Date.nthDay? day (month event stride k) n.toInt).bind event.start.onDay? := by
    rw [occurrence?_eq hn h5, hmonth, if_neg fun h => Int.not_lt.2 (hnext h.1) h.2]
    exact congrArg _ (funext hlater.onDay?_eq)
  rw [monthSpan?, ha, Option.bind_some]
  cases hday : Date.nthDay? day (month event stride k) n.toInt with
  | none =>
    rw [hfound, hday]
    exact .none
  | some d =>
    have hb := Date.bounds_of_nthDay? hday
    obtain ⟨start, hstart⟩ := event.start.exists_onDay? (u := anchor) (v := anchor)
      (Int.le_of_eq hmonth) (Int.le_of_eq hmonth.symm) hb.1 hb.2
    rw [hday, Option.bind_some, hstart] at hfound
    obtain ⟨span, hspan, -⟩ := hmoves start hfound
    rw [hfound, Option.bind_some, hspan]
    rw [Instant.onDay?_eq_some] at hstart
    obtain ⟨finish, hfinish, rfl⟩ := Option.map_eq_some_iff.1 hspan
    exact .some ⟨hstart.day_of_sub, hstart.clock_eq, hstart.nano, hfinish⟩

/-- In the last month of the time line nothing is found from the end. -/
theorem monthSpan?_eq_none_of_last (hneg : n < 0)
    (hlast : lastSecond < 86400 * Date.firstDay (month event stride k + 1)) :
    monthSpan? event n day stride k = none := by
  rw [monthSpan?, Option.bind_eq_none_iff]
  intro anchor ha
  have hmonth := (Instant.monthNumber_of_addMonths? ha).1
  rw [← month] at hmonth
  rw [occurrence?_eq hn h5, hmonth, if_pos ⟨hneg, hlast⟩, Option.bind_none]

end

/-- After a month there is another one if a walk goes on there. -/
theorem next_month_le_of_reachesMonth {i : Nat} (hs : 1 ≤ stride)
    (h : ReachesMonth event n day stride bound k) (hi : i < k) :
    86400 * Date.firstDay (month event stride i + 1) ≤ lastSecond := by
  obtain ⟨anchor, ha, -⟩ := h
  have hmonth := (Instant.monthNumber_of_addMonths? ha).1
  have hmul : i * stride < k * stride := Nat.mul_lt_mul_of_pos_right hi hs
  have hmono : Date.firstDay (month event stride i + 1) ≤ Date.firstDay anchor.monthNumber := by
    refine Date.firstDay_mono ?_
    rw [hmonth, month]
    omega
  have hday := anchor.day_bounds
  have hclock := anchor.clock_nonneg
  have hsecond := anchor.day_mul_add_clock
  have hfits := anchor.fits.2.1
  omega

/-! ### Month after month -/

/-- The spans of a monthly rule without a count come from the months in which it looks, up to the
first one in which it does not. -/
theorem listed_looksIn (r : Rule) {rest : List Weekday} (hf : r.frequency = .monthly)
    (hd : r.byDay = some (.ordinal n day rest)) (hn : n ≠ 0) (h5 : n.toInt.natAbs ≤ 5)
    (hc : r.count = none) (event : Span) (bound : Instant) :
    Listed (LooksIn event n day r.stride bound) (monthSpan? event n day r.stride) 0
      (r.spans event bound) := by
  obtain ⟨k, hspans, hgoes, hover⟩ := r.listed_spans hf hd hc event bound
  simp only [Nat.zero_add] at hgoes hover
  rw [hspans]
  by_cases hall : ∀ i < k, LooksIn event n day r.stride bound i
  · exact ⟨k, rfl, by simpa using hall, by rw [Nat.zero_add]; exact fun h => hover h.1⟩
  · -- it goes on in a month in which it does not look, so that this is the last month there is
    push Not at hall
    obtain ⟨i, hi, hnot⟩ := hall
    have hlast : n < 0 ∧ lastSecond < 86400 * Date.firstDay (month event r.stride i + 1) := by
      by_contra hno
      refine hnot ⟨hgoes i hi, fun hneg => ?_⟩
      by_contra hlt
      exact hno ⟨hneg, Int.not_le.1 hlt⟩
    obtain rfl : k = i + 1 := by
      by_contra hne
      have hnext := next_month_le_of_reachesMonth r.one_le_stride (hgoes (i + 1) (by omega))
        (Nat.lt_succ_self i)
      omega
    refine ⟨i, ?_, fun j hj => ?_, by rwa [Nat.zero_add]⟩
    · have hnone : monthSpan? event n day r.stride i = none :=
        monthSpan?_eq_none_of_last hn h5 hlast.1 hlast.2
      rw [List.range'_1_concat, List.filterMap_append, Nat.zero_add, List.filterMap_cons_none hnone]
      exact List.append_nil _
    · rw [Nat.zero_add]
      exact ⟨hgoes j (by omega), fun _ =>
        next_month_le_of_reachesMonth r.one_le_stride (hgoes i (by omega)) hj⟩

/-- The first items of a sequence come from its first numbers. -/
theorem exists_take_filterMap {α : Type} (item : Nat → Option α) (count : Nat) : ∀ k : Nat,
    ∃ m, ((List.range k).filterMap item).take count = (List.range m).filterMap item ∧ m ≤ k ∧
      (m = k ∨ ((List.range m).filterMap item).length = count)
  | 0 => ⟨0, List.take_nil, Nat.le_refl 0, .inl rfl⟩
  | k + 1 => by
    obtain ⟨m, htake, hm, hend⟩ := exists_take_filterMap item count k
    rcases Nat.lt_or_ge ((List.range k).filterMap item).length count with hlt | hge
    · refine ⟨k + 1, List.take_of_length_le ?_, Nat.le_refl _, .inl rfl⟩
      rw [List.range_succ, List.filterMap_append, List.length_append]
      have hone := List.length_filterMap_le item [k]
      rw [List.length_singleton] at hone
      omega
    · refine ⟨m, ?_, Nat.le_succ_of_le hm, .inr ?_⟩
      · rw [List.range_succ, List.filterMap_append, List.take_append_of_le_length hge, htake]
      · rw [← htake, List.length_take, Nat.min_eq_left hge]

/-- With a count the spans come from the months up to the one in which the count is full. -/
theorem exists_months (r : Rule) {rest : List Weekday} (hf : r.frequency = .monthly)
    (hd : r.byDay = some (.ordinal n day rest)) (hn : n ≠ 0) (h5 : n.toInt.natAbs ≤ 5)
    (event : Span) (bound : Instant) : ∃ months,
      r.spans event bound = (List.range months).filterMap (monthSpan? event n day r.stride) ∧
      (∀ k < months, LooksIn event n day r.stride bound k) ∧
      (r.room = some (r.spans event bound).length ∨
        ¬ LooksIn event n day r.stride bound months) := by
  obtain ⟨k, hspans, hlooks, hover⟩ := ({ r with count := none } : Rule).listed_looksIn hf hd hn h5
    rfl event bound
  simp only [Nat.zero_add, ← List.range_eq_range'] at hspans hlooks hover
  cases hc : r.count with
  | none =>
    have hr : ({ r with count := none } : Rule) = r := by rw [← hc]
    rw [hr] at hspans hlooks hover
    exact ⟨k, hspans, hlooks, .inr hover⟩
  | some count =>
    have htake := r.spans_take count event bound
    rw [← hc, hspans] at htake
    obtain ⟨m, hm, hle, hend⟩ := exists_take_filterMap (monthSpan? event n day r.stride)
      count.toNat k
    have hfirst : r.spans event bound = (List.range m).filterMap (monthSpan? event n day r.stride) :=
      htake.trans hm
    refine ⟨m, hfirst, fun i hi => hlooks i (by omega), ?_⟩
    rcases hend with rfl | hfull
    · exact .inr hover
    · refine .inl ?_
      rw [room, hc, hfirst, hfull]
      rfl

/-- Under a monthly rule the occurrences are the weekdays of the months, one for one and in order,
for some number of months a stride apart; months without the weekday are passed over.  It stops
only where the rule has counted enough, or where it does not look in the next month.  Each
occurrence begins on its day at the time of day of the event, and its end is moved by as much, so
that it lasts as long as the event if that does not end in a leap second. -/
theorem expand_month_by_month (r : Rule) {n : Int8} {day : Weekday} {rest : List Weekday}
    (hf : r.frequency = .monthly) (hd : r.byDay = some (.ordinal n day rest)) (hn : n ≠ 0)
    (h5 : n.toInt.natAbs ≤ 5) (event : Span) (hl : event.start.isLeapSecond = false)
    (asked : Option Instant) (now : Instant) (horizon : Delta) :
    ∃ months,
      List.Forall₂ (fun d slot => slot.eventId = r.eventId ∧ event.OnDay d slot.span ∧
          (event.finish.isLeapSecond = false →
            slot.span.start.add? (event.finish.since event.start) = some slot.span.finish))
        ((List.range months).filterMap fun k =>
          Date.nthDay? day (month event r.stride k) n.toInt)
        (r.expand event asked now horizon) ∧
      (event.start ≠ .epoch → r.room = some (r.expand event asked now horizon).length ∨
        ¬ LooksIn event n day r.stride (r.bound asked now horizon) months) := by
  rw [expand]
  by_cases hu : event.start = .epoch
  · have hunset : event.start.isUnset = true := by simpa [Instant.isUnset] using hu
    rw [hunset, if_pos rfl]
    exact ⟨0, .nil, absurd hu⟩
  · have hunset : event.start.isUnset = false := by simpa [Instant.isUnset] using hu
    rw [hunset, if_neg Bool.false_ne_true]
    obtain ⟨months, hspans, hlooks, hend⟩ :=
      r.exists_months hf hd hn h5 event (r.bound asked now horizon)
    refine ⟨months, ?_, fun _ => by rwa [List.length_map]⟩
    rw [hspans, List.map_filterMap]
    refine List.rel_filterMap (R := fun i k => i = k ∧ k < months) ?_
      (List.forall₂_same.2 fun k hk => ⟨rfl, List.mem_range.1 hk⟩)
    rintro i k ⟨rfl, hk⟩
    have hrel := rel_monthSpan? hn h5 (hlooks i hk)
    dsimp only
    generalize Date.nthDay? day (month event r.stride i) n.toInt = d at hrel ⊢
    generalize monthSpan? event n day r.stride i = span at hrel ⊢
    cases hrel with
    | none => exact .none
    | some hday => exact .some ⟨rfl, hday, hday.lasts hl⟩

/-- The fifth Friday of every month. -/
def fifthFridays : Rule :=
  { default with
    frequency := .monthly
    byDay := some (.ordinal 5 .friday []) }

/-- An hour of the morning of 31 January 2024. -/
def lastOfJanuary : Span := ⟨⟨1706691600, 0, by decide⟩, ⟨1706695200, 0, by decide⟩⟩

/-- Until the middle of June there are two fifth Fridays, on 29 March and on 31 May. -/
theorem lastOfJanuary_expand_month_by_month :
    let bound : Instant := ⟨1718409600, 0, by decide⟩
    let slots := fifthFridays.expand lastOfJanuary (some bound) lastOfJanuary.start .zero
    lastOfJanuary.start.isLeapSecond = false ∧ lastOfJanuary.finish.isLeapSecond = false ∧
      (slots.map fun slot => slot.span.start.date) = [⟨2024, 3, 29⟩, ⟨2024, 5, 31⟩] ∧
      ∃ months, List.Forall₂ (fun d slot => slot.eventId = "" ∧ lastOfJanuary.OnDay d slot.span ∧
          (lastOfJanuary.finish.isLeapSecond = false → slot.span.start.add?
            (lastOfJanuary.finish.since lastOfJanuary.start) = some slot.span.finish))
        ((List.range months).filterMap fun k =>
          Date.nthDay? .friday (month lastOfJanuary fifthFridays.stride k) 5) slots := by
  intro bound slots
  obtain ⟨months, hslots, -⟩ := expand_month_by_month fifthFridays rfl rfl (by decide) (by decide)
    lastOfJanuary rfl (some bound) lastOfJanuary.start .zero
  exact ⟨rfl, rfl, by decide, months, hslots⟩

/-- An event on the first Monday of January 2024 that ends with a leap second, after half an hour. -/
def leaping : Span := ⟨⟨1704069000, 0, by decide⟩, ⟨1704070799, 1000000000, by decide⟩⟩

/-- In February its end is moved by as much as its beginning, but the leap second is lost, so that it
lasts a second less than half an hour. -/
theorem leaping_expand_shorter :
    let bound : Instant := ⟨1707350400, 0, by decide⟩
    let january : Slot := ⟨"", leaping⟩
    let february : Slot := ⟨"", ⟨1707093000, 0, by decide⟩, ⟨1707094799, 0, by decide⟩⟩
    firstMondays.expand leaping (some bound) leaping.start .zero = [january, february] ∧
      january.duration.nanos = 1800 * nanosPerSecond ∧
      february.duration.nanos = 1799 * nanosPerSecond ∧
      february.span.start.add? (leaping.finish.since leaping.start) ≠ some february.span.finish := by
  decide

end Rule

end Almanac
