import Almanac.Proofs.Recurrence.Walk
import Almanac.Proofs.Time.Shift

/-!
The occurrences of every rule are the event itself, moved by whole days, later and later, and before
the bound.  Each of the three walks promises that all of its visits are no fewer days after the
event than its place, and a visit moves the place on by a day at least:

    daily    the days of the span
    weekly   the days of the span from which the next weekday is searched
    monthly  the earliest day that the weekday can have in the month of the place (`earliest`)

Only the first visit of a daily walk is not held against the bound.  The bound itself is asked for,
set by the rule, or counted from now (`Bounds`).
-/

namespace Almanac

namespace Span

/-- A span is the event, a number of days later. -/
structure Occurs (event : Span) (n : Int) (span : Span) : Prop where
  /-- It begins so many days later. -/
  start : Instant.Later n event.start span.start
  /-- It ends so many days later. -/
  finish : Instant.Later n event.finish span.finish

/-- A span that begins and ends before a bound. -/
def Before (bound : Instant) (span : Span) : Prop := span.start < bound ∧ span.finish < bound

/-- An event that neither begins nor ends in a leap second. -/
def Steady (event : Span) : Prop :=
  event.start.isLeapSecond = false ∧ event.finish.isLeapSecond = false

variable {event span next : Span} {m n : Int}

theorem occurs_zero (event : Span) : event.Occurs 0 event :=
  ⟨Instant.later_zero _, Instant.later_zero _⟩

theorem not_reached_iff {bound : Instant} : span.reached bound = false ↔ span.Before bound := by
  rw [reached, Bool.or_eq_false_iff, decide_eq_false_iff_not, decide_eq_false_iff_not,
    Instant.not_le_iff, Instant.not_le_iff]
  rfl

theorem before_of_not_reached {bound : Instant} (h : span.reached bound = false) :
    span.Before bound :=
  not_reached_iff.1 h

theorem Occurs.steady (h : event.Occurs n span) (he : event.Steady) : span.Steady :=
  ⟨h.start.isLeapSecond_eq.trans he.1, h.finish.isLeapSecond_eq.trans he.2⟩

theorem Occurs.trans (h : event.Occurs m span) (hs : span.Occurs n next) :
    event.Occurs (m + n) next :=
  ⟨h.start.trans hs.start, h.finish.trans hs.finish⟩

/-- Both ends move on by days. -/
theorem occurs_of_addDays? (h : span.Steady) (hn : span.addDays? n = some next) :
    span.Occurs n next := by
  simp only [addDays?, Option.bind_eq_bind, Option.bind_eq_some_iff] at hn
  obtain ⟨start, hs, finish, hf, he⟩ := hn
  cases he
  exact ⟨(Instant.addDays?_eq_some h.1).1 hs, (Instant.addDays?_eq_some h.2).1 hf⟩

/-- The end follows the beginning. -/
theorem occurs_of_moveTo? (h : span.Steady) {start : Instant}
    (hs : Instant.Later n span.start start) (hn : span.moveTo? start = some next) : span.Occurs n next := by
  rw [moveTo?, Option.map_eq_some_iff] at hn
  obtain ⟨finish, hf, rfl⟩ := hn
  exact ⟨hs, (Instant.add?_days h.2 hs.since_nanos).1 hf⟩

/-- An occurrence lasts as long as the event. -/
theorem Occurs.since_eq (h : event.Occurs n span) :
    span.finish.since span.start = event.finish.since event.start := by
  apply Delta.ext
  rw [Instant.since, Instant.since]
  dsimp only
  rw [Instant.leapCorrection, Instant.leapCorrection, h.start.clock_eq, h.finish.clock_eq,
    h.start.isLeapSecond_eq, h.finish.isLeapSecond_eq, h.start.second, h.finish.second,
    h.start.nano, h.finish.nano]
  congr 2
  omega

/-- A visit so many days after the event.  It lies before the bound, or it is the event itself and
the walk is loose about its beginning. -/
structure Visit (event : Span) (bound : Instant) (loose : Prop) (n : Int) (span : Span) : Prop where
  /-- The event was moved by days. -/
  occurs : event.Occurs n span
  /-- Only the event itself may not be before the bound. -/
  before : loose ∧ n = 0 ∨ span.Before bound

end Span

namespace Rule

variable {event : Span} {bound : Instant} {loose : Prop} {n : Int}

theorem one_le_stride (r : Rule) : 1 ≤ r.stride := Nat.le_max_right _ _

/-! ### Daily -/

/-- The place of a daily walk is a visit to be. -/
def DailyInv (event : Span) (bound : Instant) (loose : Prop) (n : Int) (span : Span) : Prop :=
  ∃ m, n ≤ m ∧ event.Visit bound loose m span

theorem dailyStep_keeps {stride : Nat} (hs : 1 ≤ stride) (he : event.Steady) {span : Span}
    (h : DailyInv event bound loose n span) :
    (dailyStep stride bound span).Keeps (DailyInv event bound loose)
      (event.Visit bound loose) n := by
  obtain ⟨m, hm, hv⟩ := h
  refine ⟨m, hm, hv, fun next hn => ?_⟩
  rw [Option.mem_def, Option.filter_eq_some_iff] at hn
  obtain ⟨hn, hb⟩ := hn
  rw [Bool.not_eq_true'] at hb
  have ho := hv.occurs.trans (Span.occurs_of_addDays? (hv.occurs.steady he) hn)
  exact ⟨m + stride, by omega, ho, .inr (Span.before_of_not_reached hb)⟩

/-! ### Weekly -/

/-- The search of a weekly walk begins at the event or some days later. -/
def WeeklyInv (event : Span) (n : Int) (place : WeeklyPlace) : Prop :=
  ∃ m, n ≤ m ∧ event.Occurs m place.span

theorem weeklyStep_keeps {all : List Weekday} {stride : Nat} (he : event.Steady)
    {place : WeeklyPlace} (h : WeeklyInv event n place) :
    (weeklyStep all stride bound place).Keeps (WeeklyInv event) (event.Visit bound loose) n := by
  obtain ⟨m, hm, ho⟩ := h
  have hp := ho.steady he
  rw [weeklyStep]
  split
  · -- the list is through
    split
    · exact ⟨m, hm, ho⟩
    · split
      · next span hspan =>
        exact ⟨_, by omega, ho.trans (Span.occurs_of_addDays? hp hspan)⟩
      · trivial
  · split
    · trivial
    · next span hspan =>
      obtain ⟨start, hstart, hmove⟩ := Option.bind_eq_some_iff.1 hspan
      obtain ⟨k, -, hk⟩ := Instant.later_of_nextWeekday? hp.1 hstart
      have hv := ho.trans (Span.occurs_of_moveTo? hp hk hmove)
      split
      · trivial
      · next hb =>
        rw [Bool.not_eq_true] at hb
        refine ⟨m + k, by omega, ⟨hv, .inr (Span.before_of_not_reached hb)⟩, fun next hn => ?_⟩
        obtain ⟨span', hs, rfl⟩ := Option.map_eq_some_iff.1 hn
        exact ⟨m + k + 1, Int.le_refl _, hv.trans (Span.occurs_of_addDays? (hv.steady he) hs)⟩

/-! ### Monthly -/

/-- A day before which no month with the number `i` or a later one has its `n`-th weekday.  Counted
from the end, the weekday is one of the seven days that are `n` weeks before the next month. -/
def earliest (n : Int8) (i : Int) : Int :=
  if n < 0 then Date.firstDay (i + 1) - 7 * n.toInt.natAbs else Date.firstDay i

theorem earliest_mono {n : Int8} {i j : Int} (h : i ≤ j) : earliest n i ≤ earliest n j := by
  rw [earliest, earliest]
  split
  · have := Date.firstDay_mono (Int.add_le_add_right h 1)
    omega
  · exact Date.firstDay_mono h

/-- The weekday of a month is on its earliest day or later, and before the earliest day of the next
month. -/
theorem occurrence?_bounds {k : Int8} {day : Weekday} {t u : Instant}
    (h : occurrence? k day t = some u) :
    ∃ d, Instant.Later (d - t.day) t u ∧ earliest k t.monthNumber ≤ d ∧
      d < earliest k (t.monthNumber + 1) := by
  have hl := Date.firstDay_succ t.monthNumber
  rw [occurrence?] at h
  rw [earliest, earliest]
  split at h
  · next hk =>
    have hpos : 1 ≤ k.toInt.natAbs := by
      have : k.toInt < 0 := Int8.lt_iff_toInt_lt.1 hk
      omega
    have hb := Instant.weekdayBack_bounds t.monthNumber day k.toInt.natAbs
    have hnext := Date.firstDay_succ (t.monthNumber + 1)
    have h28 := Date.lengthAt_bounds (t.monthNumber + 1)
    rw [if_pos hk, if_pos hk]
    exact ⟨_, Instant.later_of_nthLastWeekday? h, by omega, by omega⟩
  · next hk =>
    obtain ⟨⟨-, hlt⟩, hu⟩ := Instant.nthWeekday?_eq_some.1 h
    rw [if_neg hk, if_neg hk]
    exact ⟨_, hu, by omega, by omega⟩

/-- The place of a monthly walk is the month so many months after that of the event, and the event's
beginning moved there; what is visited from there on is not before the earliest day. -/
structure MonthlyInv (k : Int8) (event : Span) (n : Int) (place : MonthlyPlace) : Prop where
  /-- The place counts the months. -/
  month : place.anchor.monthNumber = event.start.monthNumber + place.months
  /-- The beginning was moved by days. -/
  later : Instant.Later (place.anchor.day - event.start.day) event.start place.anchor
  /-- The days that are left. -/
  le : n ≤ earliest k place.anchor.monthNumber - event.start.day

/-- A later month leaves the days from its earliest on. -/
theorem MonthlyInv.next {k : Int8} {place next : MonthlyPlace} {stride : Nat} {m : Int}
    (h : MonthlyInv k event n place) (hs : 1 ≤ stride)
    (hn : next ∈ (event.start.addMonths? (place.months + stride : Nat)).map fun anchor =>
      (⟨place.months + stride, anchor⟩ : MonthlyPlace))
    (hm : m ≤ earliest k (place.anchor.monthNumber + 1) - event.start.day) :
    MonthlyInv k event m next := by
  obtain ⟨anchor, ha, rfl⟩ := Option.map_eq_some_iff.1 hn
  obtain ⟨hi, hl⟩ := Instant.monthNumber_of_addMonths? ha
  refine ⟨hi, hl, Int.le_trans hm (Int.sub_le_sub_right (earliest_mono ?_) _)⟩
  have := h.month
  dsimp only
  omega

/-- A count that is held at the greatest number leads nowhere, like the count that goes on. -/
theorem map_monthsAfter (start : Instant) (months stride : Nat) :
    (start.addMonths? (monthsAfter months stride)).map
        (fun anchor => (⟨monthsAfter months stride, anchor⟩ : MonthlyPlace))
      = (start.addMonths? (months + stride : Nat)).map fun anchor => ⟨months + stride, anchor⟩ := by
  rcases Nat.lt_or_ge (months + stride) maxMonths with h | h
  · have he : monthsAfter months stride = months + stride := by
      rw [monthsAfter]
      omega
    rw [he]
  · have he : monthsAfter months stride = maxMonths := by
      rw [monthsAfter]
      omega
    rw [maxMonths] at h he
    rw [he, start.addMonths?_eq_none (by omega), start.addMonths?_eq_none (by omega)]
    rfl

theorem monthlyStep_keeps {k : Int8} {day : Weekday} {stride : Nat} (hs : 1 ≤ stride)
    (he : event.Steady) {place : MonthlyPlace} (h : MonthlyInv k event n place) :
    (monthlyStep k day stride bound event place).Keeps (MonthlyInv k event)
      (event.Visit bound loose) n := by
  have hmono : earliest k place.anchor.monthNumber ≤ earliest k (place.anchor.monthNumber + 1) :=
    earliest_mono (Int.le_add_one (Int.le_refl _))
  have hle := h.le
  rw [monthlyStep]
  split
  · trivial
  dsimp only
  rw [map_monthsAfter]
  split
  · -- a month that has no such weekday
    split
    · next next hn => exact h.next hs hn (by omega)
    · trivial
  · next start hstart =>
    split
    · trivial
    · next span hspan =>
      split
      · trivial
      · next hb =>
        rw [Bool.not_eq_true] at hb
        obtain ⟨d, hd, hlow, hhigh⟩ := occurrence?_bounds hstart
        have hv := Span.occurs_of_moveTo? he (h.later.trans hd) hspan
        exact ⟨_, by omega, ⟨hv, .inr (Span.before_of_not_reached hb)⟩,
          fun next hn => h.next hs hn (by omega)⟩

/-! ### The bound -/

/-- The bound of an expansion: the moment that is asked for; if none is, the end of the rule; if it
has none, the moment a horizon away from now; and if that is not on the time line, the latest. -/
inductive Bounds (r : Rule) (asked : Option Instant) (now : Instant) (horizon : Delta) :
    Instant → Prop
  /-- A bound is asked for. -/
  | asked {limit : Instant} (given : asked = some limit) : Bounds r asked now horizon limit
  /-- The rule has an end. -/
  | ending {last : Instant} (unasked : asked = none) (ends : r.ending = some last) :
      Bounds r asked now horizon last
  /-- Nothing else is said, and the horizon is on the time line. -/
  | horizon {far : Instant} (unasked : asked = none) (endless : r.ending = none)
      (sum : now.add? horizon = some far) : Bounds r asked now horizon far
  /-- Nothing else is said, and the horizon is beyond the time line. -/
  | latest (unasked : asked = none) (endless : r.ending = none)
      (beyond : now.add? horizon = none) : Bounds r asked now horizon .latest

/-- There is one such moment. -/
theorem bounds_iff {r : Rule} {asked : Option Instant} {now : Instant} {horizon : Delta} :
    r.Bounds asked now horizon bound ↔ bound = r.bound asked now horizon := by
  constructor
  · rintro (given | ⟨unasked, ends⟩ | ⟨unasked, endless, sum⟩ | ⟨unasked, endless, beyond⟩)
    · simp [Rule.bound, given]
    · simp [Rule.bound, unasked, ends]
    · simp [Rule.bound, unasked, endless, sum]
    · simp [Rule.bound, unasked, endless, beyond]
  · rintro rfl
    rw [Rule.bound]
    cases given : asked with
    | some limit => exact .asked rfl
    | none =>
      cases ends : r.ending with
      | some last => exact .ending rfl ends
      | none =>
        cases sum : now.add? horizon with
        | some far => exact .horizon rfl ends sum
        | none => exact .latest rfl ends sum

/-! ### The occurrences of a rule -/

/-- The spans of a rule ascend from some day on, which for a daily rule is that of the event. -/
theorem ascends_spans (r : Rule) (he : event.Steady) (bound : Instant) :
    ∃ n, Ascends (event.Visit bound (r.frequency = .daily)) n (r.spans event bound) ∧
      (r.frequency = .daily → n = 0) := by
  rw [spans]
  split
  · next hf =>
    have hplace : DailyInv event bound (r.frequency = .daily) 0 event :=
      ⟨0, Int.le_refl 0, Span.occurs_zero event, .inl ⟨hf, rfl⟩⟩
    exact ⟨0, ascends_collect (dailyStep_keeps r.one_le_stride he) _ hplace, fun _ => rfl⟩
  · split
    · exact ⟨0, .nil, fun _ => rfl⟩
    · next days _ _ _ =>
      have hplace : WeeklyInv event 0 ⟨event, days⟩ := ⟨0, Int.le_refl 0, Span.occurs_zero event⟩
      exact ⟨0, ascends_collect (weeklyStep_keeps he) _ hplace, fun _ => rfl⟩
  · next n day _ hf _ =>
    have hplace : MonthlyInv n event (earliest n event.start.monthNumber - event.start.day)
        ⟨0, event.start⟩ := by
      refine ⟨by simp, ?_, Int.le_refl _⟩
      rw [Int.sub_self]
      exact Instant.later_zero _
    refine ⟨_, ascends_collect (monthlyStep_keeps r.one_le_stride he) _ hplace, fun h => ?_⟩
    rw [hf] at h
    cases h
  · exact ⟨0, .nil, fun _ => rfl⟩

/-- There are no more spans than the rule counts. -/
theorem length_spans_le (r : Rule) {count : UInt32} (hc : r.count = some count) (event : Span)
    (bound : Instant) : (r.spans event bound).length ≤ count.toNat := by
  have hroom : r.room = some count.toNat := by
    rw [room, hc]
    rfl
  rw [spans, hroom]
  split
  · exact length_collect _ _ _
  · split
    · exact Nat.zero_le _
    · exact length_collect _ _ _
  · exact length_collect _ _ _
  · exact Nat.zero_le _

/-- What is so of the occurrences of an event under a rule, up to a bound. -/
structure Sound (r : Rule) (event : Span) (bound : Instant) (slots : List Slot) : Prop where
  /-- Each begins before the next. -/
  ascending : slots.Pairwise fun a b => a.span.start < b.span.start
  /-- They bear the identifier of the rule. -/
  eventId_eq : ∀ slot ∈ slots, slot.eventId = r.eventId
  /-- They last as long as the event. -/
  duration_eq : ∀ slot ∈ slots, slot.duration = event.finish.since event.start
  /-- They begin at the time of day of the event. -/
  time_eq : ∀ slot ∈ slots,
    slot.span.start.clock = event.start.clock ∧ slot.span.start.nano = event.start.nano
  /-- There are no more of them than the rule counts. -/
  length_le : ∀ count ∈ r.count, slots.length ≤ count.toNat
  /-- They begin and end before the bound, except for the first one of a daily rule. -/
  before : ∀ {i slot}, slots[i]? = some slot →
    r.frequency = .daily ∧ i = 0 ∨ slot.span.start < bound ∧ slot.span.finish < bound

theorem sound_nil (r : Rule) (event : Span) (bound : Instant) : r.Sound event bound [] where
  ascending := .nil
  eventId_eq _ hm := by cases hm
  duration_eq _ hm := by cases hm
  time_eq _ hm := by cases hm
  length_le _ _ := Nat.zero_le _
  before hi := by cases hi

/-- The spans of a rule, made into slots. -/
theorem sound_spans (r : Rule) (he : event.Steady) (bound : Instant) :
    r.Sound event bound ((r.spans event bound).map fun span => ⟨r.eventId, span⟩) := by
  obtain ⟨n, ha, hn⟩ := r.ascends_spans he bound
  have hocc : ∀ slot ∈ (r.spans event bound).map fun span => (⟨r.eventId, span⟩ : Slot),
      slot.eventId = r.eventId ∧ ∃ m, event.Occurs m slot.span := by
    intro slot hm
    obtain ⟨span, hs, rfl⟩ := List.mem_map.1 hm
    obtain ⟨m, -, hv⟩ := ha.of_mem hs
    exact ⟨rfl, m, hv.occurs⟩
  refine ⟨?_, ?_, ?_, ?_, ?_, ?_⟩
  · rw [List.pairwise_map]
    exact ha.pairwise fun ha hb hlt => (ha.occurs.start.lt_iff_lt hb.occurs.start).2 hlt
  · exact fun slot hm => (hocc slot hm).1
  · intro slot hm
    obtain ⟨-, m, ho⟩ := hocc slot hm
    exact ho.since_eq
  · intro slot hm
    obtain ⟨-, m, ho⟩ := hocc slot hm
    exact ⟨ho.start.clock_eq, ho.start.nano⟩
  · intro count hc
    rw [List.length_map]
    exact r.length_spans_le hc event bound
  · intro i slot hi
    rw [List.getElem?_map, Option.map_eq_some_iff] at hi
    obtain ⟨span, hs, rfl⟩ := hi
    obtain ⟨m, hm, hv⟩ := ha.of_getElem? hs
    rcases hv.before with ⟨hd, h0⟩ | hb
    · -- the walk begins with the event, so that no later visit is loose
      have := hn hd
      exact .inl ⟨hd, by omega⟩
    · exact .inr hb

/-- The occurrences of an event that neither begins nor ends in a leap second, under any rule and up
to the one moment that bounds its expansion. -/
theorem expand_sound (r : Rule) (event : Span) (hs : event.start.isLeapSecond = false)
    (hf : event.finish.isLeapSecond = false) (asked : Option Instant) (now : Instant)
    (horizon : Delta) : ∃ bound,
      (∀ other, r.Bounds asked now horizon other ↔ other = bound) ∧
      r.Sound event bound (r.expand event asked now horizon) := by
  refine ⟨r.bound asked now horizon, fun other => bounds_iff, ?_⟩
  rw [expand]
  split
  · exact r.sound_nil event _
  · exact r.sound_spans ⟨hs, hf⟩ _

/-- The last Friday of every month, twice. -/
def lastFridays : Rule :=
  { default with
    eventId := "review"
    frequency := .monthly
    byDay := some (.ordinal (-1) .friday [])
    count := some 2 }

/-- The first hour of 2024. -/
def review : Span := ⟨⟨1704067200, 0, by decide⟩, ⟨1704070800, 0, by decide⟩⟩

/-- Asked up to the middle of February there is one review, up to the end of the rule in March there
are three, and from February a fortnight ahead there are two.  A fortnight from the latest moment is
beyond the time line, and of all the reviews two are counted. -/
theorem review_expand_sound :
    let february : Instant := ⟨1708000000, 0, by decide⟩
    let fortnightOn : Instant := ⟨1709209600, 0, by decide⟩
    let march : Instant := ⟨1711929599, 0, by decide⟩
    let endless : Rule := { lastFridays with count := none }
    let ended : Rule := { endless with ending := some march }
    let asked := ended.expand review (some february) .latest .fortnight
    let unasked := ended.expand review none .latest .fortnight
    let ahead := endless.expand review none february .fortnight
    let counted := lastFridays.expand review none .latest .fortnight
    review.start.isLeapSecond = false ∧ review.finish.isLeapSecond = false ∧
      (asked.length = 1 ∧ ended.Sound review february asked) ∧
      (unasked.length = 3 ∧ ended.Sound review march unasked) ∧
      (ahead.length = 2 ∧ endless.Sound review fortnightOn ahead) ∧
      (counted.length = 2 ∧ lastFridays.Sound review .latest counted) := by
  intro february fortnightOn march endless ended asked unasked ahead counted
  obtain ⟨a, ha, hasked⟩ := expand_sound ended review rfl rfl (some february) .latest .fortnight
  obtain ⟨u, hu, hunasked⟩ := expand_sound ended review rfl rfl none .latest .fortnight
  obtain ⟨h, hh, hahead⟩ := expand_sound endless review rfl rfl none february .fortnight
  obtain ⟨c, hc, hcounted⟩ := expand_sound lastFridays review rfl rfl none .latest .fortnight
  obtain rfl : february = a := (ha february).1 (.asked rfl)
  obtain rfl : march = u := (hu march).1 (.ending rfl rfl)
  obtain rfl : fortnightOn = h := (hh fortnightOn).1 (.horizon rfl rfl (by decide))
  obtain rfl : .latest = c := (hc .latest).1 (.latest rfl rfl (by decide))
  exact ⟨rfl, rfl, ⟨by decide, hasked⟩, ⟨by decide, hunasked⟩, ⟨by decide, hahead⟩,
    ⟨by decide, hcounted⟩⟩

end Rule

end Almanac
