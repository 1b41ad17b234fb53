import Almanac.Proofs.Recurrence.Course
import Almanac.Proofs.Time.Forward
import Almanac.Proofs.Time.Month
import Mathlib.Algebra.Order.Floor.Div

/-!
Every walk is over some time, whatever the rule, the event and the bound.  The time line has a last
day, and a daily or a weekly walk goes on a day at least with every visit; a weekly walk that passes
on has weekdays to visit again.  A monthly walk goes on to a later month each time, whether the
month has a visit or not, until the month is not before the bound.  A count of months that is held
at the greatest number is no exception, since it leads off the time line.

    visits of              are no more than
    a daily walk           the days from the event to the bound, and one
    a weekly walk          the days from the event to the bound
    a monthly walk         the months from that of the event to that of the bound
-/

namespace Almanac

namespace Instant

variable {t u bound : Instant}

/-- The days from a moment to the last day of the time line. -/
def daysLeft (t : Instant) : Nat := (95026236 - t.day).toNat

theorem daysLeft_le (t : Instant) : t.daysLeft ≤ 191491528 := by
  have h := t.day_range
  rw [daysLeft]
  omega

theorem daysLeft_lt (h : t.day < u.day) : u.daysLeft < t.daysLeft := by
  have hu := u.day_range
  rw [daysLeft, daysLeft]
  omega

theorem daysLeft_le_of_le (h : t.day ≤ u.day) : u.daysLeft ≤ t.daysLeft := by
  rw [daysLeft, daysLeft]
  omega

theorem nextWeekday?_inclusive (t : Instant) (w : Weekday) :
    t.nextWeekday? w true = t.addDays? (t.weekday.ahead w : Nat) := by
  simp [nextWeekday?]

/-- The days from a moment to a bound, where a day that has begun counts.  There are none if the
bound is not after the moment. -/
def daysUntil (t bound : Instant) : Nat :=
  if bound ≤ t then 0 else (bound.since t).nanos.toNat ⌈/⌉ 86400000000000

/-- The months from that of a moment to that of a bound, both of them counted.  There are none if
the bound is not after the moment. -/
def monthsUntil (t bound : Instant) : Nat :=
  if bound ≤ t then 0 else (bound.monthNumber + 1 - t.monthNumber).toNat

/-- As many days after a moment as there are until the bound, the bound has come. -/
theorem Later.lt_daysUntil {m : Nat} (h : Later m t u) (ht : t.isLeapSecond = false)
    (hb : u < bound) : m < t.daysUntil bound := by
  have hn := nano_lt_of_not_leap ht
  obtain ⟨hs, hnano⟩ := h
  rw [lt_iff, hs, hnano] at hb
  have hc : leapCorrection bound t = 0 ∨
      leapCorrection bound t = -1 ∧ bound.clock < t.clock ∧ 1000000000 ≤ bound.nano := by
    rw [leapCorrection, ht, if_neg (fun hc => Bool.false_ne_true hc.2)]
    split
    · next hc => exact .inr ⟨rfl, hc.1, by simpa [isLeapSecond] using hc.2⟩
    · exact .inl rfl
  have hlong : 86400 * (m : Int) * 1000000000 < (bound.since t).nanos := by
    rw [since]
    dsimp only
    rw [nanosPerSecond]
    rcases hc with hc | ⟨hc, hclock, hleap⟩
    · rw [hc]
      omega
    · -- the bound is in a leap second, and its time of day is another
      rw [clock, clock] at hclock
      rw [hc]
      omega
  have hle : ¬ bound ≤ t := by
    rw [not_le_iff, lt_iff]
    omega
  rw [daysUntil, if_neg hle, Nat.ceilDiv_eq_add_pred_div]
  omega

end Instant

namespace Span

variable {span next : Span}

theorem addDays?_eq_some {n : Int} : span.addDays? n = some next ↔
    span.start.addDays? n = some next.start ∧ span.finish.addDays? n = some next.finish := by
  simp only [addDays?, Option.bind_eq_bind, Option.bind_eq_some_iff]
  constructor
  · rintro ⟨start, hs, finish, hf, he⟩
    cases he
    exact ⟨hs, hf⟩
  · rintro ⟨hs, hf⟩
    exact ⟨_, hs, _, hf, rfl⟩

theorem start_of_moveTo? {start : Instant} (h : span.moveTo? start = some next) :
    next.start = start := by
  obtain ⟨finish, -, rfl⟩ := Option.map_eq_some_iff.1 h
  rfl

end Span

namespace Rule

variable {event : Span} {bound : Instant}

/-! ### Measures of the walks -/

/-- A daily walk has a visit at most on each day that is left. -/
def dailyMeasure (span : Span) : Nat := span.start.daysLeft + 1

theorem dailyStep_lowers {stride : Nat} (hs : 1 ≤ stride) (span : Span) :
    (dailyStep stride bound span).Lowers (fun _ => True) dailyMeasure (dailyMeasure span) := by
  refine ⟨Nat.succ_pos _, fun next hn => ⟨trivial, ?_⟩⟩
  rw [Option.mem_def, Option.filter_eq_some_iff] at hn
  have hd := Instant.day_of_addDays? (Span.addDays?_eq_some.1 hn.1).1
  exact Nat.succ_lt_succ (Instant.daysLeft_lt (by omega))

/-- A weekly walk takes two steps at most on each day that is left: a visit, and one step more if
weekdays have to be taken up again. -/
def weeklyMeasure (place : WeeklyPlace) : Nat :=
  2 * place.span.start.daysLeft + if place.days = [] then 2 else 1

theorem weeklyMeasure_of_nil {place : WeeklyPlace} (h : place.days = []) :
    weeklyMeasure place = 2 * place.span.start.daysLeft + 2 := by
  rw [weeklyMeasure, if_pos h]

theorem weeklyMeasure_of_ne {place : WeeklyPlace} (h : place.days ≠ []) :
    weeklyMeasure place = 2 * place.span.start.daysLeft + 1 := by
  rw [weeklyMeasure, if_neg h]

theorem weeklyMeasure_le (place : WeeklyPlace) :
    weeklyMeasure place ≤ 2 * place.span.start.daysLeft + 2 := by
  rw [weeklyMeasure]
  split <;> omega

theorem weeklyStep_lowers {all : List Weekday} (ha : all ≠ []) (stride : Nat)
    (place : WeeklyPlace) :
    (weeklyStep all stride bound place).Lowers (fun _ => True) weeklyMeasure
      (weeklyMeasure place) := by
  rw [weeklyStep]
  split
  · next hp =>
    -- no day may have gone by, but there are weekdays again
    have hagain : ∀ span : Span, span.start.daysLeft ≤ place.span.start.daysLeft →
        weeklyMeasure ⟨span, all⟩ < weeklyMeasure place := by
      intro span hl
      rw [weeklyMeasure_of_nil hp, weeklyMeasure_of_ne ha]
      exact Nat.succ_lt_succ (Nat.lt_succ_of_le (Nat.mul_le_mul_left 2 hl))
    split
    · exact ⟨trivial, hagain _ (Nat.le_refl _)⟩
    · split
      · next span hspan =>
        have hd := Instant.day_of_addDays? (Span.addDays?_eq_some.1 hspan).1
        exact ⟨trivial, hagain _ (Instant.daysLeft_le_of_le (by omega))⟩
      · trivial
  · next day days hp =>
    split
    · trivial
    · next span hspan =>
      split
      · trivial
      · have hne : place.days ≠ [] := by simp [hp]
        rw [weeklyMeasure_of_ne hne]
        refine ⟨Nat.succ_pos _, fun next hn => ⟨trivial, ?_⟩⟩
        obtain ⟨after, hafter, rfl⟩ := Option.map_eq_some_iff.1 hn
        obtain ⟨start, hstart, hmove⟩ := Option.bind_eq_some_iff.1 hspan
        rw [Instant.nextWeekday?_inclusive, ← Span.start_of_moveTo? hmove] at hstart
        have hfound := Instant.day_of_addDays? hstart
        have hnext := Instant.day_of_addDays? (n := 1) (Span.addDays?_eq_some.1 hafter).1
        have hl : after.start.daysLeft < place.span.start.daysLeft :=
          Instant.daysLeft_lt (by omega)
        exact Nat.lt_of_le_of_lt (weeklyMeasure_le _) (by dsimp only; omega)

/-- The place of a monthly walk counts the months from that of the event. -/
def Counts (event : Span) (place : MonthlyPlace) : Prop :=
  place.anchor.monthNumber = event.start.monthNumber + place.months

/-- A monthly walk takes one step for each month up to that of the bound. -/
def monthlyMeasure (bound : Instant) (place : MonthlyPlace) : Nat :=
  (bound.monthNumber + 1 - place.anchor.monthNumber).toNat

theorem monthlyStep_lowers {n : Int8} {day : Weekday} {stride : Nat} (hs : 1 ≤ stride)
    {place : MonthlyPlace} (h : Counts event place) :
    (monthlyStep n day stride bound event place).Lowers (Counts event) (monthlyMeasure bound)
      (monthlyMeasure bound place) := by
  rw [monthlyStep]
  split
  · trivial
  next hb =>
  have hm := Instant.monthNumber_le_of_lt (Instant.not_le_iff.1 hb)
  dsimp only
  rw [map_monthsAfter]
  have hpos : 0 < monthlyMeasure bound place := by
    rw [monthlyMeasure]
    omega
  have hnext : ∀ next ∈ (event.start.addMonths? (place.months + stride : Nat)).map
      (fun anchor => (⟨place.months + stride, anchor⟩ : MonthlyPlace)),
      Counts event next ∧ monthlyMeasure bound next < monthlyMeasure bound place := by
    intro next hn
    obtain ⟨anchor, ha, rfl⟩ := Option.map_eq_some_iff.1 hn
    obtain ⟨hc, -⟩ := Instant.monthNumber_of_addMonths? ha
    refine ⟨hc, ?_⟩
    rw [monthlyMeasure, monthlyMeasure, h, hc]
    rw [h] at hm
    omega
  split
  · split
    · next next hn => exact hnext next hn
    · trivial
  · split
    · trivial
    · split
      · trivial
      · exact ⟨hpos, hnext⟩

/-! ### The end of the walks -/

theorem exists_walks_daily {stride : Nat} (hs : 1 ≤ stride) (bound : Instant) (event : Span) :
    ∃ spans, Walks (dailyStep stride bound) walkLimit event spans := by
  have hl := event.start.daysLeft_le
  refine exists_walks (fun _ => dailyStep_lowers hs _) walkLimit trivial ?_
  rw [dailyMeasure, walkLimit]
  omega

theorem exists_walks_weekly {all : List Weekday} (ha : all ≠ []) (stride : Nat) (bound : Instant)
    (place : WeeklyPlace) : ∃ spans, Walks (weeklyStep all stride bound) walkLimit place spans := by
  have hl := place.span.start.daysLeft_le
  have hm := weeklyMeasure_le place
  refine exists_walks (fun _ => weeklyStep_lowers ha stride _) walkLimit trivial ?_
  rw [walkLimit]
  omega

theorem counts_zero (event : Span) : Counts event ⟨0, event.start⟩ := by
  rw [Counts, Nat.cast_zero, Int.add_zero]

theorem exists_walks_monthly {stride : Nat} (hs : 1 ≤ stride) (n : Int8) (day : Weekday)
    (bound : Instant) (event : Span) :
    ∃ spans, Walks (monthlyStep n day stride bound event) walkLimit ⟨0, event.start⟩ spans := by
  have hstart := event.start.monthNumber_range
  have hbound := bound.monthNumber_range
  refine exists_walks (monthlyStep_lowers hs) walkLimit (counts_zero event) ?_
  rw [monthlyMeasure, walkLimit]
  dsimp only
  omega

/-- The walk of a rule is over within a number of steps, and it has visited these spans.  Rules of
other shapes, and weekly rules without a weekday, do not walk. -/
def Walked (r : Rule) (event : Span) (bound : Instant) (n : Nat) (spans : List Span) : Prop :=
  match r.frequency, r.byDay with
  | .daily, _ => Walks (dailyStep r.stride bound) n event spans
  | .weekly, some (.plain days) =>
    if days = [] then spans = [] else Walks (weeklyStep days r.stride bound) n ⟨event, days⟩ spans
  | .monthly, some (.ordinal k day _) =>
    Walks (monthlyStep k day r.stride bound event) n ⟨0, event.start⟩ spans
  | _, _ => spans = []

/-- The walk of every rule is over before its steps are used up, and the spans of the rule are those
that it has visited, as many as the rule counts. -/
theorem exists_walked (r : Rule) (event : Span) (bound : Instant) :
    ∃ spans, r.Walked event bound walkLimit spans ∧
      r.spans event bound = takeRoom r.room spans := by
  have hnone : ∀ room : Option Nat, takeRoom room [] = [] := by
    intro room
    cases room <;> simp [takeRoom]
  rw [spans]
  split
  · next hf =>
    simp only [Walked, hf]
    obtain ⟨spans, hw⟩ := exists_walks_daily r.one_le_stride bound event
    exact ⟨spans, hw, hw.collect_eq (Nat.le_refl _) _⟩
  · next days hf hd =>
    simp only [Walked, hf, hd]
    by_cases hne : days = []
    · simp only [if_pos hne]
      exact ⟨[], rfl, (hnone _).symm⟩
    · simp only [if_neg hne]
      obtain ⟨spans, hw⟩ := exists_walks_weekly hne r.stride bound ⟨event, days⟩
      exact ⟨spans, hw, hw.collect_eq (Nat.le_refl _) _⟩
  · next k day _ hf hd =>
    simp only [Walked, hf, hd]
    obtain ⟨spans, hw⟩ := exists_walks_monthly r.one_le_stride k day bound event
    exact ⟨spans, hw, hw.collect_eq (Nat.le_refl _) _⟩
  · next hdaily hweekly hmonthly =>
    refine ⟨[], ?_, (hnone _).symm⟩
    rw [Walked]
    split
    · exact absurd ‹_› hdaily
    · exact absurd ‹_› (hweekly _ ‹_›)
    · exact absurd ‹_› (hmonthly _ _ _ ‹_›)
    · rfl

/-! ### Numbers of visits -/

/-- Visits that ascend from the event on are no more than the days until the bound; only the event
itself may be one more. -/
theorem length_le_daysUntil {loose : Prop} {spans : List Span} (he : event.Steady)
    (h : Ascends (event.Visit bound loose) 0 spans) :
    spans.length ≤ event.start.daysUntil bound ∨ loose ∧ spans.length ≤ 1 := by
  rcases Nat.eq_zero_or_pos spans.length with h0 | hpos
  · exact .inl (by omega)
  obtain ⟨m, hm, hv⟩ := h.of_getElem? (List.getElem?_eq_getElem (Nat.sub_lt hpos Nat.one_pos))
  rcases hv.before with ⟨hl, hz⟩ | hb
  · exact .inr ⟨hl, by omega⟩
  · obtain ⟨k, rfl⟩ := Int.eq_ofNat_of_zero_le (show 0 ≤ m by omega)
    have hk := hv.occurs.start.lt_daysUntil he.1 hb.1
    exact .inl (by omega)

/-- A rule that begins with the event ascends from it. -/
theorem ascends_spans_of_ne_monthly (r : Rule) (he : event.Steady) (bound : Instant)
    (hf : r.frequency ≠ .monthly) :
    Ascends (event.Visit bound (r.frequency = .daily)) 0 (r.spans event bound) := by
  rw [spans]
  split
  · next hd =>
    exact ascends_collect (dailyStep_keeps r.one_le_stride he) _
      ⟨0, Int.le_refl 0, Span.occurs_zero event, .inl ⟨hd, rfl⟩⟩
  · split
    · exact .nil
    · exact ascends_collect (weeklyStep_keeps he) _ ⟨0, Int.le_refl 0, Span.occurs_zero event⟩
  · next hm _ => exact absurd hm hf
  · exact .nil

theorem length_takeRoom_le (room : Option Nat) (spans : List Span) :
    (takeRoom room spans).length ≤ spans.length := by
  cases room with
  | none => exact Nat.le_refl _
  | some k => exact List.length_take_le' k spans

/-- A monthly rule has no more visits than there are months until the bound. -/
theorem length_le_monthsUntil (r : Rule) (event : Span) (bound : Instant)
    (hf : r.frequency = .monthly) :
    (r.spans event bound).length ≤ event.start.monthsUntil bound := by
  obtain ⟨spans, hw, he⟩ := r.exists_walked event bound
  rw [he]
  refine Nat.le_trans (length_takeRoom_le _ _) ?_
  simp only [Walked, hf] at hw
  split at hw
  · next hd => cases hd
  · next hd _ => cases hd
  · rw [Instant.monthsUntil]
    split
    · next hb =>
      -- the bound has come at the first place
      have hstop := fun k day => show monthlyStep k day r.stride bound event ⟨0, event.start⟩ = .stop by
        rw [monthlyStep, if_pos hb]
      cases hw <;> simp_all
    · exact hw.length_le (monthlyStep_lowers r.one_le_stride) (counts_zero event)
  · rw [hw]
    exact Nat.zero_le _

/-- How many occurrences a rule may have up to a bound. -/
structure Bounded (r : Rule) (event : Span) (bound : Instant) (slots : List Slot) : Prop where
  /-- One on each day until the bound, and one more. -/
  daily : r.frequency = .daily → slots.length ≤ event.start.daysUntil bound + 1
  /-- One on each day until the bound. -/
  weekly : r.frequency = .weekly → slots.length ≤ event.start.daysUntil bound
  /-- One in each month until the bound. -/
  monthly : r.frequency = .monthly → slots.length ≤ event.start.monthsUntil bound

theorem bounded_spans (r : Rule) (he : event.Steady) (bound : Instant) :
    r.Bounded event bound ((r.spans event bound).map fun span => ⟨r.eventId, span⟩) := by
  refine ⟨fun hf => ?_, fun hf => ?_, fun hf => ?_⟩
  · have ha := r.ascends_spans_of_ne_monthly he bound (by simp [hf])
    rw [List.length_map]
    rcases length_le_daysUntil he ha with hl | hl <;> omega
  · have ha := r.ascends_spans_of_ne_monthly he bound (by simp [hf])
    rw [List.length_map]
    exact (length_le_daysUntil he ha).resolve_right fun hl => by simp [hf] at hl
  · rw [List.length_map]
    exact r.length_le_monthsUntil event bound hf

/-- Whatever the rule, the event and the bound, the walk of the rule is over after some steps, fewer
than the limit, and nothing that it visits is left out but what the rule does not count.  An
event that neither begins nor ends in a leap second occurs no more often than there are days or
months until the bound. -/
theorem expand_finite (r : Rule) (event : Span) (asked : Option Instant) (now : Instant)
    (horizon : Delta) :
    (∃ spans, r.Walked event (r.bound asked now horizon) walkLimit spans ∧
      r.spans event (r.bound asked now horizon) = takeRoom r.room spans) ∧
    (event.start.isLeapSecond = false → event.finish.isLeapSecond = false →
      r.Bounded event (r.bound asked now horizon) (r.expand event asked now horizon)) := by
  refine ⟨r.exists_walked event _, fun hs hf => ?_⟩
  rw [expand]
  split
  · exact ⟨fun _ => Nat.zero_le _, fun _ => Nat.zero_le _, fun _ => Nat.zero_le _⟩
  · exact r.bounded_spans ⟨hs, hf⟩ _

/-- Mondays and Fridays, without an end and with an interval of no weeks. -/
def mondaysFridays : Rule :=
  { default with
    frequency := .weekly
    byDay := some (.plain [.monday, .friday])
    interval := 0 }

/-- The review takes place three times in the first eight days of the year. -/
theorem review_expand_finite :
    let bound : Instant := ⟨1704758400, 0, by decide⟩
    let slots := mondaysFridays.expand review (some bound) review.start .zero
    review.start.isLeapSecond = false ∧ review.finish.isLeapSecond = false ∧ slots.length = 3 ∧
      review.start.daysUntil bound = 8 ∧ slots.length ≤ review.start.daysUntil bound := by
  refine ⟨rfl, rfl, by decide, by decide, ?_⟩
  exact ((expand_finite mondaysFridays review _ review.start .zero).2 rfl rfl).weekly rfl

end Rule

end Almanac
