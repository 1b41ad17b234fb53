import Almanac.Proofs.Recurrence.Finite
import Almanac.Proofs.Time.Weekdays

/-!
Which months a monthly rule visits.  The walk moves the event into one month after the other, on its
own day of the month or the last day of a shorter month, and goes on as long as the event so moved
begins before the bound.  It does not ask whether the weekday that it looks for is before the bound.

               weekday   event   bound
    January    1st       10th            visited
    February   5th       10th    7th     not visited, although the fifth is before the bound

Besides that a walk loses a month only at the ends of the time line (`Kept`).  Where it goes on, it
visits the event moved to the weekday of the month (`monthSpan?`).
-/

namespace Almanac

namespace Instant

variable {t u : Instant} {m : Int}

/-- Moments that lie whole days apart have the same times on a day. -/
theorem Later.onDay?_eq (h : Later m t u) (d : Int) : u.onDay? d = t.onDay? d := by
  rw [onDay?, onDay?, h.clock_eq, h.nano]

theorem leapCorrection_eq_zero (ht : t.isLeapSecond = false) (hu : u.isLeapSecond = false) :
    leapCorrection t u = 0 := by
  rw [leapCorrection, if_neg (by simp [hu]), if_neg (by simp [ht])]

/-- Where there is no leap second, lengths of time are added in either order. -/
theorem add?_since_comm {a b c : Instant} (ha : a.isLeapSecond = false)
    (hb : b.isLeapSecond = false) (hc : c.isLeapSecond = false) :
    a.add? (b.since c) = b.add? (a.since c) := by
  ext u
  rw [add?_eq_some ha, add?_eq_some hb, since, since]
  dsimp only
  rw [leapCorrection_eq_zero ha hc, leapCorrection_eq_zero hb hc, nanosPerSecond]
  refine and_congr_right fun _ => ?_
  omega

end Instant

namespace Rule

variable {event : Span} {n : Int8} {day : Weekday} {stride : Nat} {bound : Instant} {k : Nat}

/-! ### The weekday of a month -/

/-- The `n`-th weekday of the month of a moment, at its time of day.  From the end it is looked for
only if the next month begins on the time line. -/
theorem occurrence?_eq (hn : n ≠ 0) (h5 : n.toInt.natAbs ≤ 5) (t : Instant) : occurrence? n day t =
    if n < 0 ∧ lastSecond < 86400 * Date.firstDay (t.monthNumber + 1) then none
    else (Date.nthDay? day t.monthNumber n.toInt).bind t.onDay? := by
  have h0 : n.toInt ≠ 0 := fun h => hn (Int8.toInt_inj.1 h)
  rw [occurrence?]
  by_cases hneg : n < 0
  · have hlt : n.toInt < 0 := Int8.lt_iff_toInt_lt.1 hneg
    obtain ⟨m, hm⟩ := Int.eq_negSucc_of_lt_zero hlt
    rw [hm] at h5 ⊢
    rw [if_pos hneg, Int.natAbs_negSucc, Instant.nthLastWeekday?_eq t day h5]
    simp only [hneg, true_and]
    rfl
  · have hle : 0 ≤ n.toInt := Int.not_lt.1 fun h => hneg (Int8.lt_iff_toInt_lt.2 h)
    obtain ⟨m, hm⟩ : ∃ m : Nat, n.toInt = (m + 1 : Nat) := ⟨n.toInt.toNat - 1, by omega⟩
    rw [if_neg hneg, if_neg (fun h => hneg h.1), hm, Int.natAbs_natCast, Instant.nthWeekday?_eq]
    rfl

/-! ### The course of a monthly walk -/

/-- The event moved to the weekday of a month, so many strides after its own. -/
def monthSpan? (event : Span) (n : Int8) (day : Weekday) (stride k : Nat) : Option Span :=
  (event.start.addMonths? (k * stride : Nat)).bind fun anchor =>
    (occurrence? n day anchor).bind event.moveTo?

/-- A walk goes on in a month if the event moved there begins before the bound, and the weekday of
the month, if there is one, does not take it to the bound or off the time line. -/
def ReachesMonth (event : Span) (n : Int8) (day : Weekday) (stride : Nat) (bound : Instant)
    (k : Nat) : Prop :=
  ∃ anchor, event.start.addMonths? (k * stride : Nat) = some anchor ∧ anchor < bound ∧
    ∀ start ∈ occurrence? n day anchor, ∃ span ∈ event.moveTo? start, span.Before bound

/-- The place of a monthly walk that comes to a month. -/
def AtMonth (event : Span) (stride k : Nat) (place : MonthlyPlace) : Prop :=
  place.months = k * stride ∧ event.start.addMonths? (k * stride : Nat) = some place.anchor

theorem not_reachesMonth_of_eq_none (h : event.start.addMonths? (k * stride : Nat) = none) :
    ¬ ReachesMonth event n day stride bound k := by
  rintro ⟨anchor, ha, -⟩
  rw [h] at ha
  cases ha

/-- A monthly walk comes to the months one after the other. -/
theorem monthlyStep_follows {place : MonthlyPlace} (h : AtMonth event stride k place) :
    (monthlyStep n day stride bound event place).Follows (ReachesMonth event n day stride bound)
      (monthSpan? event n day stride) (AtMonth event stride) k := by
  obtain ⟨hmonths, hanchor⟩ := h
  have hitem : monthSpan? event n day stride k
      = (occurrence? n day place.anchor).bind event.moveTo? := by
    rw [monthSpan?, hanchor, Option.bind_some]
  have hnext : place.months + stride = (k + 1) * stride := by rw [hmonths, Nat.succ_mul]
  rw [monthlyStep]
  split
  · next hb =>
    refine .stop ?_
    rintro ⟨anchor, ha, hlt, -⟩
    rw [hanchor] at ha
    cases ha
    exact Instant.not_le_iff.2 hlt hb
  next hb =>
  rw [Instant.not_le_iff] at hb
  dsimp only
  rw [map_monthsAfter, hnext]
  have hat : ∀ next ∈ (event.start.addMonths? ((k + 1) * stride : Nat)).map
      (fun anchor => (⟨(k + 1) * stride, anchor⟩ : MonthlyPlace)),
      AtMonth event stride (k + 1) next := by
    intro next hn
    obtain ⟨anchor, ha, rfl⟩ := Option.map_eq_some_iff.1 hn
    exact ⟨rfl, ha⟩
  split
  · next hnone =>
    -- the month has no such weekday
    have hreaches : ReachesMonth event n day stride bound k :=
      ⟨_, hanchor, hb, by simp [hnone]⟩
    rw [hnone, Option.bind_none] at hitem
    split
    · next next hn => exact .skip hreaches hitem (hat next hn)
    · next hn =>
      exact .quit hreaches hitem (not_reachesMonth_of_eq_none (Option.map_eq_none_iff.1 hn))
  · next start hstart =>
    rw [hstart, Option.bind_some] at hitem
    have hgoes : ReachesMonth event n day stride bound k ↔
        ∃ span ∈ event.moveTo? start, span.Before bound := by
      refine ⟨?_, fun hmoves => ⟨_, hanchor, hb, ?_⟩⟩
      · rintro ⟨anchor, ha, -, hmoves⟩
        rw [hanchor] at ha
        cases ha
        exact hmoves start hstart
      · intro other hother
        rw [hstart] at hother
        cases hother
        exact hmoves
    split
    · next hnone =>
      rw [hnone] at hgoes
      exact .stop (mt hgoes.1 (by simp))
    · next span hspan =>
      rw [hspan] at hgoes
      exact .of_item (hitem.trans hspan) (hgoes.trans (by simp)) hat fun hn =>
        not_reachesMonth_of_eq_none (Option.map_eq_none_iff.1 hn)

theorem atMonth_zero (event : Span) (stride : Nat) : AtMonth event stride 0 ⟨0, event.start⟩ := by
  refine ⟨(Nat.zero_mul stride).symm, ?_⟩
  rw [Nat.zero_mul, Nat.cast_zero, Instant.addMonths?_zero]

/-- The spans of a monthly rule without a count are the weekdays of the months, as long as the walk
goes on. -/
theorem listed_spans (r : Rule) {rest : List Weekday} (hf : r.frequency = .monthly)
    (hd : r.byDay = some (.ordinal n day rest)) (hc : r.count = none) (event : Span)
    (bound : Instant) : Listed (ReachesMonth event n day r.stride bound)
      (monthSpan? event n day r.stride) 0 (r.spans event bound) := by
  obtain ⟨spans, hw⟩ := exists_walks_monthly r.one_le_stride n day bound event
  have hspans : r.spans event bound = spans := by
    simp only [Rule.spans, hf, hd, room, hc, Option.map_none]
    exact hw.collect_none (Nat.le_refl _)
  rw [hspans]
  exact hw.listed monthlyStep_follows (atMonth_zero event r.stride)

/-! ### The months that are visited -/

/-- The number of a month, so many strides after that of the event. -/
def month (event : Span) (stride k : Nat) : Int := event.start.monthNumber + (k * stride : Nat)

/-- What a walk asks of a month, besides that the event moved to its weekday is before the bound. -/
structure Kept (event : Span) (n : Int8) (day : Weekday) (stride : Nat) (bound : Instant)
    (k : Nat) : Prop where
  /-- The event moved into the month on its own day, or the last one of a shorter month, begins
  before the bound. -/
  anchor : ∃ anchor ∈ event.start.addMonths? (k * stride : Nat), anchor < bound
  /-- From the end weekdays are counted only if the next month begins on the time line. -/
  next : n < 0 → 86400 * Date.firstDay (month event stride k + 1) ≤ lastSecond
  /-- The weekday of the first month, if there is one, has not taken the event off the time line. -/
  first : k ≠ 0 → ∀ first ∈ occurrence? n day event.start, (event.moveTo? first).isSome

section
variable (hn : n ≠ 0) (h5 : n.toInt.natAbs ≤ 5)
include hn h5

/-- What is found in a month is in it, some days after the event. -/
theorem later_of_occurrence? {anchor start : Instant}
    (ha : event.start.addMonths? (k * stride : Nat) = some anchor)
    (h : occurrence? n day anchor = some start) :
    start.monthNumber = month event stride k ∧
      Instant.Later (start.day - event.start.day) event.start start := by
  obtain ⟨hmonth, hlater⟩ := Instant.monthNumber_of_addMonths? ha
  rw [occurrence?_eq hn h5] at h
  split at h
  · cases h
  obtain ⟨d, hd, hs⟩ := Option.bind_eq_some_iff.1 h
  rw [hlater.onDay?_eq] at hs
  have hl := Instant.onDay?_eq_some.1 hs
  have hday : start.day = d := hl.day_of_sub
  have hb := Date.bounds_of_nthDay? hd
  rw [hmonth, ← hday] at hb
  rw [← hday] at hl
  exact ⟨Instant.monthNumber_eq hb.1 hb.2, hl⟩

/-- The event moved to what is found, if it stays on the time line. -/
theorem moveTo?_eq_some_iff {anchor start : Instant} {span : Span}
    (ha : event.start.addMonths? (k * stride : Nat) = some anchor)
    (h : occurrence? n day anchor = some start) : event.moveTo? start = some span ↔
      span.start = start ∧
        event.finish.addDays? (start.day - event.start.day) = some span.finish := by
  have hl := (later_of_occurrence? hn h5 ha h).2
  rw [Span.moveTo?, hl.add?_since, Option.map_eq_some_iff]
  constructor
  · rintro ⟨finish, hf, rfl⟩
    exact ⟨rfl, hf⟩
  · rintro ⟨rfl, hf⟩
    exact ⟨_, hf, rfl⟩

/-- In an earlier month the event moved to the weekday begins and ends earlier.  It is on the time
line there, but the first month has to promise that, since the event may be moved back in it. -/
theorem exists_moveTo? {anchor later start : Instant} {i : Nat} {span : Span} (hs : 1 ≤ stride)
    (hi : i < k) (ha : event.start.addMonths? (i * stride : Nat) = some anchor)
    (hstart : occurrence? n day anchor = some start)
    (hfirst : i = 0 → (event.moveTo? start).isSome)
    (hla : event.start.addMonths? (k * stride : Nat) = some later)
    (hspan : (occurrence? n day later).bind event.moveTo? = some span) :
    ∃ other ∈ event.moveTo? start, other.start < span.start ∧ other.finish < span.finish := by
  obtain ⟨last, hlast, hmove⟩ := Option.bind_eq_some_iff.1 hspan
  obtain ⟨hmonth, -⟩ := later_of_occurrence? hn h5 ha hstart
  obtain ⟨hlmonth, -⟩ := later_of_occurrence? hn h5 hla hlast
  obtain ⟨rfl, hfinish⟩ := (moveTo?_eq_some_iff hn h5 hla hlast).1 hmove
  have hmul : i * stride < k * stride := Nat.mul_lt_mul_of_pos_right hi hs
  have hday : start.day < span.start.day := by
    refine Instant.day_lt_of_monthNumber_lt ?_
    rw [hmonth, hlmonth, month, month]
    omega
  have hsome : ∃ finish, event.finish.addDays? (start.day - event.start.day) = some finish := by
    rcases Nat.eq_zero_or_pos i with h0 | hpos
    · obtain ⟨other, ho⟩ := Option.isSome_iff_exists.1 (hfirst h0)
      exact ⟨_, ((moveTo?_eq_some_iff hn h5 ha hstart).1 ho).2⟩
    · -- a later month than that of the event, so that the days go forward
      have hfront : event.start.day < start.day := by
        refine Instant.day_lt_of_monthNumber_lt ?_
        have := Nat.mul_pos hpos hs
        rw [hmonth, month]
        omega
      obtain ⟨m, hm⟩ := Int.eq_ofNat_of_zero_le (show 0 ≤ start.day - event.start.day by omega)
      obtain ⟨q, hq⟩ := Int.eq_ofNat_of_zero_le (show 0 ≤ span.start.day - event.start.day by omega)
      rw [hq] at hfinish
      rw [hm]
      obtain ⟨finish, hf, -⟩ := Instant.addDays?_of_le hfinish (show m ≤ q by omega)
      exact ⟨finish, hf⟩
  obtain ⟨finish, hf⟩ := hsome
  refine ⟨⟨start, finish⟩, (moveTo?_eq_some_iff hn h5 ha hstart).2 ⟨rfl, hf⟩,
    Instant.lt_of_day_lt hday, Instant.addDays?_lt_of_lt hf hfinish ?_⟩
  omega

/-- A walk goes on in every month before one that is kept. -/
theorem reachesMonth_of_kept (hs : 1 ≤ stride) {span : Span}
    (hspan : monthSpan? event n day stride k = some span) (hb : span.Before bound)
    (hk : Kept event n day stride bound k) {i : Nat} (hi : i ≤ k) :
    ReachesMonth event n day stride bound i := by
  obtain ⟨later, hla, hlb⟩ := hk.anchor
  rw [monthSpan?, hla, Option.bind_some] at hspan
  rcases Nat.lt_or_eq_of_le hi with hlt | rfl
  · have hmul : i * stride < k * stride := Nat.mul_lt_mul_of_pos_right hlt hs
    have hlm := (Instant.monthNumber_of_addMonths? hla).1
    obtain ⟨anchor, ha⟩ := Instant.exists_addMonths? event.start (u := event.start) (v := later)
      (n := (i * stride : Nat)) (by omega) (by omega)
    have ham := (Instant.monthNumber_of_addMonths? ha).1
    have hlt' : anchor < later :=
      Instant.lt_of_day_lt (Instant.day_lt_of_monthNumber_lt (by omega))
    refine ⟨anchor, ha, Instant.lt_trans hlt' hlb, fun start hstart => ?_⟩
    have hfirst : i = 0 → (event.moveTo? start).isSome := by
      rintro rfl
      rw [Nat.zero_mul, Nat.cast_zero, Instant.addMonths?_zero] at ha
      cases ha
      exact hk.first (by omega) start hstart
    obtain ⟨other, ho, hos, hof⟩ := exists_moveTo? hn h5 hs hlt ha hstart hfirst hla hspan
    exact ⟨other, ho, Instant.lt_trans hos hb.1, Instant.lt_trans hof hb.2⟩
  · refine ⟨later, hla, hlb, fun start hstart => ⟨span, ?_, hb⟩⟩
    rwa [hstart] at hspan

/-- The weekday of the month is found, unless it is counted from the end and the month is the last
one. -/
theorem monthSpan?_eq_some {d : Int} {s e anchor : Instant}
    (ha : event.start.addMonths? (k * stride : Nat) = some anchor)
    (hnext : n < 0 → 86400 * Date.firstDay (month event stride k + 1) ≤ lastSecond)
    (hday : Date.nthDay? day (month event stride k) n.toInt = some d)
    (hs : event.start.onDay? d = some s) (he : event.finish.add? (s.since event.start) = some e) :
    monthSpan? event n day stride k = some ⟨s, e⟩ := by
  obtain ⟨hmonth, hlater⟩ := Instant.monthNumber_of_addMonths? ha
  rw [← month] at hmonth
  have hfound : occurrence? n day anchor = some s := by
    rw [occurrence?_eq hn h5, hmonth, if_neg fun h => Int.not_lt.2 (hnext h.1) h.2, hday,
      Option.bind_some, hlater.onDay?_eq, hs]
  rw [monthSpan?, ha, Option.bind_some, hfound, Option.bind_some, Span.moveTo?, he]
  rfl

/-- What a walk visits in the months up to some month makes it a month that is kept. -/
theorem kept_of_reachesMonth {span : Span}
    (hreach : ∀ i, i ≤ k → ReachesMonth event n day stride bound i)
    (hspan : monthSpan? event n day stride k = some span) : Kept event n day stride bound k := by
  obtain ⟨anchor, ha, hlt, -⟩ := hreach k (Nat.le_refl k)
  refine ⟨⟨anchor, ha, hlt⟩, fun hneg => ?_, fun hk first hfirst => ?_⟩
  · have hmonth := (Instant.monthNumber_of_addMonths? ha).1
    rw [monthSpan?, ha, Option.bind_some, occurrence?_eq hn h5, hmonth, ← month] at hspan
    by_contra hlast
    rw [if_pos ⟨hneg, Int.not_le.1 hlast⟩] at hspan
    cases hspan
  · obtain ⟨start, hstart, -, hmoves⟩ := hreach 0 (Nat.zero_le k)
    rw [Nat.zero_mul, Nat.cast_zero, Instant.addMonths?_zero] at hstart
    cases hstart
    obtain ⟨other, hother, -⟩ := hmoves first hfirst
    exact Option.isSome_of_mem hother

/-- A span before the bound that lies on the weekday of a month is visited if the month is kept. -/
theorem mem_spans_iff (r : Rule) {rest : List Weekday} (hf : r.frequency = .monthly)
    (hd : r.byDay = some (.ordinal n day rest)) (hc : r.count = none)
    {d : Int} {s e : Instant}
    (hday : Date.nthDay? day (month event r.stride k) n.toInt = some d)
    (hs : event.start.onDay? d = some s) (he : event.finish.add? (s.since event.start) = some e)
    (hb : Span.Before bound ⟨s, e⟩) :
    ⟨s, e⟩ ∈ r.spans event bound ↔ Kept event n day r.stride bound k := by
  rw [(r.listed_spans hf hd hc event bound).mem_iff]
  constructor
  · rintro ⟨j, hreach, hj⟩
    -- the walk finds a moment in the month where it lies, and in no other
    have hsame : j = k := by
      obtain ⟨anchor, ha, hspan⟩ := Option.bind_eq_some_iff.1 hj
      obtain ⟨start, hstart, hmove⟩ := Option.bind_eq_some_iff.1 hspan
      obtain rfl : s = start := Span.start_of_moveTo? hmove
      have hfound := (later_of_occurrence? hn h5 ha hstart).1
      have hsday : s.day = d := (Instant.onDay?_eq_some.1 hs).day_of_sub
      have hbounds := Date.bounds_of_nthDay? hday
      rw [← hsday] at hbounds
      have hlies := Instant.monthNumber_eq hbounds.1 hbounds.2
      rw [hfound, month, month] at hlies
      exact Nat.eq_of_mul_eq_mul_right r.one_le_stride (by omega)
    rw [hsame] at hreach hj
    exact kept_of_reachesMonth hn h5 hreach hj
  · intro hk
    obtain ⟨anchor, ha, -⟩ := hk.anchor
    have hspan := monthSpan?_eq_some hn h5 ha hk.next hday hs he
    exact ⟨k, fun i hi => reachesMonth_of_kept hn h5 r.one_le_stride hspan hb hk hi, hspan⟩

end

/-! ### Occurrences that are kept -/

/-- Under a monthly rule without a count, a span on the weekday of a month that begins and ends
before the bound is an occurrence just in case the event moved into that month on its own day
begins before the bound too; at the ends of the time line there is more to it (`Kept`).  The span
ends as long after its beginning as the event, if the event does not end in a leap second. -/
theorem expand_monthly (r : Rule) {n : Int8} {day : Weekday} {rest : List Weekday}
    (hf : r.frequency = .monthly) (hd : r.byDay = some (.ordinal n day rest)) (hn : n ≠ 0)
    (h5 : n.toInt.natAbs ≤ 5) (hc : r.count = none) (event : Span) (hu : event.start ≠ .epoch)
    (hl : event.start.isLeapSecond = false) (asked : Option Instant) (now : Instant)
    (horizon : Delta) (k : Nat) {d : Int} {s e : Instant}
    (hday : Date.nthDay? day (month event r.stride k) n.toInt = some d)
    (hs : event.start.onDay? d = some s) (he : event.finish.add? (s.since event.start) = some e)
    (hb : Span.Before (r.bound asked now horizon) ⟨s, e⟩) :
    (⟨r.eventId, ⟨s, e⟩⟩ ∈ r.expand event asked now horizon ↔
      Kept event n day r.stride (r.bound asked now horizon) k) ∧
    (event.finish.isLeapSecond = false → s.add? (event.finish.since event.start) = some e) := by
  have hunset : event.start.isUnset = false := by simpa [Instant.isUnset] using hu
  constructor
  · rw [expand, hunset, if_neg Bool.false_ne_true,
      ← mem_spans_iff hn h5 r hf hd hc hday hs he hb, List.mem_map]
    constructor
    · rintro ⟨span, hm, hslot⟩
      cases hslot
      exact hm
    · exact fun hm => ⟨_, hm, rfl⟩
  · intro hfinish
    have hsl := (Instant.onDay?_eq_some.1 hs).isLeapSecond_eq.trans hl
    rw [← he, Instant.add?_since_comm hsl hfinish hl]

/-- The first Monday of every month. -/
def firstMondays : Rule :=
  { default with
    frequency := .monthly
    byDay := some (.ordinal 1 .monday []) }

/-- An hour of the morning of 10 January 2024. -/
def tenth : Span := ⟨⟨1704877200, 0, by decide⟩, ⟨1704880800, 0, by decide⟩⟩

/-- Until noon of 10 February the first Monday of February is kept, which is the fifth. -/
theorem tenth_expand_monthly :
    let bound : Instant := ⟨1707566400, 0, by decide⟩
    let s : Instant := ⟨1707123600, 0, by decide⟩
    let e : Instant := ⟨1707127200, 0, by decide⟩
    tenth.start ≠ .epoch ∧ tenth.start.isLeapSecond = false ∧
      Date.nthDay? .monday (month tenth firstMondays.stride 1) 1 = some 19758 ∧
      tenth.start.onDay? 19758 = some s ∧ tenth.finish.add? (s.since tenth.start) = some e ∧
      Span.Before bound ⟨s, e⟩ ∧
      ⟨"", ⟨s, e⟩⟩ ∈ firstMondays.expand tenth (some bound) tenth.start .zero ∧
      Kept tenth 1 .monday firstMondays.stride bound 1 ∧
      s.add? (tenth.finish.since tenth.start) = some e := by
  intro bound s e
  have hday : Date.nthDay? .monday (month tenth firstMondays.stride 1) 1 = some 19758 := by decide
  have hs : tenth.start.onDay? 19758 = some s := by decide
  have he : tenth.finish.add? (s.since tenth.start) = some e := by decide
  have hb : Span.Before bound ⟨s, e⟩ := ⟨by decide, by decide⟩
  have hm : ⟨"", ⟨s, e⟩⟩ ∈ firstMondays.expand tenth (some bound) tenth.start .zero := by decide
  obtain ⟨hkept, hlength⟩ := expand_monthly firstMondays rfl rfl (by decide) (by decide) rfl tenth
    (by decide) rfl (some bound) tenth.start .zero 1 hday hs he hb
  exact ⟨by decide, rfl, hday, hs, he, hb, hm, hkept.1 hm, hlength rfl⟩

/-- Until 7 February it is lost, since the tenth is not before the bound, although the fifth is. -/
theorem not_mem_expand_of_late_day :
    let bound : Instant := ⟨1707264000, 0, by decide⟩
    let s : Instant := ⟨1707123600, 0, by decide⟩
    let e : Instant := ⟨1707127200, 0, by decide⟩
    Date.nthDay? .monday (month tenth firstMondays.stride 1) 1 = some 19758 ∧
      tenth.start.onDay? 19758 = some s ∧ s.add? (tenth.finish.since tenth.start) = some e ∧
      Span.Before bound ⟨s, e⟩ ∧
      ⟨"", ⟨s, e⟩⟩ ∉ firstMondays.expand tenth (some bound) tenth.start .zero :=
  ⟨by decide, by decide, by decide, ⟨by decide, by decide⟩, by decide⟩

end Rule

end Almanac
