import Almanac.Time.Shift
import Almanac.Proofs.Time.Date

/-!
Moments that lie whole days apart.  They have the same time of day, and for moments that are in no
leap second the steps on the calendar and the lengths of time between them come down to counting
days (`Later`).

    t ──addDays? n──▶ u        Later n t u
    │                 │
    └─── u.since t ───┘        n days exactly
-/

namespace Almanac

namespace Instant

/-- The second moment lies a number of days after the first, or before it for a negative number. -/
structure Later (n : Int) (t u : Instant) : Prop where
  /-- Every day has 86400 seconds. -/
  second : u.second = t.second + 86400 * n
  /-- The fraction of the second is the same. -/
  nano : u.nano = t.nano

variable {t u v : Instant} {m n : Int}

theorem later_zero (t : Instant) : Later 0 t t := ⟨by omega, rfl⟩

theorem Later.trans (h : Later m t u) (hs : Later n u v) : Later (m + n) t v := by
  obtain ⟨h, hn⟩ := h
  obtain ⟨hs, hm⟩ := hs
  exact ⟨by omega, hm.trans hn⟩

theorem Later.clock_eq (h : Later n t u) : u.clock = t.clock := by
  rw [clock, clock, h.second]
  omega

theorem Later.day_eq (h : Later n t u) : u.day = t.day + n := by
  rw [day, day, h.second]
  omega

/-- A moment that is as many days later as another day is on that day. -/
theorem Later.day_of_sub {d : Int} (h : Later (d - t.day) t u) : u.day = d := by
  rw [h.day_eq]
  omega

theorem Later.isLeapSecond_eq (h : Later n t u) : u.isLeapSecond = t.isLeapSecond := by
  rw [isLeapSecond, isLeapSecond, h.nano]

theorem lt_iff {a b : Instant} :
    a < b ↔ a.second < b.second ∨ a.second = b.second ∧ a.nano < b.nano := by
  show a.before b = true ↔ _
  simp [before]

/-- Fewer days are earlier. -/
theorem Later.lt_iff_lt (h : Later m t u) (hs : Later n t v) : u < v ↔ m < n := by
  rw [lt_iff, h.second, h.nano, hs.second, hs.nano]
  omega

theorem not_le_iff {a b : Instant} : ¬ b ≤ a ↔ a < b := by
  show ¬ a.before b = false ↔ a.before b = true
  simp

theorem le_trans {a b c : Instant} (h : a ≤ b) (hs : b ≤ c) : a ≤ c := by
  by_contra hc
  have hab : ¬ b < a := fun hlt => not_le_iff.2 hlt h
  have hbc : ¬ c < b := fun hlt => not_le_iff.2 hlt hs
  rw [not_le_iff, lt_iff] at hc
  rw [lt_iff] at hab hbc
  omega

/-! ### Lengths of time -/

theorem settle?_eq_some {second nanos : Int} : settle? second nanos = some u ↔
    u.second = second + nanos / nanosPerSecond ∧ u.nano = (nanos % nanosPerSecond).toNat :=
  ofParts?_eq_some

theorem nano_lt_of_not_leap (h : t.isLeapSecond = false) : t.nano < 1000000000 := by
  simpa [isLeapSecond] using h

/-- Adding a length of time to a moment in no leap second adds nanoseconds. -/
theorem add?_eq_some (h : t.isLeapSecond = false) {d : Delta} : t.add? d = some u ↔
    u.isLeapSecond = false ∧ nanosPerSecond * u.second + u.nano
      = nanosPerSecond * t.second + t.nano + d.nanos := by
  have ht := nano_lt_of_not_leap h
  rw [add?, h, if_neg Bool.false_ne_true, settle?_eq_some]
  simp only [isLeapSecond, decide_eq_false_iff_not, nanosPerSecond]
  omega

/-- The length of time between two moments that lie whole days apart. -/
theorem Later.since_nanos (h : Later n t u) : (u.since t).nanos = n * 86400 * nanosPerSecond := by
  have hc : leapCorrection u t = 0 := by
    rw [leapCorrection, h.clock_eq, if_neg (fun hc => absurd hc.1 (Int.lt_irrefl _)),
      if_neg (fun hc => absurd hc.1 (Int.lt_irrefl _))]
  rw [since]
  dsimp only
  rw [hc, h.second, h.nano, nanosPerSecond]
  omega

/-- The length from one moment to another, added to the first, gives the second. -/
theorem add?_days (h : t.isLeapSecond = false) {d : Delta}
    (hd : d.nanos = n * 86400 * nanosPerSecond) :
    t.add? d = some u ↔ Later n t u := by
  rw [add?_eq_some h, hd]
  have ht := nano_lt_of_not_leap h
  simp only [isLeapSecond, decide_eq_false_iff_not, nanosPerSecond]
  constructor
  · rintro ⟨hu, he⟩
    exact ⟨by omega, by omega⟩
  · rintro ⟨hs, hn⟩
    exact ⟨by omega, by omega⟩

/-! ### Steps on the calendar -/

/-- A number of days later is so, if the moment is on the time line. -/
theorem addDays?_eq_some (h : t.isLeapSecond = false) : t.addDays? n = some u ↔ Later n t u := by
  rw [addDays?, Option.bind_eq_some_iff]
  constructor
  · rintro ⟨d, hd, hu⟩
    rw [Delta.ofDays?, Delta.ofSeconds?, Delta.ofNanos?] at hd
    split at hd
    · cases hd
      exact (add?_days h rfl).1 hu
    · cases hd
  · intro hl
    have hb : -9223372036854775807000000 ≤ n * 86400 * nanosPerSecond ∧
        n * 86400 * nanosPerSecond ≤ 9223372036854775807000000 := by
      obtain ⟨h1, h2, -, -⟩ := t.fits
      obtain ⟨h3, h4, -, -⟩ := u.fits
      have hs := hl.second
      simp only [firstSecond, lastSecond, nanosPerSecond] at *
      omega
    refine ⟨⟨n * 86400 * nanosPerSecond, hb.1, hb.2⟩, ?_, ?_⟩
    · rw [Delta.ofDays?, Delta.ofSeconds?, Delta.ofNanos?, dif_pos hb]
    · exact (add?_days h rfl).2 hl

/-- The same time of another day is as many days later as the days are apart. -/
theorem onDay?_eq_some {d : Int} : t.onDay? d = some u ↔ Later (d - t.day) t u := by
  have hd := t.day_mul_add_clock
  rw [onDay?, ofParts?_eq_some]
  constructor
  · rintro ⟨hs, hn⟩
    exact ⟨by omega, hn⟩
  · rintro ⟨hs, hn⟩
    exact ⟨by omega, hn⟩

/-- The next weekday is at most seven days later. -/
theorem later_of_nextWeekday? (h : t.isLeapSecond = false) {w : Weekday} {inclusive : Bool}
    (hu : t.nextWeekday? w inclusive = some u) : ∃ n : Nat, n ≤ 7 ∧ Later n t u := by
  have hw := Weekday.ahead_lt t.weekday w
  rw [nextWeekday?, addDays?_eq_some h] at hu
  split at hu
  · exact ⟨7, Nat.le_refl 7, hu⟩
  · exact ⟨_, by omega, hu⟩

/-! ### Months -/

/-- The number of the month of a moment. -/
def monthNumber (t : Instant) : Int := t.date.monthIndex

theorem valid_date (t : Instant) : t.date.Valid := (Date.ofDayNumber_spec t.day).1

theorem dayNumber_date (t : Instant) : t.date.dayNumber = t.day := (Date.ofDayNumber_spec t.day).2

theorem monthStart_eq (t : Instant) : t.monthStart = Date.firstDay t.monthNumber :=
  t.valid_date.firstDay_monthIndex.symm

theorem monthLength_eq (t : Instant) :
    Date.monthLength t.date.year t.date.month = Date.lengthAt t.monthNumber :=
  t.valid_date.lengthAt_monthIndex.symm

/-- A moment lies in its month. -/
theorem day_bounds (t : Instant) :
    Date.firstDay t.monthNumber ≤ t.day ∧ t.day < Date.firstDay (t.monthNumber + 1) := by
  have hd := t.valid_date.dayNumber_eq
  have hl := t.valid_date.dayNumber_lt
  rw [dayNumber_date] at hd hl
  rw [monthNumber]
  exact ⟨by omega, hl⟩

/-- A number of months later has the month with so much greater a number, and the time of day. -/
theorem monthNumber_of_addMonths? (h : t.addMonths? n = some u) :
    u.monthNumber = t.monthNumber + n ∧ Later (u.day - t.day) t u := by
  obtain ⟨hv, hi⟩ := t.valid_date.addMonths n
  rw [addMonths?, onDay?_eq_some] at h
  have hday : u.day = (t.date.addMonths n).dayNumber := h.day_of_sub
  refine ⟨?_, by rw [hday]; exact h⟩
  rw [monthNumber, date, hday, hv.ofDayNumber_dayNumber, hi]
  rfl

/-- The days of the time line. -/
theorem day_range (t : Instant) : -96465292 ≤ t.day ∧ t.day ≤ 95026236 := by
  obtain ⟨hlow, hhigh, -, -⟩ := t.fits
  simp only [firstSecond, lastSecond] at hlow hhigh
  rw [day]
  omega

/-- So many months are not on the time line. -/
theorem addMonths?_eq_none (t : Instant) (h : 2147483647 ≤ n) : t.addMonths? n = none := by
  rw [Option.eq_none_iff_forall_ne_some]
  intro u hu
  obtain ⟨hm, -⟩ := monthNumber_of_addMonths? hu
  obtain ⟨k, rfl⟩ := Int.eq_ofNat_of_zero_le (show 0 ≤ n by omega)
  have hfar := (Date.firstDay_add t.monthNumber k).1
  have hnext := (Date.firstDay_add t.monthNumber 1).2
  have ht := t.day_bounds
  have hu := u.day_bounds
  have hlow := t.day_range
  have hhigh := u.day_range
  rw [hm] at hu
  rw [Nat.cast_one] at hnext
  omega

/-- The days from the first of a month to its `n`-th given weekday. -/
def weekdayOffset (i : Int) (w : Weekday) (n : Nat) : Nat :=
  (Date.weekdayOf (Date.firstDay i)).ahead w + 7 * (n - 1)

/-- The days from the `n`-th last given weekday to the last of a month. -/
def weekdayBack (i : Int) (w : Weekday) (n : Nat) : Nat :=
  w.ahead (Date.weekdayOf (Date.firstDay (i + 1) - 1)) + 7 * (n - 1)

theorem nthWeekday?_eq_some {w : Weekday} {k : Nat} : t.nthWeekday? w k = some u ↔
    (k ≠ 0 ∧ weekdayOffset t.monthNumber w k < Date.lengthAt t.monthNumber) ∧
      Later (Date.firstDay t.monthNumber + weekdayOffset t.monthNumber w k - t.day) t u := by
  rw [nthWeekday?, monthStart_eq, monthLength_eq, weekdayOffset]
  split
  · next h =>
    constructor
    · intro hu
      cases hu
    · rintro ⟨⟨hk, hlt⟩, -⟩
      omega
  · next h =>
    rw [onDay?_eq_some]
    constructor
    · exact fun hu => ⟨by omega, hu⟩
    · exact fun hu => hu.2

/-- The day found may lie in an earlier year, if only its month has the same name. -/
theorem later_of_nthLastWeekday? {w : Weekday} {k : Nat} (h : t.nthLastWeekday? w k = some u) :
    Later (Date.firstDay (t.monthNumber + 1) - 1 - weekdayBack t.monthNumber w k - t.day) t u := by
  rw [nthLastWeekday?, monthStart_eq, monthLength_eq, ← Date.firstDay_succ] at h
  split at h
  · cases h
  · exact onDay?_eq_some.1 h

theorem weekdayBack_bounds (i : Int) (w : Weekday) (n : Nat) :
    7 * (n - 1) ≤ weekdayBack i w n ∧ weekdayBack i w n ≤ 7 * (n - 1) + 6 := by
  have hw := Weekday.ahead_lt w (Date.weekdayOf (Date.firstDay (i + 1) - 1))
  rw [weekdayBack]
  omega

end Instant

end Almanac
