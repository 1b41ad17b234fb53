import Almanac.Proofs.Time.Shift

/-!
The months of the time line.  It begins with the first day of a month and ends with the last day of
one, so that each day of a month between those of two moments is on the time line
(`exists_onDay?`).  A later month has later moments.
-/

namespace Almanac

/-- A date stays where it is. -/
theorem Date.Valid.addMonths_zero {d : Date} (h : d.Valid) : d.addMonths 0 = d := by
  have he : d.addMonths 0 = ⟨(d.monthIndex + 0) / 12, ((d.monthIndex + 0) % 12).toNat + 1,
      min d.day (monthLength ((d.monthIndex + 0) / 12) (((d.monthIndex + 0) % 12).toNat + 1))⟩ := rfl
  rw [he, Int.add_zero, h.monthIndex_div, h.monthIndex_mod, Nat.min_eq_left h.2.2.2]

namespace Instant

variable {t u v : Instant}

/-- The months of the time line, from January of year -262143 to December of year 262142. -/
theorem monthNumber_range (t : Instant) :
    -3145716 ≤ t.monthNumber ∧ t.monthNumber ≤ 3145715 := by
  obtain ⟨hlow, hhigh⟩ := t.day_bounds
  have hr := t.day_range
  have hfirst : Date.firstDay (-3145716) = -96465292 := by decide
  have hlast : Date.firstDay 3145716 = 95026237 := by decide
  constructor
  · by_contra hm
    have hmono := Date.firstDay_mono (show t.monthNumber + 1 ≤ -3145716 by omega)
    omega
  · by_contra hm
    have hmono := Date.firstDay_mono (show 3145716 ≤ t.monthNumber by omega)
    omega

/-- A later month has later days. -/
theorem day_lt_of_monthNumber_lt (h : t.monthNumber < u.monthNumber) : t.day < u.day := by
  have ht := t.day_bounds
  have hu := u.day_bounds
  have hm : Date.firstDay (t.monthNumber + 1) ≤ Date.firstDay u.monthNumber := Date.firstDay_mono h
  omega

theorem second_lt_of_day_lt (h : t.day < u.day) : t.second < u.second := by
  rw [day, day] at h
  omega

theorem lt_of_day_lt (h : t.day < u.day) : t < u :=
  lt_iff.2 (.inl (second_lt_of_day_lt h))

theorem monthNumber_le_of_lt (h : t < u) : t.monthNumber ≤ u.monthNumber := by
  by_contra hm
  have hs := second_lt_of_day_lt (day_lt_of_monthNumber_lt (Int.not_le.1 hm))
  rw [lt_iff] at h
  omega

/-! ### Days of a month -/

/-- A day is in the month between whose first day and that of the next month it lies. -/
theorem monthIndex_ofDayNumber {i d : Int} (h : Date.firstDay i ≤ d)
    (hd : d < Date.firstDay (i + 1)) : (Date.ofDayNumber d).monthIndex = i := by
  obtain ⟨hv, he⟩ := Date.ofDayNumber_spec d
  have hlow := hv.dayNumber_eq
  have hhigh := hv.dayNumber_lt
  rw [he] at hlow hhigh
  by_contra hne
  rcases Int.lt_or_gt_of_ne hne with hlt | hgt
  · have hm : Date.firstDay ((Date.ofDayNumber d).monthIndex + 1) ≤ Date.firstDay i :=
      Date.firstDay_mono hlt
    omega
  · have hm : Date.firstDay (i + 1) ≤ Date.firstDay (Date.ofDayNumber d).monthIndex :=
      Date.firstDay_mono hgt
    omega

theorem monthNumber_eq {i : Int} (h : Date.firstDay i ≤ t.day)
    (hd : t.day < Date.firstDay (i + 1)) : t.monthNumber = i :=
  monthIndex_ofDayNumber h hd

/-- Each day of the time line has every time of day, and the minutes that end in a leap second are
the same on every day. -/
theorem exists_onDay?_of_range (t : Instant) {d : Int} (h : -96465292 ≤ d ∧ d ≤ 95026236) :
    ∃ w, t.onDay? d = some w := by
  obtain ⟨-, -, hnano, hleap⟩ := t.fits
  have hc := t.clock_nonneg
  have hc' := t.clock_lt
  have hsecond : t.clock % 60 = t.second % 60 := by
    rw [clock]
    omega
  have hfits : Fits (86400 * d + t.clock) t.nano := by
    rw [Fits, firstSecond, lastSecond]
    omega
  exact ⟨_, dif_pos hfits⟩

/-- Each day of a month is on the time line, if the month is between those of two moments. -/
theorem exists_onDay? (t : Instant) {i d : Int} (hu : u.monthNumber ≤ i) (hv : i ≤ v.monthNumber)
    (h : Date.firstDay i ≤ d) (hd : d < Date.firstDay (i + 1)) : ∃ w, t.onDay? d = some w := by
  have hlow := Date.firstDay_mono (show -3145716 ≤ i by have := u.monthNumber_range; omega)
  have hhigh := Date.firstDay_mono (show i + 1 ≤ 3145716 by have := v.monthNumber_range; omega)
  have hfirst : Date.firstDay (-3145716) = -96465292 := by decide
  have hlast : Date.firstDay 3145716 = 95026237 := by decide
  exact t.exists_onDay?_of_range (by omega)

/-- A moment can be moved into every month between those of two moments. -/
theorem exists_addMonths? (t : Instant) {n : Int} (hu : u.monthNumber ≤ t.monthNumber + n)
    (hv : t.monthNumber + n ≤ v.monthNumber) : ∃ w, t.addMonths? n = some w := by
  obtain ⟨hvalid, hi⟩ := t.valid_date.addMonths n
  have hlow := hvalid.dayNumber_eq
  have hhigh := hvalid.dayNumber_lt
  rw [hi] at hlow hhigh
  exact exists_onDay? t hu hv (by rw [hlow]; exact Int.le_add_of_nonneg_right (by omega)) hhigh

@[simp] theorem addMonths?_zero (t : Instant) : t.addMonths? 0 = some t := by
  rw [addMonths?, t.valid_date.addMonths_zero, dayNumber_date, onDay?_day]

end Instant

end Almanac
