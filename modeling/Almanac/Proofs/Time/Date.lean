import Almanac.Time.Date
import Mathlib.Tactic.IntervalCases

/-!
Dates and day numbers are the same thing.  Months are counted through the years (`monthIndex`), and
month after month begins where the one before it ends (`firstDay_succ`), so the days of all months
together are all days, each of them once.

    monthIndex    …  i              i + 1            i + 2  …
    day numbers   …  firstDay i ──▶ firstDay (i+1) ─▶ …
-/

namespace Almanac

namespace Date

/-! ### Years -/

theorem isLeapYear_iff (year : Int) :
    isLeapYear year = true ↔ year % 4 = 0 ∧ (year % 100 ≠ 0 ∨ year % 400 = 0) := by
  simp [isLeapYear]

/-- A year has 365 days and one more if it is a leap year. -/
theorem daysBeforeYear_succ (year : Int) :
    daysBeforeYear (year + 1)
      = daysBeforeYear year + (365 + if isLeapYear year then 1 else 0 : Nat) := by
  unfold daysBeforeYear
  by_cases h : isLeapYear year = true
  · rw [if_pos h]
    rw [isLeapYear_iff] at h
    omega
  · rw [if_neg h]
    rw [isLeapYear_iff] at h
    omega

/-! ### Months of a year -/

/-- A month begins where the one before it ends, and a thirteenth one would begin with the next
year. -/
theorem daysBeforeMonth_succ (year : Int) {month : Nat} (h : 1 ≤ month) (hm : month ≤ 12) :
    daysBeforeMonth year (month + 1) = daysBeforeMonth year month + monthLength year month := by
  unfold daysBeforeMonth monthLength februaryGap
  cases isLeapYear year <;> interval_cases month <;> rfl

theorem daysBeforeMonth_thirteen (year : Int) :
    daysBeforeMonth year 13 = 365 + if isLeapYear year then 1 else 0 := by
  unfold daysBeforeMonth februaryGap
  cases isLeapYear year <;> rfl

theorem monthLength_bounds (year : Int) (month : Nat) :
    28 ≤ monthLength year month ∧ monthLength year month ≤ 31 := by
  unfold monthLength
  split
  · split <;> omega
  all_goals omega

/-- The month in which a day lies.  `gap` is what February lacks to thirty days, and `late` how much
of it lies before the day. -/
theorem month_bounds (gap : Nat) {yearDay late month : Nat}
    (hl : late = if yearDay < 61 - gap then 0 else gap) (hd : yearDay + gap < 367)
    (hm : month = (12 * (yearDay + late) + 373) / 367) :
    1 ≤ month ∧ month ≤ 12 ∧ (367 * month - 362) / 12 - (if month ≤ 2 then 0 else gap) ≤ yearDay ∧
      yearDay < (367 * (month + 1) - 362) / 12 - if month + 1 ≤ 2 then 0 else gap := by
  have h1 : 1 ≤ month := by omega
  have h12 : month ≤ 12 := by
    split at hl <;> omega
  refine ⟨h1, h12, ?_⟩
  split at hl <;> interval_cases month <;> norm_num <;> omega

theorem ofYearDay_month {year : Int} {yearDay : Nat}
    (h : yearDay < 365 + if isLeapYear year then 1 else 0) :
    1 ≤ (ofYearDay year yearDay).month ∧ (ofYearDay year yearDay).month ≤ 12 ∧
      daysBeforeMonth year (ofYearDay year yearDay).month ≤ yearDay ∧
      yearDay < daysBeforeMonth year ((ofYearDay year yearDay).month + 1) := by
  have hg : yearDay + februaryGap year < 367 := by
    unfold februaryGap
    split at h <;> simp_all <;> omega
  exact month_bounds (februaryGap year) rfl hg rfl

/-- A day of a year is found in its month. -/
theorem ofYearDay_spec {year : Int} {yearDay : Nat}
    (h : yearDay < 365 + if isLeapYear year then 1 else 0) :
    (ofYearDay year yearDay).Valid ∧
      daysBeforeMonth year (ofYearDay year yearDay).month + (ofYearDay year yearDay).day
        = yearDay + 1 := by
  obtain ⟨h1, h12, hlow, hhigh⟩ := ofYearDay_month h
  have hsucc := daysBeforeMonth_succ year h1 h12
  have hday : (ofYearDay year yearDay).day
      = yearDay - daysBeforeMonth year (ofYearDay year yearDay).month + 1 := rfl
  have hlength : (ofYearDay year yearDay).day
      ≤ monthLength year (ofYearDay year yearDay).month := by omega
  exact ⟨⟨h1, h12, by omega, hlength⟩, by omega⟩

/-! ### Day numbers -/

/-- The years of the cycles of four hundred, one hundred, four and one years. -/
theorem daysBeforeYear_cycles {q : Int} {c f s : Nat} (hc : c ≤ 3) (hf : f ≤ 24) (hs : s ≤ 3) :
    daysBeforeYear (400 * q + 100 * c + 4 * f + s + 1)
      = 146097 * q + 36524 * c + 1461 * f + 365 * s := by
  unfold daysBeforeYear
  omega

/-- A count that is cut off belongs to the last whole cycle, or it is the greatest allowed. -/
theorem cut_spec {n size limit count : Nat} (h : count = min (n / size) limit) (hsize : 0 < size) :
    count ≤ limit ∧ size * count ≤ n ∧ (n < size * count + size ∨ count = limit) := by
  have hd : size * (n / size) + n % size = n := Nat.div_add_mod n size
  have hm : n % size < size := Nat.mod_lt n hsize
  rcases Nat.le_total (n / size) limit with hl | hl
  · rw [Nat.min_eq_left hl] at h
    rw [h]
    exact ⟨hl, by omega, by omega⟩
  · rw [Nat.min_eq_right hl] at h
    have hs : size * limit ≤ size * (n / size) := Nat.mul_le_mul_left size hl
    rw [h]
    exact ⟨Nat.le_refl limit, by omega, .inr rfl⟩

/-- A day of four hundred years, found in its century, in its four years and in its year.  The last
year of a cycle is the one that may have a day more. -/
theorem cycle_spec {inCycle c inCentury s : Nat} (hr : inCycle < 146097)
    (hc : c = min (inCycle / 36524) 3) (hcent : inCentury = inCycle - 36524 * c)
    (hs : s = min (inCentury % 1461 / 365) 3) :
    c ≤ 3 ∧ inCentury / 1461 ≤ 24 ∧ s ≤ 3 ∧
      inCycle = 36524 * c + 1461 * (inCentury / 1461) + 365 * s + (inCentury % 1461 - 365 * s) ∧
      (inCentury % 1461 - 365 * s < 365 ∨ inCentury % 1461 - 365 * s = 365 ∧ s = 3 ∧
        (inCentury / 1461 < 24 ∨ c = 3)) := by
  obtain ⟨hc3, hclow, hchigh⟩ := cut_spec hc (by decide)
  obtain ⟨hs3, hslow, hshigh⟩ := cut_spec hs (by decide)
  have hfour : 1461 * (inCentury / 1461) + inCentury % 1461 = inCentury := Nat.div_add_mod _ _
  have hlt : inCentury % 1461 < 1461 := Nat.mod_lt _ (by decide)
  refine ⟨hc3, ?_, hs3, ?_, ?_⟩
  · omega
  · omega
  · omega

/-- The last year of a cycle is a leap year unless it ends a century but not four of them. -/
theorem isLeapYear_cycles {q : Int} {c f : Nat} (hf : f ≤ 24) (h : f < 24 ∨ c = 3) :
    isLeapYear (400 * q + 100 * c + 4 * f + 3 + 1) = true := by
  rw [isLeapYear_iff]
  omega

/-- The date of a day that is found in its cycles. -/
theorem ofYearDay_cycles {q : Int} {c f s d : Nat} (hc : c ≤ 3) (hf : f ≤ 24) (hs : s ≤ 3)
    (hd : d < 365 ∨ d = 365 ∧ s = 3 ∧ (f < 24 ∨ c = 3)) :
    (ofYearDay (400 * q + 100 * c + 4 * f + s + 1) d).Valid ∧
      (ofYearDay (400 * q + 100 * c + 4 * f + s + 1) d).dayNumber
        = 146097 * q + 36524 * c + 1461 * f + 365 * s + d - epochOffset := by
  have hlt : d < 365 + if isLeapYear (400 * q + 100 * c + 4 * f + s + 1) then 1 else 0 := by
    rcases hd with hd | ⟨rfl, rfl, h⟩
    · exact Nat.lt_add_right _ hd
    · have hleap : isLeapYear (400 * q + 100 * c + 4 * f + (3 : Nat) + 1) = true :=
        isLeapYear_cycles hf h
      rw [if_pos hleap]
      decide
  obtain ⟨hv, hday⟩ := ofYearDay_spec hlt
  have hyear := daysBeforeYear_cycles (q := q) hc hf hs
  refine ⟨hv, ?_⟩
  rw [dayNumber]
  have hy : (ofYearDay (400 * q + 100 * c + 4 * f + s + 1) d).year
      = 400 * q + 100 * c + 4 * f + s + 1 := rfl
  rw [hy, hyear]
  omega

/-- Every day number has a date, which is in the calendar. -/
theorem ofDayNumber_spec (n : Int) : (ofDayNumber n).Valid ∧ (ofDayNumber n).dayNumber = n := by
  have hr : ((n + epochOffset) % 146097).toNat < 146097 := by omega
  obtain ⟨hc, hf, hs, hsum, hd⟩ := cycle_spec hr rfl rfl rfl
  obtain ⟨hv, hday⟩ := ofYearDay_cycles (q := (n + epochOffset) / 146097) hc hf hs hd
  refine ⟨hv, ?_⟩
  refine Eq.trans hday ?_
  omega

/-! ### Months in a row -/

/-- The number of a month, counted from January of year 0. -/
def monthIndex (d : Date) : Int := 12 * d.year + (d.month - 1 : Nat)

/-- The day number of the first day of the month with a number. -/
def firstDay (i : Int) : Int := dayNumber ⟨i / 12, (i % 12).toNat + 1, 1⟩

/-- The number of days of the month with a number. -/
def lengthAt (i : Int) : Nat := monthLength (i / 12) ((i % 12).toNat + 1)

theorem lengthAt_bounds (i : Int) : 28 ≤ lengthAt i ∧ lengthAt i ≤ 31 := monthLength_bounds _ _

theorem firstDay_eq (i : Int) : firstDay i
    = daysBeforeYear (i / 12) + daysBeforeMonth (i / 12) ((i % 12).toNat + 1) - epochOffset := by
  rw [firstDay, dayNumber]
  dsimp only
  omega

/-- A month begins where the one before it ends. -/
theorem firstDay_succ (i : Int) : firstDay (i + 1) = firstDay i + lengthAt i := by
  obtain ⟨month, hm⟩ : ∃ month, month = (i % 12).toNat + 1 := ⟨_, rfl⟩
  have hsucc : daysBeforeMonth (i / 12) (month + 1)
      = daysBeforeMonth (i / 12) month + monthLength (i / 12) month :=
    daysBeforeMonth_succ (i / 12) (by omega) (by omega)
  rw [firstDay_eq, firstDay_eq, lengthAt, ← hm]
  rcases Nat.lt_or_ge month 12 with h | h
  · have hy : (i + 1) / 12 = i / 12 := by omega
    have hn : ((i + 1) % 12).toNat + 1 = month + 1 := by omega
    rw [hy, hn, hsucc]
    omega
  · have hy : (i + 1) / 12 = i / 12 + 1 := by omega
    have hn : ((i + 1) % 12).toNat + 1 = 1 := by omega
    have hmonth : month = 12 := by omega
    have hfirst : daysBeforeMonth (i / 12 + 1) 1 = 0 := rfl
    have hlast : daysBeforeMonth (i / 12) (12 + 1) = 365 + if isLeapYear (i / 12) then 1 else 0 :=
      daysBeforeMonth_thirteen (i / 12)
    have hyear := daysBeforeYear_succ (i / 12)
    rw [hmonth] at hsucc ⊢
    rw [hy, hn, hfirst, hyear]
    omega

/-- Months begin one after the other, no more than thirty-one and no less than twenty-eight days
apart. -/
theorem firstDay_add (i : Int) (n : Nat) :
    firstDay i + 28 * n ≤ firstDay (i + n) ∧ firstDay (i + n) ≤ firstDay i + 31 * n := by
  induction n with
  | zero => simp
  | succ n ih =>
    have hs := firstDay_succ (i + n)
    have hl := lengthAt_bounds (i + n)
    rw [Nat.cast_succ, ← Int.add_assoc, hs]
    omega

theorem firstDay_mono {i j : Int} (h : i ≤ j) : firstDay i ≤ firstDay j := by
  obtain ⟨n, rfl⟩ := Int.le.dest h
  have hn := (firstDay_add i n).1
  omega

/-! ### Dates in the calendar -/

theorem Valid.monthIndex_div {d : Date} (h : d.Valid) : d.monthIndex / 12 = d.year := by
  obtain ⟨h1, h12, -, -⟩ := h
  rw [monthIndex]
  omega

theorem Valid.monthIndex_mod {d : Date} (h : d.Valid) :
    (d.monthIndex % 12).toNat + 1 = d.month := by
  obtain ⟨h1, h12, -, -⟩ := h
  rw [monthIndex]
  omega

theorem Valid.firstDay_monthIndex {d : Date} (h : d.Valid) :
    firstDay d.monthIndex = dayNumber { d with day := 1 } := by
  rw [firstDay, h.monthIndex_div, h.monthIndex_mod]

theorem Valid.lengthAt_monthIndex {d : Date} (h : d.Valid) :
    lengthAt d.monthIndex = monthLength d.year d.month := by
  rw [lengthAt, h.monthIndex_div, h.monthIndex_mod]

/-- A date lies in its month. -/
theorem Valid.dayNumber_eq {d : Date} (h : d.Valid) :
    d.dayNumber = firstDay d.monthIndex + (d.day - 1 : Nat) := by
  have hd : 1 ≤ d.day := h.2.2.1
  rw [h.firstDay_monthIndex, dayNumber, dayNumber]
  dsimp only
  omega

theorem Valid.dayNumber_lt {d : Date} (h : d.Valid) :
    d.dayNumber < firstDay (d.monthIndex + 1) := by
  have hl : d.day ≤ lengthAt d.monthIndex := by
    rw [h.lengthAt_monthIndex]
    exact h.2.2.2
  have hd : 1 ≤ d.day := h.2.2.1
  rw [h.dayNumber_eq, firstDay_succ]
  omega

/-- A date lies before those of later months. -/
theorem Valid.dayNumber_lt_of_monthIndex_lt {d e : Date} (hd : d.Valid) (he : e.Valid)
    (h : d.monthIndex < e.monthIndex) : d.dayNumber < e.dayNumber := by
  have hm : firstDay (d.monthIndex + 1) ≤ firstDay e.monthIndex := firstDay_mono h
  have hl := hd.dayNumber_lt
  rw [he.dayNumber_eq]
  omega

/-- Dates with one day number are one. -/
theorem Valid.eq_of_dayNumber_eq {d e : Date} (hd : d.Valid) (he : e.Valid)
    (h : d.dayNumber = e.dayNumber) : d = e := by
  have hi : d.monthIndex = e.monthIndex := by
    rcases Int.lt_trichotomy d.monthIndex e.monthIndex with hl | hi | hl
    · have := hd.dayNumber_lt_of_monthIndex_lt he hl
      omega
    · exact hi
    · have := he.dayNumber_lt_of_monthIndex_lt hd hl
      omega
  have hyear : d.year = e.year := by rw [← hd.monthIndex_div, ← he.monthIndex_div, hi]
  have hmonth : d.month = e.month := by rw [← hd.monthIndex_mod, ← he.monthIndex_mod, hi]
  have hday : d.day = e.day := by
    have h1 : 1 ≤ d.day := hd.2.2.1
    have h2 : 1 ≤ e.day := he.2.2.1
    rw [hd.dayNumber_eq, he.dayNumber_eq, hi] at h
    omega
  cases d
  cases e
  cases hyear
  cases hmonth
  cases hday
  rfl

/-- A date is found again by its day number. -/
theorem Valid.ofDayNumber_dayNumber {d : Date} (h : d.Valid) : ofDayNumber d.dayNumber = d :=
  (ofDayNumber_spec d.dayNumber).1.eq_of_dayNumber_eq h (ofDayNumber_spec d.dayNumber).2

/-- A number of months later is in the month with so much greater a number. -/
theorem Valid.addMonths {d : Date} (h : d.Valid) (n : Int) :
    (d.addMonths n).Valid ∧ (d.addMonths n).monthIndex = d.monthIndex + n := by
  have hd : 1 ≤ d.day := h.2.2.1
  obtain ⟨months, hm⟩ : ∃ months, months = d.monthIndex + n := ⟨_, rfl⟩
  have he : d.addMonths n = ⟨months / 12, (months % 12).toNat + 1,
      min d.day (monthLength (months / 12) ((months % 12).toNat + 1))⟩ := by
    rw [hm]
    rfl
  have hl := monthLength_bounds (months / 12) ((months % 12).toNat + 1)
  rw [he, ← hm]
  refine ⟨⟨?_, ?_, ?_, ?_⟩, ?_⟩
  · exact Nat.le_add_left 1 _
  · dsimp only
    omega
  · dsimp only
    omega
  · exact Nat.min_le_right _ _
  · rw [monthIndex]
    dsimp only
    omega

end Date

end Almanac
