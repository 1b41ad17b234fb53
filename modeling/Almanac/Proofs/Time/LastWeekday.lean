import Almanac.Proofs.Time.Weekdays

/-!
The weekdays of a month counted from its end, for every count.  A count within the month finds the
day that the count from the front finds.  A greater one leads out of the month, week by week into
the past, and the day it comes to is given up by the name of its month only, so that it is taken
for a day of the month when a year has gone by (`Strays`).

    n = 1 .. m      a day of the month
    n = m+1 .. 52   a month with another name
    n = 53 ..       perhaps the month of the same name, a year or more ago
-/

namespace Almanac

namespace Date

/-- A year has at least 365 days, from whichever month on. -/
theorem firstDay_add_twelve (i : Int) : firstDay i + 365 ≤ firstDay (i + 12) := by
  obtain ⟨month, hm⟩ : ∃ month, month = (i % 12).toNat + 1 := ⟨_, rfl⟩
  have hy : (i + 12) / 12 = i / 12 + 1 := by omega
  have hn : ((i + 12) % 12).toNat + 1 = month := by omega
  have hsucc := daysBeforeYear_succ (i / 12)
  rw [firstDay_eq, firstDay_eq, hy, hn, ← hm, hsucc, daysBeforeMonth, daysBeforeMonth, februaryGap,
    februaryGap]
  split_ifs <;> omega

theorem weekdayCount_bounds (i : Int) (w : Weekday) :
    1 ≤ weekdayCount i w ∧ weekdayCount i w ≤ 5 := by
  have hl := lengthAt_bounds i
  have ha := (weekdayOf (firstDay i)).ahead_lt w
  rw [weekdayCount]
  omega

/-- The day some weeks before the last one of a month that falls on a weekday, so that the last one
is the first of them. -/
def dayBack (i : Int) (w : Weekday) (n : Nat) : Int :=
  firstDay (i + 1) - 1 - Instant.weekdayBack i w n

theorem getLast?_weekdaysAt (i : Int) (w : Weekday) :
    (weekdaysAt i w).getLast? = some (dayBack i w 1) := by
  rw [List.getLast?_eq_head?_reverse, List.head?_eq_getElem?]
  exact (weekdaysAt_reverse_getElem? i w 0).2 ⟨(weekdayCount_bounds i w).1, rfl⟩

/-- A count within the month leads to a day of the month. -/
theorem firstDay_le_dayBack_iff (i : Int) (w : Weekday) (n : Nat) :
    firstDay i ≤ dayBack i w n ↔ n ≤ weekdayCount i w := by
  have hfirst := (lt_weekdayCount_iff_back i w 0).1 (weekdayCount_bounds i w).1
  cases n with
  | zero => exact iff_of_true hfirst (Nat.zero_le _)
  | succ k => exact (lt_weekdayCount_iff_back i w k).symm

theorem dayBack_lt (i : Int) (w : Weekday) (n : Nat) : dayBack i w n < firstDay (i + 1) := by
  rw [dayBack]
  omega

/-- From the front and from the end the same days are counted. -/
theorem dayBack_eq {i : Int} {w : Weekday} {n : Nat} (hn : 1 ≤ n) (hm : n ≤ weekdayCount i w) :
    dayBack i w n = firstDay i + (Instant.weekdayOffset i w (weekdayCount i w + 1 - n) : Nat) := by
  have hmonth := ahead_add_back i w
  have hnext := firstDay_succ i
  rw [dayBack, Instant.weekdayBack, Instant.weekdayOffset]
  omega

end Date

namespace Instant

variable {t u : Instant} {w : Weekday} {n : Nat}

/-- Going back `n - 1` weeks from the last given weekday of the month leads into the month of the
same name of an earlier year. -/
def Strays (t : Instant) (w : Weekday) (n : Nat) : Prop :=
  ∃ u : Instant, (u.date.year < t.date.year ∧ u.date.month = t.date.month) ∧
    ∃ last ∈ (Date.weekdaysAt t.monthNumber w).getLast?, u.day + 7 * (n - 1 : Nat) = last

/-- Of two months with one name, that of the earlier year has the smaller number. -/
theorem year_lt_iff (h : u.date.month = t.date.month) :
    u.date.year < t.date.year ↔ u.monthNumber < t.monthNumber := by
  rw [monthNumber, monthNumber, Date.monthIndex, Date.monthIndex, h]
  omega

theorem strays_iff : t.Strays w n ↔ ∃ u : Instant, u.monthNumber < t.monthNumber ∧
    u.date.month = t.date.month ∧ u.day = Date.dayBack t.monthNumber w n := by
  have hback : ∀ d : Int, d + 7 * (n - 1 : Nat) = Date.dayBack t.monthNumber w 1 ↔
      d = Date.dayBack t.monthNumber w n := by
    intro d
    rw [Date.dayBack, Date.dayBack, weekdayBack, weekdayBack]
    omega
  simp only [Strays, Date.getLast?_weekdaysAt, Option.mem_some_iff, exists_eq_left', hback]
  refine exists_congr fun u => ?_
  rw [and_assoc]
  constructor
  · rintro ⟨hyear, hmonth, hday⟩
    exact ⟨(year_lt_iff hmonth).1 hyear, hmonth, hday⟩
  · rintro ⟨hlt, hmonth, hday⟩
    exact ⟨(year_lt_iff hmonth).2 hlt, hmonth, hday⟩

/-- A count up to a year of weeks does not lead so far. -/
theorem not_strays (hn : n ≤ 52) : ¬ t.Strays w n := by
  rw [strays_iff]
  rintro ⟨u, hlt, hmonth, hday⟩
  have hnumber : u.monthNumber + 12 ≤ t.monthNumber := by
    rw [monthNumber, monthNumber, Date.monthIndex, Date.monthIndex, hmonth] at hlt ⊢
    omega
  have hyear := Date.firstDay_add_twelve (u.monthNumber + 1)
  have hmono : Date.firstDay (u.monthNumber + 1 + 12) ≤ Date.firstDay (t.monthNumber + 1) :=
    Date.firstDay_mono (by omega)
  have hbounds := weekdayBack_bounds t.monthNumber w n
  have hu := u.day_bounds
  rw [Date.dayBack] at hday
  omega

/-- The month after any but the last one begins on the time line. -/
theorem next_month_le_lastSecond (h : t.monthNumber ≠ latest.monthNumber) :
    86400 * Date.firstDay (t.monthNumber + 1) ≤ lastSecond := by
  have hlast : latest.monthNumber = 3145715 := by decide
  have hnumber := t.monthNumber_range.2
  rw [hlast] at h
  have hmono := Date.firstDay_mono (show t.monthNumber + 1 ≤ 3145715 by omega)
  have hday : Date.firstDay 3145715 = 95026206 := by decide
  rw [lastSecond]
  omega

/-- Whatever day is come to is taken if its month has the right name. -/
theorem nthLastWeekday?_eq_some (h : t.monthNumber ≠ latest.monthNumber) :
    t.nthLastWeekday? w n = some u ↔ n ≠ 0 ∧ u.date.month = t.date.month ∧
      Later (Date.dayBack t.monthNumber w n - t.day) t u := by
  have hnext := Int.not_lt.2 (next_month_le_lastSecond h)
  have hdate : Later (Date.dayBack t.monthNumber w n - t.day) t u →
      u.date = Date.ofDayNumber (Date.dayBack t.monthNumber w n) := by
    intro hl
    rw [date, hl.day_of_sub]
  rw [nthLastWeekday?, monthStart_eq, monthLength_eq, ← Date.firstDay_succ, ← weekdayBack,
    ← Date.dayBack]
  split
  · next hno =>
    constructor
    · intro hu
      cases hu
    · rintro ⟨hn, hmonth, hl⟩
      rw [hdate hl] at hmonth
      exact absurd hno (by simp [hn, hnext, hmonth])
  · next hyes =>
    simp only [not_or, not_not] at hyes
    rw [onDay?_eq_some]
    constructor
    · intro hl
      exact ⟨hyes.1, by rw [hdate hl]; exact hyes.2.2, hl⟩
    · exact fun hu => hu.2.2

/-- A count within the month finds a day of it, the same as the count from the front. -/
theorem exists_nthLastWeekday? (h : t.monthNumber ≠ latest.monthNumber) (hn : 1 ≤ n)
    (hm : n ≤ Date.weekdayCount t.monthNumber w) :
    ∃ u, t.nthLastWeekday? w n = some u ∧
      t.nthWeekday? w (Date.weekdayCount t.monthNumber w + 1 - n) = some u ∧
      Later (Date.dayBack t.monthNumber w n - t.day) t u := by
  have hlow := (Date.firstDay_le_dayBack_iff t.monthNumber w n).2 hm
  have hhigh := Date.dayBack_lt t.monthNumber w n
  obtain ⟨u, hu⟩ := exists_onDay? t (Int.le_refl _) (Int.le_refl _) hlow hhigh
  rw [onDay?_eq_some] at hu
  have hday : u.day = Date.dayBack t.monthNumber w n := hu.day_of_sub
  have hnumber : u.monthNumber = t.monthNumber := monthNumber_eq (by rwa [hday]) (by rwa [hday])
  have hmonth : u.date.month = t.date.month := by
    rw [← u.valid_date.monthIndex_mod, ← t.valid_date.monthIndex_mod]
    exact congrArg (fun i => (i % 12).toNat + 1) hnumber
  refine ⟨u, (nthLastWeekday?_eq_some h).2 ⟨by omega, hmonth, hu⟩, ?_, hu⟩
  rw [nthWeekday?_eq_some, ← Date.dayBack_eq hn hm]
  refine ⟨⟨by omega, ?_⟩, hu⟩
  rw [Date.dayBack_eq hn hm, Date.firstDay_succ] at hhigh
  omega

/-- A count beyond the month finds a day only if it strays. -/
theorem nthLastWeekday?_eq_none_iff (h : t.monthNumber ≠ latest.monthNumber)
    (hn : ¬ (1 ≤ n ∧ n ≤ Date.weekdayCount t.monthNumber w)) :
    t.nthLastWeekday? w n = none ↔ ¬ t.Strays w n := by
  have hback := Date.firstDay_le_dayBack_iff t.monthNumber w n
  rw [Option.eq_none_iff_forall_ne_some, strays_iff, not_exists]
  constructor
  · rintro hnone u ⟨hlt, hmonth, hday⟩
    have hmono : Date.firstDay (u.monthNumber + 1) ≤ Date.firstDay t.monthNumber :=
      Date.firstDay_mono hlt
    have hu := u.day_bounds
    obtain ⟨v, hv⟩ := t.exists_onDay?_of_range (hday ▸ u.day_range)
    rw [onDay?_eq_some] at hv
    have hdate : v.date = u.date := by
      rw [date, date, hv.day_of_sub, hday]
    exact hnone v ((nthLastWeekday?_eq_some h).2 ⟨by omega, by rw [hdate, hmonth], hv⟩)
  · intro hstray u hu
    obtain ⟨hzero, hmonth, hl⟩ := (nthLastWeekday?_eq_some h).1 hu
    have hday : u.day = Date.dayBack t.monthNumber w n := hl.day_of_sub
    refine hstray u ⟨?_, hmonth, hday⟩
    by_contra hge
    have hmono := Date.firstDay_mono (Int.not_lt.1 hge)
    have hu := u.day_bounds
    omega

/-- Counted from the end of a month other than the last one there is, the `n`-th given weekday is the
one that the count from the front finds, at the same time of day.  A count beyond the month finds
nothing exactly if it does not stray, and up to 52 none does. -/
theorem nthLastWeekday?_exact (t : Instant) (w : Weekday) (n : Nat)
    (h : t.monthNumber ≠ latest.monthNumber) :
    let days := Date.weekdaysAt t.monthNumber w
    let m := days.length
    (1 ≤ n ∧ n ≤ m → ∃ u, t.nthLastWeekday? w n = some u ∧ t.nthWeekday? w (m + 1 - n) = some u ∧
      days[m - n]? = some u.day ∧ u.clock = t.clock ∧ u.nano = t.nano) ∧
    (¬ (1 ≤ n ∧ n ≤ m) → (t.nthLastWeekday? w n = none ↔ ¬ t.Strays w n)) ∧
    (n ≤ 52 → ¬ t.Strays w n) := by
  intro days m
  have hlength : m = Date.weekdayCount t.monthNumber w := Date.length_weekdaysAt _ w
  rw [hlength]
  refine ⟨?_, nthLastWeekday?_eq_none_iff h, not_strays⟩
  rintro ⟨hn, hm⟩
  obtain ⟨u, hback, hfront, hl⟩ := exists_nthLastWeekday? h hn hm
  refine ⟨u, hback, hfront, (Date.weekdaysAt_getElem? _ w _).2 ⟨by omega, ?_⟩, hl.clock_eq, hl.nano⟩
  have hcount : Date.weekdayCount t.monthNumber w - n + 1
      = Date.weekdayCount t.monthNumber w + 1 - n := by omega
  rw [hl.day_of_sub, hcount, ← Date.dayBack_eq hn hm]

/-- A morning of January 2024, which has four Fridays. -/
def january : Instant := ⟨1704099600, 0, by decide⟩

/-- The fourth last Friday is the first one.  A count of 52 finds nothing, a count of 53 strays. -/
theorem january_nthLastWeekday? :
    let first : Instant := ⟨1704445200, 0, by decide⟩
    january.monthNumber ≠ latest.monthNumber ∧
      (Date.weekdaysAt january.monthNumber .friday).length = 4 ∧
      january.nthLastWeekday? .friday 4 = some first ∧
      january.nthWeekday? .friday 1 = some first ∧
      january.nthLastWeekday? .friday 52 = none ∧ january.Strays .friday 53 := by
  intro first
  have h : january.monthNumber ≠ latest.monthNumber := by decide
  have hm : (Date.weekdaysAt january.monthNumber .friday).length = 4 := by decide
  have hfirst : january.nthWeekday? .friday 1 = some first := by decide
  obtain ⟨hwithin, -, -⟩ := nthLastWeekday?_exact january .friday 4 h
  obtain ⟨-, hbeyond, hyear⟩ := nthLastWeekday?_exact january .friday 52 h
  obtain ⟨-, hstray, -⟩ := nthLastWeekday?_exact january .friday 53 h
  rw [hm] at hwithin hbeyond hstray
  obtain ⟨u, hback, hfront, -⟩ := hwithin (by decide)
  rw [hfirst] at hfront
  have hnone : january.nthLastWeekday? .friday 52 = none :=
    (hbeyond (by decide)).2 (hyear (by decide))
  have hfound : january.nthLastWeekday? .friday 53 ≠ none := by decide
  exact ⟨h, hm, hback.trans hfront.symm, hfirst, hnone,
    not_not.1 fun hno => hfound ((hstray (by decide)).2 hno)⟩

/-- A week more leads to the last Friday of January 2023. -/
theorem january_nthLastWeekday?_of_year_before :
    let stray : Instant := ⟨1674810000, 0, by decide⟩
    (Date.weekdaysAt january.monthNumber .friday).length = 4 ∧
      january.nthLastWeekday? .friday 53 = some stray ∧ stray.date = ⟨2023, 1, 27⟩ := by
  decide

end Instant

end Almanac
