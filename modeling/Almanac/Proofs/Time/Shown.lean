import Almanac.Proofs.Time.Shift
import Almanac.Time.BasicForm

/-!
The numbers that are written of a moment, and the moment that has given numbers.  Six numbers denote
a moment if they are a date in the calendar and a time on the clock, and then only one that begins a
second (`Shown.moment?_eq_some`); from year 0 to year 9999 there always is one (`exists_moment?`).
Second 60 is the leap second of its minute, whatever the date.
-/

namespace Almanac

namespace Instant

/-! ### The clock -/

/-- The moment without the fraction of its second; a leap second stays one. -/
def wholeSecond (t : Instant) : Instant where
  second := t.second
  nano := t.nano / 1000000000 * 1000000000
  fits := by
    obtain ⟨h1, h2, h3, h4⟩ := t.fits
    exact ⟨h1, h2, by omega, fun h => h4 (by omega)⟩

theorem wholeSecond_eq_self_iff {t : Instant} : t.wholeSecond = t ↔ t.nano % 1000000000 = 0 := by
  rw [Instant.ext_iff]
  simp only [wholeSecond, true_and]
  omega

theorem hour_lt (t : Instant) : t.hour < 24 := by
  have := t.clock_nonneg
  have := t.clock_lt
  rw [hour]
  omega

theorem minute_lt (t : Instant) : t.minute < 60 := by
  rw [minute]
  omega

theorem shownSecond_le (t : Instant) : t.shownSecond ≤ 60 := by
  obtain ⟨-, -, h3, h4⟩ := t.fits
  rw [shownSecond]
  omega

/-- The moment at the time of day that is written, on its date. -/
theorem atTime?_clock (t : Instant) :
    atTime? t.date t.hour t.minute t.shownSecond 0 = some t.wholeSecond := by
  obtain ⟨-, -, h3, h4⟩ := t.fits
  have hc := t.clock_nonneg
  have hday := t.day_mul_add_clock
  have hclock : t.clock = t.second % 86400 := rfl
  have hsecond : t.shownSecond = (t.second % 60).toNat + t.nano / 1000000000 := rfl
  rw [atTime?, if_pos ⟨t.hour_lt, t.minute_lt, t.shownSecond_le⟩, dayNumber_date]
  dsimp only
  by_cases h60 : t.shownSecond = 60
  · rw [if_pos h60, if_pos h60, ofParts?_eq_some, wholeSecond, hour, minute]
    constructor <;> dsimp only <;> omega
  · rw [if_neg h60, if_neg h60, ofParts?_eq_some, wholeSecond, hour, minute]
    constructor <;> dsimp only <;> omega

/-! ### The numbers -/

/-- The numbers that are written of a moment. -/
structure Shown where
  /-- The year, which may be negative. -/
  year : Int
  /-- January is one. -/
  month : Nat
  /-- The first day of a month is one. -/
  day : Nat
  /-- Midnight is in hour zero. -/
  hour : Nat
  /-- The minute of the hour. -/
  minute : Nat
  /-- The second of the minute: 60 in a leap second. -/
  second : Nat
  deriving DecidableEq, Repr

/-- What is written of a moment. -/
def shown (t : Instant) : Shown :=
  ⟨t.date.year, t.date.month, t.date.day, t.hour, t.minute, t.shownSecond⟩

namespace Shown

/-- The date. -/
def date (n : Shown) : Date := ⟨n.year, n.month, n.day⟩

/-- The date is in the calendar and the time of day on the clock. -/
def Valid (n : Shown) : Prop :=
  n.date.Valid ∧ n.hour < 24 ∧ n.minute < 60 ∧ n.second ≤ 60

/-- The moment has these numbers, and begins its second. -/
def Denotes (n : Shown) (t : Instant) : Prop := n.Valid ∧ t.shown = n ∧ t.wholeSecond = t

/-- The moment with these numbers, to the second. -/
def moment? (n : Shown) : Option Instant :=
  (Date.ofFields? n.year n.month n.day).bind fun d => atTime? d n.hour n.minute n.second 0

variable {n : Shown} {t : Instant}

theorem ofFields?_date (n : Shown) :
    Date.ofFields? n.year n.month n.day = if n.date.Valid then some n.date else none := rfl

theorem moment?_of_not_valid (h : ¬ n.Valid) : n.moment? = none := by
  rw [moment?, ofFields?_date]
  by_cases hd : n.date.Valid
  · rw [if_pos hd, Option.bind_some, atTime?, if_neg fun hc => h ⟨hd, hc⟩]
  · rw [if_neg hd, Option.bind_none]

/-- The seconds of the day up to a time on the clock, the leap second not counted. -/
theorem moment?_of_valid (h : n.Valid) : n.moment? =
    ofParts? (86400 * n.date.dayNumber + (n.hour * 3600 + n.minute * 60 + min n.second 59 : Nat))
      (n.second / 60 * 1000000000) := by
  obtain ⟨hd, hc⟩ := h
  rw [moment?, ofFields?_date, if_pos hd, Option.bind_some, atTime?, if_pos hc]
  rcases Nat.lt_or_eq_of_le hc.2.2 with hlt | heq
  · have hmin : min n.second 59 = n.second := by omega
    have hdiv : n.second / 60 = 0 := by omega
    rw [hmin, hdiv]
    simp only [Nat.ne_of_lt hlt, if_false, Nat.zero_mul, Nat.add_zero]
  · rw [heq]
    rfl

/-- What is found by numbers that are valid has these numbers. -/
theorem Valid.shown_eq (h : n.Valid) (ht : n.moment? = some t) : t.shown = n := by
  rw [moment?_of_valid h, ofParts?_eq_some] at ht
  obtain ⟨hsecond, hnano⟩ := ht
  obtain ⟨hd, hh, hm, hs⟩ := h
  have hday : t.day = n.date.dayNumber := by
    rw [Instant.day, hsecond]
    omega
  have hclock : t.clock = (n.hour * 3600 + n.minute * 60 + min n.second 59 : Nat) := by
    rw [clock, hsecond]
    omega
  have hdate : t.date = n.date := by
    rw [Instant.date, hday, hd.ofDayNumber_dayNumber]
  have hhour : t.hour = n.hour := by
    rw [Instant.hour, hclock]
    omega
  have hminute : t.minute = n.minute := by
    rw [Instant.minute, hclock]
    omega
  have hshown : t.shownSecond = n.second := by
    rw [shownSecond, hsecond, hnano]
    omega
  rw [shown, hdate, hhour, hminute, hshown]
  rfl

/-- A moment is found again by its numbers, less the fraction of its second. -/
theorem moment?_shown (t : Instant) : t.shown.moment? = some t.wholeSecond := by
  rw [moment?, shown, Date.ofFields?, if_pos t.valid_date, Option.bind_some, t.atTime?_clock]

theorem moment?_eq_some : n.moment? = some t ↔ n.Denotes t := by
  constructor
  · intro h
    have hvalid : n.Valid := by
      by_contra hno
      rw [moment?_of_not_valid hno] at h
      cases h
    have hshown := hvalid.shown_eq h
    refine ⟨hvalid, hshown, ?_⟩
    rw [← hshown, moment?_shown] at h
    exact Option.some.inj h
  · rintro ⟨-, rfl, hwhole⟩
    rw [moment?_shown, hwhole]

/-- In the years without a sign each date and time of day is on the time line. -/
theorem exists_moment? (h : n.Valid) (h0 : 0 ≤ n.year) (h9 : n.year ≤ 9999) :
    ∃ t, n.moment? = some t := by
  obtain ⟨hd, hh, hm, hs⟩ := h
  have h12 : n.date.month ≤ 12 := hd.2.1
  have hlow : Date.firstDay 0 ≤ n.date.dayNumber := by
    have hmono := Date.firstDay_mono (i := 0) (j := n.date.monthIndex) (by
      have hy : n.date.year = n.year := rfl
      rw [Date.monthIndex, hy]
      omega)
    have hin := hd.dayNumber_eq
    omega
  have hhigh : n.date.dayNumber < Date.firstDay 120000 := by
    have hmono := Date.firstDay_mono (i := n.date.monthIndex + 1) (j := 120000) (by
      have hy : n.date.year = n.year := rfl
      rw [Date.monthIndex, hy]
      omega)
    have hin := hd.dayNumber_lt
    omega
  have hzero : Date.firstDay 0 = -719528 := by decide
  have hend : Date.firstDay 120000 = 2932897 := by decide
  rw [moment?_of_valid ⟨hd, hh, hm, hs⟩, ofParts?, dif_pos]
  · exact ⟨_, rfl⟩
  · rw [Fits, firstSecond, lastSecond]
    omega

end Shown

end Instant

end Almanac
