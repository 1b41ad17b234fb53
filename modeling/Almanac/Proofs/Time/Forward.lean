import Almanac.Proofs.Time.Shift

/-!
Days forward from any moment.  Every day has 86400 seconds, also the one that a leap second ends; a
step of a day or more leaves a leap second for the second `:59` before it, and from there on the
moments lie whole days apart.  So going forward in two steps is going forward in one
(`addDays?_add`), and what lies between two moments of the time line is on the time line
(`addDays?_of_le`).

    t ──addDays? m──▶ ──addDays? n──▶ u
    └────────── addDays? (m + n) ─────┘
-/

namespace Almanac

theorem Delta.ofDays?_eq_some {n : Int} {d : Delta} :
    Delta.ofDays? n = some d ↔ d.nanos = n * 86400 * nanosPerSecond := by
  rw [ofDays?, ofSeconds?, ofNanos?]
  constructor
  · intro h
    split at h
    · cases h
      rfl
    · cases h
  · intro h
    have hb := And.intro d.lo d.hi
    rw [h] at hb
    rw [dif_pos hb, Option.some_inj]
    exact Delta.ext h.symm

/-- A number of days is a number of whole seconds. -/
theorem Delta.parts_of_days {n : Int} {d : Delta} (h : d.nanos = n * 86400 * nanosPerSecond) :
    d.wholeSeconds = n * 86400 ∧ d.restNanos = 0 := by
  rw [wholeSeconds, restNanos, h, Int.mul_tdiv_cancel _ (by decide), Int.mul_tmod_left]
  exact ⟨rfl, rfl⟩

namespace Instant

variable {t u v : Instant} {n : Int}

theorem le_iff {a b : Instant} :
    a ≤ b ↔ a.second < b.second ∨ a.second = b.second ∧ a.nano ≤ b.nano := by
  rw [← Decidable.not_not (p := a ≤ b), not_le_iff, lt_iff]
  omega

theorem lt_of_le_of_lt {a b c : Instant} (h : a ≤ b) (hs : b < c) : a < c := by
  rw [le_iff] at h
  rw [lt_iff] at *
  omega

theorem lt_trans {a b c : Instant} (h : a < b) (hs : b < c) : a < c := by
  rw [lt_iff] at *
  omega

/-- Every second between two moments of the time line is on it. -/
theorem exists_between {second : Int} (ht : t.second ≤ second) (hu : second ≤ u.second) :
    ∃ v : Instant, v.second = second ∧ v.nano = t.nano % 1000000000 := by
  obtain ⟨hlow, -, -, -⟩ := t.fits
  obtain ⟨-, hhigh, -, -⟩ := u.fits
  have hn : t.nano % 1000000000 < 1000000000 := Nat.mod_lt _ (by decide)
  generalize t.nano % 1000000000 = nano at hn
  have hfits : Fits second nano := ⟨by omega, by omega, by omega, fun h => by omega⟩
  exact ⟨⟨second, nano, hfits⟩, rfl, rfl⟩

/-- A number of days is on the scale of lengths if two moments lie so far apart. -/
theorem exists_ofDays? (hs : u.second = t.second + 86400 * n) :
    ∃ d : Delta, Delta.ofDays? n = some d := by
  have hb : -9223372036854775807000000 ≤ n * 86400 * nanosPerSecond ∧
      n * 86400 * nanosPerSecond ≤ 9223372036854775807000000 := by
    obtain ⟨h1, h2, -, -⟩ := t.fits
    obtain ⟨h3, h4, -, -⟩ := u.fits
    simp only [firstSecond, lastSecond, nanosPerSecond] at *
    omega
  exact ⟨⟨_, hb.1, hb.2⟩, Delta.ofDays?_eq_some.2 rfl⟩

/-- The length from one moment to another that lies whole days from it, added to any moment, is as
many days. -/
theorem Later.add?_since (h : Later n t u) (a : Instant) : a.add? (u.since t) = a.addDays? n := by
  rw [addDays?, Delta.ofDays?_eq_some.2 h.since_nanos]
  rfl

@[simp] theorem addDays?_zero (t : Instant) : t.addDays? 0 = some t := by
  obtain ⟨d, hd⟩ := exists_ofDays? (t := t) (u := t) (n := 0) (by omega)
  have hn := Delta.ofDays?_eq_some.1 hd
  rw [addDays?, hd, Option.bind_some]
  cases hl : t.isLeapSecond with
  | false => exact (add?_days hl hn).2 (later_zero t)
  | true =>
    obtain ⟨hw, hr⟩ := Delta.parts_of_days hn
    simp [add?, hl, hw, hr]

/-- Going forward leaves a leap second for the second before it. -/
theorem addDays?_pos (hn : 0 < n) : t.addDays? n = some u ↔
    u.second = t.second + 86400 * n ∧ u.nano = t.nano % 1000000000 := by
  cases hl : t.isLeapSecond with
  | false =>
    have ht := nano_lt_of_not_leap hl
    rw [addDays?_eq_some hl, Nat.mod_eq_of_lt ht]
    exact ⟨fun h => ⟨h.second, h.nano⟩, fun h => ⟨h.1, h.2⟩⟩
  | true =>
    have ht : 1000000000 ≤ t.nano := by simpa [isLeapSecond] using hl
    have hfits : t.nano < 2000000000 := t.fits.2.2.1
    have hadd : ∀ d : Delta, Delta.ofDays? n = some d → (t.add? d = some u ↔
        u.second = t.second + 86400 * n ∧ u.nano = t.nano % 1000000000) := by
      intro d hd
      have hnanos := Delta.ofDays?_eq_some.1 hd
      have hpos : 0 < d.wholeSeconds := by
        rw [(Delta.parts_of_days hnanos).1]
        omega
      rw [add?, hl, if_pos rfl, if_pos (.inl hpos), settle?_eq_some, hnanos]
      simp only [nanosPerSecond]
      omega
    constructor
    · intro h
      obtain ⟨d, hd, hu⟩ := Option.bind_eq_some_iff.1 h
      exact (hadd d hd).1 hu
    · intro h
      obtain ⟨d, hd⟩ := exists_ofDays? h.1
      rw [addDays?, hd, Option.bind_some]
      exact (hadd d hd).2 h

/-- Leaving a leap second backward, one begins from the second after it. -/
theorem second_bounds_of_addDays? (h : t.addDays? n = some u) :
    t.second + 86400 * n ≤ u.second ∧ u.second ≤ t.second + 86400 * n + 1 := by
  cases hl : t.isLeapSecond with
  | false =>
    have hs := ((addDays?_eq_some hl).1 h).second
    omega
  | true =>
    rcases Int.lt_trichotomy n 0 with hn | rfl | hn
    · have ht : 1000000000 ≤ t.nano := by simpa [isLeapSecond] using hl
      have hfits : t.nano < 2000000000 := t.fits.2.2.1
      obtain ⟨d, hd, hu⟩ := Option.bind_eq_some_iff.1 h
      have hnanos := Delta.ofDays?_eq_some.1 hd
      obtain ⟨hwhole, hrest⟩ := Delta.parts_of_days hnanos
      rw [add?, hl, if_pos rfl, if_neg (by omega), if_pos (by omega), settle?_eq_some, hnanos] at hu
      simp only [nanosPerSecond] at hu
      omega
    · rw [addDays?_zero] at h
      cases h
      omega
    · have hs := ((addDays?_pos hn).1 h).1
      omega

/-- More days later is later. -/
theorem addDays?_lt_of_lt {m : Int} (hu : t.addDays? m = some u) (hv : t.addDays? n = some v)
    (h : m < n) : u < v := by
  have hm := second_bounds_of_addDays? hu
  have hn := second_bounds_of_addDays? hv
  exact lt_iff.2 (by omega)

/-- Going forward in two steps is going forward in one. -/
theorem addDays?_add (t : Instant) (m n : Nat) :
    (t.addDays? m).bind (·.addDays? n) = t.addDays? (m + n : Nat) := by
  rcases Nat.eq_zero_or_pos m with rfl | hm
  · rw [Nat.cast_zero, addDays?_zero, Nat.zero_add, Option.bind_some]
  rcases Nat.eq_zero_or_pos n with rfl | hn
  · simp only [Nat.cast_zero, addDays?_zero, Nat.add_zero, Option.bind_fun_some]
  ext u
  rw [Option.bind_eq_some_iff, addDays?_pos (by omega)]
  constructor
  · rintro ⟨v, hv, hu⟩
    rw [addDays?_pos (by omega)] at hv hu
    rw [hu.1, hu.2, hv.1, hv.2, Nat.mod_mod]
    exact ⟨by omega, rfl⟩
  · rintro ⟨hs, hnano⟩
    obtain ⟨v, hv, hvn⟩ : ∃ v : Instant, v.second = t.second + 86400 * m ∧
        v.nano = t.nano % 1000000000 := exists_between (u := u) (by omega) (by omega)
    refine ⟨v, (addDays?_pos (by omega)).2 ⟨hv, hvn⟩, ?_⟩
    rw [addDays?_pos (by omega), hv, hvn, Nat.mod_mod]
    exact ⟨by omega, hnano⟩

/-- Going forward, the seconds are those of the days. -/
theorem second_of_addDays? {n : Nat} (h : t.addDays? n = some u) :
    u.second = t.second + 86400 * n := by
  rcases Nat.eq_zero_or_pos n with rfl | hn
  · rw [Nat.cast_zero, addDays?_zero] at h
    cases h
    omega
  · exact ((addDays?_pos (by omega)).1 h).1

theorem day_of_addDays? {n : Nat} (h : t.addDays? n = some u) : u.day = t.day + n := by
  rw [day, day, second_of_addDays? h]
  omega

/-- What comes sooner is on the time line too, and earlier there. -/
theorem addDays?_of_le {m n : Nat} (h : t.addDays? n = some u) (hm : m ≤ n) :
    ∃ v, t.addDays? m = some v ∧ v ≤ u := by
  obtain ⟨k, rfl⟩ := Nat.exists_eq_add_of_le hm
  rw [← addDays?_add, Option.bind_eq_some_iff] at h
  obtain ⟨v, hv, hu⟩ := h
  refine ⟨v, hv, ?_⟩
  rcases Nat.eq_zero_or_pos k with rfl | hk
  · rw [Nat.cast_zero, addDays?_zero] at hu
    cases hu
    exact le_iff.2 (.inr ⟨rfl, Nat.le_refl _⟩)
  · have hs := second_of_addDays? hu
    exact le_iff.2 (by omega)

end Instant

end Almanac
