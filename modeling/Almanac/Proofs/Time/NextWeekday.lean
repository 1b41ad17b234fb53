import Almanac.Proofs.Time.Forward
import Almanac.Proofs.Time.Weekdays
import Mathlib.Logic.Function.Iterate
import Mathlib.Order.Bounds.Basic

/-!
The next day that is a given weekday.  Of seven days in a row exactly one falls on the weekday, and
the step goes to the first one that counts: today is among them if the step is inclusive, and else
the days begin with tomorrow (`isLeast_daysTo`).

    today     We  Th  Fr  Sa  Su  Mo  Tu  We
    inclusive ●───────────────────────┘
    exclusive     └───────────────────────●

So an exclusive step is an inclusive one from tomorrow, and from a day on the weekday it goes a week
at a time (`nextWeekday?_exact`).
-/

namespace Almanac.Instant

variable {t u : Instant} {w : Weekday}

/-- The number of days to the next day that is the given weekday. -/
def daysTo (t : Instant) (w : Weekday) (inclusive : Bool) : Nat :=
  if t.weekday.ahead w = 0 ∧ inclusive = false then 7 else t.weekday.ahead w

theorem nextWeekday?_eq (t : Instant) (w : Weekday) (inclusive : Bool) :
    t.nextWeekday? w inclusive = t.addDays? (t.daysTo w inclusive : Nat) := by
  rw [nextWeekday?, daysTo]
  split <;> rfl

/-- No day that counts is on the weekday before the one to which the step goes. -/
theorem isLeast_daysTo (t : Instant) (w : Weekday) (inclusive : Bool) :
    IsLeast {k : Nat | (inclusive = false → 1 ≤ k) ∧ Date.weekdayOf (t.day + k) = w}
      (t.daysTo w inclusive) := by
  have hlt := t.weekday.ahead_lt w
  have hon : ∀ k : Nat, Date.weekdayOf (t.day + k) = w ↔ k % 7 = t.weekday.ahead w := fun k =>
    Date.weekdayOf_add_eq_iff t.day k w
  simp only [hon]
  constructor
  · rw [daysTo]
    split
    · next h => exact ⟨fun _ => by omega, by omega⟩
    · next h => exact ⟨fun hi => by simp [hi] at h; omega, by omega⟩
  · rintro k ⟨hk, hmod⟩
    rw [daysTo]
    split
    · next h =>
      have := hk h.2
      omega
    · omega

theorem daysTo_le (t : Instant) (w : Weekday) (inclusive : Bool) :
    t.daysTo w inclusive ≤ if inclusive then 6 else 7 := by
  have hlt := t.weekday.ahead_lt w
  cases inclusive <;> simp only [daysTo] <;> split <;> simp_all <;> omega

/-- What lies past the end of the time line is not found. -/
theorem addDays?_eq_none_iff (h : t.isLeapSecond = false) (k : Nat) :
    t.addDays? k = none ↔ lastSecond < t.second + 86400 * k := by
  obtain ⟨hlow, -, -, -⟩ := t.fits
  have hnano := nano_lt_of_not_leap h
  rw [Option.eq_none_iff_forall_ne_some]
  constructor
  · intro hnone
    by_contra hle
    have hfits : Fits (t.second + 86400 * k) t.nano :=
      ⟨by omega, by omega, by omega, fun hl => by omega⟩
    exact hnone ⟨_, _, hfits⟩ ((addDays?_eq_some h).2 ⟨rfl, rfl⟩)
  · intro hlt u hu
    have hs := ((addDays?_eq_some h).1 hu).second
    have hhigh := u.fits.2.1
    omega

/-- The days that count from tomorrow on are a day nearer to tomorrow. -/
theorem daysTo_of_next {next : Instant} (h : next.day = t.day + 1) (w : Weekday) :
    t.daysTo w false = next.daysTo w true + 1 := by
  have hshift : ∀ k : Nat, t.day + (k + 1 : Nat) = next.day + k := fun k => by omega
  obtain ⟨⟨hpos, hon⟩, hleast⟩ := t.isLeast_daysTo w false
  obtain ⟨⟨-, hnext⟩, hfirst⟩ := next.isLeast_daysTo w true
  obtain ⟨m, hm⟩ := Nat.exists_eq_add_of_le' (hpos rfl)
  apply Nat.le_antisymm
  · exact hleast ⟨fun _ => by omega, by rw [hshift]; exact hnext⟩
  · rw [hm] at hon ⊢
    rw [hshift] at hon
    exact Nat.succ_le_succ (hfirst ⟨by simp, hon⟩)

theorem daysTo_of_weekday (h : t.weekday = w) : t.daysTo w false = 7 := by
  subst h
  simp [daysTo, Weekday.ahead]

/-- Whole weeks keep the weekday. -/
theorem weekday_of_addWeeks {j : Nat} (h : t.addDays? (7 * j : Nat) = some u) :
    u.weekday = t.weekday := by
  rw [weekday, day_of_addDays? h, Date.weekdayOf_add_eq_iff, ← weekday, Weekday.ahead]
  have hlt := t.weekday.index_lt
  omega

/-- From a day on the weekday the exclusive step goes a week at a time. -/
theorem iterate_nextWeekday? (h : t.weekday = w) (j : Nat) :
    (fun found => found.bind (·.nextWeekday? w false))^[j] (some t) = t.addWeeks? j := by
  have hweeks : ∀ j : Nat, t.addWeeks? j = t.addDays? (7 * j : Nat) := fun j => by
    rw [addWeeks?, Nat.cast_mul]
    rfl
  induction j with
  | zero => exact (t.addDays?_zero).symm
  | succ j ih =>
    rw [Function.iterate_succ_apply', ih, hweeks, hweeks, Nat.mul_succ, ← addDays?_add]
    cases hu : t.addDays? (7 * j : Nat) with
    | none => rfl
    | some u =>
      have hday : u.weekday = w := (weekday_of_addWeeks hu).trans h
      rw [Option.bind_some, Option.bind_some, nextWeekday?_eq, daysTo_of_weekday hday]

/-- The next day that is a given weekday is the nearest day on it, today counting only in an
inclusive step, at the same time of day; it is missed exactly if that moment is not on the time
line.  An exclusive step is an inclusive one from tomorrow, and from a day on the weekday any
number of exclusive steps goes as many weeks. -/
theorem nextWeekday?_exact (t : Instant) (h : t.isLeapSecond = false) (w : Weekday) :
    (∀ inclusive, ∃ k : Nat,
      IsLeast {k : Nat | (inclusive = false → 1 ≤ k) ∧ Date.weekdayOf (t.day + k) = w} k ∧
      (k ≤ if inclusive then 6 else 7) ∧
      (∀ u, t.nextWeekday? w inclusive = some u ↔ Later k t u) ∧
      (t.nextWeekday? w inclusive = none ↔ lastSecond < t.second + 86400 * k)) ∧
    (∀ next, t.addDays? 1 = some next →
      t.nextWeekday? w false = next.nextWeekday? w true) ∧
    (t.weekday = w → ∀ j : Nat,
      (fun found => found.bind (·.nextWeekday? w false))^[j] (some t) = t.addWeeks? j) := by
  refine ⟨fun inclusive => ⟨t.daysTo w inclusive, t.isLeast_daysTo w inclusive,
    t.daysTo_le w inclusive, fun u => ?_, ?_⟩, fun next hnext => ?_, iterate_nextWeekday?⟩
  · rw [nextWeekday?_eq]
    exact addDays?_eq_some h
  · rw [nextWeekday?_eq]
    exact addDays?_eq_none_iff h _
  · have hnext : t.addDays? (1 : Nat) = some next := hnext
    rw [nextWeekday?_eq, nextWeekday?_eq, daysTo_of_next (day_of_addDays? hnext), Nat.add_comm,
      ← addDays?_add, hnext, Option.bind_some]

/-- An evening on the last Monday but one of the time line.  The next Monday is the last day there
is, and a second step or the week after finds nothing. -/
theorem lastMondays_nextWeekday?_exact :
    let t : Instant := ⟨8210266250400, 0, by decide⟩
    let tomorrow : Instant := ⟨8210266336800, 0, by decide⟩
    let last : Instant := ⟨8210266855200, 0, by decide⟩
    t.isLeapSecond = false ∧ t.weekday = .monday ∧ t.addDays? 1 = some tomorrow ∧
      t.nextWeekday? .monday true = some t ∧
      tomorrow.nextWeekday? .monday true = some last ∧ t.nextWeekday? .monday false = some last ∧
      (fun found => found.bind (·.nextWeekday? .monday false))^[1] (some t) = some last ∧
      (fun found => found.bind (·.nextWeekday? .monday false))^[2] (some t) = none := by
  intro t tomorrow last
  have hl : t.isLeapSecond = false := rfl
  have hday : t.weekday = .monday := by decide
  have hnext : t.addDays? 1 = some tomorrow := by decide
  have hlast : tomorrow.nextWeekday? .monday true = some last := by decide
  obtain ⟨-, htomorrow, hweeks⟩ := nextWeekday?_exact t hl .monday
  exact ⟨hl, hday, hnext, by decide, hlast, (htomorrow tomorrow hnext).trans hlast,
    (hweeks hday 1).trans (by decide), (hweeks hday 2).trans (by decide)⟩

end Almanac.Instant
