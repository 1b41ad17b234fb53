import Almanac.Time.Date
import Almanac.Time.Delta

/-!
Moments in universal time, to the nanosecond, from the beginning of year -262143 to the end of year
262142.

A moment is a count of seconds since 1970, where every day has 86400 seconds, and a fraction.  A
leap second has no count of its own: it shares the count of the second `:59` before it, and its
fraction runs from one second up to two.  Adding a length of time leaves a leap second, unless the
sum stays inside it: a later moment is reckoned from the second `:59`, an earlier one from the
second after.
-/

namespace Almanac

/-- The first and the last second of the time line. -/
def firstSecond : Int := -8334601228800

@[inherit_doc firstSecond]
def lastSecond : Int := 8210266876799

/-- The counts and fractions that denote a moment. -/
def Instant.Fits (second : Int) (nano : Nat) : Prop :=
  firstSecond ≤ second ∧ second ≤ lastSecond ∧ nano < 2000000000 ∧
    (1000000000 ≤ nano → second % 60 = 59)

instance (second : Int) (nano : Nat) : Decidable (Instant.Fits second nano) :=
  inferInstanceAs (Decidable (_ ∧ _))

/-- A moment in universal time. -/
structure Instant where
  /-- Seconds since the beginning of 1970, leap seconds not counted. -/
  second : Int
  /-- Nanoseconds into the second; from a second up they lie in the leap second that follows it. -/
  nano : Nat
  /-- The moment is on the time line. -/
  fits : Instant.Fits second nano
  deriving DecidableEq, Repr

namespace Instant

/-- The moment with this count and fraction, if there is one. -/
def ofParts? (second : Int) (nano : Nat) : Option Instant :=
  if h : Fits second nano then some ⟨second, nano, h⟩ else none

/-- The beginning of 1970, which also marks a time that is not set. -/
def epoch : Instant := ⟨0, 0, by decide⟩

/-- The last nanosecond of the time line that is in no leap second. -/
def latest : Instant := ⟨lastSecond, 999999999, by decide⟩

/-- Earlier moments have the smaller count, or the same count and the smaller fraction. -/
def before (a b : Instant) : Bool :=
  a.second < b.second || (a.second == b.second && a.nano < b.nano)

instance : LT Instant := ⟨fun a b => a.before b = true⟩
instance : LE Instant := ⟨fun a b => b.before a = false⟩
instance (a b : Instant) : Decidable (a < b) := inferInstanceAs (Decidable (_ = true))
instance (a b : Instant) : Decidable (a ≤ b) := inferInstanceAs (Decidable (_ = false))

/-- Whether the moment lies in a leap second. -/
def isLeapSecond (t : Instant) : Bool := 1000000000 ≤ t.nano

/-- The number of its day. -/
def day (t : Instant) : Int := t.second / 86400

/-- Seconds since midnight. -/
def clock (t : Instant) : Int := t.second % 86400

/-- Its date. -/
def date (t : Instant) : Date := .ofDayNumber t.day

/-- Its weekday. -/
def weekday (t : Instant) : Weekday := Date.weekdayOf t.day

/-- The same time of another day. -/
def onDay? (t : Instant) (day : Int) : Option Instant := ofParts? (86400 * day + t.clock) t.nano

/-- The moment a number of nanoseconds after the beginning of a second. -/
def settle? (second nanos : Int) : Option Instant :=
  ofParts? (second + nanos / nanosPerSecond) (nanos % nanosPerSecond).toNat

/-- The moment a length of time later. -/
def add? (t : Instant) (d : Delta) : Option Instant :=
  if t.isLeapSecond then
    if 0 < d.wholeSeconds ∨ (0 < d.restNanos ∧ 2 * nanosPerSecond ≤ t.nano + d.restNanos) then
      settle? t.second (t.nano - nanosPerSecond + d.nanos)
    else if d.wholeSeconds < 0 then settle? (t.second + 1) (t.nano - nanosPerSecond + d.nanos)
    else ofParts? t.second (t.nano + d.restNanos).toNat
  else settle? t.second (t.nano + d.nanos)

/-- Whether a leap second counts between two moments: it does if its end lies between their times of
day, whatever their dates. -/
def leapCorrection (a b : Instant) : Int :=
  if b.clock < a.clock ∧ b.isLeapSecond then 1
  else if a.clock < b.clock ∧ a.isLeapSecond then -1
  else 0

theorem leapCorrection_bounds (a b : Instant) :
    -1 ≤ leapCorrection a b ∧ leapCorrection a b ≤ 1 := by
  unfold leapCorrection; split <;> (try split) <;> omega

/-- The length of time from one moment to a later one. -/
def since (later earlier : Instant) : Delta :=
  ⟨(later.second - earlier.second + leapCorrection later earlier) * nanosPerSecond
      + (later.nano - earlier.nano), by
    obtain ⟨ha, hb, hc, -⟩ := later.fits
    obtain ⟨hd, he, hf, -⟩ := earlier.fits
    have := leapCorrection_bounds later earlier
    simp only [firstSecond, lastSecond, nanosPerSecond] at *
    omega, by
    obtain ⟨ha, hb, hc, -⟩ := later.fits
    obtain ⟨hd, he, hf, -⟩ := earlier.fits
    have := leapCorrection_bounds later earlier
    simp only [firstSecond, lastSecond, nanosPerSecond] at *
    omega⟩

/-! ### Laws -/

@[ext] theorem ext {a b : Instant} (hs : a.second = b.second) (hn : a.nano = b.nano) : a = b := by
  cases a; cases b; simp_all

theorem ofParts?_eq_some {second : Int} {nano : Nat} {t : Instant} :
    ofParts? second nano = some t ↔ t.second = second ∧ t.nano = nano := by
  unfold ofParts?
  split
  · constructor
    · rintro h; cases h; exact ⟨rfl, rfl⟩
    · rintro ⟨rfl, rfl⟩; rfl
  · rename_i h
    constructor
    · intro h'; cases h'
    · rintro ⟨rfl, rfl⟩; exact absurd t.fits h

@[simp] theorem ofParts?_self (t : Instant) : ofParts? t.second t.nano = some t :=
  ofParts?_eq_some.2 ⟨rfl, rfl⟩

theorem clock_nonneg (t : Instant) : 0 ≤ t.clock := Int.emod_nonneg _ (by decide)

theorem clock_lt (t : Instant) : t.clock < 86400 := Int.emod_lt_of_pos _ (by decide)

theorem day_mul_add_clock (t : Instant) : 86400 * t.day + t.clock = t.second :=
  Int.mul_ediv_add_emod t.second 86400

@[simp] theorem onDay?_day (t : Instant) : t.onDay? t.day = some t := by
  simp [onDay?, day_mul_add_clock]

end Instant

end Almanac
