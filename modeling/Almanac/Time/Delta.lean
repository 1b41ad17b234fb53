/-!
Lengths of time.  A `Delta` is a whole number of nanoseconds, positive or negative, of at most
`2 ^ 63 - 1` milliseconds in size.
-/

namespace Almanac

/-- Nanoseconds in a second. -/
def nanosPerSecond : Int := 1000000000

/-- A signed length of time. -/
structure Delta where
  /-- Its length in nanoseconds. -/
  nanos : Int
  /-- It is not below the least length. -/
  lo : -9223372036854775807000000 ≤ nanos
  /-- It is not above the greatest length. -/
  hi : nanos ≤ 9223372036854775807000000
  deriving DecidableEq, Repr

namespace Delta

/-- A length in nanoseconds, if it is in range. -/
def ofNanos? (n : Int) : Option Delta :=
  if h : -9223372036854775807000000 ≤ n ∧ n ≤ 9223372036854775807000000 then some ⟨n, h.1, h.2⟩
  else none

/-- A length in seconds, if it is in range. -/
def ofSeconds? (n : Int) : Option Delta := ofNanos? (n * nanosPerSecond)

/-- A length in days of 86400 seconds, if it is in range. -/
def ofDays? (n : Int) : Option Delta := ofSeconds? (n * 86400)

/-- The sum of two lengths, if it is in range. -/
def plus? (a b : Delta) : Option Delta := ofNanos? (a.nanos + b.nanos)

/-- No time at all. -/
def zero : Delta := ⟨0, by decide, by decide⟩

/-- The greatest length. -/
def greatest : Delta := ⟨9223372036854775807000000, by decide, by decide⟩

/-- The least length. -/
def least : Delta := ⟨-9223372036854775807000000, by decide, by decide⟩

/-- A fortnight. -/
def fortnight : Delta := ⟨1209600000000000, by decide, by decide⟩

/-- The whole seconds, cut off toward zero. -/
def wholeSeconds (d : Delta) : Int := d.nanos.tdiv nanosPerSecond

/-- The nanoseconds beyond the whole seconds, with the sign of the whole. -/
def restNanos (d : Delta) : Int := d.nanos.tmod nanosPerSecond

/-! ### Laws -/

@[ext] theorem ext {a b : Delta} (h : a.nanos = b.nanos) : a = b := by
  cases a; cases b; simp_all

end Delta

end Almanac
