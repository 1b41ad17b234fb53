import Almanac.Text.Letter

/-!
The seven weekdays, counted from Monday.  `ahead` is the number of days, zero to six, from one
weekday forward to another.
-/

namespace Almanac

/-- A day of the week. -/
inductive Weekday where
  | monday | tuesday | wednesday | thursday | friday | saturday | sunday
  deriving DecidableEq, Repr

namespace Weekday

/-- Days since Monday. -/
def index : Weekday → Nat
  | .monday => 0 | .tuesday => 1 | .wednesday => 2 | .thursday => 3
  | .friday => 4 | .saturday => 5 | .sunday => 6

/-- The weekday a number of days after Monday. -/
def ofIndex (n : Nat) : Weekday :=
  match n % 7 with
  | 0 => .monday | 1 => .tuesday | 2 => .wednesday | 3 => .thursday
  | 4 => .friday | 5 => .saturday | _ => .sunday

/-- The two-letter code of the calendar format. -/
def code : Weekday → String
  | .monday => "MO" | .tuesday => "TU" | .wednesday => "WE" | .thursday => "TH"
  | .friday => "FR" | .saturday => "SA" | .sunday => "SU"

/-- The three-letter English abbreviation. -/
def abbreviation : Weekday → String
  | .monday => "Mon" | .tuesday => "Tue" | .wednesday => "Wed" | .thursday => "Thu"
  | .friday => "Fri" | .saturday => "Sat" | .sunday => "Sun"

/-- All weekdays from Monday on. -/
def all : List Weekday := [.monday, .tuesday, .wednesday, .thursday, .friday, .saturday, .sunday]

/-- Reads a two-letter code in either case. -/
def ofCode? (word : String) : Option Weekday := Text.lookUp? (all.map fun d => (d.code, d)) word

/-- Days from one weekday forward to the next occurrence of another, today included. -/
def ahead (here there : Weekday) : Nat := (there.index + 7 - here.index) % 7

/-! ### Laws -/

theorem index_lt (d : Weekday) : d.index < 7 := by cases d <;> decide

@[simp] theorem ofIndex_index (d : Weekday) : ofIndex d.index = d := by cases d <;> rfl

@[simp] theorem index_ofIndex (n : Nat) : (ofIndex n).index = n % 7 := by
  have h : n % 7 < 7 := Nat.mod_lt _ (by decide)
  unfold ofIndex
  generalize n % 7 = m at h
  match m, h with
  | 0, _ | 1, _ | 2, _ | 3, _ | 4, _ | 5, _ | 6, _ => rfl

theorem ahead_lt (here there : Weekday) : ahead here there < 7 := Nat.mod_lt _ (by decide)

end Weekday

end Almanac
