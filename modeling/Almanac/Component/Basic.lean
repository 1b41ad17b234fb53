import Almanac.Component.Kind
import Almanac.Property.Store

/-!
Components and calendars.  A component has a token, properties and further components, each in
order; a calendar has properties and components.  A place in a calendar is a path of indices, the
empty path being the calendar itself.
-/

namespace Almanac

/-- A component of a calendar. -/
structure Component where
  /-- What it is. -/
  token : Token
  /-- Its properties in order. -/
  properties : List Property
  /-- The components in it, in order. -/
  components : List Component

namespace Component

mutual

/-- Decides whether two components are equal. -/
def equality : (a b : Component) → Decidable (a = b)
  | ⟨t, ps, cs⟩, ⟨u, qs, ds⟩ =>
    if ht : t = u then
      if hp : ps = qs then
        match equalities cs ds with
        | isTrue hc => isTrue (by rw [ht, hp, hc])
        | isFalse hc => isFalse (by intro e; cases e; exact hc rfl)
      else isFalse (by intro e; cases e; exact hp rfl)
    else isFalse (by intro e; cases e; exact ht rfl)

/-- Decides whether two lists of components are equal. -/
def equalities : (as bs : List Component) → Decidable (as = bs)
  | [], [] => isTrue rfl
  | [], _ :: _ => isFalse (by simp)
  | _ :: _, [] => isFalse (by simp)
  | a :: as, b :: bs =>
    match equality a b, equalities as bs with
    | isTrue ha, isTrue hs => isTrue (by rw [ha, hs])
    | isFalse ha, _ => isFalse (by intro e; cases e; exact ha rfl)
    | _, isFalse hs => isFalse (by intro e; cases e; exact hs rfl)

end

instance : DecidableEq Component := equality

instance : Inhabited Component := ⟨⟨.other "", [], []⟩⟩

/-- An empty component with the token that a word stands for. -/
def named (word : String) : Component := ⟨.ofText word, [], []⟩

/-- An empty component of a known kind. -/
def ofRole (role : Role) : Component := ⟨.known role, [], []⟩

/-- Whether it is of a known kind. -/
def is (c : Component) (role : Role) : Bool := c.token == .known role

/-- Makes one change to the properties. -/
def change (c : Component) (change : Store.Change) : Component :=
  { c with properties := Store.apply c.properties change }

/-- Appends a component. -/
def push (c child : Component) : Component := { c with components := c.components ++ [child] }

/-- The component at a path below this one. -/
def at? (c : Component) : List Nat → Option Component
  | [] => some c
  | i :: path => (c.components[i]?).bind fun child => child.at? path

/-- Changes the component at a path below this one; a path that leads nowhere changes nothing. -/
def modifyAt (change : Component → Component) : List Nat → Component → Component
  | [], c => change c
  | i :: path, c => { c with components := c.components.modify i (modifyAt change path) }

end Component

/-- A calendar. -/
structure Calendar where
  /-- Its properties in order. -/
  properties : List Property
  /-- Its components in order. -/
  components : List Component
  deriving DecidableEq

end Almanac
