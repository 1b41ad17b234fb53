import Almanac.Property.Basic
import Almanac.Time.BasicForm

/-!
The properties of a component, in order.  Several may have one name; looking up finds the first of
them. `set` changes the value and the parameters of that first one and keeps its place and the
spelling of its name, or appends the property if there is none; `add` always appends.
-/

namespace Almanac.Store

/-- The first property of a name. -/
def get? (store : List Property) (name : String) : Option Property :=
  store.find? (·.isNamed name)

/-- All properties of a name. -/
def getAll (store : List Property) (name : String) : List Property :=
  store.filter (·.isNamed name)

/-- The value of the first property of a name. -/
def text? (store : List Property) (name : String) : Option String :=
  (get? store name).map Property.value

/-- Changes the first property of the same name, or appends the property. -/
def set (store : List Property) (p : Property) : List Property :=
  match store with
  | [] => [p]
  | q :: rest =>
    if q.isNamed p.name then { q with params := p.params, value := p.value } :: rest
    else q :: set rest p

/-- Appends a property. -/
def add (store : List Property) (p : Property) : List Property := store ++ [p]

/-- The first property of a name, read as a moment.  A failure cites the name that was asked for. -/
def time (store : List Property) (name : String) : Except Failure Instant :=
  match get? store name with
  | none => .error (.propertyNotFound name)
  | some p =>
    match Instant.ofBasicText? (Text.trim p.value.toList) with
    | some t => .ok t
    | none => .error (.invalidDateTime name p.value)

/-! ### Changes -/

/-- One change to the properties of a component. -/
inductive Change where
  /-- Sets the first property of a name, or appends one. -/
  | set (p : Property)
  /-- Appends a property. -/
  | add (p : Property)
  deriving DecidableEq, Repr

/-- The properties after a change. -/
def apply (store : List Property) : Change → List Property
  | .set p => set store p
  | .add p => add store p

/-- Sets a property without parameters. -/
def Change.plain (name value : String) : Change := .set (.plain name value)

end Almanac.Store
