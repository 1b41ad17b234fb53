import Almanac.Settings.Toml.Scalar
import Almanac.Settings.Toml.Syntax

/-!
The tables that the lines of a configuration file make.

A line `name = value` belongs to the table whose header stands above it, or to the whole file.  A
name of several parts reaches into tables and makes those that are not there.  How a table came to
be decides what may still be put into it: a table with a header of its own is complete when the next
header comes, one in braces is complete at once, and one that a dotted name has made takes dotted
names only.  A table that is there only because a table inside it has a header may still get a
header of its own.

The rows of a table are kept in the order of their names.
-/

namespace Almanac.Toml

/-- How a table came to be. -/
inductive Making where
  /-- By its header, or it is the whole file. -/
  | header
  /-- By the header of a table inside it. -/
  | implied
  /-- By a dotted name. -/
  | dotted
  /-- By braces. -/
  | braces
  deriving DecidableEq, Repr

/-- A value of a file. -/
inductive Node where
  | scalar (value : Scalar)
  | list (items : List Node)
  /-- A list of tables with headers. -/
  | tables (items : List Node)
  | table (making : Making) (rows : List (String × Node))

/-- The rows of a table. -/
abbrev Rows := List (String × Node)

/-- One part of a name. -/
structure Part where
  /-- The name. -/
  name : String
  /-- Where it is written. -/
  place : Stretch
  deriving DecidableEq, Repr

/-! ### Putting things into tables -/

/-- The fault of a name that is taken. -/
def duplicate (p : Part) : Except Fault α := .error (.plain "duplicate key" p.place)

/-- The fault of a path through something that is no open table. -/
def notOpen (p : Part) (kind : String) : Except Fault α :=
  .error (.plain ("cannot extend value of type " ++ kind ++ " with a dotted key") p.place)

/-- The name of the type of a single value. -/
def Scalar.kind : Scalar → String
  | .text _ => "string"
  | .integer _ _ => "integer"
  | .float _ => "float"
  | .truth _ => "boolean"
  | .moment _ => "datetime"

/-- Puts a value under a name. -/
def setRow (rows : Rows) (name : String) (node : Node) : Rows :=
  match rows with
  | [] => [(name, node)]
  | row :: rest =>
    if name = row.1 then (name, node) :: rest
    else if name < row.1 then (name, node) :: row :: rest
    else row :: setRow rest name node

/-- In what a path is walked. -/
inductive Way where
  /-- In a header. -/
  | header
  /-- In the name of a line. -/
  | line
  /-- In a name within braces. -/
  | braces
  deriving DecidableEq, Repr

/-- The fault, if there is one, of walking into a table that is there. -/
def Way.check (way : Way) (p : Part) (making : Making) : Except Fault Unit :=
  match making, way with
  | .braces, .braces => duplicate p
  | .braces, _ => notOpen p "inline table"
  | .header, .header => .ok ()
  | .header, _ => duplicate p
  | _, _ => .ok ()

/-- Walks a path from a table, making the tables that are not there, and changes the table at its
end. -/
def alter (way : Way) (change : Making → Rows → Except Fault (α × Rows)) (making : Making)
    (rows : Rows) : List Part → Except Fault (α × Rows)
  | [] => change making rows
  | p :: path =>
    match rows.lookup p.name with
    | none => do
      let making := if way = .header then .implied else .dotted
      let (found, inner) ← alter way change making [] path
      return (found, setRow rows p.name (.table making inner))
    | some (.table making inner) => do
      way.check p making
      let (found, inner) ← alter way change making inner path
      return (found, setRow rows p.name (.table making inner))
    | some (.tables items) =>
      match items.getLast? with
      | some (.table making inner) => do
        let (found, inner) ← alter way change making inner path
        return (found, setRow rows p.name (.tables (items.dropLast ++ [.table making inner])))
      | _ => notOpen p "array"
    | some (.list _) => notOpen p "array"
    | some (.scalar value) => notOpen p value.kind

/-- Puts a value under the last part of a name, which must be free there.  Dotted names and others
do not share a table. -/
def insert (way : Way) (making : Making) (rows : Rows) (path : List Part) (key : Part)
    (node : Node) : Except Fault Rows := do
  let change (making : Making) (rows : Rows) : Except Fault (Unit × Rows) :=
    if making = .dotted ↔ path = [] then duplicate key
    else if (rows.lookup key.name).isSome then duplicate key
    else .ok ((), setRow rows key.name node)
  return (← alter way change making rows path).2

/-! ### Names and values -/

/-- How many parts a name may have. -/
def partLimit : Nat := 80

/-- Reads the text of a part. -/
def partOf (t : Token) : Except Fault Part :=
  (partText t).map fun text => ⟨String.ofList text, t.place⟩

/-- Reads the texts of the parts of a name, and sets the last apart. -/
def nameOf (tokens : List Token) : Except Fault (List Part × Part) := do
  let parts ← tokens.mapM partOf
  if partLimit < parts.length then .error ⟨"recursion limit", none, none⟩
  else return (parts.dropLast, parts.getLastD ⟨"", .spot 0⟩)

mutual

/-- Reads the texts in a value. -/
def nodeOf : Written → Except Fault Node
  | .scalar token => (scalarOf token).map .scalar
  | .list items => (nodesOf items).map .list
  | .table rows => (bracesOf [] rows).map (.table .braces)

/-- Reads the texts in the values of a list. -/
def nodesOf : List Written → Except Fault (List Node)
  | [] => .ok []
  | item :: rest => do
    let node ← nodeOf item
    return node :: (← nodesOf rest)

/-- Reads the texts in the rows of a table in braces and adds them to those before them. -/
def bracesOf (before : Rows) : List (List Token × Option Written) → Except Fault Rows
  | [] => .ok before
  | (name, none) :: rest => do
    let _ ← nameOf name
    bracesOf before rest
  | (name, some written) :: rest => do
    let (path, key) ← nameOf name
    let node ← nodeOf written
    bracesOf (← insert .braces .braces before path key node) rest

end

/-! ### Documents -/

/-- A header: the name that it gives, and whether that is a list of tables. -/
structure Header where
  /-- The parts before the last. -/
  path : List Part
  /-- The last part. -/
  key : Part
  /-- Whether the table is one of a list. -/
  listed : Bool
  deriving DecidableEq, Repr

/-- A file of which some lines have been read. -/
structure Document where
  /-- The tables that are complete. -/
  root : Rows
  /-- The header that stands above the next line, if one does. -/
  header : Option Header
  /-- The rows that have come since, and those that were there before. -/
  current : Rows

namespace Document

/-- No lines. -/
def empty : Document := ⟨[], none, []⟩

/-- The whole file after its last line, or before a header. -/
def close (d : Document) : Except Fault Rows :=
  match d.header with
  | none => .ok d.current
  | some h => do
    let table : Node := .table .header d.current
    let change (_ : Making) (rows : Rows) : Except Fault (Unit × Rows) :=
      if h.listed then
        match rows.lookup h.key.name with
        | none => .ok ((), setRow rows h.key.name (.tables [table]))
        | some (.tables items) => .ok ((), setRow rows h.key.name (.tables (items ++ [table])))
        | some _ => duplicate h.key
      else .ok ((), setRow rows h.key.name table)
    return (← alter .header change .header d.root h.path).2

/-- Begins the table of a header in a file.  A table that is only implied goes on. -/
def start (root : Rows) (h : Header) : Except Fault Document :=
  if h.listed then .ok ⟨root, some h, []⟩
  else do
    let change (_ : Making) (rows : Rows) : Except Fault (Rows × Rows) :=
      match rows.lookup h.key.name with
      | none => .ok ([], rows)
      | some (.table .implied inner) => .ok (inner, rows)
      | some _ => duplicate h.key
    let (current, root) ← alter .header change .header root h.path
    return ⟨root, some h, current⟩

/-- Reads one more line. -/
def step (d : Document) : Row → Except Fault Document
  | .pair name written => do
    let (path, key) ← nameOf name
    let node ← nodeOf written
    return { d with current := ← insert .line .header d.current path key node }
  | .header name => do
    let root ← d.close
    let (path, key) ← nameOf name
    start root ⟨path, key, false⟩
  | .listHeader name => do
    let root ← d.close
    let (path, key) ← nameOf name
    start root ⟨path, key, true⟩

end Document

/-- The tables of a text, or its first fault. -/
def document (text : List Char) : Except Fault Rows := do
  (← (← syntaxOf text).foldlM Document.step .empty).close

end Almanac.Toml
