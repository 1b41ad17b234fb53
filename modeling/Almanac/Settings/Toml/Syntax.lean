import Almanac.Settings.Toml.Token

/-!
The shape of a configuration file: its lines, and in them names of several parts, values, lists and
tables in braces, all of them still as written.

The readers here refuse what is in the wrong place, and the first such fault is the fault of the
file.  What is missing in a place where only its text can be wrong is put in as a word without
characters, for whoever reads that text to refuse: the parts of a name around a dot, and a value
after an equals sign.

Each reader takes a cursor and gives back what it read and where it stopped.  The readers of nested
values have two bounds: `room`, how much deeper lists and tables in braces may lie, and `fuel`,
which is twice the number of the tokens and so never runs out.
-/

namespace Almanac.Toml

/-- A value as written. -/
inductive Written where
  | scalar (token : Token)
  | list (items : List Written)
  /-- A table in braces: names, each with its value unless the table ends before one. -/
  | table (rows : List (List Token × Option Written))

/-- A line as written. -/
inductive Row where
  /-- A name and its value. -/
  | pair (name : List Token) (value : Written)
  /-- The name of a table, to which the lines after it belong. -/
  | header (name : List Token)
  /-- The name of a list of tables, to the next of which the lines after it belong. -/
  | listHeader (name : List Token)

/-! ### The cursor -/

/-- Where a reader of tokens stands. -/
structure Cursor where
  /-- The tokens ahead. -/
  ahead : List Token
  /-- The number of bytes of the whole text. -/
  limit : Nat
  /-- The end of the last token behind that is neither blank nor comment nor line end. -/
  mark : Nat
  deriving DecidableEq, Repr

namespace Cursor

/-- The next token. -/
def peek (c : Cursor) : Token := c.ahead.headD ⟨.finish, c.limit, []⟩

/-- The kind of the next token. -/
def kind (c : Cursor) : Kind := c.peek.kind

/-- The spot before the next token. -/
def front (c : Cursor) : Stretch := c.peek.front

/-- Passes over the next token. -/
def next (c : Cursor) : Cursor :=
  let mark := if c.kind ∈ [.blank, .comment, .newline, .finish] then c.mark else c.peek.stop
  ⟨c.ahead.tail, c.limit, mark⟩

/-- Passes over blanks. -/
def skipBlank (c : Cursor) : Cursor := if c.kind = .blank then c.next else c

end Cursor

/-- A reader of tokens. -/
abbrev Reader (α : Type) := Cursor → Except Fault (α × Cursor)

/-- A fault that wants certain characters. -/
def missing (message text : String) (place : Stretch) : Except Fault α :=
  .error (.wanting message [.exactly text] place)

/-! ### What says nothing -/

/-- Whether a character may stand in a comment. -/
def isCommentChar (c : Char) : Bool := c = '\t' || (32 ≤ c.toNat && c.toNat ≠ 127)

/-- Refuses a carriage return without a line feed. -/
def checkNewline (t : Token) : Except Fault Unit :=
  if t.text = ['\r'] then
    .error (.wanting "carriage return must be followed by newline" [.exactly "\n"] (.spot t.stop))
  else .ok ()

/-- Refuses a comment with characters that cannot be seen. -/
def checkComment (t : Token) : Except Fault Unit :=
  let fair := t.text.takeWhile isCommentChar
  if fair = t.text then .ok ()
  else .error (.wanting "invalid comment character" [.described "printable characters"]
    (.spot (t.start + byteCount fair)))

/-- Refuses what is wrong in a blank, a comment or a line end. -/
def checkSpace (t : Token) : Except Fault Unit :=
  match t.kind with
  | .comment => checkComment t
  | .newline => checkNewline t
  | _ => .ok ()

/-- Passes over a line end, if one is next. -/
def takeNewline (c : Cursor) : Except Fault Cursor :=
  if c.kind = .newline then (checkNewline c.peek).map fun _ => c.next else .ok c

/-- Takes the end of a line. -/
def takeLineEnd (c : Cursor) : Except Fault Cursor := do
  let c := c.skipBlank
  match c.kind with
  | .comment => do checkComment c.peek; takeNewline c.next
  | .newline | .finish => takeNewline c
  | _ => .error (.wanting "unexpected key or value" [.exactly "\n", .exactly "#"] c.front)

/-- Passes over the rest of a line, whatever it holds. -/
def dropLine (fuel : Nat) (c : Cursor) : Except Fault Cursor :=
  match fuel with
  | 0 => .ok c
  | fuel + 1 =>
    match c.kind with
    | .comment => do checkComment c.peek; takeNewline c.next
    | .newline | .finish => takeNewline c
    | _ => dropLine fuel c.next

/-! ### Names -/

/-- Whether a token can be a part of a name. -/
def Kind.isPart (k : Kind) : Bool := k ∈ [.literal, .longLiteral, .basic, .longBasic, .word]

/-- Reads one part of a name.  One that is missing before a dot is put in; so is one that is missing
elsewhere, and then the name is not whole. -/
def namePart (c : Cursor) : Token × Bool × Cursor :=
  if c.kind.isPart then (c.peek, true, c.next)
  else (.missing c.peek.start, c.kind = .dot, c)

/-- Reads the parts of a name after the first. -/
def nameRest (fuel : Nat) (c : Cursor) : List Token × Bool × Cursor :=
  match fuel with
  | 0 => ([], true, c)
  | fuel + 1 =>
    let c := c.skipBlank
    if c.kind = .dot then
      match namePart c.next.skipBlank with
      | (part, true, c) =>
        let (parts, whole, c) := nameRest fuel c
        (part :: parts, whole, c)
      | (part, false, c) => ([part], false, c)
    else ([], true, c)

/-- Reads a name, and tells whether it is whole. -/
def name (c : Cursor) : List Token × Bool × Cursor :=
  match namePart c with
  | (part, true, c) =>
    let (parts, whole, c) := nameRest (c.ahead.length + 1) c
    (part :: parts, whole, c)
  | (part, false, c) => ([part], false, c)

/-! ### Values -/

/-- The characters of a value without quotes, and the tokens after it: words and dots, and words
after blanks. -/
def wordRun : List Token → List Char × List Token
  | t :: rest =>
    let goOn : Bool := match t.kind with
      | .word | .dot => true
      | .blank => rest.head?.any fun t => t.kind = .word
      | _ => false
    if goOn then
      let (text, rest) := wordRun rest
      (t.text ++ text, rest)
    else ([], t :: rest)
  | [] => ([], [])

/-- Reads a value without quotes. -/
def wordValue (c : Cursor) : Token × Cursor :=
  let (text, rest) := wordRun c.ahead
  let token : Token := ⟨.word, c.peek.start, text⟩
  (token, ⟨rest, c.limit, token.stop⟩)

/-- What a table in braces wants next. -/
inductive Want where
  | key | equals | value | comma
  deriving DecidableEq, Repr

/-- What would be right next. -/
def Want.wanted : Want → Wanted
  | .key => .described "key"
  | .equals => .exactly "="
  | .value => .described "value"
  | .comma => .exactly ","

/-- A row of a table in braces of which only the name has been read. -/
abbrev Pending := Option (List Token)

/-- The rows of a table in braces with the row that has been read in part. -/
def withPending (pending : Pending) (rows : List (List Token × Option Written)) :
    List (List Token × Option Written) :=
  match pending with
  | some name => (name, none) :: rows
  | none => rows

/-- Refuses a list or a table that lies too deep. -/
def tooDeep (t : Token) : Except Fault α :=
  .error (.plain "cannot recurse further; max recursion depth met" t.place)

mutual

/-- Reads a value. -/
def value (fuel room : Nat) : Reader Written := fun c =>
  match fuel with
  | 0 => .ok (.scalar (.missing c.peek.start), c)
  | fuel + 1 =>
    match c.kind with
    | .equals => .error (.wanting "extra `=`" [] c.peek.place)
    | .openBracket =>
      match room with
      | 0 => tooDeep c.peek
      | room + 1 => (items fuel room false c.next).map fun (items, c) => (.list items, c)
    | .openBrace =>
      match room with
      | 0 => tooDeep c.peek
      | room + 1 => (rows fuel room .key none c.next).map fun (rows, c) => (.table rows, c)
    | .closeBracket => missing "missing array opening" "[" c.front
    | .closeBrace => missing "missing inline table opening" "\x7b" c.front
    | .literal | .longLiteral | .basic | .longBasic => .ok (.scalar c.peek, c.next)
    | .word | .dot => let (token, c) := wordValue c; .ok (.scalar token, c)
    | .comma | .comment | .newline | .blank | .finish => .ok (.scalar (.missing c.peek.start), c)

/-- Reads the values of a list after its bracket, or after a value if a comma is wanted. -/
def items (fuel room : Nat) (comma : Bool) : Reader (List Written) := fun c =>
  match fuel with
  | 0 => .ok ([], c)
  | fuel + 1 =>
    match c.kind with
    | .blank | .comment | .newline => do checkSpace c.peek; items fuel room comma c.next
    | .finish => missing "unclosed array" "]" (.spot c.mark)
    | .comma =>
      if comma then items fuel room false c.next
      else .error (.wanting "extra comma in array" [.described "value"] c.peek.place)
    | .equals =>
      .error (.wanting "unexpected `=` in array" [.described "value", .exactly "]"] c.front)
    | .closeBracket => .ok ([], c.next)
    | .closeBrace => missing "missing inline table opening" "\x7b" c.front
    | _ =>
      if comma then missing "missing comma between array elements" "," c.front
      else do
        let (item, c) ← value fuel room c
        let (rest, c) ← items fuel room true c
        return (item :: rest, c)

/-- Reads the rows of a table in braces: after its brace, or wherever in a row `want` says. -/
def rows (fuel room : Nat) (want : Want) (pending : Pending) :
    Reader (List (List Token × Option Written)) := fun c =>
  match fuel with
  | 0 => .ok (withPending pending [], c)
  | fuel + 1 =>
    let refuse (message : String) (place : Stretch) :
        Except Fault (List (List Token × Option Written) × Cursor) :=
      .error (.wanting message [want.wanted] place)
    let readValue (c : Cursor) : Except Fault (List (List Token × Option Written) × Cursor) := do
      let (read, c) ← value fuel room c
      let (rest, c) ← rows fuel room .comma none c
      return ((pending.getD [], some read) :: rest, c)
    match c.kind, want with
    | .blank, _ | .comment, _ | .newline, _ => do
      checkSpace c.peek
      rows fuel room want pending c.next
    | .finish, _ => missing "unclosed inline table" "\x7d" (.spot c.mark)
    | .closeBrace, _ => .ok (withPending pending [], c.next)
    | .comma, .comma => rows fuel room .key none c.next
    | .comma, _ => refuse "extra comma in inline table" c.peek.place
    | .equals, .key => rows fuel room .value (some [.missing c.peek.start]) c.next
    | .equals, .equals => rows fuel room .value pending c.next
    | .equals, _ => refuse "extra assignment between key-value pairs" c.front
    | .openBrace, .value | .openBracket, .value => readValue c
    | .openBrace, .equals | .openBracket, .equals =>
      refuse "missing assignment between key-value pairs" c.front
    | .openBrace, _ | .openBracket, _ => refuse "missing key for inline table element" c.front
    | .closeBracket, .value => missing "missing array opening" "[" c.front
    | .closeBracket, _ => refuse "invalid inline table element" c.front
    | _, .key =>
      let (name, _, c) := name c
      rows fuel room .equals (some name) c
    | _, .equals => refuse "missing assignment between key-value pairs" c.front
    | _, .value => readValue c
    | _, .comma => refuse "missing comma between key-value pairs" c.front

end

/-- How deep lists and tables in braces may lie in one another. -/
def depthLimit : Nat := 80

/-! ### Lines -/

/-- Reads the equals sign, the value and the end of the line after a name. -/
def pairAfter (name : List Token) (complaint : String) : Reader Row := fun c => do
  let c := c.skipBlank
  if c.kind ≠ .equals then missing complaint "=" c.front
  else
    let c := c.next.skipBlank
    let (read, c) ← value (2 * c.ahead.length + 2) depthLimit c
    return (.pair name read, ← takeLineEnd c)

/-- Reads the name of a table or of a list of tables after its first bracket.  A line whose name is
not whole and that has no closing bracket is passed over, its name being wrong in any case. -/
def headerAfter : Reader Row := fun c => do
  let listed := c.kind = .openBracket
  let c := if listed then c.next else c
  let (name, whole, c) := name c.skipBlank
  let row : Row := if listed then .listHeader name else .header name
  let c := c.skipBlank
  if c.kind = .closeBracket then
    let c := c.next
    if ¬listed then return (row, ← takeLineEnd c)
    else if c.kind = .closeBracket then return (row, ← takeLineEnd c.next)
    else missing "unclosed array table" "]" (.spot c.mark)
  else if ¬whole then return (row, ← dropLine (c.ahead.length + 1) c)
  else if listed then missing "unclosed array table" "]]" (.spot c.mark)
  else missing "unclosed table" "]" (.spot c.mark)

/-- Reads the lines of a text. -/
def lines (fuel : Nat) (c : Cursor) : Except Fault (List Row) :=
  match fuel with
  | 0 => .ok []
  | fuel + 1 =>
    let followed (read : Except Fault (Row × Cursor)) : Except Fault (List Row) := do
      let (row, c) ← read
      return row :: (← lines fuel c)
    match c.kind with
    | .finish => .ok []
    | .blank | .newline => do checkSpace c.peek; lines fuel c.next
    | .comment => do checkComment c.peek; lines fuel c.next
    | .openBracket => followed (headerAfter c.next)
    | .closeBracket => missing "missing table open" "[" c.front
    | .comma | .openBrace | .closeBrace =>
      .error (.wanting "invalid key-value pair" [.described "key"] c.front)
    | .equals => followed (pairAfter [.missing c.peek.start] "key with no value" c)
    | .dot =>
      let (name, _, c) := name c
      followed (pairAfter name "missing value for key" c)
    | _ =>
      let (name, _, c) := name c
      followed (pairAfter name "key with no value" c)

/-- The lines of a text, or the first fault in how they are put together. -/
def syntaxOf (text : List Char) : Except Fault (List Row) :=
  let ahead := tokens text
  lines (ahead.length + 1) ⟨ahead, byteCount text, 0⟩

end Almanac.Toml
