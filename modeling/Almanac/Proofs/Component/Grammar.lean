import Almanac.Component.Builder
import Almanac.Proofs.Line.Unfold

/-!
The grammar of a calendar, and the reader against it.

    document  ::= BEGIN:VCALENDAR body END:VCALENDAR
    body      ::= (property | component)*
    component ::= BEGIN:t body END:u         where u is t in either case, and t is not VCALENDAR

What a line is for is told by its name (`ContentLine.Says`).  A derivation carries how many
components may still be open below it, and the properties and the components that it stands for.
The reader accepts a text exactly when some of its first lines are derived by the grammar
(`ofBytes_eq_ok_iff`).  One way a derivation is a run of the builder, which adds its properties and
components to whatever is innermost; the other way a stack of open components is a derivation broken
off, one layer for each of them (`Pending`).
-/

namespace Almanac

/-! ### Derivations -/

mutual

/-- What stands between two lines that enclose: properties and components in any order.  `d` is how
many components may be open in it at once. -/
inductive Body : (d : Nat) → List Clause → List Property → List Component → Prop
  /-- Nothing. -/
  | nil {d : Nat} : Body d [] [] []
  /-- A property line, then the rest. -/
  | property {d : Nat} {clauses : List Clause} {ps : List Property} {cs : List Component}
      (line : ContentLine) (rest : Body d clauses ps cs) :
      Body d (.property line :: clauses) (.ofLine line :: ps) cs
  /-- A component, then the rest. -/
  | component {d : Nat} {block clauses : List Clause} {c : Component} {ps : List Property}
      {cs : List Component} (head : Balanced d block c) (rest : Body d clauses ps cs) :
      Body d (block ++ clauses) ps (c :: cs)

/-- A component: the line that opens it, what it encloses, and the line that closes it. -/
inductive Balanced : (d : Nat) → List Clause → Component → Prop
  /-- The tokens agree but for case, and neither is that of a calendar. -/
  | enclosed {d : Nat} {inner : List Clause} {ps : List Property} {cs : List Component}
      {token last : String} (within : Text.sameName token "VCALENDAR" = false)
      (agree : Text.sameName last token = true) (body : Body d inner ps cs) :
      Balanced (d + 1) (.opening token :: (inner ++ [.closing last])) ⟨.ofText token, ps, cs⟩

end

/-- A whole calendar, with at most `d` components open at once. -/
inductive Document (d : Nat) : List Clause → Calendar → Prop
  /-- A body between two lines with the token of a calendar. -/
  | enclosed {inner : List Clause} {ps : List Property} {cs : List Component} {token last : String}
      (first : Text.sameName token "VCALENDAR" = true)
      (final : Text.sameName last "VCALENDAR" = true) (body : Body d inner ps cs) :
      Document d (.opening token :: (inner ++ [.closing last])) ⟨ps, cs⟩

/-- What a content line is for.  Its name tells, in either case, and the token is its value without
the blanks around it. -/
inductive ContentLine.Says (line : ContentLine) : Clause → Prop
  /-- A component begins. -/
  | opening (name : Text.sameName line.name "BEGIN" = true) :
      Says line (.opening (Text.trimmed line.rawValue))
  /-- A component ends. -/
  | closing (name : Text.sameName line.name "END" = true) :
      Says line (.closing (Text.trimmed line.rawValue))
  /-- Under any other name it is a property. -/
  | property (not_begin : Text.sameName line.name "BEGIN" = false)
      (not_end : Text.sameName line.name "END" = false) : Says line (.property line)

/-- A line that is read as a clause: it is the UTF-8 form of a text, and the text is a content line
for that clause. -/
def Reads (line : RawLine) (clause : Clause) : Prop :=
  ∃ text content, line.bytes = Utf8.encode text.toList ∧
    ContentLine.parse text line.number = .ok content ∧ content.Says clause

namespace ContentLine

variable {line : ContentLine}

theorem not_begin_of_end (h : Text.sameName line.name "END" = true) :
    Text.sameName line.name "BEGIN" = false := by
  rw [Text.sameName_iff] at h
  rw [Text.sameName, h]
  decide

/-- A content line is for one thing, and the reader finds it. -/
theorem says_iff {clause : Clause} : line.Says clause ↔ Clause.ofLine line = clause := by
  constructor
  · rintro (name | name | ⟨not_begin, not_end⟩)
    · simp [Clause.ofLine, name]
    · simp [Clause.ofLine, name, not_begin_of_end name]
    · simp [Clause.ofLine, not_begin, not_end]
  · rintro rfl
    rw [Clause.ofLine]
    split
    · next name => exact .opening name
    · next not_begin =>
      split
      · next name => exact .closing name
      · next not_end => exact .property (by simpa using not_begin) (by simpa using not_end)

end ContentLine

namespace Body

/-- Two bodies one after the other are a body. -/
theorem append {d : Nat} : ∀ {first second : List Clause} {ps qs : List Property}
    {cs ds : List Component}, Body d first ps cs → Body d second qs ds →
    Body d (first ++ second) (ps ++ qs) (cs ++ ds)
  | _, _, _, _, _, _, .nil, h => h
  | _, _, _, _, _, _, .property line rest, h => .property line (rest.append h)
  | _, _, _, _, _, _, .component head rest, h => by
    rw [List.append_assoc]
    exact .component head (rest.append h)

/-- A property line is a body. -/
theorem single {d : Nat} (line : ContentLine) : Body d [.property line] [.ofLine line] [] :=
  .property line .nil

/-- A component is a body. -/
theorem of_balanced {d : Nat} {block : List Clause} {c : Component} (h : Balanced d block c) :
    Body d block [] [c] := by
  rw [← List.append_nil block]
  exact .component h .nil

end Body

namespace Builder

/-! ### Runs over clauses -/

/-- The builder takes clauses one after the other and comes from one state to another. -/
inductive Steps : Builder → List Clause → Builder → Prop
  /-- No clause, no change. -/
  | nil {b : Builder} : Steps b [] b
  /-- One clause, then the rest. -/
  | cons {a b c : Builder} {clause : Clause} {clauses : List Clause} (head : a.step clause = .ok b)
      (rest : Steps b clauses c) : Steps a (clause :: clauses) c

theorem Steps.one {a b : Builder} {clause : Clause} (h : a.step clause = .ok b) :
    Steps a [clause] b := .cons h .nil

theorem Steps.append {a b c : Builder} {first second : List Clause} (h : Steps a first b)
    (hs : Steps b second c) : Steps a (first ++ second) c := by
  induction h with
  | nil => exact hs
  | cons head _ ih => exact .cons head (ih hs)

/-- A calendar that is closed stays closed. -/
theorem Steps.of_closed {calendar : Calendar} {clauses : List Clause} {b : Builder}
    (h : Steps (.closed calendar) clauses b) : clauses = [] ∧ b = .closed calendar := by
  cases h with
  | nil => exact ⟨rfl, rfl⟩
  | cons head _ => cases head

theorem stepLine_eq_ok_iff {a b : Builder} {number : Nat} {text : String} :
    a.stepLine number text = .ok b ↔
      ∃ content, ContentLine.parse text number = .ok content ∧
        a.step (.ofLine content) = .ok b := by
  rw [stepLine]
  cases ContentLine.parse text number with
  | error error =>
    constructor
    · intro h
      cases h
    · rintro ⟨_, h, _⟩
      cases h
  | ok content =>
    cases hs : a.step (.ofLine content) <;> simp [hs, Except.mapError, bind, Except.bind]

/-- A reading that goes on takes the first line and then the others. -/
theorem run_cons_eq_ok_iff {calendar : Calendar} {a : Builder} (ha : ∀ c, a ≠ .closed c)
    {last : Nat} {line : RawLine} {lines : List RawLine} :
    a.run last (line :: lines) = .ok calendar ↔
      ∃ clause b, Reads line clause ∧ a.step clause = .ok b ∧
        b.run line.number lines = .ok calendar := by
  rw [run.eq_3 _ _ _ _ ha]
  constructor
  · intro h
    split at h
    · cases h
    · next text ht =>
      split at h
      · cases h
      · next b hb =>
        obtain ⟨content, hc, hs⟩ := stepLine_eq_ok_iff.1 hb
        exact ⟨.ofLine content, b,
          ⟨text, content, RawLine.text_eq_ok_iff.1 ht, hc, ContentLine.says_iff.2 rfl⟩, hs, h⟩
  · rintro ⟨clause, b, ⟨text, content, ht, hc, hsays⟩, hs, h⟩
    obtain rfl := ContentLine.says_iff.1 hsays
    rw [RawLine.text_eq_ok_iff.2 ht]
    dsimp only
    rw [stepLine_eq_ok_iff.2 ⟨content, hc, hs⟩]
    exact h

/-- Running over lines is running over the clauses they are read as, up to the end of the
calendar. -/
theorem run_eq_ok_iff {calendar : Calendar} : ∀ {lines : List RawLine} {a : Builder} {last : Nat},
    a.run last lines = .ok calendar ↔
      ∃ taken rest clauses, lines = taken ++ rest ∧ List.Forall₂ Reads taken clauses ∧
        Steps a clauses (.closed calendar) := by
  intro lines a last
  by_cases ha : ∃ found, a = .closed found
  · obtain ⟨found, rfl⟩ := ha
    rw [run.eq_1]
    constructor
    · intro h
      cases h
      exact ⟨[], lines, [], rfl, .nil, .nil⟩
    · rintro ⟨_, _, _, -, -, h⟩
      cases h.of_closed.2
      rfl
  have ha : ∀ found, a ≠ .closed found := fun found e => ha ⟨found, e⟩
  cases lines with
  | nil =>
    rw [run.eq_2 _ _ ha]
    constructor
    · intro h
      cases h
    · rintro ⟨taken, _, _, he, ht, h⟩
      obtain ⟨rfl, -⟩ := List.append_eq_nil_iff.1 he.symm
      cases ht
      cases h
      exact absurd rfl (ha _)
  | cons line lines =>
    rw [run_cons_eq_ok_iff ha]
    constructor
    · rintro ⟨clause, b, hr, hs, h⟩
      obtain ⟨taken, rest, clauses, rfl, ht, h⟩ := run_eq_ok_iff.1 h
      exact ⟨line :: taken, rest, clause :: clauses, rfl, .cons hr ht, .cons hs h⟩
    · rintro ⟨taken, rest, clauses, he, ht, h⟩
      cases h with
      | nil => exact absurd rfl (ha _)
      | cons head more =>
        cases ht with
        | cons hr ht =>
          rw [List.cons_append, List.cons.injEq] at he
          obtain ⟨rfl, rfl⟩ := he
          exact ⟨_, _, hr, head, run_eq_ok_iff.2 ⟨_, rest, _, rfl, ht, more⟩⟩

/-! ### From a derivation to a run -/

/-- The calendar is open and `d` more components may be opened. -/
def Room (d : Nat) (b : Builder) : Prop :=
  ∃ calendar stack, b = .inside calendar stack ∧ stack.length + d ≤ 32

/-- With properties and components added to whatever is innermost. -/
def extend (ps : List Property) (cs : List Component) : Builder → Builder
  | .inside calendar [] => .inside ⟨calendar.properties ++ ps, calendar.components ++ cs⟩ []
  | .inside calendar (top :: stack) =>
    .inside calendar (⟨top.token, top.properties ++ ps, top.components ++ cs⟩ :: stack)
  | b => b

/-- With one more component open. -/
def enter (token : String) : Builder → Builder
  | .inside calendar stack => .inside calendar (⟨token, [], []⟩ :: stack)
  | b => b

theorem extend_nil : ∀ b : Builder, b.extend [] [] = b
  | .outside => rfl
  | .closed _ => rfl
  | .inside calendar [] => by simp [extend]
  | .inside calendar (top :: stack) => by simp [extend]

theorem extend_extend (ps qs : List Property) (cs ds : List Component) : ∀ b : Builder,
    (b.extend ps cs).extend qs ds = b.extend (ps ++ qs) (cs ++ ds)
  | .outside => rfl
  | .closed _ => rfl
  | .inside calendar [] => by simp [extend]
  | .inside calendar (top :: stack) => by simp [extend]

theorem Room.extend {d : Nat} {b : Builder} (h : Room d b) (ps : List Property)
    (cs : List Component) : Room d (b.extend ps cs) := by
  obtain ⟨calendar, stack, rfl, hd⟩ := h
  cases stack with
  | nil => exact ⟨_, [], rfl, hd⟩
  | cons top stack => exact ⟨calendar, _ :: stack, rfl, hd⟩

theorem Room.enter {d : Nat} {b : Builder} (h : Room (d + 1) b) (token : String) :
    Room d (b.enter token) := by
  obtain ⟨calendar, stack, rfl, hd⟩ := h
  refine ⟨calendar, _ :: stack, rfl, ?_⟩
  rw [List.length_cons]
  omega

theorem Room.step_property {d : Nat} {b : Builder} (h : Room d b) (line : ContentLine) :
    b.step (.property line) = .ok (b.extend [.ofLine line] []) := by
  obtain ⟨calendar, stack, rfl, -⟩ := h
  cases stack <;> simp [step, Builder.extend]

theorem Room.step_opening {d : Nat} {b : Builder} (h : Room (d + 1) b) {token : String}
    (ht : isCalendarToken token = false) : b.step (.opening token) = .ok (b.enter token) := by
  obtain ⟨calendar, stack, rfl, hd⟩ := h
  have hs : ¬ maxDepth ≤ stack.length := by
    rw [maxDepth]
    omega
  rw [step, ht, if_neg Bool.false_ne_true, if_neg hs]
  rfl

/-- A component that closes is added to whatever is around it. -/
theorem step_closing {last : String} {top : OpenComponent}
    (hl : Text.sameName last top.token = true) (calendar : Calendar) (stack : List OpenComponent) :
    (inside calendar (top :: stack)).step (.closing last)
      = .ok ((inside calendar stack).extend [] [top.close]) := by
  cases stack <;> simp [step, hl, extend, OpenComponent.push]

/-- Closing what was entered and filled adds it as one component. -/
theorem Room.step_closing {d : Nat} {b : Builder} (h : Room d b) {token last : String}
    (hl : Text.sameName last token = true) (ps : List Property) (cs : List Component) :
    ((b.enter token).extend ps cs).step (.closing last)
      = .ok (b.extend [] [⟨.ofText token, ps, cs⟩]) := by
  obtain ⟨calendar, stack, rfl, -⟩ := h
  exact Builder.step_closing hl calendar stack

mutual

/-- A body adds what it stands for to whatever is innermost. -/
theorem steps_of_body {d : Nat} : ∀ {clauses : List Clause} {ps : List Property}
    {cs : List Component} {b : Builder}, Body d clauses ps cs → Room d b →
    Steps b clauses (b.extend ps cs)
  | _, _, _, b, .nil, _ => by
    rw [extend_nil]
    exact .nil
  | _, _, _, _, .property line rest, h => by
    have hr := steps_of_body rest (h.extend [.ofLine line] [])
    rw [extend_extend] at hr
    exact .cons (h.step_property line) hr
  | _, _, c :: _, _, .component head rest, h => by
    have hr := steps_of_body rest (h.extend [] [c])
    rw [extend_extend] at hr
    exact (steps_of_balanced head h).append hr

/-- A component adds itself to whatever is innermost. -/
theorem steps_of_balanced : ∀ {d : Nat} {block : List Clause} {c : Component} {b : Builder},
    Balanced d block c → Room d b → Steps b block (b.extend [] [c])
  | _, _, _, _, .enclosed within agree body, h =>
    .cons (h.step_opening within) <|
      (steps_of_body body (h.enter _)).append (.one (h.step_closing agree _ _))

end

/-- A calendar that is derived is read. -/
theorem steps_of_document {clauses : List Clause} {calendar : Calendar}
    (h : Document 32 clauses calendar) : Steps .outside clauses (.closed calendar) := by
  obtain ⟨first, final, body⟩ := h
  have hr : Room 32 (.inside ⟨[], []⟩ []) := ⟨_, [], rfl, Nat.le_refl 32⟩
  refine .cons (if_pos first) ((steps_of_body body hr).append (.one ?_))
  rw [extend, step]
  exact if_pos final

/-! ### From a run to a derivation -/

/-- A derivation that is broken off in a state of the builder, with room for `d` components below
whatever is innermost. -/
inductive Pending : (d : Nat) → List Clause → Builder → Prop
  /-- Nothing is open but the calendar. -/
  | calendar {inner : List Clause} {ps : List Property} {cs : List Component} {token : String}
      (first : isCalendarToken token = true) (body : Body 32 inner ps cs) :
      Pending 32 (.opening token :: inner) (.inside ⟨ps, cs⟩ [])
  /-- One more component is open. -/
  | component {d : Nat} {before inner : List Clause} {calendar : Calendar}
      {stack : List OpenComponent} {ps : List Property} {cs : List Component} {token : String}
      (around : Pending (d + 1) before (.inside calendar stack))
      (within : isCalendarToken token = false) (body : Body d inner ps cs) :
      Pending d (before ++ .opening token :: inner) (.inside calendar (⟨token, ps, cs⟩ :: stack))

theorem Pending.length {d : Nat} {clauses : List Clause} {calendar : Calendar}
    {stack : List OpenComponent} : Pending d clauses (.inside calendar stack) →
    stack.length + d = 32
  | .calendar _ _ => rfl
  | .component around _ _ => by
    rw [List.length_cons, Nat.add_assoc, Nat.add_comm 1]
    exact around.length

/-- A body that follows is added to whatever is innermost. -/
theorem Pending.extend {d : Nat} {clauses more : List Clause} {b : Builder} {ps : List Property}
    {cs : List Component} : Pending d clauses b → Body d more ps cs →
    Pending d (clauses ++ more) (b.extend ps cs)
  | .calendar first body, h => .calendar first (body.append h)
  | .component around within body, h => by
    rw [List.append_assoc, List.cons_append]
    exact .component around within (body.append h)

/-- The innermost component closes and is added to whatever is around it. -/
theorem Pending.close {d : Nat} {clauses : List Clause} {calendar : Calendar}
    {top : OpenComponent} {stack : List OpenComponent} {last : String}
    (hl : Text.sameName last top.token = true) :
    Pending d clauses (.inside calendar (top :: stack)) →
    Pending (d + 1) (clauses ++ [.closing last])
      ((Builder.inside calendar stack).extend [] [top.close])
  | .component around within body => by
    rw [List.append_assoc, List.cons_append]
    exact around.extend (.of_balanced (.enclosed within hl body))

/-- One more clause leads on with the derivation, or ends it together with the calendar. -/
theorem Pending.step {d : Nat} {clauses : List Clause} {a b : Builder} {clause : Clause}
    (h : Pending d clauses a) (hs : a.step clause = .ok b) :
    (∃ e, Pending e (clauses ++ [clause]) b) ∨
      ∃ calendar, b = .closed calendar ∧ Document 32 (clauses ++ [clause]) calendar := by
  obtain ⟨calendar, stack, rfl⟩ : ∃ calendar stack, a = .inside calendar stack := by
    cases h <;> exact ⟨_, _, rfl⟩
  have hd : stack.length + d = 32 := h.length
  cases clause with
  | property line =>
    rw [Room.step_property ⟨calendar, stack, rfl, Nat.le_of_eq hd⟩ line] at hs
    cases hs
    exact .inl ⟨d, h.extend (.single line)⟩
  | opening token =>
    rw [Builder.step] at hs
    split at hs
    · cases hs
    · next ht =>
      split at hs
      · cases hs
      · next hm =>
        cases hs
        obtain ⟨e, rfl⟩ : ∃ e, d = e + 1 := Nat.exists_eq_succ_of_ne_zero fun hz =>
          hm (by rw [maxDepth]; omega)
        exact .inl ⟨e, .component h (Bool.eq_false_iff.2 ht) .nil⟩
  | closing last =>
    cases stack with
    | nil =>
      rw [Builder.step] at hs
      split at hs
      · next hl =>
        cases hs
        cases h with
        | calendar first body => exact .inr ⟨_, rfl, .enclosed first hl body⟩
      · cases hs
    | cons top stack =>
      by_cases hl : Text.sameName last top.token = true
      · rw [step_closing hl] at hs
        cases hs
        exact .inl ⟨d + 1, h.close hl⟩
      · cases stack <;> simp [Builder.step, hl] at hs

/-- A derivation that was broken off is completed by a run that closes the calendar. -/
theorem Pending.document {calendar : Calendar} {d : Nat} {clauses more : List Clause}
    {a : Builder} (h : Pending d clauses a) (hs : Steps a more (.closed calendar)) :
    Document 32 (clauses ++ more) calendar := by
  induction more generalizing d clauses a with
  | nil =>
    cases hs
    cases h
  | cons clause more ih =>
    cases hs with
    | cons head rest =>
      rw [List.append_cons]
      rcases h.step head with ⟨e, hp⟩ | ⟨found, rfl, hd⟩
      · exact ih hp rest
      · obtain ⟨rfl, he⟩ := rest.of_closed
        cases he
        rw [List.append_nil]
        exact hd

/-- A calendar that is read is derived. -/
theorem document_of_steps {clauses : List Clause} {calendar : Calendar}
    (h : Steps .outside clauses (.closed calendar)) : Document 32 clauses calendar := by
  cases h with
  | cons head rest =>
    cases ‹Clause› with
    | property line => cases head
    | closing token => cases head
    | opening token =>
      rw [Builder.step] at head
      split at head
      · next first =>
        cases head
        exact (Pending.calendar first .nil).document rest
      · cases head

end Builder

namespace Calendar

variable {bytes : List UInt8} {calendar : Calendar}

/-- What is read has a derivation. -/
theorem exists_document (h : ofBytes bytes = .ok calendar) :
    ∃ lines rest clauses, RawLine.ofBytes bytes = lines ++ rest ∧
      List.Forall₂ Reads lines clauses ∧ Document 32 clauses calendar := by
  obtain ⟨lines, rest, clauses, hl, hr, hs⟩ := Builder.run_eq_ok_iff.1 h
  exact ⟨lines, rest, clauses, hl, hr, Builder.document_of_steps hs⟩

/-- What has a derivation is read, whatever follows it. -/
theorem ofBytes_of_document {lines rest : List RawLine} {clauses : List Clause}
    (hl : RawLine.ofBytes bytes = lines ++ rest) (hr : List.Forall₂ Reads lines clauses)
    (hd : Document 32 clauses calendar) : ofBytes bytes = .ok calendar :=
  Builder.run_eq_ok_iff.2 ⟨lines, rest, clauses, hl, hr, Builder.steps_of_document hd⟩

/-- The reader accepts the texts of which some first lines are derived by the grammar, and returns
what the derivation stands for. -/
theorem ofBytes_eq_ok_iff : ofBytes bytes = .ok calendar ↔
    ∃ lines rest clauses, RawLine.ofBytes bytes = lines ++ rest ∧
      List.Forall₂ Reads lines clauses ∧ Document 32 clauses calendar := by
  constructor
  · exact exists_document
  · rintro ⟨lines, rest, clauses, hl, hr, hd⟩
    exact ofBytes_of_document hl hr hd

end Calendar

end Almanac
