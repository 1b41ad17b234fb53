import Almanac.Proofs.Component.Refused

/-!
Readings that are over.  Bytes after a line feed that do not begin with a space or a tab are lines
of their own (`ofBytes_append`), so a reading meets the same lines with them and without them, and
only one that runs out of lines gets to see them (`run_append_of_enough`).

    lines of x     1 ── 2 ── 3           ends at 2: the lines of y are not looked at
    lines of x y   1 ── 2 ── 3 ── …      ends after 3: it wanted them

A reading that ran out of lines was not over: closing lines make a calendar of what it has read.
-/

namespace Almanac

namespace RawLine

/-! ### Bytes after a line feed -/

/-- After a line feed a physical line begins. -/
theorem physicalLines_go_append {first : List UInt8} (h : first.getLast? = some lineFeed)
    (more current : List UInt8) : physicalLines.go current (first ++ more)
      = physicalLines.go current first ++ physicalLines.go [] more := by
  induction first generalizing current with
  | nil => cases h
  | cons b first ih =>
    rw [List.cons_append, physicalLines.go, physicalLines.go]
    cases first with
    | nil =>
      obtain rfl : b = lineFeed := Option.some.inj h
      rw [if_pos rfl, if_pos rfl]
      rfl
    | cons c first =>
      have ih := ih (by rw [← h, List.getLast?_cons_cons])
      rw [ih, ih]
      split <;> rfl

/-- A physical line that is first on an input begins as the input does. -/
theorem Ended.opens {physical : List (List UInt8)} {bytes : List UInt8} (h : Ended physical bytes)
    (hb : ∀ b ∈ bytes.head?, isFoldMark b = false) :
    ∀ line ∈ physical.head?, line ≠ [] → Opens line := by
  rintro (_ | ⟨b, line⟩) hl hne
  · exact absurd rfl hne
  · refine ⟨b, line, rfl, hb b ?_⟩
    cases h <;> cases hl <;> rfl

/-- Lines are handed on before an empty physical line and before one that does not continue them. -/
theorem unfold_append {more : List (List UInt8)}
    (h : ∀ line ∈ more.head?, line ≠ [] → Opens line) :
    ∀ (first : List (List UInt8)) (current : Option RawLine) (n : Nat),
      unfold current n (first ++ more)
        = unfold current n first ++ unfold none (n + first.length) more
  | [], current, n => by
    rw [List.nil_append, unfold, List.length_nil, Nat.add_zero]
    cases more with
    | nil => rw [unfold, unfold, Option.toList_none, List.append_nil]
    | cons line more =>
      cases line with
      | nil => cases current <;> rfl
      | cons b bytes =>
        rw [unfold_opens (h _ rfl (List.cons_ne_nil b bytes))]
        rfl
  | [] :: first, current, n => by
    have ih := unfold_append h first none (n + 1)
    rw [List.length_cons, Nat.add_comm first.length 1, ← Nat.add_assoc]
    cases current with
    | none => exact ih
    | some line => exact congrArg (line :: ·) ih
  | (b :: bytes) :: first, current, n => by
    have ih := fun line => unfold_append h first (some line) (n + 1)
    rw [List.length_cons, Nat.add_comm first.length 1, ← Nat.add_assoc]
    cases current with
    | none => exact ih _
    | some line =>
      rw [List.cons_append, unfold, unfold]
      split
      · exact ih _
      · rw [ih, List.cons_append]

/-- The lines of an input are still there when more lines follow them. -/
theorem ofBytes_append {first more : List UInt8} (hf : first.getLast? = some lineFeed)
    (hm : ∀ b ∈ more.head?, isFoldMark b = false) : ofBytes (first ++ more)
      = ofBytes first ++ unfold none (1 + (physicalLines first).length) (physicalLines more) := by
  rw [ofBytes, physicalLines, physicalLines_go_append hf]
  exact unfold_append ((ended_physicalLines more).opens hm) _ none 1

end RawLine

/-! ### Readings that end on the way -/

namespace Builder

/-- More lines change nothing about a reading that did not run out of lines. -/
theorem run_append_of_enough {lines : List RawLine} {a : Builder} {last : Nat}
    (h : ∀ line context, a.run last lines ≠ .error (.parse ⟨.unexpectedEof, line, context⟩))
    (more : List RawLine) : a.run last (lines ++ more) = a.run last lines := by
  fun_induction run a last lines with
  | case1 calendar last lines => rw [run.eq_1]
  | case2 last b hb => exact absurd rfl (h _ _)
  | case3 b last line rest hb error ht => rw [List.cons_append, run.eq_3 _ _ _ _ hb, ht]
  | case4 b last line rest hb text ht error hs =>
    rw [List.cons_append, run.eq_3 _ _ _ _ hb, ht]
    dsimp only
    rw [hs]
  | case5 b last line rest hb text ht next hs ih =>
    rw [List.cons_append, run.eq_3 _ _ _ _ hb, ht]
    dsimp only
    rw [hs]
    exact ih h

end Builder

/-! ### Readings that run out of lines -/

namespace RawLine

/-- Lines of their own do not look like the continuation of what stands before them. -/
theorem head_terminated {lines : List (List UInt8)} (h : ∀ line ∈ lines, Opens line) :
    ∀ b ∈ (terminated lines).head?, isFoldMark b = false := by
  cases lines with
  | nil => simp [terminated]
  | cons line lines =>
    obtain ⟨b, rest, rfl, hb⟩ := h line List.mem_cons_self
    rintro _ ⟨⟩
    exact hb

end RawLine

/-- A reading runs out of lines only at the end, when the calendar is not closed. -/
theorem Builder.steps_of_unexpectedEof {lines : List RawLine} {a : Builder} {last line : Nat}
    {context : Option String}
    (h : a.run last lines = .error (.parse ⟨.unexpectedEof, line, context⟩)) :
    ∃ clauses b, List.Forall₂ Reads lines clauses ∧ Steps a clauses b ∧
      ∀ calendar, b ≠ .closed calendar := by
  obtain ⟨taken, rest, clauses, b, rfl, hr, hs, hb, ⟨rfl, -⟩ | ⟨line, others, rfl, hrefuses⟩⟩ :=
    run_eq_error h
  · rw [List.append_nil]
    exact ⟨clauses, b, hr, hs, hb⟩
  · cases hrefuses with
    | unfit read refused =>
      have hk : ParseError.Kind.unexpectedEof ∈ ParseError.Kind.lineFaults :=
        (stepLine_eq_error hb refused).2
      exact absurd hk (by decide)

namespace Calendar

/-- What ran out of lines is a calendar with some lines more. -/
theorem exists_ofBytes_append_ok {bytes : List UInt8} (hf : bytes.getLast? = some RawLine.lineFeed)
    {line : Nat} {context : Option String}
    (h : ofBytes bytes = .error (.parse ⟨.unexpectedEof, line, context⟩)) :
    ∃ more calendar, (∀ b ∈ more.head?, RawLine.isFoldMark b = false) ∧
      ofBytes (bytes ++ more) = .ok calendar := by
  obtain ⟨clauses, b, hr, hs, hb⟩ := Builder.steps_of_unexpectedEof h
  obtain ⟨lines, closing, calendar, hl, hc⟩ :=
    Builder.exists_completion hb (fitsLine_of_steps List.prefix_rfl hr hs)
  have hfeed := fun line hm => (encode_of_stands hl line hm).1
  have hopen := fun line hm => (encode_of_stands hl line hm).2
  have hhead := RawLine.head_terminated hopen
  have hlines := RawLine.ofBytes_append hf hhead
  rw [RawLine.physicalLines_terminated hfeed, RawLine.unfold_opening hopen] at hlines
  exact ⟨_, calendar, hhead, Builder.run_eq_ok_iff.2 ⟨_, [], clauses ++ closing,
    by rw [List.append_nil, hlines], List.rel_append hr (forall₂_reads hl _), hs.append hc⟩⟩

/-- Bytes after a line feed that do not continue the last line change nothing about a reading, unless
it ran out of lines; then some of them do. -/
theorem ofBytes_append_iff {bytes : List UInt8} (hf : bytes.getLast? = some RawLine.lineFeed) :
    (∀ more : List UInt8, (∀ b ∈ more.head?, RawLine.isFoldMark b = false) →
        ofBytes (bytes ++ more) = ofBytes bytes) ↔
      ∀ line context, ofBytes bytes ≠ .error (.parse ⟨.unexpectedEof, line, context⟩) := by
  constructor
  · intro h line context he
    obtain ⟨more, calendar, hm, hc⟩ := exists_ofBytes_append_ok hf he
    rw [h more hm, he] at hc
    cases hc
  · intro h more hm
    rw [ofBytes, RawLine.ofBytes_append hf hm]
    exact Builder.run_append_of_enough h _

/-- An event that is closed as something else, and after it bytes that are no text. -/
theorem otherEnd_ofBytes_append :
    let bytes := Utf8.encode "BEGIN:VCALENDAR\r\nBEGIN:VEVENT\r\nEND:VTODO\r\n".toList
    let failure := Failure.parse ⟨.mismatchedEnd, 3, some "expected END:VEVENT, got END:VTODO"⟩
    bytes.getLast? = some RawLine.lineFeed ∧ ofBytes bytes = .error failure ∧
      ofBytes (bytes ++ [255, 10, 32, 254]) = .error failure := by
  intro bytes failure
  have hf : bytes.getLast? = some RawLine.lineFeed := by decide +kernel
  have h : ofBytes bytes = .error failure := by decide +kernel
  refine ⟨hf, h, ?_⟩
  rw [← h]
  refine (ofBytes_append_iff hf).2 (fun line context he => ?_) [255, 10, 32, 254] ?_
  · rw [h] at he
    dsimp only [failure] at he
    cases he
  · rintro _ ⟨⟩
    rfl

end Calendar

end Almanac
