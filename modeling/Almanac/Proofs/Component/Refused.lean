import Almanac.Proofs.Component.Lexed
import Almanac.Proofs.Line.Layout

/-!
Where a reading stops.  As long as the calendar is not closed, the lines so far can be completed: a
line that closes each open component, the innermost first, and one that closes the calendar
(`exists_completion`).  A line that is refused cannot be taken whatever comes after it.  So a reading
stops at the first line with which no calendar goes on, or, if it runs out of lines, at none.

    1  BEGIN:VCALENDAR   ─┐
    2  BEGIN:VEVENT      ─┴─ taken; END:VEVENT and END:VCALENDAR would complete them
    3  END:VTODO             refused
    4  …                     not looked at
-/

namespace Almanac

/-! ### Lines that can be completed -/

/-- An input that is read begins with lines like these, whatever their numbers are. -/
def Viable (lines : List RawLine) : Prop :=
  ∃ bytes calendar, lines.map RawLine.bytes <+: (RawLine.ofBytes bytes).map RawLine.bytes ∧
    Calendar.ofBytes bytes = .ok calendar

/-- The line is the first with which the lines cannot be completed any more. -/
def Offending (lines : List RawLine) (line : RawLine) : Prop :=
  ∃ k, lines[k]? = some line ∧ ∀ i, Viable (lines.take i) ↔ i ≤ k

theorem Viable.front {lines before : List RawLine} (h : Viable lines) (hb : before <+: lines) :
    Viable before := by
  obtain ⟨bytes, calendar, hl, hc⟩ := h
  exact ⟨bytes, calendar, (hb.map RawLine.bytes).trans hl, hc⟩

theorem offending_of_not_viable {taken others : List RawLine} {line : RawLine} (h : Viable taken)
    (hn : ¬ Viable (taken ++ [line])) : Offending (taken ++ line :: others) line := by
  refine ⟨taken.length, by simp, fun i => ⟨fun hv => ?_, fun hi => ?_⟩⟩
  · by_contra hi
    have hlong : taken ++ [line] <+: (taken ++ line :: others).take i := by
      rw [List.prefix_take_iff]
      refine ⟨⟨others, by simp⟩, ?_⟩
      rw [List.length_append, List.length_singleton]
      omega
    exact hn (hv.front hlong)
  · rw [List.take_append_of_le_length hi]
    exact h.front (List.take_prefix i taken)

namespace Builder

/-! ### Completing a calendar -/

/-- The tokens of the components that are open, the innermost first. -/
def tokens : Builder → List String
  | .inside _ stack => stack.map OpenComponent.token
  | _ => []

theorem tokens_extend (ps : List Property) (cs : List Component) :
    ∀ b : Builder, (b.extend ps cs).tokens = b.tokens
  | .outside => rfl
  | .closed _ => rfl
  | .inside _ [] => rfl
  | .inside _ (_ :: _) => rfl

/-- A component is open because of a line. -/
theorem mem_tokens_of_step {a b : Builder} {clause : Clause} (h : a.step clause = .ok b)
    {token : String} (ht : token ∈ b.tokens) : token ∈ a.tokens ∨ clause = .opening token := by
  cases a with
  | closed calendar => cases h
  | outside =>
    cases clause with
    | closing last => cases h
    | property line => cases h
    | opening first =>
      rw [step] at h
      split_ifs at h
      cases h
      cases ht
  | inside calendar stack =>
    cases clause with
    | opening next =>
      rw [step] at h
      split_ifs at h
      cases h
      rcases List.mem_cons.1 ht with rfl | ht
      · exact .inr rfl
      · exact .inl ht
    | property line =>
      cases stack <;> cases h <;> exact .inl ht
    | closing last =>
      cases stack with
      | nil =>
        rw [step] at h
        split_ifs at h
        cases h
        cases ht
      | cons top stack =>
        by_cases hl : Text.sameName last top.token = true
        · rw [step_closing hl] at h
          cases h
          rw [tokens_extend] at ht
          exact .inl (List.mem_cons_of_mem _ ht)
        · cases stack <;> simp [step, hl] at h

theorem mem_tokens_of_steps {a b : Builder} {clauses : List Clause} (h : Steps a clauses b)
    {token : String} (ht : token ∈ b.tokens) : token ∈ a.tokens ∨ .opening token ∈ clauses := by
  induction h with
  | nil => exact .inl ht
  | cons head rest ih =>
    rcases ih ht with hm | hm
    · rcases mem_tokens_of_step head hm with hm | rfl
      · exact .inl hm
      · exact .inr List.mem_cons_self
    · exact .inr (List.mem_cons_of_mem _ hm)

/-- The components that are open can be closed, and then the calendar. -/
theorem exists_closing {tokens : List String} (h : ∀ token ∈ tokens, FitsLine token)
    (calendar : Calendar) {stack : List OpenComponent}
    (hs : stack.map OpenComponent.token = tokens) : ∃ lines clauses found,
      List.Forall₂ Stands lines clauses ∧ Steps (.inside calendar stack) clauses (.closed found) := by
  induction tokens generalizing calendar stack with
  | nil =>
    obtain rfl := List.map_eq_nil_iff.1 hs
    exact ⟨_, _, calendar, .cons fitsLine_calendarToken.stands_closing .nil, .one rfl⟩
  | cons token tokens ih =>
    obtain ⟨top, stack, rfl, rfl, rfl⟩ := List.map_eq_cons_iff.1 hs
    have hrest := fun t ht => h t (List.mem_cons_of_mem _ ht)
    have htop : FitsLine top.token := h _ List.mem_cons_self
    have hstep := step_closing (Text.sameName_refl top.token) calendar stack
    -- what is around the component has the same tokens, but one more component in it
    obtain ⟨around, outer, he, ho⟩ : ∃ around outer,
        (inside calendar stack).extend [] [top.close] = .inside around outer ∧
          outer.map OpenComponent.token = stack.map OpenComponent.token := by
      cases stack with
      | nil => exact ⟨_, [], rfl, rfl⟩
      | cons next stack => exact ⟨calendar, _ :: stack, rfl, rfl⟩
    obtain ⟨lines, clauses, found, hl, hc⟩ := ih hrest around ho
    rw [he] at hstep
    exact ⟨_ :: lines, _ :: clauses, found, .cons htop.stands_closing hl, .cons hstep hc⟩

/-- What is not closed can be completed. -/
theorem exists_completion {b : Builder} (hb : ∀ calendar, b ≠ .closed calendar)
    (h : ∀ token ∈ b.tokens, FitsLine token) : ∃ lines clauses found,
      List.Forall₂ Stands lines clauses ∧ Steps b clauses (.closed found) := by
  cases b with
  | closed calendar => exact absurd rfl (hb calendar)
  | inside calendar stack => exact exists_closing h calendar rfl
  | outside =>
    have hs : ([] : List OpenComponent).map OpenComponent.token = tokens .outside := rfl
    obtain ⟨lines, clauses, found, hl, hc⟩ := exists_closing h ⟨[], []⟩ hs
    exact ⟨_ :: lines, _ :: clauses, found, .cons fitsLine_calendarToken.stands_opening hl,
      .cons rfl hc⟩

/-! ### Refused lines -/

/-- Why a line cannot be taken. -/
inductive Refuses (b : Builder) (line : RawLine) : Failure → Prop
  /-- It is no text. -/
  | unreadable {fault : Utf8.Fault} (bytes : line.text = .error (.notUtf8 line.number fault)) :
      Refuses b line (.read (.notUtf8 line.number fault))
  /-- It is no content line, or one that cannot stand here. -/
  | unfit {text : String} {error : ParseError} (read : line.text = .ok text)
      (refused : b.stepLine line.number text = .error error) : Refuses b line (.parse error)

/-- A line that is refused is not taken. -/
theorem Refuses.not_taken {b next : Builder} {line : RawLine} {failure : Failure} {clause : Clause}
    (h : b.Refuses line failure) (hr : Reads line clause) : b.step clause ≠ .ok next := by
  intro hs
  obtain ⟨text, content, hb, hp, hsays⟩ := hr
  obtain rfl := ContentLine.says_iff.1 hsays
  have ht : line.text = .ok text := RawLine.text_eq_ok_iff.2 hb
  have hok : b.stepLine line.number text = .ok next := stepLine_eq_ok_iff.2 ⟨content, hp, hs⟩
  cases h with
  | unreadable bytes =>
    rw [ht] at bytes
    cases bytes
  | unfit read refused =>
    rw [ht] at read
    cases read
    rw [hok] at refused
    cases refused

theorem ne_closed_of_run {failure : Failure} {lines : List RawLine} {a : Builder} {last : Nat}
    (h : a.run last lines = .error failure) : ∀ calendar, a ≠ .closed calendar := by
  rintro calendar rfl
  rw [run.eq_1] at h
  cases h

/-- A reading that fails has taken lines until there was none, or until one was refused. -/
theorem run_eq_error {failure : Failure} {lines : List RawLine} {a : Builder} {last : Nat}
    (h : a.run last lines = .error failure) : ∃ taken rest clauses b, lines = taken ++ rest ∧
      List.Forall₂ Reads taken clauses ∧ Steps a clauses b ∧ (∀ calendar, b ≠ .closed calendar) ∧
      ((rest = [] ∧ ∃ context, failure
          = .parse ⟨.unexpectedEof, (taken.getLast?.map RawLine.number).getD last, context⟩) ∨
        ∃ line others, rest = line :: others ∧ b.Refuses line failure) := by
  have ha := ne_closed_of_run h
  induction lines generalizing a last with
  | nil =>
    rw [run.eq_2 _ _ ha] at h
    cases h
    exact ⟨[], [], [], a, rfl, .nil, .nil, ha, .inl ⟨rfl, _, rfl⟩⟩
  | cons line lines ih =>
    rw [run.eq_3 _ _ _ _ ha] at h
    split at h
    · next error ht =>
      cases h
      obtain ⟨fault, rfl⟩ := RawLine.eq_notUtf8_of_text ht
      exact ⟨[], line :: lines, [], a, rfl, .nil, .nil, ha, .inr ⟨line, lines, rfl, .unreadable ht⟩⟩
    · next text ht =>
      split at h
      · next error hs =>
        cases h
        exact ⟨[], line :: lines, [], a, rfl, .nil, .nil, ha, .inr ⟨line, lines, rfl, .unfit ht hs⟩⟩
      · next b hs =>
        obtain ⟨content, hp, hstep⟩ := stepLine_eq_ok_iff.1 hs
        have hr : Reads line (.ofLine content) :=
          ⟨text, content, RawLine.text_eq_ok_iff.1 ht, hp, ContentLine.says_iff.2 rfl⟩
        obtain ⟨taken, rest, clauses, c, rfl, hreads, hsteps, hc, hend⟩ :=
          ih h (ne_closed_of_run h)
        refine ⟨line :: taken, rest, _ :: clauses, c, rfl, .cons hr hreads, .cons hstep hsteps, hc,
          hend.imp_left ?_⟩
        rintro ⟨rfl, context, rfl⟩
        refine ⟨rfl, context, ?_⟩
        rw [List.getLast?_cons]
        cases taken.getLast? <;> rfl

end Builder

/-! ### What the complaints are about -/

/-- The reasons for which a line is refused.  None of them is about a value. -/
def ParseError.Kind.lineFaults : List ParseError.Kind :=
  [.missingCalendarBegin, .mismatchedEnd, .nestedCalendar, .invalidNesting, .missingColon,
    .missingPropertyName]

theorem ContentLine.kind_of_ofChars {chars : List Char} {kind : ParseError.Kind}
    (h : ofChars chars = .error kind) : kind ∈ ParseError.Kind.lineFaults := by
  rw [ofChars] at h
  split at h
  · cases h
    decide
  · split at h <;> cases h <;> decide

namespace Builder

theorem kind_of_step {b : Builder} (hb : ∀ calendar, b ≠ .closed calendar) {clause : Clause}
    {kind : ParseError.Kind} {context : Option String} (h : b.step clause = .error (kind, context)) :
    kind ∈ ParseError.Kind.lineFaults := by
  cases b with
  | closed calendar => exact absurd rfl (hb calendar)
  | outside =>
    have hk : kind = .missingCalendarBegin := by
      cases clause with
      | closing last => cases h; rfl
      | property line => cases h; rfl
      | opening token =>
        rw [step] at h
        split_ifs at h
        cases h
        rfl
    rw [hk]
    decide
  | inside calendar stack =>
    cases clause with
    | property line => cases stack <;> cases h
    | opening token =>
      rw [step] at h
      split_ifs at h <;> cases h <;> decide
    | closing last =>
      have hk : kind = .mismatchedEnd := by
        cases stack with
        | nil =>
          rw [step] at h
          split_ifs at h
          cases h
          rfl
        | cons top stack =>
          by_cases hl : Text.sameName last top.token = true
          · rw [step_closing hl] at h
            cases h
          · cases stack <;> simp [step, hl, mismatch] at h <;> exact h.1.symm
      rw [hk]
      decide

/-- A complaint about a line cites its number. -/
theorem stepLine_eq_error {b : Builder} (hb : ∀ calendar, b ≠ .closed calendar) {number : Nat}
    {text : String} {error : ParseError} (h : b.stepLine number text = .error error) :
    error.line = number ∧ error.kind ∈ ParseError.Kind.lineFaults := by
  rw [stepLine, ContentLine.parse] at h
  cases hc : ContentLine.ofChars text.toList with
  | error kind =>
    rw [hc] at h
    cases h
    exact ⟨rfl, ContentLine.kind_of_ofChars hc⟩
  | ok content =>
    rw [hc] at h
    cases hs : b.step (.ofLine content) with
    | ok next => simp [Except.mapError, bind, Except.bind, hs] at h
    | error why =>
      simp only [Except.mapError, bind, Except.bind, hs] at h
      cases h
      exact ⟨rfl, kind_of_step hb hs⟩

end Builder

/-! ### The first line that is at fault -/

/-- The tokens of what is open stood on lines. -/
theorem fitsLine_of_steps {bytes : List UInt8} {taken : List RawLine} {clauses : List Clause}
    {b : Builder} (ht : taken <+: RawLine.ofBytes bytes) (hr : List.Forall₂ Reads taken clauses)
    (hs : Builder.Steps .outside clauses b) : ∀ token ∈ b.tokens, FitsLine token := by
  intro token hm
  rcases Builder.mem_tokens_of_steps hs hm with hm | hm
  · cases hm
  · obtain ⟨line, hl, hread⟩ := exists_reads hr hm
    exact hread.fitsLine (ht.subset hl)

/-- Lines that were taken can be completed if the calendar is not closed. -/
theorem viable_of_steps {bytes : List UInt8} {taken : List RawLine} {clauses : List Clause}
    {b : Builder} (ht : taken <+: RawLine.ofBytes bytes) (hr : List.Forall₂ Reads taken clauses)
    (hs : Builder.Steps .outside clauses b) (hb : ∀ calendar, b ≠ .closed calendar) :
    Viable taken := by
  obtain ⟨lines, more, calendar, hl, hmore⟩ :=
    Builder.exists_completion hb (fitsLine_of_steps ht hr hs)
  have hbytes := encode_of_stands hl
  obtain ⟨input, n, hinput⟩ := RawLine.exists_ofBytes_append ht
    (fun line hm => (hbytes line hm).2) (fun line hm => (hbytes line hm).1)
  refine ⟨input, calendar, ?_, ?_⟩
  · rw [hinput, List.map_append]
    exact List.prefix_append _ _
  · exact Builder.run_eq_ok_iff.2 ⟨_, [], _, by rw [List.append_nil]; exact hinput,
      List.rel_append hr (forall₂_reads hl n), hs.append hmore⟩

/-- The number of a line has no part in what it is read as. -/
theorem Reads.of_bytes {line other : RawLine} {clause : Clause} (h : Reads line clause)
    (he : other.bytes = line.bytes) : Reads other clause := by
  obtain ⟨text, content, hb, hp, hc⟩ := h
  exact ⟨text, content, he.trans hb,
    ContentLine.parse_eq_ok_iff.2 (ContentLine.parse_eq_ok_iff.1 hp), hc⟩

theorem forall₂_reads_of_bytes {lines others : List RawLine} {clauses : List Clause}
    (h : List.Forall₂ Reads lines clauses)
    (he : others.map RawLine.bytes = lines.map RawLine.bytes) :
    List.Forall₂ Reads others clauses := by
  induction h generalizing others with
  | nil =>
    obtain rfl := List.map_eq_nil_iff.1 he
    exact .nil
  | cons head rest ih =>
    obtain ⟨other, others, rfl, hfirst, hrest⟩ := List.map_eq_cons_iff.1 he
    exact .cons (head.of_bytes hfirst) (ih hrest)

/-- No input that is read goes on with a line that is refused. -/
theorem not_viable_of_refuses {taken : List RawLine} {clauses : List Clause} {b : Builder}
    {line : RawLine} {failure : Failure} (hr : List.Forall₂ Reads taken clauses)
    (hs : Builder.Steps .outside clauses b) (hb : ∀ calendar, b ≠ .closed calendar)
    (h : b.Refuses line failure) : ¬ Viable (taken ++ [line]) := by
  rintro ⟨bytes, calendar, ⟨others, hl⟩, hc⟩
  rw [List.map_append, List.append_assoc] at hl
  obtain ⟨front, back, hlines, hfront, hback⟩ := List.map_eq_append_iff.1 hl.symm
  obtain ⟨other, rest, rfl, hother, -⟩ := List.map_eq_cons_iff.1 hback
  rw [Calendar.ofBytes, hlines] at hc
  obtain ⟨number, hrun⟩ := Builder.run_append (forall₂_reads_of_bytes hr hfront) hs hc
  rw [Builder.run_cons_eq_ok_iff hb] at hrun
  obtain ⟨clause, next, hread, hstep, -⟩ := hrun
  exact h.not_taken (hread.of_bytes hother.symm) hstep

/-- A reading that fails stops at the first line with which the lines cannot be completed any more,
and says what is wrong with the line or that it is no text; or all lines can be completed and
there are no more of them. -/
theorem Calendar.offending_of_ofBytes {bytes : List UInt8} {failure : Failure}
    (h : ofBytes bytes = .error failure) :
    (Viable (RawLine.ofBytes bytes) ∧ ∃ context, failure = .parse ⟨.unexpectedEof,
      ((RawLine.ofBytes bytes).getLast?.map RawLine.number).getD 0, context⟩) ∨
    ∃ line, Offending (RawLine.ofBytes bytes) line ∧
      ((∃ kind ∈ ParseError.Kind.lineFaults, ∃ context,
          failure = .parse ⟨kind, line.number, context⟩) ∨
        ∃ fault, failure = .read (.notUtf8 line.number fault)) := by
  obtain ⟨taken, rest, clauses, b, hl, hr, hs, hb, hend⟩ := Builder.run_eq_error h
  have hfront : taken <+: RawLine.ofBytes bytes := ⟨rest, hl.symm⟩
  have htaken : Viable taken := viable_of_steps hfront hr hs hb
  rcases hend with ⟨rfl, context, rfl⟩ | ⟨line, others, rfl, hrefuses⟩
  · rw [List.append_nil] at hl
    rw [hl]
    exact .inl ⟨htaken, context, rfl⟩
  · have hoff : Offending (taken ++ line :: others) line :=
      offending_of_not_viable htaken (not_viable_of_refuses hr hs hb hrefuses)
    rw [hl]
    refine .inr ⟨line, hoff, ?_⟩
    cases hrefuses with
    | unreadable bytes => exact .inr ⟨_, rfl⟩
    | @unfit text error read refused =>
      obtain ⟨hline, hkind⟩ := Builder.stepLine_eq_error hb refused
      refine .inl ⟨error.kind, hkind, error.context, ?_⟩
      rw [← hline]

/-- An event that is closed as something else.  The line is the fourth, and the third is empty. -/
theorem otherEnd_offending_of_ofBytes :
    let bytes := Utf8.encode "BEGIN:VCALENDAR\nBEGIN:VEVENT\n\nEND:VTODO\nEND:VEVENT\n".toList
    Calendar.ofBytes bytes = .error (.parse
        ⟨.mismatchedEnd, 4, some "expected END:VEVENT, got END:VTODO"⟩) ∧
      ∃ line, Offending (RawLine.ofBytes bytes) line ∧ line.number = 4 := by
  intro bytes
  have h : Calendar.ofBytes bytes = .error (.parse
      ⟨.mismatchedEnd, 4, some "expected END:VEVENT, got END:VTODO"⟩) := by decide +kernel
  refine ⟨h, ?_⟩
  rcases Calendar.offending_of_ofBytes h with ⟨-, context, he⟩ | ⟨line, hl, he | he⟩
  · cases he
  · obtain ⟨kind, -, context, he⟩ := he
    rw [Failure.parse.injEq, ParseError.mk.injEq] at he
    exact ⟨line, hl, he.2.1.symm⟩
  · obtain ⟨fault, he⟩ := he
    cases he

end Almanac
