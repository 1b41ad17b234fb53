import Almanac.Proofs.Component.Written

/-!
What becomes of a line feed that nothing escapes.  It ends the line it is written on, so no value
that is read back has one, unless the value is TEXT (`lineFeed_not_mem_value`).  What was written
before it is read back nevertheless, and the property that it breaks keeps its name and parameters
(`properties_of_framed`).

    URL:a⏎b     ──▶  URL:a          one property, its value cut short
                     b              and a line of its own
-/

namespace Almanac

/-! ### All properties of a tree -/

namespace Component

mutual

/-- The properties of a component and of all components in it. -/
def everyProperty : Component → List Property
  | ⟨_, properties, components⟩ => properties ++ everyPropertyOf components

/-- The properties of components and of all components in them. -/
def everyPropertyOf : List Component → List Property
  | [] => []
  | c :: rest => c.everyProperty ++ everyPropertyOf rest

end

theorem mem_everyPropertyOf {p : Property} : ∀ {cs : List Component},
    p ∈ everyPropertyOf cs ↔ ∃ c ∈ cs, p ∈ c.everyProperty
  | [] => by simp [everyPropertyOf]
  | c :: cs => by simp [everyPropertyOf, mem_everyPropertyOf]

/-- What is so of all properties within a component is so of each of them. -/
theorem Within.of_mem {T : Token → Prop} {P : Property → Prop} : ∀ {d : Nat} {c : Component},
    c.Within T P d → ∀ p ∈ c.everyProperty, P p
  | 0, _, h => h.elim
  | d + 1, ⟨token, ps, cs⟩, ⟨_, hp, hc⟩ => by
    intro p hm
    rw [everyProperty, List.mem_append, mem_everyPropertyOf] at hm
    rcases hm with hm | ⟨c, hcs, hm⟩
    · exact hp p hm
    · exact Within.of_mem (hc c hcs) p hm

theorem Within.imp {T : Token → Prop} {P Q : Property → Prop} : ∀ {d : Nat} {c : Component},
    c.Within T P d → (∀ p ∈ c.everyProperty, P p → Q p) → c.Within T Q d
  | 0, _, h, _ => h.elim
  | d + 1, ⟨token, ps, cs⟩, ⟨ht, hp, hc⟩, h => by
    simp only [everyProperty, List.mem_append, mem_everyPropertyOf] at h
    exact ⟨ht, fun p hm => h p (.inl hm) (hp p hm), fun c hm =>
      Within.imp (hc c hm) fun p hpm => h p (.inr ⟨c, hm, hpm⟩)⟩

end Component

/-- The properties of a calendar and of all components in it. -/
def Calendar.everyProperty (calendar : Calendar) : List Property :=
  calendar.properties ++ Component.everyPropertyOf calendar.components

theorem Calendar.mem_everyProperty {calendar : Calendar} {p : Property} :
    p ∈ calendar.everyProperty ↔
      p ∈ calendar.properties ∨ ∃ c ∈ calendar.components, p ∈ c.everyProperty := by
  rw [everyProperty, List.mem_append, Component.mem_everyPropertyOf]

/-! ### Values that were read -/

mutual

/-- Every property of a body stands on one of its lines. -/
theorem Body.exists_line {d : Nat} : ∀ {clauses : List Clause} {ps : List Property}
    {cs : List Component}, Body d clauses ps cs →
    ∀ p ∈ ps ++ Component.everyPropertyOf cs, ∃ line, .property line ∈ clauses ∧ .ofLine line = p
  | _, _, _, .nil, p, hp => by
    simp [Component.everyPropertyOf] at hp
  | _, _, _, .property line rest, p, hp => by
    rcases List.mem_cons.1 hp with rfl | hp
    · exact ⟨line, List.mem_cons_self, rfl⟩
    · obtain ⟨line, hl, rfl⟩ := rest.exists_line p hp
      exact ⟨line, List.mem_cons_of_mem _ hl, rfl⟩
  | _, _, _, .component head rest, p, hp => by
    rw [Component.everyPropertyOf, List.mem_append, List.mem_append] at hp
    rcases hp with hp | hp | hp
    · obtain ⟨line, hl, rfl⟩ := rest.exists_line p (List.mem_append_left _ hp)
      exact ⟨line, List.mem_append_right _ hl, rfl⟩
    · obtain ⟨line, hl, rfl⟩ := head.exists_line p hp
      exact ⟨line, List.mem_append_left _ hl, rfl⟩
    · obtain ⟨line, hl, rfl⟩ := rest.exists_line p (List.mem_append_right _ hp)
      exact ⟨line, List.mem_append_right _ hl, rfl⟩

/-- Every property of a component stands on one of its lines. -/
theorem Balanced.exists_line : ∀ {d : Nat} {block : List Clause} {c : Component},
    Balanced d block c →
    ∀ p ∈ c.everyProperty, ∃ line, .property line ∈ block ∧ .ofLine line = p
  | _, _, _, .enclosed _ _ body, p, hp => by
    rw [Component.everyProperty] at hp
    obtain ⟨line, hl, rfl⟩ := body.exists_line p hp
    exact ⟨line, List.mem_cons_of_mem _ (List.mem_append_left _ hl), rfl⟩

end

theorem Document.exists_line {d : Nat} {clauses : List Clause} {calendar : Calendar}
    (h : Document d clauses calendar) :
    ∀ p ∈ calendar.everyProperty, ∃ line, .property line ∈ clauses ∧ .ofLine line = p := by
  intro p hp
  obtain ⟨-, -, body⟩ := h
  obtain ⟨line, hl, rfl⟩ := body.exists_line p hp
  exact ⟨line, List.mem_cons_of_mem _ (List.mem_append_left _ hl), rfl⟩

theorem exists_reads {clause : Clause} : ∀ {lines : List RawLine} {clauses : List Clause},
    List.Forall₂ Reads lines clauses → clause ∈ clauses → ∃ line ∈ lines, Reads line clause
  | _, _, .cons (a := line) head rest, h => by
    rcases List.mem_cons.1 h with rfl | h
    · exact ⟨line, List.mem_cons_self, head⟩
    · obtain ⟨other, hl, hr⟩ := exists_reads rest h
      exact ⟨other, List.mem_cons_of_mem line hl, hr⟩

/-- What is read has a derivation of which each clause stands on a line of the input. -/
theorem Calendar.exists_clauses {bytes : List UInt8} {calendar : Calendar}
    (h : ofBytes bytes = .ok calendar) : ∃ clauses, Document 32 clauses calendar ∧
      ∀ clause ∈ clauses, ∃ line ∈ RawLine.ofBytes bytes, Reads line clause := by
  obtain ⟨lines, rest, clauses, hl, hr, hd⟩ := exists_document h
  refine ⟨clauses, hd, fun clause hc => ?_⟩
  obtain ⟨line, hm, hreads⟩ := exists_reads hr hc
  rw [hl]
  exact ⟨line, List.mem_append_left rest hm, hreads⟩

/-- The line of a property has neither of the two names that open and close components. -/
theorem Clause.ofLine_eq_property {content line : ContentLine}
    (h : ofLine content = .property line) : content = line ∧
      Text.sameName line.name "BEGIN" = false ∧ Text.sameName line.name "END" = false := by
  unfold ofLine at h
  split_ifs at h with hb he
  cases h
  exact ⟨rfl, Bool.eq_false_iff.2 hb, Bool.eq_false_iff.2 he⟩

/-- A line is read as one clause only. -/
theorem Reads.unique {line : RawLine} {first second : Clause} (h : Reads line first)
    (hs : Reads line second) : first = second := by
  obtain ⟨text, content, hb, hp, hc⟩ := h
  obtain ⟨text', content', hb', hp', hc'⟩ := hs
  have he : text = text' := by
    rw [← RawLine.text_eq_ok_iff] at hb hb'
    rw [hb] at hb'
    cases hb'
    rfl
  rw [he, hp'] at hp
  cases hp
  rw [← ContentLine.says_iff.1 hc, ← ContentLine.says_iff.1 hc']

/-- The value of a property that is not TEXT is what stands on its line. -/
theorem Property.value_ofLine {content : ContentLine} (h : (ofLine content).isText = false) :
    ofLine content = ⟨content.name, content.params, content.rawValue⟩ := by
  have ht : (ValueType.resolve content.name content.params).isText = false := h
  rw [ofLine, ht, if_neg Bool.false_ne_true]

/-- A line of an input that is read as a clause is a content line without line feeds. -/
theorem Reads.exists_content {bytes : List UInt8} {line : RawLine} {clause : Clause}
    (h : Reads line clause) (hl : line ∈ RawLine.ofBytes bytes) : ∃ chars content,
      line.bytes = Utf8.encode chars ∧ '\n' ∉ chars ∧
      ContentLine.ofChars chars = .ok content ∧ Clause.ofLine content = clause := by
  obtain ⟨text, content, hb, hp, hc⟩ := h
  exact ⟨text.toList, content, hb,
    RawLine.lineFeed_not_mem_text hl (RawLine.text_eq_ok_iff.2 hb),
    ContentLine.parse_eq_ok_iff.1 hp, ContentLine.says_iff.1 hc⟩

/-- Every property that is read stands on a line of the input. -/
theorem Calendar.exists_content {bytes : List UInt8} {calendar : Calendar}
    (h : ofBytes bytes = .ok calendar) {p : Property} (hp : p ∈ calendar.everyProperty) :
    ∃ line ∈ RawLine.ofBytes bytes, ∃ chars content, line.bytes = Utf8.encode chars ∧
      '\n' ∉ chars ∧ ContentLine.ofChars chars = .ok content ∧
      Clause.ofLine content = .property content ∧ .ofLine content = p := by
  obtain ⟨clauses, hd, hreads⟩ := exists_clauses h
  obtain ⟨content, hc, rfl⟩ := hd.exists_line p hp
  obtain ⟨line, hl, hline⟩ := hreads _ hc
  obtain ⟨chars, found, hb, hf, hparse, hfound⟩ := hline.exists_content hl
  obtain ⟨rfl, -⟩ := Clause.ofLine_eq_property hfound
  exact ⟨line, hl, chars, found, hb, hf, hparse, hfound, rfl⟩

/-- No value that is read has a line feed in it unless it is TEXT. -/
theorem Calendar.lineFeed_not_mem_value {bytes : List UInt8} {calendar : Calendar}
    (h : ofBytes bytes = .ok calendar) {p : Property} (hp : p ∈ calendar.everyProperty)
    (ht : p.isText = false) : '\n' ∉ p.value.toList := by
  obtain ⟨line, hl, chars, content, hb, hf, hparse, hfound, rfl⟩ := exists_content h hp
  rw [Property.value_ofLine ht]
  exact fun hm => hf ((ContentLine.rawValue_suffix hparse).subset hm)

/-! ### The line of a broken property -/

namespace Builder

/-- Reading on from a calendar adds to its properties. -/
theorem prefix_of_step {calendar : Calendar} {stack : List OpenComponent} {clause : Clause}
    {b : Builder} (h : (inside calendar stack).step clause = .ok b) :
    (∃ found stack, b = inside found stack ∧ calendar.properties <+: found.properties) ∨
      b = closed calendar := by
  cases clause with
  | opening token =>
    rw [step] at h
    split_ifs at h
    cases h
    exact .inl ⟨calendar, _, rfl, List.prefix_rfl⟩
  | closing last =>
    cases stack with
    | nil =>
      rw [step] at h
      split_ifs at h
      cases h
      exact .inr rfl
    | cons top stack =>
      by_cases hl : Text.sameName last top.token = true
      · rw [step_closing hl] at h
        cases h
        cases stack with
        | nil =>
          exact .inl ⟨_, [], rfl, List.prefix_append _ _⟩
        | cons next stack => exact .inl ⟨calendar, _, rfl, List.prefix_rfl⟩
      · cases stack <;> simp [step, hl] at h
  | property line =>
    cases stack with
    | nil =>
      cases h
      exact .inl ⟨_, [], rfl, List.prefix_append _ _⟩
    | cons top stack =>
      cases h
      exact .inl ⟨calendar, _, rfl, List.prefix_rfl⟩

theorem prefix_of_steps {calendar found : Calendar} {stack : List OpenComponent}
    {clauses : List Clause} (h : Steps (inside calendar stack) clauses (closed found)) :
    calendar.properties <+: found.properties := by
  induction clauses generalizing calendar stack with
  | nil => cases h
  | cons clause clauses ih =>
    cases h with
    | cons head rest =>
      rcases prefix_of_step head with ⟨next, stack, rfl, hp⟩ | rfl
      · exact hp.trans (ih rest)
      · cases rest.of_closed.2
        exact List.prefix_rfl

/-- Lines that are read as clauses may be taken one after the other. -/
theorem run_append {calendar : Calendar} {rest : List RawLine} : ∀ {front : List RawLine}
    {clauses : List Clause} {a b : Builder} {last : Nat}, List.Forall₂ Reads front clauses →
    Steps a clauses b → a.run last (front ++ rest) = .ok calendar →
    ∃ number, b.run number rest = .ok calendar
  | _, _, _, _, last, .nil, .nil, h => ⟨last, h⟩
  | _, _, a, _, last, .cons hr hrs, .cons head more, h => by
    have ha : ∀ c, a ≠ .closed c := by
      rintro c rfl
      cases head
    rw [List.cons_append, run_cons_eq_ok_iff ha] at h
    obtain ⟨clause, next, hr', head', h⟩ := h
    cases hr.unique hr'
    rw [head] at head'
    cases head'
    exact run_append hrs more h

end Builder

namespace Property

variable {p : Property}

theorem Framed.opens_head (h : p.Framed) : RawLine.Opens (Utf8.encode (p.head ++ [':'])) := by
  obtain ⟨c, rest, hn⟩ := List.exists_cons_of_ne_nil h.name_ne
  rw [head, hn, List.cons_append, List.cons_append]
  exact RawLine.opens_encode (opens_of_eq h.opens hn) _

theorem Framed.lineFeed_not_mem_encode_head (h : p.Framed) :
    RawLine.lineFeed ∉ Utf8.encode (p.head ++ [':']) := by
  intro hm
  have hc : '\n' ∈ p.head ++ [':'] := (Utf8.mem_encode (by decide)).1 hm
  rcases List.mem_append.1 hc with hc | hc
  · exact lineFeed_not_mem_head h.name_feed h.params_feed hc
  · exact absurd hc (by decide)

theorem encode_head_not_return (p : Property) :
    (Utf8.encode (p.head ++ [':'])).getLast? ≠ some RawLine.carriageReturn := by
  have hc : Utf8.encode [':'] = [58] := by decide
  have hr : some 58 ≠ some RawLine.carriageReturn := by decide
  rw [Utf8.encode_append, hc, List.getLast?_concat]
  exact hr

end Property

theorem encode_joinLines_append (front : List String) (line : String) (back : List String) :
    ∃ rest, Utf8.encode (joinLines (front ++ line :: back)).toList
      = RawLine.terminated (front.map fun line => Utf8.encode line.toList)
        ++ (Utf8.encode line.toList ++ rest) := by
  rw [encode_joinLines, RawLine.terminated, List.map_append, List.flatMap_append, List.map_cons,
    List.flatMap_cons, List.append_assoc (Utf8.encode line.toList)]
  exact ⟨_, rfl⟩

namespace Calendar

/-- The written form of a calendar, broken off in the line of a property after the colon. -/
theorem encode_text_of_properties {calendar : Calendar} {good more : List Property} {p : Property}
    (hp : calendar.properties = good ++ p :: more) : ∃ rest, Utf8.encode calendar.text.toList =
      RawLine.terminated ((("BEGIN:" ++ calendarToken) :: good.map Property.text).map
          fun line => Utf8.encode line.toList)
        ++ (Utf8.encode (p.head ++ [':']) ++ rest) := by
  have hl : calendar.lines = (("BEGIN:" ++ calendarToken) :: good.map Property.text) ++ p.text ::
      (more.map Property.text ++ (Component.linesOf calendar.components
        ++ ["END:" ++ calendarToken])) := by
    rw [lines, enclose, hp]
    simp
  have hc : p.text.toList = (p.head ++ [':']) ++ p.rawValue.toList := by
    rw [Property.toList_text, Property.chars_eq, List.append_assoc,
      List.singleton_append]
  obtain ⟨rest, hr⟩ := encode_joinLines_append
    (("BEGIN:" ++ calendarToken) :: good.map Property.text) p.text
    (more.map Property.text ++ (Component.linesOf calendar.components
      ++ ["END:" ++ calendarToken]))
  rw [text, hl, hr, hc, Utf8.encode_append, List.append_assoc]
  exact ⟨_, rfl⟩

/-- The properties before one that may break its line are read back, and so are the name and the
parameters of that one; its value ends at the line feed at the latest. -/
theorem properties_of_framed {calendar found : Calendar} {good more : List Property} {p : Property}
    (hp : calendar.properties = good ++ p :: more) (hg : ∀ q ∈ good, q.LineSafe) (hf : p.Framed)
    (ht : p.isText = false) (h : ofText calendar.text = .ok found) :
    ∃ value others, found.properties = good ++ ⟨p.name, p.params, value⟩ :: others ∧
      '\n' ∉ value.toList := by
  obtain ⟨clauses, hs, hb⟩ := written_properties 32 fun q hq => (hg q hq).readBack
  have hstands : List.Forall₂ Stands (("BEGIN:" ++ calendarToken) :: good.map Property.text)
      (.opening calendarToken :: clauses) := .cons fitsLine_calendarToken.stands_opening hs
  obtain ⟨rest, hbytes⟩ := encode_text_of_properties hp
  obtain ⟨line, others, hl⟩ := RawLine.ofBytes_terminated_append
    (fun bytes hm => (encode_of_stands hstands bytes hm).1)
    (fun bytes hm => (encode_of_stands hstands bytes hm).2) hf.opens_head
    hf.lineFeed_not_mem_encode_head p.encode_head_not_return rest
  have hsteps : Builder.Steps .outside (.opening calendarToken :: clauses)
      (.inside ⟨good, []⟩ []) :=
    .cons (by decide) (Builder.steps_of_body hb ⟨⟨[], []⟩, [], rfl, Nat.le_refl 32⟩)
  rw [ofText, ofBytes, hbytes, hl] at h
  obtain ⟨last, h⟩ := Builder.run_append (forall₂_reads hstands 1) hsteps h
  rw [Builder.run_cons_eq_ok_iff (fun c e => by cases e)] at h
  obtain ⟨clause, b, ⟨text, content, htext, hparse, hclause⟩, hstep, h⟩ := h
  obtain ⟨back, hback⟩ := Utf8.exists_of_encode_append htext
  have hcontent : content = ⟨p.name, p.params, String.ofList back⟩ := by
    rw [ContentLine.parse_eq_ok_iff, hback, List.append_assoc, List.singleton_append,
      Property.ofChars_head hf.legible] at hparse
    cases hparse
    rfl
  rw [ContentLine.says_iff, hcontent, hf.ofLine_value] at hclause
  subst hclause
  cases hstep
  obtain ⟨_, _, _, -, -, hmore⟩ := Builder.run_eq_ok_iff.1 h
  obtain ⟨others, ho⟩ := Builder.prefix_of_steps hmore
  have hfeed : '\n' ∉ text.toList :=
    RawLine.lineFeed_not_mem_text
      (by rw [hl]; exact List.mem_append_right _ List.mem_cons_self)
      (RawLine.text_eq_ok_iff.2 htext)
  have hv : Property.ofLine ⟨p.name, p.params, String.ofList back⟩
      = ⟨p.name, p.params, String.ofList back⟩ := Property.value_ofLine ht
  refine ⟨String.ofList back, others, ?_, ?_⟩
  · rw [← ho, hv, List.append_assoc, List.singleton_append]
  · rw [String.toList_ofList]
    exact fun hm => hfeed (by rw [hback]; exact List.mem_append_right _ hm)

end Calendar

end Almanac
