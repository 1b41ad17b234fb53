import Mathlib.Data.List.Forall2
import Almanac.Component.Lines
import Almanac.Proofs.Component.Grammar
import Almanac.Proofs.Line.Content

/-!
A calendar is read back from its written form.  What that asks for is called `LineSafe`: names that
the scanners find again, no line feed where nothing escapes it, tokens that stand for what they are,
and no more than thirty-two components inside one another.

    calendar ──lines──▶ lines ──joinLines──▶ text ──ofBytes──▶ raw lines
       ▲                  │ Stands                              │ Reads
       └─── Document ──── clauses ◀─────────────────────────────┘

Two halves meet at the clauses.  The written lines are derived by the grammar from the calendar
(`Written`), and each of them stands on a line of its own and is read as its clause (`Stands`).
-/

namespace Almanac

/-! ### Safe calendars -/

/-- A property whose line begins and goes on as it should, whatever its value is. -/
structure Property.Framed (p : Property) : Prop extends p.Clean where
  /-- Its line is not taken for the continuation of another one. -/
  opens : Scan.Free [' ', '\t'] p.name.toList.head?.toList
  /-- Its name does not end the line. -/
  name_feed : '\n' ∉ p.name.toList
  /-- The names of its parameters do not end the line. -/
  params_feed : ∀ q ∈ p.params, '\n' ∉ q.name.toList
  /-- Its line does not open a component. -/
  not_begin : Text.sameName p.name "BEGIN" = false
  /-- Its line does not close a component. -/
  not_end : Text.sameName p.name "END" = false

/-- A property that may stand on a line of its own. -/
structure Property.LineSafe (p : Property) : Prop extends p.Framed where
  /-- Its value does not end the line unless it is escaped. -/
  value_feed : p.isText = false → '\n' ∉ p.value.toList

/-- A token that stands for what it is.  The known ones do. -/
def Token.LineSafe : Token → Prop
  | .known _ => True
  | .other word => '\n' ∉ word.toList ∧ Text.trimmed word = word ∧
      isCalendarToken word = false ∧ Role.ofToken? word = none

/-- A component with no more than `d` components inside one another, itself among them, of which
the tokens are as `T` says and the properties as `P` says. -/
def Component.Within (T : Token → Prop) (P : Property → Prop) : Nat → Component → Prop
  | 0, _ => False
  | d + 1, ⟨token, properties, components⟩ =>
    T token ∧ (∀ p ∈ properties, P p) ∧ ∀ c ∈ components, c.Within T P d

/-- A calendar that may be written line by line.  Its components are at most thirty-two deep. -/
structure Calendar.LineSafe (calendar : Calendar) : Prop where
  /-- Its properties may stand on lines. -/
  properties : ∀ p ∈ calendar.properties, p.LineSafe
  /-- So may its components. -/
  components : ∀ c ∈ calendar.components, c.Within Token.LineSafe Property.LineSafe 32

instance (p : Property) : Decidable p.Framed :=
  decidable_of_iff (p.Clean ∧ Scan.Free [' ', '\t'] p.name.toList.head?.toList ∧
      '\n' ∉ p.name.toList ∧ (∀ q ∈ p.params, '\n' ∉ q.name.toList) ∧
      Text.sameName p.name "BEGIN" = false ∧ Text.sameName p.name "END" = false)
    ⟨fun ⟨h, ho, hn, hq, hb, he⟩ => ⟨h, ho, hn, hq, hb, he⟩,
      fun h => ⟨h.toClean, h.opens, h.name_feed, h.params_feed, h.not_begin, h.not_end⟩⟩

instance : DecidablePred Property.LineSafe := fun p =>
  decidable_of_iff (p.Framed ∧ (p.isText = false → '\n' ∉ p.value.toList))
    ⟨fun h => ⟨h.1, h.2⟩, fun h => ⟨h.toFramed, h.value_feed⟩⟩

instance : DecidablePred Token.LineSafe
  | .known _ => inferInstanceAs (Decidable True)
  | .other _ => inferInstanceAs (Decidable (_ ∧ _))

/-- Decides what all tokens and properties of a component are like. -/
def Component.decideWithin (T : Token → Prop) (P : Property → Prop) [DecidablePred T]
    [DecidablePred P] : (d : Nat) → (c : Component) → Decidable (c.Within T P d)
  | 0, _ => isFalse id
  | d + 1, ⟨token, properties, components⟩ =>
    haveI : DecidablePred (Component.Within T P d) := decideWithin T P d
    inferInstanceAs (Decidable (T token ∧ (∀ p ∈ properties, P p) ∧
      ∀ c ∈ components, c.Within T P d))

instance (T : Token → Prop) (P : Property → Prop) [DecidablePred T] [DecidablePred P] (d : Nat) :
    DecidablePred (Component.Within T P d) := Component.decideWithin T P d

instance : DecidablePred Calendar.LineSafe := fun calendar =>
  decidable_of_iff ((∀ p ∈ calendar.properties, p.LineSafe) ∧
      ∀ c ∈ calendar.components, c.Within Token.LineSafe Property.LineSafe 32)
    ⟨fun h => ⟨h.1, h.2⟩, fun h => ⟨h.properties, h.components⟩⟩

/-! ### Lines -/

/-- A line of text that stands on a physical line of its own and is read as a clause. -/
structure Stands (line : String) (clause : Clause) : Prop where
  /-- It does not look like the continuation of another line. -/
  opens : ∃ c rest, line.toList = c :: rest ∧ c ≠ ' ' ∧ c ≠ '\t'
  /-- It does not end early. -/
  no_feed : '\n' ∉ line.toList
  /-- It is read as the clause. -/
  reads : ∃ content, ContentLine.ofChars line.toList = .ok content ∧
    Clause.ofLine content = clause

/-- A text that begins with neither a space nor a tab opens a line. -/
theorem RawLine.opens_encode {c : Char} (hc : c ≠ ' ' ∧ c ≠ '\t') (rest : List Char) :
    RawLine.Opens (Utf8.encode (c :: rest)) := by
  obtain ⟨b, bytes, hb⟩ := List.exists_cons_of_ne_nil (Utf8.encodeChar_ne_nil c)
  refine ⟨b, bytes ++ Utf8.encode rest, by rw [Utf8.encode_cons, hb, List.cons_append], ?_⟩
  have hm : b ∈ Utf8.encodeChar c := by
    rw [hb]
    exact List.mem_cons_self
  rw [RawLine.isFoldMark, Bool.or_eq_false_iff, beq_eq_false_iff_ne, beq_eq_false_iff_ne]
  refine ⟨?_, ?_⟩
  · rintro rfl
    exact hc.1 ((Utf8.mem_encodeChar (by decide)).1 hm)
  · rintro rfl
    exact hc.2 ((Utf8.mem_encodeChar (by decide)).1 hm)

namespace Stands

variable {line : String} {clause : Clause}

theorem opens_encode (h : Stands line clause) : RawLine.Opens (Utf8.encode line.toList) := by
  obtain ⟨c, rest, hl, hc⟩ := h.opens
  rw [hl]
  exact RawLine.opens_encode hc rest

theorem lineFeed_not_mem_encode (h : Stands line clause) :
    RawLine.lineFeed ∉ Utf8.encode line.toList := fun hm =>
  h.no_feed ((Utf8.mem_encode (by decide)).1 hm)

theorem reads_encode (h : Stands line clause) (n : Nat) :
    Reads ⟨n, Utf8.encode line.toList⟩ clause := by
  obtain ⟨content, hc, he⟩ := h.reads
  exact ⟨line, content, rfl, ContentLine.parse_eq_ok_iff.2 hc, ContentLine.says_iff.2 he⟩

end Stands

namespace Property

variable {p : Property}

/-- A value does not end the line if it is escaped or has no line feed. -/
theorem lineFeed_not_mem_rawValue (h : p.isText = false → '\n' ∉ p.value.toList) :
    '\n' ∉ p.rawValue.toList := by
  unfold rawValue
  split
  · rw [Escape.encodeText, String.toList_ofList]
    exact Escape.lineFeed_not_mem_encode p.value.toList
  · next ht => exact h (Bool.eq_false_iff.2 ht)

/-- The first character of the name opens a line. -/
theorem opens_of_eq (h : Scan.Free [' ', '\t'] p.name.toList.head?.toList) {c : Char}
    {rest : List Char} (hn : p.name.toList = c :: rest) : c ≠ ' ' ∧ c ≠ '\t' := by
  have hc : c ∉ [' ', '\t'] := h c (by rw [hn]; exact List.mem_singleton_self c)
  simpa using hc

/-- The line of a property does not look like the continuation of another one. -/
theorem text_opens (hne : p.name.toList ≠ [])
    (h : Scan.Free [' ', '\t'] p.name.toList.head?.toList) :
    ∃ c rest, p.text.toList = c :: rest ∧ c ≠ ' ' ∧ c ≠ '\t' := by
  obtain ⟨c, rest, hn⟩ := List.exists_cons_of_ne_nil hne
  rw [toList_text, chars_eq, head, hn]
  exact ⟨c, _, rfl, opens_of_eq h hn⟩

/-- What stands before the colon does not end the line if the names do not. -/
theorem lineFeed_not_mem_head (hn : '\n' ∉ p.name.toList)
    (hq : ∀ q ∈ p.params, '\n' ∉ q.name.toList) : '\n' ∉ p.head := by
  rw [head, List.mem_append]
  rintro (hm | hm)
  · exact hn hm
  · obtain ⟨piece, hp, hm⟩ := List.mem_flatMap.1 hm
    obtain ⟨q, hmem, rfl⟩ := List.mem_map.1 hp
    rcases List.mem_cons.1 hm with hm | hm
    · exact absurd hm (by decide)
    · exact Param.lineFeed_not_mem_chars (hq q hmem) hm

/-- No part of the line of a property ends it if the names and the value do not. -/
theorem lineFeed_not_mem_chars (hn : '\n' ∉ p.name.toList)
    (hq : ∀ q ∈ p.params, '\n' ∉ q.name.toList)
    (hv : p.isText = false → '\n' ∉ p.value.toList) : '\n' ∉ p.chars := by
  rw [chars_eq, List.mem_append, List.mem_cons]
  rintro (hm | hm | hm)
  · exact lineFeed_not_mem_head hn hq hm
  · exact absurd hm (by decide)
  · exact lineFeed_not_mem_rawValue hv hm

/-- A line with the name of a property is a property, whatever its value is. -/
theorem Framed.ofLine_value (h : p.Framed) (value : String) :
    Clause.ofLine ⟨p.name, p.params, value⟩ = .property ⟨p.name, p.params, value⟩ := by
  rw [Clause.ofLine, h.not_begin, h.not_end, if_neg Bool.false_ne_true,
    if_neg Bool.false_ne_true]

/-- The line of a property stands. -/
theorem LineSafe.stands (h : p.LineSafe) : Stands p.text (.property p.toLine) where
  opens := text_opens h.name_ne h.opens
  no_feed := by
    rw [toList_text]
    exact lineFeed_not_mem_chars h.name_feed h.params_feed h.value_feed
  reads := by
    rw [toList_text]
    exact ⟨p.toLine, ofChars_chars h.legible, h.ofLine_value p.rawValue⟩

/-- A property whose line stands and is read as the property. -/
def ReadBack (p : Property) : Prop := ∃ line, Stands p.text (.property line) ∧ .ofLine line = p

theorem LineSafe.readBack (h : p.LineSafe) : p.ReadBack := ⟨p.toLine, h.stands, ofLine_toLine p⟩

end Property

/-! ### Tokens -/

/-- A token that stands on a line as it is. -/
structure FitsLine (token : String) : Prop where
  /-- It does not end the line. -/
  no_feed : '\n' ∉ token.toList
  /-- There are no blanks around it. -/
  trimmed : Text.trimmed token = token

theorem fitsLine_calendarToken : FitsLine calendarToken := ⟨by decide, by decide⟩

namespace Token

variable {token : Token}

theorem LineSafe.fitsLine (h : token.LineSafe) : FitsLine token.text := by
  cases token with
  | known role => cases role <;> exact ⟨by decide, by decide⟩
  | other word => exact ⟨h.1, h.2.1⟩

theorem LineSafe.not_calendar (h : token.LineSafe) : isCalendarToken token.text = false := by
  cases token with
  | known role => cases role <;> decide
  | other word => exact h.2.2.1

theorem LineSafe.ofText_eq (h : token.LineSafe) : ofText token.text = token := by
  cases token with
  | known role => cases role <;> decide
  | other word => rw [text, ofText, h.2.2.2]

end Token

/-- A line of a keyword and a token stands. -/
theorem stands_keyword {line keyword token : String} (hk : keyword = "BEGIN" ∨ keyword = "END")
    (hl : line.toList = keyword.toList ++ ':' :: token.toList) (hf : '\n' ∉ token.toList) :
    Stands line (.ofLine ⟨keyword, [], token⟩) := by
  have hw : keyword.toList ≠ [] ∧ Scan.Free [':', ';', '"'] keyword.toList ∧
      '\n' ∉ keyword.toList ∧ Scan.Free [' ', '\t'] keyword.toList.head?.toList ∧
      (ValueType.resolve keyword []).isText = false := by
    rcases hk with rfl | rfl <;> decide
  obtain ⟨hne, hplain, hfeed, hopens, ht⟩ := hw
  have hc : (Property.plain keyword token).Clean :=
    ⟨hne, hplain, fun _ hq => absurd hq List.not_mem_nil⟩
  have hv : (Property.plain keyword token).rawValue = token := by
    rw [Property.rawValue, Property.isText, Property.type, Property.plain, ht,
      if_neg Bool.false_ne_true]
  have hp : line.toList = (Property.plain keyword token).text.toList := by
    rw [Property.toList_text, Property.chars, hv, hl, Property.plain, List.flatMap_nil,
      List.append_nil]
  refine ⟨?_, ?_, ⟨keyword, [], token⟩, ?_, rfl⟩
  · rw [hp]
    exact Property.text_opens hne hopens
  · rw [hp, Property.toList_text]
    exact Property.lineFeed_not_mem_chars hfeed (fun _ hq => absurd hq List.not_mem_nil)
      fun _ => hf
  · rw [hp, Property.toList_text, Property.ofChars_chars hc.legible, Property.toLine, hv]
    rfl

namespace FitsLine

variable {token : String}

theorem stands_opening (h : FitsLine token) : Stands ("BEGIN:" ++ token) (.opening token) := by
  have hs : Stands ("BEGIN:" ++ token) (.ofLine ⟨"BEGIN", [], token⟩) :=
    stands_keyword (.inl rfl) (by simp) h.no_feed
  rw [Clause.ofLine, if_pos (Text.sameName_refl "BEGIN"), h.trimmed] at hs
  exact hs

theorem stands_closing (h : FitsLine token) : Stands ("END:" ++ token) (.closing token) := by
  have hb : ¬ Text.sameName "END" "BEGIN" = true := by decide
  have hs : Stands ("END:" ++ token) (.ofLine ⟨"END", [], token⟩) :=
    stands_keyword (.inr rfl) (by simp) h.no_feed
  rw [Clause.ofLine, if_neg hb, if_pos (Text.sameName_refl "END"), h.trimmed] at hs
  exact hs

/-- Lines that stand may be enclosed by those of a token. -/
theorem stands_enclose (h : FitsLine token) {lines : List String} {clauses : List Clause}
    (hl : List.Forall₂ Stands lines clauses) : List.Forall₂ Stands (enclose token lines)
      (.opening token :: (clauses ++ [.closing token])) :=
  .cons h.stands_opening (List.rel_append hl (.cons h.stands_closing .nil))

end FitsLine

/-! ### From a calendar to its derivation -/

/-- Lines that stand and are together a body with these properties and components. -/
def Written (d : Nat) (lines : List String) (ps : List Property) (cs : List Component) : Prop :=
  ∃ clauses, List.Forall₂ Stands lines clauses ∧ Body d clauses ps cs

theorem written_nil (d : Nat) : Written d [] [] [] := ⟨[], .nil, .nil⟩

theorem Written.append {d : Nat} {first second : List String} {ps qs : List Property}
    {cs ds : List Component} (h : Written d first ps cs) (hs : Written d second qs ds) :
    Written d (first ++ second) (ps ++ qs) (cs ++ ds) := by
  obtain ⟨_, hl, hb⟩ := h
  obtain ⟨_, hm, hc⟩ := hs
  exact ⟨_, List.rel_append hl hm, hb.append hc⟩

theorem written_properties (d : Nat) : ∀ {ps : List Property}, (∀ p ∈ ps, p.ReadBack) →
    Written d (ps.map Property.text) ps []
  | [], _ => written_nil d
  | p :: ps, h => by
    obtain ⟨line, hs, he⟩ := h p List.mem_cons_self
    have hp : Written d [p.text] [p] [] := by
      refine ⟨[.property line], .cons hs .nil, ?_⟩
      rw [← he]
      exact .single line
    exact hp.append (written_properties d fun q hq => h q (List.mem_cons_of_mem p hq))

theorem written_components {d : Nat} : ∀ {cs : List Component},
    (∀ c ∈ cs, Written d c.lines [] [c]) → Written d (Component.linesOf cs) [] cs
  | [], _ => written_nil d
  | c :: cs, h => by
    rw [Component.linesOf]
    exact (h c List.mem_cons_self).append
      (written_components fun e he => h e (List.mem_cons_of_mem c he))

/-- What is enclosed by the lines of a token is a component. -/
theorem Written.enclose {d : Nat} {token : Token} {lines : List String} {ps : List Property}
    {cs : List Component} (ht : token.LineSafe) (h : Written d lines ps cs) :
    Written (d + 1) (enclose token.text lines) [] [⟨token, ps, cs⟩] := by
  obtain ⟨clauses, hl, hb⟩ := h
  refine ⟨_, ht.fitsLine.stands_enclose hl, .of_balanced ?_⟩
  have hc := Balanced.enclosed ht.not_calendar (Text.sameName_refl token.text) hb
  rwa [ht.ofText_eq] at hc

/-- The lines of a component are derived from it if its properties are read back. -/
theorem written_component {P : Property → Prop} (hP : ∀ p, P p → p.ReadBack) :
    ∀ {d : Nat} {c : Component}, c.Within Token.LineSafe P d → Written d c.lines [] [c]
  | 0, _, h => h.elim
  | d + 1, ⟨token, ps, cs⟩, ⟨ht, hp, hc⟩ => by
    rw [Component.lines]
    have hb := (written_properties d fun p hm => hP p (hp p hm)).append
      (written_components fun c hm => written_component hP (hc c hm))
    rw [List.append_nil, List.nil_append] at hb
    exact hb.enclose ht

/-- The lines of a calendar stand and are a document if its properties are read back. -/
theorem Calendar.document_of_within {P : Property → Prop} (hP : ∀ p, P p → p.ReadBack)
    {calendar : Calendar} (hp : ∀ p ∈ calendar.properties, P p)
    (hc : ∀ c ∈ calendar.components, c.Within Token.LineSafe P 32) :
    ∃ clauses, List.Forall₂ Stands calendar.lines clauses ∧ Document 32 clauses calendar := by
  obtain ⟨clauses, hl, hb⟩ := (written_properties 32 fun p hm => hP p (hp p hm)).append
    (written_components fun c hm => written_component hP (hc c hm))
  rw [List.append_nil, List.nil_append] at hb
  have hcal : isCalendarToken calendarToken = true := by decide
  exact ⟨_, fitsLine_calendarToken.stands_enclose hl, .enclosed hcal hcal hb⟩

/-- The lines of a safe calendar stand and are a document. -/
theorem Calendar.LineSafe.document {calendar : Calendar} (h : calendar.LineSafe) :
    ∃ clauses, List.Forall₂ Stands calendar.lines clauses ∧ Document 32 clauses calendar :=
  document_of_within (fun _ hp => hp.readBack) h.properties h.components

/-! ### From lines to bytes and back -/

theorem encode_joinLines : ∀ lines : List String, Utf8.encode (joinLines lines).toList
    = RawLine.terminated (lines.map fun line => Utf8.encode line.toList)
  | [] => rfl
  | line :: lines => by
    have hb : Utf8.encode "\r\n".toList = [RawLine.carriageReturn, RawLine.lineFeed] := by decide
    have ih := encode_joinLines lines
    rw [joinLines, List.foldr_cons, ← joinLines, String.toList_append, String.toList_append,
      Utf8.encode_append, Utf8.encode_append, hb, ih]
    rfl

theorem forall₂_reads : ∀ {lines : List String} {clauses : List Clause},
    List.Forall₂ Stands lines clauses → ∀ n : Nat, List.Forall₂ Reads
      (RawLine.numbered n (lines.map fun line => Utf8.encode line.toList)) clauses
  | _, _, .nil, _ => .nil
  | _, _, .cons head rest, n => .cons (head.reads_encode n) (forall₂_reads rest (n + 1))

theorem encode_of_stands {lines : List String} {clauses : List Clause}
    (h : List.Forall₂ Stands lines clauses) :
    ∀ bytes ∈ lines.map fun line => Utf8.encode line.toList,
      RawLine.lineFeed ∉ bytes ∧ RawLine.Opens bytes :=
  List.forall_mem_map.2 ((List.forall₂_and_left ..).1 (h.imp fun _ _ hs =>
    ⟨⟨hs.lineFeed_not_mem_encode, hs.opens_encode⟩, hs⟩)).1

/-- Lines that stand are read as their clauses. -/
theorem ofBytes_joinLines {lines : List String} {clauses : List Clause}
    (h : List.Forall₂ Stands lines clauses) : ∃ raws,
      RawLine.ofBytes (Utf8.encode (joinLines lines).toList) = raws ∧
        List.Forall₂ Reads raws clauses := by
  refine ⟨_, ?_, forall₂_reads h 1⟩
  rw [encode_joinLines, RawLine.ofBytes_terminated]
  · exact fun bytes hm => (encode_of_stands h bytes hm).1
  · exact fun bytes hm => (encode_of_stands h bytes hm).2

/-- A calendar is read from its written form if its lines stand and are derived from it. -/
theorem Calendar.ofText_of_stands {calendar : Calendar} {clauses : List Clause}
    (hs : List.Forall₂ Stands calendar.lines clauses) (hd : Document 32 clauses calendar) :
    Calendar.ofText calendar.text = .ok calendar := by
  obtain ⟨raws, hl, hr⟩ := ofBytes_joinLines hs
  exact ofBytes_of_document (by rw [List.append_nil]; exact hl) hr hd

/-- A calendar whose lines are safe is read back from its written form. -/
theorem Calendar.ofText_text {calendar : Calendar} (h : calendar.LineSafe) :
    Calendar.ofText calendar.text = .ok calendar := by
  obtain ⟨clauses, hs, hd⟩ := h.document
  exact ofText_of_stands hs hd

/-- A calendar in which every character stands that means something to a reader of lines. -/
def oddCalendar : Calendar :=
  ⟨[⟨"VERSION", [], "2.0"⟩,
    ⟨"x-note", [⟨"VALUE", ["text", "a,\"b^c\"\n"]⟩, ⟨"X-FLAG", []⟩], "BEGIN:VEVENT\r\n;,\\n\\"⟩],
   [⟨.known .event, [⟨"URL", [⟨"X", ["", "ü:;"]⟩], "x\r"⟩],
     [⟨.other "x-inner", [⟨"SUMMARY", [], ""⟩], []⟩, ⟨.known .alarm, [], []⟩]⟩]⟩

/-- The odd calendar is read back too. -/
theorem oddCalendar_ofText_text : oddCalendar.LineSafe ∧
    Calendar.ofText oddCalendar.text = .ok oddCalendar :=
  ⟨by decide, Calendar.ofText_text (by decide)⟩

end Almanac
