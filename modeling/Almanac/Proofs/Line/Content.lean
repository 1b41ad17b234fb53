import Almanac.Property.Basic
import Almanac.Proofs.Line.Escape
import Almanac.Proofs.Line.Scan

/-!
A property is read back from its line.  That asks something of the names alone (`Legible`): they are
there, and the scanners pass over them.  So they do if no character in a name is one that they look
for (`Clean`).  The values of parameters and of TEXT properties may be anything.

    NAME ;PARAM=value,"value" :the value     ──ofChars──▶  name, parameters, value as written
                                             ──ofLine───▶  value as meant
-/

namespace Almanac

namespace Param

/-- A parameter that can be found again on a line. -/
structure Legible (p : Param) : Prop where
  /-- Something is written. -/
  chars_ne : p.chars ≠ []
  /-- The name ends at the first equals sign. -/
  name_equals : '=' ∉ p.name.toList
  /-- A colon or a semicolon in the name is inside quotes, and they are closed. -/
  name_passes : ∀ sep, sep = ':' ∨ sep = ';' → Scan.Passes sep false p.name.toList

/-- A parameter whose name has no character in it that ends a name or is a quote. -/
structure Clean (p : Param) : Prop where
  /-- There is a name. -/
  name_ne : p.name.toList ≠ []
  /-- No character of it ends a name. -/
  name_plain : Scan.Free [':', ';', '=', '"'] p.name.toList

instance (p : Param) : Decidable p.Clean :=
  decidable_of_iff (p.name.toList ≠ [] ∧ Scan.Free [':', ';', '=', '"'] p.name.toList)
    ⟨fun h => ⟨h.1, h.2⟩, fun h => ⟨h.name_ne, h.name_plain⟩⟩

theorem Clean.not_mem {p : Param} (h : p.Clean) {c : Char} (hc : c ∈ [':', ';', '=', '"']) :
    c ∉ p.name.toList := fun hm => h.name_plain c hm hc

theorem Clean.legible {p : Param} (h : p.Clean) : p.Legible where
  chars_ne := fun e => h.name_ne (List.append_eq_nil_iff.1 e).1
  name_equals := h.not_mem (by decide)
  name_passes := fun sep hsep => Scan.passes_plain
    (h.not_mem (by rcases hsep with rfl | rfl <;> decide)) (h.not_mem (by decide))

theorem valuesText_cons (value : String) (values : List String) :
    valuesText (value :: values) = Quote.encode value.toList
      ++ ((values.map String.toList).map Quote.encode).flatMap (',' :: ·) := by
  have hj := Scan.intercalate_cons ',' (Quote.encode value.toList)
    ((values.map String.toList).map Quote.encode)
  rw [← hj, List.map_map]
  rfl

theorem decode_splitValues (value : String) (values : List String) :
    ((Scan.splitValues false false (valuesText (value :: values))).map fun written =>
      String.ofList (Quote.decode written)) = value :: values := by
  rw [valuesText_cons, Scan.splitValues_list, ← List.map_cons, List.map_map, List.map_map]
  refine List.map_id'' (fun text => ?_) _
  simp [Quote.decode_encode]

/-- A parameter is read back from its written form. -/
theorem ofChars_chars {p : Param} (h : p.Legible) : ofChars p.chars = p := by
  obtain ⟨name, values⟩ := p
  cases values with
  | nil =>
    rw [chars, if_pos rfl, List.append_nil, ofChars, Scan.cutPlain?_of_not_mem h.name_equals]
    simp
  | cons value values =>
    rw [chars, if_neg (List.cons_ne_nil _ _), ofChars, Scan.cutPlain?_append h.name_equals]
    dsimp only
    rw [decode_splitValues, String.ofList_toList]

/-- A scanner for colons or semicolons passes over written values. -/
theorem passes_valuesText {sep : Char} (hsep : sep = ':' ∨ sep = ';') (value : String)
    (values : List String) : Scan.Passes sep false (valuesText (value :: values)) := by
  have hs : Quote.isSpecial sep = true ∧ sep ≠ '"' ∧ ',' ≠ sep := by
    rcases hsep with rfl | rfl <;> decide
  rw [valuesText_cons]
  refine Scan.passes_append (Scan.passes_encode hs.1 hs.2.1 _)
    (Scan.passes_joined hs.2.2 (by decide) fun piece hm => ?_)
  obtain ⟨value, -, rfl⟩ := List.mem_map.1 hm
  exact Scan.passes_encode hs.1 hs.2.1 value

/-- The values as they follow the name. -/
def tail (p : Param) : List Char := if p.values = [] then [] else '=' :: valuesText p.values

theorem chars_eq (p : Param) : p.chars = p.name.toList ++ p.tail := rfl

theorem passes_tail (p : Param) {sep : Char} (hsep : sep = ':' ∨ sep = ';') :
    Scan.Passes sep false p.tail := by
  have hs : '=' ≠ sep := by rcases hsep with rfl | rfl <;> decide
  rw [tail]
  split
  · rfl
  · next hv =>
    obtain ⟨value, values, hv⟩ := List.exists_cons_of_ne_nil hv
    rw [hv]
    exact ⟨fun e => hs e.1, passes_valuesText hsep value values⟩

/-- A scanner for colons or semicolons passes over a written parameter. -/
theorem passes_chars {p : Param} (h : p.Legible) {sep : Char} (hsep : sep = ':' ∨ sep = ';') :
    Scan.Passes sep false p.chars :=
  Scan.passes_append (h.name_passes sep hsep) (p.passes_tail hsep)

theorem lineFeed_not_mem_valuesText : ∀ values : List String, '\n' ∉ valuesText values
  | [] => List.not_mem_nil
  | value :: values => by
    rw [valuesText_cons, List.mem_append]
    rintro (hm | hm)
    · exact Quote.lineFeed_not_mem_encode _ hm
    · obtain ⟨piece, hp, hm⟩ := List.mem_flatMap.1 hm
      obtain ⟨text, -, rfl⟩ := List.mem_map.1 hp
      rcases List.mem_cons.1 hm with hm | hm
      · exact absurd hm (by decide)
      · exact Quote.lineFeed_not_mem_encode text hm

/-- Only the name of a parameter can have a line feed on the line. -/
theorem lineFeed_not_mem_chars {p : Param} (h : '\n' ∉ p.name.toList) : '\n' ∉ p.chars := by
  rw [chars, List.mem_append]
  rintro (hm | hm)
  · exact h hm
  · split at hm
    · exact List.not_mem_nil hm
    · rcases List.mem_cons.1 hm with hm | hm
      · exact absurd hm (by decide)
      · exact lineFeed_not_mem_valuesText p.values hm

/-- The part of a line that a parameter is read from begins with its name. -/
theorem name_isPrefix (part : List Char) : (ofChars part).name.toList <+: part := by
  rw [ofChars]
  split
  · exact ⟨[], by simp⟩
  · next name list hc =>
    rw [Scan.cutPlain?] at hc
    split at hc
    · cases hc
    · cases hc
      rw [String.toList_ofList]
      exact List.takeWhile_prefix _

end Param

theorem ContentLine.parse_eq_ok_iff {line : String} {number : Nat} {content : ContentLine} :
    parse line number = .ok content ↔ ofChars line.toList = .ok content := by
  rw [parse]
  cases ofChars line.toList <;> simp [Except.mapError]

/-- The value of a line is the end of it. -/
theorem ContentLine.rawValue_suffix {chars : List Char} {line : ContentLine}
    (h : ofChars chars = .ok line) : line.rawValue.toList <:+ chars := by
  rw [ofChars] at h
  split at h
  · cases h
  · next head value hc =>
    split at h
    · cases h
    · cases h
    · cases h
      rw [Scan.eq_of_cut? hc, String.toList_ofList]
      exact ⟨head ++ [':'], by simp⟩

/-- A line begins with its name, which is there, and the names of its parameters are parts of it. -/
theorem ContentLine.names_of_ofChars {chars : List Char} {line : ContentLine}
    (h : ofChars chars = .ok line) : line.name.toList ≠ [] ∧ line.name.toList <+: chars ∧
      ∀ q ∈ line.params, q.name.toList <:+: chars := by
  rw [ofChars] at h
  split at h
  · cases h
  · next head value hc =>
    obtain ⟨first, others, hs, hfirst, hothers⟩ := Scan.split_parts ';' false head
    have hhead : head <+: chars := ⟨':' :: value, (Scan.eq_of_cut? hc).symm⟩
    rw [hs] at h
    cases first with
    | nil => cases h
    | cons c name =>
      cases h
      simp only [String.toList_ofList]
      refine ⟨List.cons_ne_nil c name, hfirst.trans hhead, fun q hq => ?_⟩
      obtain ⟨part, hp, rfl⟩ := List.mem_map.1 hq
      have hpart : part <:+: head := hothers part (List.mem_filter.1 hp).1
      exact (Param.name_isPrefix part).isInfix.trans (hpart.trans hhead.isInfix)

namespace Property

/-- A property whose names can be found again on its line. -/
structure Legible (p : Property) : Prop where
  /-- There is a name. -/
  name_ne : p.name.toList ≠ []
  /-- A colon or a semicolon in it is inside quotes, and they are closed. -/
  name_passes : ∀ sep, sep = ':' ∨ sep = ';' → Scan.Passes sep false p.name.toList
  /-- The parameters can be found again. -/
  params_legible : ∀ q ∈ p.params, q.Legible

/-- A property whose names have no character in them that ends a name or is a quote. -/
structure Clean (p : Property) : Prop where
  /-- There is a name. -/
  name_ne : p.name.toList ≠ []
  /-- No character of it ends a name. -/
  name_plain : Scan.Free [':', ';', '"'] p.name.toList
  /-- So it is with the names of the parameters. -/
  params_clean : ∀ q ∈ p.params, q.Clean

instance (p : Property) : Decidable p.Clean :=
  decidable_of_iff (p.name.toList ≠ [] ∧ Scan.Free [':', ';', '"'] p.name.toList ∧
      ∀ q ∈ p.params, q.Clean)
    ⟨fun h => ⟨h.1, h.2.1, h.2.2⟩, fun h => ⟨h.name_ne, h.name_plain, h.params_clean⟩⟩

theorem Clean.legible {p : Property} (h : p.Clean) : p.Legible where
  name_ne := h.name_ne
  name_passes := by
    intro sep hsep
    have hs : sep ∈ [':', ';', '"'] := by rcases hsep with rfl | rfl <;> decide
    exact Scan.passes_plain (fun hm => h.name_plain _ hm hs)
      fun hm => h.name_plain _ hm (by decide)
  params_legible := fun q hq => (h.params_clean q hq).legible

/-- Reading a content line undoes the writing of the value. -/
theorem ofLine_toLine (p : Property) : ofLine p.toLine = p := by
  obtain ⟨name, params, value⟩ := p
  by_cases h : (ValueType.resolve name params).isText = true
  · simp [ofLine, toLine, rawValue, isText, type, h, Escape.decodeText_encodeText]
  · simp [ofLine, toLine, rawValue, isText, type, h]

theorem parse_eq_ok_iff {line : String} {number : Nat} {p : Property} : parse line number = .ok p ↔
    ∃ content, ContentLine.ofChars line.toList = .ok content ∧ ofLine content = p := by
  rw [parse]
  constructor
  · intro h
    cases hp : ContentLine.parse line number with
    | error error =>
      rw [hp] at h
      cases h
    | ok content =>
      rw [hp] at h
      exact ⟨content, ContentLine.parse_eq_ok_iff.1 hp, Except.ok.inj h⟩
  · rintro ⟨content, hc, rfl⟩
    rw [ContentLine.parse_eq_ok_iff.2 hc]
    rfl

/-- The characters before the colon. -/
def head (p : Property) : List Char :=
  p.name.toList ++ (p.params.map Param.chars).flatMap (';' :: ·)

theorem chars_eq (p : Property) : p.chars = p.head ++ ':' :: p.rawValue.toList := by
  simp [chars, head, List.flatMap_map]

@[simp] theorem toList_text (p : Property) : p.text.toList = p.chars := String.toList_ofList

/-- A line begins with the name of its property. -/
theorem name_isPrefix_chars (p : Property) : p.name.toList <+: p.chars := by
  rw [chars_eq, head, List.append_assoc]
  exact List.prefix_append _ _

theorem Legible.passes_param {p : Property} (h : p.Legible) {sep : Char}
    (hsep : sep = ':' ∨ sep = ';') :
    ∀ piece ∈ p.params.map Param.chars, Scan.Passes sep false piece := by
  intro piece hm
  obtain ⟨q, hq, rfl⟩ := List.mem_map.1 hm
  exact Param.passes_chars (h.params_legible q hq) hsep

theorem Legible.passes_head {p : Property} (h : p.Legible) : Scan.Passes ':' false p.head :=
  Scan.passes_append (h.name_passes _ (.inl rfl))
    (Scan.passes_joined (by decide) (by decide) (h.passes_param (.inl rfl)))

theorem Legible.split_head {p : Property} (h : p.Legible) :
    Scan.split ';' false p.head = p.name.toList :: p.params.map Param.chars :=
  Scan.split_pieces (h.name_passes _ (.inr rfl)) (h.passes_param (.inr rfl))

theorem Legible.params_ofChars {p : Property} (h : p.Legible) :
    ((p.params.map Param.chars).filter (· ≠ [])).map Param.ofChars = p.params := by
  have hne : (p.params.map Param.chars).filter (· ≠ []) = p.params.map Param.chars := by
    rw [List.filter_eq_self]
    intro piece hm
    obtain ⟨q, hq, rfl⟩ := List.mem_map.1 hm
    simpa using (h.params_legible q hq).chars_ne
  rw [hne, List.map_map]
  exact (List.map_congr_left fun q hq => Param.ofChars_chars (h.params_legible q hq)).trans
    (List.map_id' p.params)

/-- The head of a line is taken apart into the names it was put together from, whatever the value
is. -/
theorem ofChars_head {p : Property} (h : p.Legible) (value : List Char) :
    ContentLine.ofChars (p.head ++ ':' :: value) = .ok ⟨p.name, p.params, String.ofList value⟩ := by
  obtain ⟨c, name, hname⟩ := List.exists_cons_of_ne_nil h.name_ne
  rw [ContentLine.ofChars, Scan.cut?_append _ h.passes_head]
  dsimp only
  rw [h.split_head, hname]
  dsimp only
  rw [h.params_ofChars, ← hname, String.ofList_toList]

/-- The line of a property is taken apart into what it was put together from. -/
theorem ofChars_chars {p : Property} (h : p.Legible) :
    ContentLine.ofChars p.chars = .ok p.toLine := by
  rw [chars_eq, ofChars_head h, String.ofList_toList]
  rfl

end Property

end Almanac
