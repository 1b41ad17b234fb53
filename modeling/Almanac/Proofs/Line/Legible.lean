import Almanac.Proofs.Line.Content
import Mathlib.Algebra.Ring.Nat

/-!
Which properties are read back from their lines: the legible ones and no others
(`parse_text_iff_legible`).

The reason is one of counting.  Quoting and escaping make and undo carets, quotes, backslashes and
commas, but neither makes a colon or a semicolon or takes one away.  So when the line of a property
is read as the property, it was taken apart at the very places where it was put together, and the
quotes in a name are closed where the name ends.  In what was read from a line that is all that can
be missing: the first equals sign of a parameter ends the name even if it is inside quotes.

    A;"x=y":v   ──▶   name "x, value y"   ──▶   A;"x="y^'":v
      ─────                                       ────   ───   inside quotes
-/

namespace Almanac

/-! ### Colons and semicolons -/

namespace Quote

variable {c : Char} (hc : c = ':' ∨ c = ';')
include hc

theorem count_decodeCarets (text : List Char) : (decodeCarets text).count c = text.count c := by
  fun_induction decodeCarets text with
  | case1 rest ih | case2 rest ih | case3 rest ih =>
    rcases hc with rfl | rfl <;> simpa using ih
  | case4 first rest _ _ _ ih => rw [List.count_cons, List.count_cons, ih]
  | case5 => rfl

theorem count_decodeCommas (text : List Char) : (decodeCommas text).count c = text.count c := by
  fun_induction decodeCommas text with
  | case1 rest ih => rcases hc with rfl | rfl <;> simpa using ih
  | case2 first rest _ ih => rw [List.count_cons, List.count_cons, ih]
  | case3 => rfl

theorem count_of_inner? {written inner : List Char} (h : inner? written = some inner) :
    inner.count c = written.count c := by
  unfold inner? at h
  split at h
  · next rest =>
    split at h
    · next hl =>
      cases h
      obtain ⟨body, rfl⟩ := List.getLast?_eq_some_iff.1 hl
      rw [List.dropLast_concat]
      rcases hc with rfl | rfl <;> simp
    · cases h
  · cases h

/-- Reading a value keeps its colons and semicolons. -/
theorem count_decode (written : List Char) : (decode written).count c = written.count c := by
  unfold decode
  split
  · next inner h => rw [count_decodeCarets hc, count_of_inner? hc h]
  · rw [count_decodeCarets hc, count_decodeCommas hc]

/-- So does writing it. -/
theorem count_encode (value : List Char) : (encode value).count c = value.count c := by
  rw [← count_decode hc (encode value), decode_encode]

end Quote

namespace Scan

theorem sum_count_prepend (a c : Char) (pieces : List (List Char)) :
    ((prepend a pieces).map (List.count c)).sum
      = (if a == c then 1 else 0) + (pieces.map (List.count c)).sum := by
  cases pieces with
  | nil => simp [prepend, List.count_cons]
  | cons piece pieces =>
    rw [prepend, List.map_cons, List.map_cons, List.sum_cons, List.sum_cons, List.count_cons]
    omega

/-- Splitting a list of values takes only commas away. -/
theorem sum_count_splitValues {c : Char} (hc : c ≠ ',') (quoted escaped : Bool)
    (text : List Char) :
    ((splitValues quoted escaped text).map (List.count c)).sum = text.count c := by
  fun_induction splitValues quoted escaped text with
  | case1 => rfl
  | case2 quoted a rest ih => rw [sum_count_prepend, ih, List.count_cons, Nat.add_comm]
  | case3 quoted escaped a rest _ _ ih => rw [sum_count_prepend, ih, List.count_cons, Nat.add_comm]
  | case4 quoted escaped a rest _ _ h ih =>
    rw [h.1, List.map_cons, List.sum_cons, ih, List.count_nil, Nat.zero_add,
      List.count_cons_of_ne hc.symm]
  | case5 quoted escaped a rest _ _ _ ih =>
    rw [sum_count_prepend, ih, List.count_cons, Nat.add_comm]

theorem splitValues_ne_nil (quoted escaped : Bool) (text : List Char) :
    splitValues quoted escaped text ≠ [] := by
  have hp : ∀ (c : Char) (pieces : List (List Char)), prepend c pieces ≠ [] := by
    intro c pieces
    cases pieces <;> exact List.cons_ne_nil _ _
  fun_cases splitValues quoted escaped text
  · exact List.cons_ne_nil _ _
  · exact hp _ _
  · exact hp _ _
  · exact List.cons_ne_nil _ _
  · exact hp _ _

theorem count_joined (sep c : Char) (pieces : List (List Char)) :
    (pieces.flatMap (sep :: ·)).count c
      = (pieces.map (List.count c)).sum + if sep == c then pieces.length else 0 := by
  induction pieces with
  | nil => simp
  | cons piece pieces ih =>
    rw [List.flatMap_cons, List.count_append, ih, List.count_cons, List.map_cons, List.sum_cons,
      List.length_cons]
    split <;> omega

/-- Empty pieces count for nothing. -/
theorem sum_count_filter (c : Char) (pieces : List (List Char)) :
    ((pieces.filter (· ≠ [])).map (List.count c)).sum = (pieces.map (List.count c)).sum := by
  induction pieces with
  | nil => rfl
  | cons piece pieces ih =>
    rw [List.filter_cons, List.map_cons, List.sum_cons, ← ih]
    split
    · rfl
    · next h =>
      have hnil : piece = [] := by simpa using h
      rw [hnil, List.count_nil, Nat.zero_add]

/-- Two ways to take a text apart at a separator are one if the first parts have equally many
separators in them. -/
theorem append_sep_inj {sep : Char} {a b a' b' : List Char} (h : a ++ sep :: b = a' ++ sep :: b')
    (hc : a.count sep = a'.count sep) : a = a' ∧ b = b' := by
  rcases List.append_eq_append_iff.1 h with ⟨more, rfl, hb⟩ | ⟨more, rfl, hb⟩
  all_goals
    cases more with
    | nil => simpa [eq_comm] using hb
    | cons first more =>
      obtain rfl := (List.cons.inj hb).1
      simp at hc

/-- Pieces that are joined to the same text are the same if they have equally many separators in
them. -/
theorem eq_of_joined_eq {sep : Char} {f : List Char → List Char} :
    ∀ {pieces : List (List Char)}, (∀ piece ∈ pieces, (f piece).count sep = piece.count sep) →
    (pieces.map f).flatMap (sep :: ·) = pieces.flatMap (sep :: ·) →
    ∀ piece ∈ pieces, f piece = piece
  | [], _, _, piece, hp => absurd hp List.not_mem_nil
  | [last], _, h, piece, hp => by
    rw [List.mem_singleton.1 hp]
    simpa using h
  | first :: next :: pieces, hc, h, piece, hp => by
    have hj : f first ++ sep :: (f next ++ (pieces.map f).flatMap (sep :: ·))
        = first ++ sep :: (next ++ pieces.flatMap (sep :: ·)) := by simpa using h
    obtain ⟨hf, hrest⟩ := append_sep_inj hj (hc first List.mem_cons_self)
    rcases List.mem_cons.1 hp with rfl | hp
    · exact hf
    · refine eq_of_joined_eq (fun p hm => hc p (List.mem_cons_of_mem first hm)) ?_ piece hp
      simpa using hrest

/-! ### Quotes -/

/-- What is passed over closes its quotes. -/
theorem Passes.count_quote {sep : Char} : ∀ {quoted : Bool} {a : List Char}, Passes sep quoted a →
    a.count '"' % 2 = quoted.toNat
  | _, [], h => by
    rw [Passes] at h
    rw [h]
    rfl
  | quoted, c :: a, h => by
    have ih := h.2.count_quote
    rw [toggle] at ih
    rw [List.count_cons]
    split at ih
    · next hc => cases quoted <;> simp [hc] at ih ⊢ <;> omega
    · next hc => simpa [hc] using ih

/-- The front of what is passed over is passed over if it closes its quotes. -/
theorem Passes.front {sep : Char} : ∀ {quoted : Bool} {a b : List Char},
    Passes sep quoted (a ++ b) → a.count '"' % 2 = quoted.toNat → Passes sep quoted a
  | quoted, [], _, _, hc => by
    rw [Passes]
    cases quoted
    · rfl
    · cases hc
  | quoted, c :: a, b, h, hc => by
    refine ⟨h.1, h.2.front ?_⟩
    rw [List.count_cons] at hc
    rw [toggle]
    split
    · next hq => cases quoted <;> simp [hq] at hc ⊢ <;> omega
    · next hq => simpa [hq] using hc

theorem passes_of_cut? {sep : Char} : ∀ {quoted : Bool} {text a b : List Char},
    cut? sep quoted text = some (a, b) → Passes sep quoted a
  | _, [], _, _, h => by cases h
  | quoted, c :: text, a, b, h => by
    rw [cut?] at h
    split at h
    · next hc =>
      cases h
      exact hc.2
    · next hc =>
      obtain ⟨⟨head, tail⟩, hr, he⟩ := Option.map_eq_some_iff.1 h
      cases he
      exact ⟨hc, passes_of_cut? hr⟩

/-- The pieces of a text that is passed over in the search for another separator are passed over in
the search for either, and joined they are the text. -/
theorem split_passes {sep other : Char} (hsep : sep ≠ '"') {quoted : Bool} {text : List Char}
    (h : Passes other quoted text) : ∃ first others, split sep quoted text = first :: others ∧
      text = first ++ others.flatMap (sep :: ·) ∧
      (Passes sep quoted first ∧ Passes other quoted first) ∧
      ∀ piece ∈ others, Passes sep false piece ∧ Passes other false piece := by
  induction text generalizing quoted with
  | nil => exact ⟨[], [], rfl, rfl, ⟨h, h⟩, by simp⟩
  | cons c text ih =>
    obtain ⟨first, others, hs, ht, hf, ho⟩ := ih h.2
    rw [split]
    split
    · next hc =>
      obtain ⟨rfl, rfl⟩ := hc
      rw [toggle_of_ne hsep] at hs hf
      rw [hs, ht]
      exact ⟨[], first :: others, rfl, rfl, ⟨rfl, rfl⟩, List.forall_mem_cons.2 ⟨hf, ho⟩⟩
    · next hc =>
      rw [hs, ht]
      exact ⟨c :: first, others, rfl, rfl, ⟨⟨hc, hf.1⟩, ⟨h.1, hf.2⟩⟩, ho⟩

theorem cutPlain?_eq_some {sep : Char} {text a b : List Char}
    (h : cutPlain? sep text = some (a, b)) : text = a ++ sep :: b ∧ sep ∉ a := by
  have hn : sep ∉ text.takeWhile (· ≠ sep) := fun hm => by simpa using List.mem_takeWhile_imp hm
  rw [cutPlain?] at h
  split at h
  · cases h
  · next first tail hd =>
    have hne : text.dropWhile (· ≠ sep) ≠ [] := by
      rw [hd]
      exact List.cons_ne_nil first tail
    have hf := List.head_dropWhile_not (· ≠ sep) hne
    simp only [hd, List.head_cons, decide_eq_false_iff_not, not_not] at hf
    cases h
    refine ⟨?_, hn⟩
    rw [← hf, ← hd, hf, List.takeWhile_append_dropWhile]

theorem cutPlain?_eq_none {sep : Char} {text : List Char} (h : cutPlain? sep text = none) :
    sep ∉ text := by
  rw [cutPlain?] at h
  split at h
  · next hd =>
    intro hm
    simpa using List.dropWhile_eq_nil_iff.1 hd sep hm
  · cases h

end Scan

namespace Param

/-! ### Parameters that were read -/

variable {c : Char} (hc : c = ':' ∨ c = ';')

include hc in
theorem count_valuesText (values : List String) :
    (valuesText values).count c = (values.map fun value => value.toList.count c).sum := by
  have hcomma : (',' == c) = false := by rcases hc with rfl | rfl <;> rfl
  cases values with
  | nil => rfl
  | cons value values =>
    rw [valuesText_cons, List.count_append, Scan.count_joined, hcomma, if_neg Bool.false_ne_true,
      Quote.count_encode hc, List.map_map, List.map_map]
    simp [Function.comp_def, Quote.count_encode hc]

include hc in
/-- Writing what was read keeps colons and semicolons. -/
theorem count_chars_ofChars (part : List Char) : (ofChars part).chars.count c = part.count c := by
  have hs : ('=' == c) = false ∧ c ≠ ',' := by rcases hc with rfl | rfl <;> decide
  rw [ofChars]
  split
  · simp [chars]
  · next name list hcut =>
    have hne := Scan.splitValues_ne_nil false false list
    have hsum := Scan.sum_count_splitValues hs.2 false false list
    rw [(Scan.cutPlain?_eq_some hcut).1, chars, if_neg (by simpa using hne), List.count_append,
      List.count_append, List.count_cons, List.count_cons, count_valuesText hc, ← hsum]
    simp [Function.comp_def, Quote.count_decode hc]

theorem equals_not_mem_name (part : List Char) : '=' ∉ (ofChars part).name.toList := by
  rw [ofChars]
  split
  · next hcut => simpa using Scan.cutPlain?_eq_none hcut
  · next name list hcut => simpa using (Scan.cutPlain?_eq_some hcut).2

theorem chars_ofChars_ne_nil {part : List Char} (h : part ≠ []) : (ofChars part).chars ≠ [] := by
  rw [ofChars]
  split
  · simpa [chars] using h
  · next name list hcut =>
    have hne := Scan.splitValues_ne_nil false false list
    rw [chars, if_neg (by simpa using hne)]
    simp

/-- A parameter that was read from a part of a line is found again if its name closes its quotes. -/
theorem legible_ofChars {part : List Char} (hne : part ≠ [])
    (hp : ∀ sep, sep = ':' ∨ sep = ';' → Scan.Passes sep false part)
    (hq : (ofChars part).name.toList.count '"' % 2 = 0) : (ofChars part).Legible where
  chars_ne := chars_ofChars_ne_nil hne
  name_equals := equals_not_mem_name part
  name_passes := by
    intro sep hsep
    obtain ⟨more, hmore⟩ := name_isPrefix part
    have hpart := hp sep hsep
    rw [← hmore] at hpart
    exact hpart.front hq

end Param

/-! ### Lines that were read -/

/-- A line that is taken apart is a name, parts that are passed over and a value. -/
theorem ContentLine.exists_parts {chars : List Char} {line : ContentLine}
    (h : ofChars chars = .ok line) : ∃ (first : List Char) (others : List (List Char))
        (value : List Char),
      chars = (first ++ others.flatMap (';' :: ·)) ++ ':' :: value ∧ first ≠ [] ∧
      line = ⟨String.ofList first, (others.filter (· ≠ [])).map Param.ofChars,
        String.ofList value⟩ ∧
      ∀ sep, sep = ':' ∨ sep = ';' → Scan.Passes sep false first ∧
        ∀ part ∈ others, Scan.Passes sep false part := by
  rw [ofChars] at h
  split at h
  · cases h
  · next head value hcut =>
    obtain ⟨first, others, hs, ht, hf, ho⟩ :=
      Scan.split_passes (show ';' ≠ '"' by decide) (Scan.passes_of_cut? hcut)
    rw [hs] at h
    cases first with
    | nil => cases h
    | cons c name =>
      cases h
      refine ⟨c :: name, others, value, ?_, List.cons_ne_nil c name, rfl, ?_⟩
      · rw [← ht]
        exact Scan.eq_of_cut? hcut
      · rintro sep (rfl | rfl)
        · exact ⟨hf.2, fun part hm => (ho part hm).2⟩
        · exact ⟨hf.1, fun part hm => (ho part hm).1⟩

namespace Property

/-- If the line of a property is read as the property, its parts are the parameters as written. -/
theorem chars_ofChars_of_parts {p : Property} {first value : List Char} {others : List (List Char)}
    (hname : p.name = String.ofList first)
    (hparams : p.params = (others.filter (· ≠ [])).map Param.ofChars)
    (h : p.chars = (first ++ others.flatMap (';' :: ·)) ++ ':' :: value) :
    others.filter (· ≠ []) = others ∧ ∀ part ∈ others, (Param.ofChars part).chars = part := by
  obtain ⟨kept, hkept⟩ : ∃ kept, kept = others.filter (· ≠ []) := ⟨_, rfl⟩
  have hcount : ∀ c, c = ':' ∨ c = ';' →
      (((kept.map fun part => (Param.ofChars part).chars)).map (List.count c)).sum
        = (others.map (List.count c)).sum := by
    intro c hc
    rw [← Scan.sum_count_filter c others, ← hkept, List.map_map]
    exact congrArg List.sum (List.map_congr_left fun part _ => Param.count_chars_ofChars hc part)
  have hhead : p.head = first ++ (kept.map fun part => (Param.ofChars part).chars).flatMap
      (';' :: ·) := by
    rw [head, hname, hparams, String.toList_ofList, ← hkept, List.map_map]
    rfl
  rw [chars_eq, hhead] at h
  -- no colon is made or lost, so the head ends where it did
  have hends := (Scan.append_sep_inj h (by
    rw [List.count_append, List.count_append, Scan.count_joined, Scan.count_joined,
      hcount ':' (.inl rfl)]
    rfl)).1
  have hjoined := List.append_cancel_left hends
  -- no semicolon either, so there is no empty part
  have hlength : kept.length = others.length := by
    have hsemicolons := congrArg (List.count ';') hjoined
    rw [Scan.count_joined, Scan.count_joined, hcount ';' (.inr rfl), List.length_map] at hsemicolons
    simpa using hsemicolons
  have hall : kept = others := by
    rw [hkept] at hlength ⊢
    exact List.filter_eq_self.2 (List.length_filter_eq_length_iff.1 hlength)
  rw [← hkept]
  rw [hall] at hjoined
  exact ⟨hall, Scan.eq_of_joined_eq (fun part _ => Param.count_chars_ofChars (.inr rfl) part)
    hjoined⟩

/-- A property is read back from its line if it is legible, and only then. -/
theorem parse_text_iff_legible (p : Property) (number : Nat) :
    parse p.text number = .ok p ↔ p.Legible := by
  rw [parse_eq_ok_iff, toList_text]
  constructor
  · rintro ⟨content, hc, he⟩
    obtain ⟨first, others, value, hchars, hne, rfl, hpasses⟩ := ContentLine.exists_parts hc
    have hname : p.name = String.ofList first := (congrArg Property.name he).symm
    have hparams : p.params = (others.filter (· ≠ [])).map Param.ofChars :=
      (congrArg Property.params he).symm
    obtain ⟨hkept, hparts⟩ := chars_ofChars_of_parts hname hparams hchars
    refine ⟨?_, fun sep hsep => ?_, fun q hq => ?_⟩
    · rwa [hname, String.toList_ofList]
    · rw [hname, String.toList_ofList]
      exact (hpasses sep hsep).1
    · rw [hparams, hkept] at hq
      obtain ⟨part, hpart, rfl⟩ := List.mem_map.1 hq
      have hnil : part ≠ [] := by
        rw [← hkept] at hpart
        simpa using (List.mem_filter.1 hpart).2
      refine Param.legible_ofChars hnil (fun sep hsep => (hpasses sep hsep).2 part hpart) ?_
      -- the whole part closes its quotes, and so do the values as written
      have hcolon : ':' = ':' ∨ ':' = ';' := .inl rfl
      have hwhole := ((hpasses ':' hcolon).2 part hpart).count_quote
      have htail := ((Param.ofChars part).passes_tail hcolon).count_quote
      rw [← hparts part hpart, Param.chars_eq, List.count_append] at hwhole
      simp only [Bool.toNat_false] at hwhole htail
      omega
  · intro h
    exact ⟨p.toLine, ofChars_chars h, ofLine_toLine p⟩

/-! ### Names without separators and quotes -/

/-- A property is read back from its line if there are no colons, semicolons and quotes in its names,
and no equals signs in those of the parameters. -/
theorem parse_text_of_clean {p : Property} (h : p.Clean) (number : Nat) :
    parse p.text number = .ok p :=
  (parse_text_iff_legible p number).2 h.legible

/-- Values with everything in them that has a meaning on a line, an empty one and none at all; the
`VALUE` parameter makes a text of the value. -/
def motley : Property :=
  ⟨"X Odd=", [⟨"Value", ["TEXT"]⟩, ⟨"A,\\", ["x;y:\\\"z\"", "", "^n^'\n^", "\\,,"]⟩, ⟨"B", []⟩,
    ⟨"C", [""]⟩], "a\\,b;\nc\r\\"⟩

theorem motley_parse_text : motley.Clean ∧
    motley.text = "X Odd=;Value=TEXT;A,\\=\"x;y:\\^'z^'\",,\"^^n^^'^n^^\",\"\\,,\";B;C=:"
      ++ "a\\\\\\,b\\;\\nc\r\\\\" ∧
    parse motley.text 7 = .ok motley := by
  have h : motley.Clean := by decide
  exact ⟨h, by decide +kernel, parse_text_of_clean h 7⟩

/-! ### Lines that are written again -/

/-- A property that was read from a line is read back from its own line exactly if the name of every
parameter closes its quotes. -/
theorem parse_text_of_parse_iff {line : String} {number : Nat} {p : Property}
    (h : parse line number = .ok p) (other : Nat) :
    parse p.text other = .ok p ↔ ∀ q ∈ p.params, q.name.toList.count '"' % 2 = 0 := by
  rw [parse_text_iff_legible]
  constructor
  · intro hl q hq
    exact ((hl.params_legible q hq).name_passes ':' (.inl rfl)).count_quote
  · intro hquotes
    obtain ⟨content, hc, rfl⟩ := parse_eq_ok_iff.1 h
    obtain ⟨first, others, value, -, hne, rfl, hpasses⟩ := ContentLine.exists_parts hc
    refine ⟨?_, fun sep hsep => ?_, fun q hq => ?_⟩
    · simpa [ofLine] using hne
    · simpa [ofLine] using (hpasses sep hsep).1
    · have hcount := hquotes q hq
      obtain ⟨part, hpart, rfl⟩ := List.mem_map.1 hq
      obtain ⟨hpart, hnil⟩ := List.mem_filter.1 hpart
      exact Param.legible_ofChars (by simpa using hnil)
        (fun sep hsep => (hpasses sep hsep).2 part hpart) hcount

/-- Quotes in the middle of a name and of a value, a comma after a backslash, an empty part, and a
name that closes its quotes before the first equals sign. -/
theorem littered_parse_text_iff :
    let line := "A\"x:y\"B;X=a\"b:c\"\\,d,^q;;\"Y;\"=1;Z:v\"w"
    let p : Property := ⟨"A\"x:y\"B", [⟨"X", ["a\"b:c\",d", "^q"]⟩, ⟨"\"Y;\"", ["1"]⟩, ⟨"Z", []⟩],
      "v\"w"⟩
    parse line 1 = .ok p ∧ (∀ q ∈ p.params, q.name.toList.count '"' % 2 = 0) ∧
      p.text = "A\"x:y\"B;X=\"a^'b:c^',d\",\"^^q\";\"Y;\"=1;Z:v\"w" ∧ parse p.text 2 = .ok p := by
  intro line p
  have h : parse line 1 = .ok p := by decide +kernel
  have hq : ∀ q ∈ p.params, q.name.toList.count '"' % 2 = 0 := by decide
  exact ⟨h, hq, by decide +kernel, (parse_text_of_parse_iff h 2).2 hq⟩

/-- The first equals sign of the parameter is inside quotes.  Its name opens them, the value is
written between quotes of its own, and then the colon after it is inside quotes. -/
theorem not_parse_text_of_open_quote :
    let p : Property := ⟨"A", [⟨"\"x", ["y\""]⟩], "v"⟩
    parse "A;\"x=y\":v" 1 = .ok p ∧ p.text = "A;\"x=\"y^'\":v" ∧
      parse p.text 1 = .error ⟨.missingColon, 1, some "A;\"x=\"y^'\":v"⟩ := by
  decide +kernel

end Property

end Almanac
