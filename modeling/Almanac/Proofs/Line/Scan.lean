import Almanac.Line.Scan
import Almanac.Proofs.Line.Quote
import Mathlib.Data.List.TakeWhile

/-!
What the scanners make of a text that was put together from pieces.

A scanner for a separator passes over a piece (`Passes`) when every separator in the piece is inside
quotes and every quote in it is closed.  Such a piece followed by the separator is cut off whole,
and pieces joined by separators are found again.  Written parameter values are passed over too, and
a list of them is split between the values.

    NAME;A="x;y";B=z:value
    ────             ┬────   the colon found, and then
    ┬─── ┬────── ┬──         the semicolons
-/

namespace Almanac.Scan

/-! ### Texts without certain characters -/

/-- No character of the text is among those. -/
def Free (stops text : List Char) : Prop := ∀ c ∈ text, c ∉ stops

-- looks at the text only, where a search for an instance may go through all characters there are
instance (stops text : List Char) : Decidable (Free stops text) :=
  List.decidableBAll (· ∉ stops) text

/-! ### Pieces that are passed over -/

/-- A scanner that starts inside or outside quotes meets no separator outside quotes in the text,
and is outside quotes at its end. -/
def Passes (sep : Char) (quoted : Bool) : List Char → Prop
  | [] => quoted = false
  | c :: rest => ¬ (c = sep ∧ quoted = false) ∧ Passes sep (toggle quoted c) rest

theorem passes_append {sep : Char} : ∀ {quoted : Bool} {a b : List Char},
    Passes sep quoted a → Passes sep false b → Passes sep quoted (a ++ b)
  | _, [], _, ha, hb => by
    rw [Passes] at ha
    rw [ha]
    exact hb
  | _, _ :: _, _, ha, hb => ⟨ha.1, passes_append ha.2 hb⟩

theorem toggle_of_ne {quoted : Bool} {c : Char} (h : c ≠ '"') : toggle quoted c = quoted := by
  rw [toggle, if_neg h]

theorem passes_plain {sep : Char} : ∀ {a : List Char}, sep ∉ a → '"' ∉ a → Passes sep false a
  | [], _, _ => rfl
  | c :: a, hs, hq => by
    rw [List.mem_cons, not_or] at hs hq
    refine ⟨fun h => hs.1 h.1.symm, ?_⟩
    rw [toggle_of_ne (fun h => hq.1 h.symm)]
    exact passes_plain hs.2 hq.2

theorem passes_body {sep : Char} (hsep : sep ≠ '"') : ∀ {body : List Char}, '"' ∉ body →
    Passes sep true (body ++ ['"'])
  | [], _ => ⟨fun h => hsep h.1.symm, rfl⟩
  | c :: body, hq => by
    rw [List.mem_cons, not_or] at hq
    refine ⟨by simp, ?_⟩
    rw [toggle_of_ne (fun h => hq.1 h.symm)]
    exact passes_body hsep hq.2

theorem passes_quoted {sep : Char} (hsep : sep ≠ '"') {body : List Char} (h : '"' ∉ body) :
    Passes sep false ('"' :: body ++ ['"']) :=
  ⟨fun h => hsep h.1.symm, passes_body hsep h⟩

/-- A written parameter value is passed over in the search for anything that is special in it. -/
theorem passes_encode {sep : Char} (hspecial : Quote.isSpecial sep = true) (hsep : sep ≠ '"')
    (value : List Char) : Passes sep false (Quote.encode value) := by
  by_cases h : ∀ c ∈ value, Quote.isSpecial c = false
  · rw [Quote.encode_plain h]
    exact passes_plain (Quote.not_mem_plain h hspecial) (Quote.not_mem_plain h rfl)
  · rw [Quote.encode_special h]
    exact passes_quoted hsep (Quote.quote_not_mem_body value)

/-- Pieces with another character before each are passed over together. -/
theorem passes_joined {sep other : Char} (hsep : other ≠ sep) (hquote : other ≠ '"') :
    ∀ {pieces : List (List Char)}, (∀ piece ∈ pieces, Passes sep false piece) →
    Passes sep false (pieces.flatMap (other :: ·))
  | [], _ => rfl
  | piece :: pieces, h => by
    rw [List.flatMap_cons, List.cons_append]
    refine ⟨fun e => hsep e.1, ?_⟩
    rw [toggle_of_ne hquote]
    exact passes_append (h piece List.mem_cons_self)
      (passes_joined hsep hquote fun p hp => h p (List.mem_cons_of_mem piece hp))

/-! ### Cutting and splitting -/

theorem cut?_append {sep : Char} (b : List Char) : ∀ {quoted : Bool} {a : List Char},
    Passes sep quoted a → cut? sep quoted (a ++ sep :: b) = some (a, b)
  | _, [], h => by
    rw [Passes] at h
    rw [List.nil_append, cut?, if_pos ⟨rfl, h⟩]
  | _, c :: a, h => by
    rw [List.cons_append, cut?, if_neg h.1, cut?_append b h.2]
    rfl

/-- Cutting loses nothing but the separator. -/
theorem eq_of_cut? {sep : Char} : ∀ {quoted : Bool} {text a b : List Char},
    cut? sep quoted text = some (a, b) → text = a ++ sep :: b
  | _, [], _, _, h => by cases h
  | quoted, c :: text, a, b, h => by
    rw [cut?] at h
    split at h
    · next hc =>
      cases h
      rw [hc.1, List.nil_append]
    · obtain ⟨⟨head, tail⟩, hr, he⟩ := Option.map_eq_some_iff.1 h
      cases he
      rw [eq_of_cut? hr, List.cons_append]

theorem split_append {sep : Char} (b : List Char) : ∀ {quoted : Bool} {a : List Char},
    Passes sep quoted a → split sep quoted (a ++ sep :: b) = a :: split sep false b
  | _, [], h => by
    rw [Passes] at h
    rw [List.nil_append, split, if_pos ⟨rfl, h⟩]
  | _, c :: a, h => by
    rw [List.cons_append, split, if_neg h.1, split_append b h.2]
    rfl

theorem split_passed {sep : Char} : ∀ {quoted : Bool} {a : List Char},
    Passes sep quoted a → split sep quoted a = [a]
  | _, [], _ => rfl
  | _, c :: a, h => by
    rw [split, if_neg h.1, split_passed h.2]
    rfl

/-- The pieces of a text are parts of it, and it begins with the first of them. -/
theorem split_parts (sep : Char) (quoted : Bool) (text : List Char) :
    ∃ first others, split sep quoted text = first :: others ∧ first <+: text ∧
      ∀ piece ∈ others, piece <:+: text := by
  induction text generalizing quoted with
  | nil => exact ⟨[], [], rfl, List.prefix_rfl, by simp⟩
  | cons c text ih =>
    rw [split]
    split
    · obtain ⟨first, others, hs, hf, ho⟩ := ih false
      rw [hs]
      refine ⟨[], first :: others, rfl, List.nil_prefix, fun piece hp => ?_⟩
      rcases List.mem_cons.1 hp with rfl | hp
      · exact List.infix_cons hf.isInfix
      · exact List.infix_cons (ho piece hp)
    · obtain ⟨first, others, hs, hf, ho⟩ := ih (toggle quoted c)
      rw [hs]
      exact ⟨c :: first, others, rfl, (List.prefix_cons_inj c).2 hf, fun piece hp =>
        List.infix_cons (ho piece hp)⟩

/-- Pieces with a separator before each but the first are found again. -/
theorem split_pieces {sep : Char} : ∀ {a : List Char} {pieces : List (List Char)},
    Passes sep false a → (∀ piece ∈ pieces, Passes sep false piece) →
    split sep false (a ++ pieces.flatMap (sep :: ·)) = a :: pieces
  | _, [], ha, _ => by simpa using split_passed ha
  | _, b :: pieces, ha, hp => by
    rw [List.flatMap_cons, List.cons_append, split_append _ ha,
      split_pieces (hp b List.mem_cons_self) fun p h => hp p (List.mem_cons_of_mem b h)]

theorem cutPlain?_append {sep : Char} {a : List Char} (h : sep ∉ a) (b : List Char) :
    cutPlain? sep (a ++ sep :: b) = some (a, b) := by
  have hp : ∀ c ∈ a, decide (c ≠ sep) = true := by
    intro c hc
    simp only [decide_eq_true_eq]
    rintro rfl
    exact h hc
  rw [cutPlain?, List.dropWhile_append_of_pos hp, List.takeWhile_append_of_pos hp]
  simp

theorem cutPlain?_of_not_mem {sep : Char} {a : List Char} (h : sep ∉ a) :
    cutPlain? sep a = none := by
  have hp : a.dropWhile (· ≠ sep) = [] := by
    rw [List.dropWhile_eq_nil_iff]
    intro c hc
    simp only [decide_eq_true_eq]
    rintro rfl
    exact h hc
  rw [cutPlain?, hp]

/-! ### Plain pieces -/

/-- Pieces with a separator between them, written as pieces with one before each but the first. -/
theorem intercalate_cons (sep : Char) (first : List Char) (others : List (List Char)) :
    [sep].intercalate (first :: others) = first ++ others.flatMap (sep :: ·) := by
  induction others generalizing first with
  | nil => simp
  | cons next others ih =>
    rw [List.intercalate_cons_cons, ih, List.flatMap_cons]
    simp

/-- What stands between separators is a separator or in one of the pieces. -/
theorem mem_intercalate {sep c : Char} {parts : List (List Char)}
    (h : c ∈ [sep].intercalate parts) : c = sep ∨ ∃ part ∈ parts, c ∈ part := by
  cases parts with
  | nil => simp at h
  | cons first others =>
    rw [intercalate_cons, List.mem_append, List.mem_flatMap] at h
    rcases h with h | ⟨part, hp, h⟩
    · exact .inr ⟨first, List.mem_cons_self, h⟩
    · rcases List.mem_cons.1 h with rfl | h
      · exact .inl rfl
      · exact .inr ⟨part, List.mem_cons_of_mem first hp, h⟩

theorem pieces_eq_splitOn (sep : Char) (text : List Char) : pieces sep text = text.splitOn sep := by
  induction text with
  | nil => rfl
  | cons c text ih =>
    obtain ⟨first, others, h⟩ := List.exists_cons_of_ne_nil (List.splitOn_ne_nil sep text)
    have hs : (c :: text).splitOn sep = if c == sep then [] :: text.splitOn sep
        else (text.splitOn sep).modifyHead (List.cons c) := List.splitOnP_cons_eq_if_modifyHead c text
    rw [pieces, ih, hs, h]
    by_cases hc : c = sep <;> simp [hc, prepend]

/-- Pieces without separators in them are found again between separators. -/
theorem pieces_intercalate {sep : Char} {parts : List (List Char)} (hne : parts ≠ [])
    (h : ∀ part ∈ parts, sep ∉ part) : pieces sep ([sep].intercalate parts) = parts := by
  rw [pieces_eq_splitOn, List.splitOn_intercalate sep h hne]

/-! ### Lists of written values -/

theorem foldr_prepend (piece : List Char) (pieces : List (List Char)) : ∀ a : List Char,
    a.foldr prepend (piece :: pieces) = (a ++ piece) :: pieces
  | [] => rfl
  | c :: a => by
    rw [List.foldr_cons, foldr_prepend piece pieces a]
    rfl

theorem splitValues_plain (rest : List Char) : ∀ {a : List Char}, '\\' ∉ a → ',' ∉ a → '"' ∉ a →
    splitValues false false (a ++ rest) = a.foldr prepend (splitValues false false rest)
  | [], _, _, _ => rfl
  | c :: a, hb, hc, hq => by
    rw [List.mem_cons, not_or] at hb hc hq
    rw [List.cons_append, splitValues, if_neg Bool.false_ne_true, if_neg fun h => hb.1 h.1.symm,
      if_neg fun h => hc.1 h.1.symm, toggle_of_ne fun h => hq.1 h.symm,
      splitValues_plain rest hb.2 hc.2 hq.2]
    rfl

theorem splitValues_body (rest : List Char) : ∀ {body : List Char}, '"' ∉ body →
    splitValues true false (body ++ '"' :: rest)
      = (body ++ ['"']).foldr prepend (splitValues false false rest)
  | [], _ => by simp [splitValues, toggle]
  | c :: body, hq => by
    rw [List.mem_cons, not_or] at hq
    have hs : splitValues true false (c :: (body ++ '"' :: rest))
        = prepend c (splitValues true false (body ++ '"' :: rest)) := by
      simp [splitValues, toggle_of_ne fun h => hq.1 h.symm]
    rw [List.cons_append, hs, splitValues_body rest hq.2]
    rfl

theorem splitValues_encode (value rest : List Char) :
    splitValues false false (Quote.encode value ++ rest)
      = (Quote.encode value).foldr prepend (splitValues false false rest) := by
  by_cases h : ∀ c ∈ value, Quote.isSpecial c = false
  · rw [Quote.encode_plain h]
    exact splitValues_plain rest (Quote.not_mem_plain h rfl) (Quote.not_mem_plain h rfl)
      (Quote.not_mem_plain h rfl)
  · have hb := splitValues_body rest (Quote.quote_not_mem_body value)
    have hs : splitValues false false ('"' :: value.flatMap Quote.encodeChar ++ ['"'] ++ rest)
        = prepend '"' (splitValues true false (value.flatMap Quote.encodeChar ++ '"' :: rest)) := by
      simp [splitValues, toggle]
    rw [Quote.encode_special h, hs, hb]
    rfl

/-- Written values with commas between them are found again. -/
theorem splitValues_list (value : List Char) : ∀ values : List (List Char),
    splitValues false false (Quote.encode value ++ (values.map Quote.encode).flatMap (',' :: ·))
      = (value :: values).map Quote.encode
  | [] => by
    rw [List.map_nil, List.flatMap_nil, splitValues_encode, splitValues, foldr_prepend,
      List.append_nil]
    rfl
  | next :: values => by
    have hs : splitValues false false
        (',' :: (Quote.encode next ++ (values.map Quote.encode).flatMap (',' :: ·)))
        = [] :: (next :: values).map Quote.encode := by
      rw [← splitValues_list next values]
      simp [splitValues]
    rw [List.map_cons, List.flatMap_cons, List.cons_append, splitValues_encode, hs, foldr_prepend,
      List.append_nil]
    rfl

end Almanac.Scan
