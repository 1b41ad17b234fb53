import Almanac.Proofs.Line.Legible
import Mathlib.Data.List.DropRight
import Mathlib.Data.List.Induction

/-!
At which commas a list of parameter values is split, and how that compares with the quotes of the
whole line.  On the line every double quote opens or closes a quotation.  The list is scanned by
itself: the quotes before its equals sign do not count, and neither does a quote after a backslash
(`masked`), which the line counts as any other.

    A;x="a,b",c\,d:v        A;x=\",b":v        A;"x=y,z":v
          ─  ┬  ─                 ┬                  ┬       split
          ─  ┬  ─                 ─                  ─       outside quotes, no backslash before

So the two agree on a comma exactly if the quotes in the name and the masked ones before the comma
are together even (`separates_iff`).
-/

namespace Almanac

namespace Scan

/-! ### Seams -/

/-- The places of the separators between pieces. -/
def seams : List (List Char) → List Nat
  | [] => []
  | [_] => []
  | piece :: next :: pieces => piece.length :: (seams (next :: pieces)).map (piece.length + 1 + ·)

theorem seams_prepend (c : Char) (pieces : List (List Char)) :
    seams (prepend c pieces) = (seams pieces).map (· + 1) := by
  match pieces with
  | [] => rfl
  | [_] => rfl
  | piece :: next :: pieces =>
    simp only [prepend, seams, List.length_cons, List.map_cons, List.map_map]
    congr 2
    funext i
    simp
    omega

theorem seams_cons_nil {pieces : List (List Char)} (h : pieces ≠ []) :
    seams ([] :: pieces) = 0 :: (seams pieces).map (· + 1) := by
  obtain ⟨piece, pieces, rfl⟩ := List.exists_cons_of_ne_nil h
  simp [seams, Nat.add_comm]

theorem intercalate_prepend (sep c : Char) {pieces : List (List Char)} (h : pieces ≠ []) :
    [sep].intercalate (prepend c pieces) = c :: [sep].intercalate pieces := by
  obtain ⟨piece, pieces, rfl⟩ := List.exists_cons_of_ne_nil h
  simp [prepend, intercalate_cons]

/-! ### The scanner of a list of values -/

/-- Where a scanner of a list of values stands. -/
structure Stand where
  /-- Inside quotes. -/
  quoted : Bool
  /-- Right behind a backslash that takes away the meaning of the next character. -/
  escaped : Bool
  deriving DecidableEq

namespace Stand

/-- Neither inside quotes nor behind a backslash. -/
def outside : Stand := ⟨false, false⟩

/-- Where it stands after one more character. -/
def step (s : Stand) (c : Char) : Stand :=
  if s.escaped then ⟨s.quoted, false⟩
  else if c = '\\' ∧ s.quoted = false then ⟨s.quoted, true⟩
  else ⟨toggle s.quoted c, false⟩

/-- Where it stands after a text. -/
def after (s : Stand) (text : List Char) : Stand := text.foldl step s

/-- How many quotes it passes over since they stand behind a backslash. -/
def masked (s : Stand) : List Char → Nat
  | [] => 0
  | c :: rest => (if s.escaped ∧ c = '"' then 1 else 0) + masked (s.step c) rest

theorem splitValues_cons (s : Stand) (c : Char) (rest : List Char) :
    splitValues s.quoted s.escaped (c :: rest) =
      if c = ',' ∧ s = outside then [] :: splitValues (s.step c).quoted (s.step c).escaped rest
      else prepend c (splitValues (s.step c).quoted (s.step c).escaped rest) := by
  obtain ⟨quoted, escaped⟩ := s
  cases escaped
  · cases quoted
    · by_cases hb : c = '\\'
      · simp [splitValues, step, outside, hb]
      · by_cases hc : c = ','
        · simp [splitValues, step, outside, hc, toggle]
        · simp [splitValues, step, hb, hc]
    · simp [splitValues, step, outside]
  · simp [splitValues, step, outside]

/-- Joined by commas the pieces are the list. -/
theorem intercalate_splitValues (s : Stand) (text : List Char) :
    [','].intercalate (splitValues s.quoted s.escaped text) = text := by
  induction text generalizing s with
  | nil => rfl
  | cons c rest ih =>
    have hne := splitValues_ne_nil (s.step c).quoted (s.step c).escaped rest
    rw [splitValues_cons]
    split
    · next hc =>
      obtain ⟨piece, pieces, hp⟩ := List.exists_cons_of_ne_nil hne
      rw [hp, List.intercalate_cons_cons, ← hp, ih, hc.1]
      rfl
    · rw [intercalate_prepend ',' c hne, ih]

/-- The list is split at the commas that are met outside. -/
theorem mem_seams_splitValues (s : Stand) (text : List Char) (i : Nat) :
    i ∈ seams (splitValues s.quoted s.escaped text) ↔
      text[i]? = some ',' ∧ s.after (text.take i) = outside := by
  induction text generalizing s i with
  | nil => simp [splitValues, seams]
  | cons c rest ih =>
    have hne := splitValues_ne_nil (s.step c).quoted (s.step c).escaped rest
    rw [splitValues_cons]
    split
    · next hc =>
      obtain ⟨rfl, rfl⟩ := hc
      rw [seams_cons_nil hne]
      cases i with
      | zero => simp [after]
      | succ i => simpa [after] using ih (outside.step ',') i
    · next hc =>
      rw [seams_prepend]
      cases i with
      | zero => simpa [after] using hc
      | succ i => simpa [after] using ih (s.step c) i

/-- A character behind a backslash means nothing; a quote opens or closes, and a backslash outside
quotes takes the meaning of the next character away. -/
theorem step_cases (s : Stand) (c : Char) :
    s.escaped = true ∧ s.step c = ⟨s.quoted, false⟩ ∨
    s.escaped = false ∧ c = '"' ∧ s.step c = ⟨!s.quoted, false⟩ ∨
    s = outside ∧ c = '\\' ∧ s.step c = ⟨false, true⟩ ∨
    s.escaped = false ∧ c ≠ '"' ∧ (c = '\\' → s.quoted = true) ∧
      s.step c = ⟨s.quoted, false⟩ := by
  obtain ⟨quoted, _ | _⟩ := s
  · by_cases hquote : c = '"'
    · simp [step, toggle, hquote]
    · by_cases hback : c = '\\'
      · cases quoted <;> simp [step, toggle, hback, outside]
      · simp [step, toggle, hquote, hback]
  · simp [step]

theorem after_concat (s : Stand) (text : List Char) (c : Char) :
    s.after (text ++ [c]) = (s.after text).step c := List.foldl_concat ..

theorem masked_concat (s : Stand) (text : List Char) (c : Char) : s.masked (text ++ [c])
    = s.masked text + if (s.after text).escaped ∧ c = '"' then 1 else 0 := by
  induction text generalizing s with
  | nil => exact Nat.add_comm _ 0
  | cons d text ih =>
    rw [List.cons_append, masked, ih, masked, Nat.add_assoc]
    rfl

end Stand

/-- The number of backslashes right before the end of a text. -/
def backslashes (text : List Char) : Nat := (text.rtakeWhile (· = '\\')).length

theorem backslashes_concat (text : List Char) (c : Char) :
    backslashes (text ++ [c]) = if c = '\\' then backslashes text + 1 else 0 := by
  by_cases hc : c = '\\' <;> simp [backslashes, hc]

/-- An equals sign ends a run of backslashes. -/
theorem backslashes_append_equals (text tail : List Char) :
    backslashes (text ++ '=' :: tail) = backslashes tail := by
  induction tail using List.reverseRecOn with
  | nil => simp [backslashes]
  | append_singleton tail c ih =>
    rw [← List.cons_append, ← List.append_assoc, backslashes_concat, backslashes_concat, ih]

/-- What the scanner knows, told by counting: it is inside quotes after an odd number of them, not
counting the masked ones, and behind a backslash after an odd number of these outside quotes. -/
structure Tallied (text : List Char) : Prop where
  quoted : (Stand.outside.after text).quoted.toNat
    = (text.count '"' + Stand.outside.masked text) % 2
  escaped : (Stand.outside.after text).escaped = true ↔
    (Stand.outside.after text).quoted = false ∧ backslashes text % 2 = 1

theorem tallied_nil : Tallied [] := ⟨rfl, by simp [Stand.after, Stand.outside, backslashes]⟩

theorem Tallied.step {text : List Char} (h : Tallied text) (c : Char) : Tallied (text ++ [c]) := by
  obtain ⟨hq, he⟩ := h
  have hmasked := Stand.outside.masked_concat text c
  have hback := backslashes_concat text c
  have hcount : (text ++ [c]).count '"' = text.count '"' + if c = '"' then 1 else 0 := by
    simp [List.count_append, List.count_singleton]
  have hafter := Stand.outside.after_concat text c
  generalize Stand.outside.after text = s at *
  rcases s.step_cases c with ⟨hs, hstep⟩ | ⟨hs, rfl, hstep⟩ | ⟨rfl, rfl, hstep⟩ |
    ⟨hs, hquote, hslash, hstep⟩ <;> rw [hstep] at hafter
  · -- the character means nothing, and the backslash before it is paired
    obtain ⟨-, hodd⟩ := he.1 hs
    constructor
    · simp only [hafter, hcount, hmasked, hs, true_and]
      split <;> omega
    · simp only [hafter, hback, Bool.false_eq_true, false_iff]
      split <;> omega
  · -- a quote
    constructor
    · cases hquoted : s.quoted <;> simp [hafter, hcount, hmasked, hs, hquoted] at hq ⊢ <;> omega
    · simp [hafter, hback]
  · -- a backslash that is not paired yet
    have heven : ¬ backslashes text % 2 = 1 := fun hodd => by
      simpa [Stand.outside] using he.2 ⟨rfl, hodd⟩
    constructor
    · rw [hafter, hcount, hmasked]
      simpa [Stand.outside] using hq
    · simp [hafter, hback]
      omega
  · -- any other character
    constructor
    · simpa [hafter, hcount, hmasked, hquote, hs] using hq
    · simp only [hafter, hback, Bool.false_eq_true, false_iff]
      rintro ⟨hout, hodd⟩
      split at hodd
      · next hc => simp [hslash hc] at hout
      · omega

theorem tallied (text : List Char) : Tallied text := by
  induction text using List.reverseRecOn with
  | nil => exact tallied_nil
  | append_singleton text c ih => exact ih.step c

/-- The commas at which a list of values is split, told by counting. -/
theorem mem_seams_iff (list : List Char) (i : Nat) :
    i ∈ seams (splitValues false false list) ↔ list[i]? = some ',' ∧
      ((list.take i).count '"' + Stand.outside.masked (list.take i)) % 2 = 0 ∧
      backslashes (list.take i) % 2 = 0 := by
  obtain ⟨hq, he⟩ := tallied (list.take i)
  have hseams := Stand.outside.mem_seams_splitValues list i
  rw [show splitValues false false list
    = splitValues Stand.outside.quoted Stand.outside.escaped list from rfl, hseams]
  refine and_congr_right fun _ => ?_
  rw [← hq]
  have hparity := Nat.mod_two_eq_zero_or_one (backslashes (list.take i))
  clear hq hseams
  generalize Stand.outside.after (list.take i) = s at *
  obtain ⟨quoted, escaped⟩ := s
  rcases hparity with heven | hodd <;> cases quoted <;> cases escaped <;>
    simp_all [Stand.outside]

end Scan

/-! ### Lists of values on a line -/

namespace ContentLine

open Scan

/-- A list of parameter values on a line, with what stands before it and the name of the parameter:
a part of the head of the line, but not the first, from behind its first equals sign. -/
structure Lists (line before name list : List Char) : Prop where
  placed : ∃ head value first front part back, cut? ':' false line = some (head, value) ∧
    split ';' false head = first :: (front ++ part :: back) ∧
    cutPlain? '=' part = some (name, list) ∧
    before = [';'].intercalate (first :: front) ++ ';' :: name ++ ['=']

/-- A comma separates values if it is outside the quotes of the line and not behind an unpaired
backslash. -/
def Separates (text : List Char) (k : Nat) : Prop :=
  text[k]? = some ',' ∧ (text.take k).count '"' % 2 = 0 ∧ backslashes (text.take k) % 2 = 0

instance (text : List Char) (k : Nat) : Decidable (Separates text k) :=
  inferInstanceAs (Decidable (_ ∧ _))

namespace Lists

variable {line before name list : List Char} (h : Lists line before name list)
include h

/-- The list is read as the values of a parameter. -/
theorem mem_params {content : ContentLine} (hc : ofChars line = .ok content) :
    ⟨String.ofList name, (splitValues false false list).map fun written =>
      String.ofList (Quote.decode written)⟩ ∈ content.params := by
  obtain ⟨head, value, first, front, part, back, hcut, hsplit, hpart, -⟩ := h.placed
  have hne : part ≠ [] := by
    rw [(cutPlain?_eq_some hpart).1]
    simp
  rw [ofChars, hcut] at hc
  simp only [hsplit] at hc
  split at hc
  · cases hc
  · cases hc
  · next hparts =>
    cases hparts
    cases hc
    refine List.mem_map.2 ⟨part, by simp [hne], ?_⟩
    rw [Param.ofChars, hpart]

/-- The line around a list.  What stands before the parameter closes its quotes. -/
theorem exists_front : ∃ front rest, line = before ++ list ++ rest ∧
    before = front ++ ';' :: name ++ ['='] ∧ Passes ':' false front := by
  obtain ⟨head, value, first, front, part, back, hcut, hsplit, hpart, hbefore⟩ := h.placed
  obtain ⟨first', others, hs, hhead, hfirst, hothers⟩ :=
    split_passes (show ';' ≠ '"' by decide) (passes_of_cut? hcut)
  rw [hsplit] at hs
  cases hs
  refine ⟨_, back.flatMap (';' :: ·) ++ ':' :: value, ?_, hbefore, ?_⟩
  · rw [eq_of_cut? hcut, hhead, hbefore, (cutPlain?_eq_some hpart).1, intercalate_cons]
    simp
  · rw [intercalate_cons]
    exact passes_append hfirst.2 (passes_joined (by decide) (by decide) fun piece hp =>
      (hothers piece (by simp [hp])).2)

/-- Whether the list begins inside the quotes of the line is told by the name. -/
theorem count_before : before.count '"' % 2 = name.count '"' % 2 := by
  obtain ⟨front, rest, -, rfl, hfront⟩ := h.exists_front
  have heven : front.count '"' % 2 = 0 := hfront.count_quote
  have hcount : (front ++ ';' :: name ++ ['=']).count '"'
      = front.count '"' + name.count '"' := by simp
  omega

theorem backslashes_before (tail : List Char) : backslashes (before ++ tail) = backslashes tail := by
  obtain ⟨front, rest, -, rfl, -⟩ := h.exists_front
  rw [List.append_assoc]
  exact backslashes_append_equals _ tail

/-- Which commas of the list separate values on the line, told by the name and the list. -/
theorem separates_iff_of_lt {i : Nat} (hi : i < list.length) :
    Separates line (before.length + i) ↔ list[i]? = some ',' ∧
      (name.count '"' + (list.take i).count '"') % 2 = 0 ∧ backslashes (list.take i) % 2 = 0 := by
  obtain ⟨front, rest, rfl, -⟩ := h.exists_front
  have hget : (before ++ list ++ rest)[before.length + i]? = list[i]? := by
    rw [List.append_assoc, List.getElem?_append_right (Nat.le_add_right _ i),
      Nat.add_sub_cancel_left, List.getElem?_append_left hi]
  have htake : (before ++ list ++ rest).take (before.length + i) = before ++ list.take i := by
    rw [List.append_assoc, List.take_length_add_append, List.take_append_of_le_length hi.le]
  have hcount := h.count_before
  rw [Separates, hget, htake, h.backslashes_before, List.count_append]
  refine and_congr_right fun _ => and_congr_left fun _ => ?_
  omega

end Lists

/-- The list of every parameter of a line that is read is split at commas only, into the values of
the parameter.  At a place in it the scanner and the line agree, unless there is a comma
without an unpaired backslash before it, and the quotes in the name and the masked ones before the
comma are together odd. -/
theorem separates_iff {line : List Char} {content : ContentLine} (hc : ofChars line = .ok content)
    {before name list : List Char} (h : Lists line before name list) :
    ⟨String.ofList name, (splitValues false false list).map fun written =>
      String.ofList (Quote.decode written)⟩ ∈ content.params ∧
    [','].intercalate (splitValues false false list) = list ∧
    ∀ i < list.length,
      (i ∈ seams (splitValues false false list) ↔ Separates line (before.length + i)) ↔
      (list[i]? = some ',' → backslashes (list.take i) % 2 = 0 →
        (name.count '"' + Stand.outside.masked (list.take i)) % 2 = 0) := by
  refine ⟨h.mem_params hc, Stand.outside.intercalate_splitValues list, fun i hi => ?_⟩
  rw [mem_seams_iff, h.separates_iff_of_lt hi]
  by_cases hcomma : list[i]? = some ','
  · by_cases hback : backslashes (list.take i) % 2 = 0
    · simp only [hcomma, hback, true_and, and_true, true_imp_iff]
      omega
    · simp [hback]
  · simp [hcomma]

/-- A comma inside quotes, one behind a backslash, one behind two and one that has nothing before it;
the name has a closed quotation in it. -/
theorem littered_separates_iff :
    let line := "A;\"n;\"x=\"a,b\",c\\,d,\\\\,e:v".toList
    let list := "\"a,b\",c\\,d,\\\\,e".toList
    let content : ContentLine := ⟨"A", [⟨"\"n;\"x", ["a,b", "c,d", "\\\\", "e"]⟩], "v"⟩
    ofChars line = .ok content ∧ Lists line "A;\"n;\"x=".toList "\"n;\"x".toList list ∧
      seams (splitValues false false list) = [5, 10, 13] ∧
      ∀ i < 15, i ∈ seams (splitValues false false list) ↔ Separates line (8 + i) := by
  intro line list content
  have hc : ofChars line = .ok content := by decide +kernel
  have h : Lists line "A;\"n;\"x=".toList "\"n;\"x".toList list :=
    ⟨"A;\"n;\"x=\"a,b\",c\\,d,\\\\,e".toList, ['v'], ['A'], [],
      "\"n;\"x=\"a,b\",c\\,d,\\\\,e".toList, [], by decide +kernel⟩
  have heven : ∀ i < 15, list[i]? = some ',' → backslashes (list.take i) % 2 = 0 →
      ("\"n;\"x".toList.count '"' + Stand.outside.masked (list.take i)) % 2 = 0 := by
    decide +kernel
  exact ⟨hc, h, by decide +kernel, fun i hi =>
    ((separates_iff hc h).2.2 i hi).2 (heven i hi)⟩

/-- A quote behind a backslash, and a quote before the equals sign: the list is split at a comma that
is inside the quotes of the line. -/
theorem not_separates_of_odd_quotes :
    (let line := "A;x=\\\",b\":v".toList
    let list := "\\\",b\"".toList
    ofChars line = .ok ⟨"A", [⟨"x", ["\\\"", "b\""]⟩], "v"⟩ ∧ Lists line "A;x=".toList ['x'] list ∧
      2 ∈ seams (splitValues false false list) ∧ ¬ Separates line (4 + 2)) ∧
    (let line := "A;\"x=y,z\":v".toList
    let list := "y,z\"".toList
    ofChars line = .ok ⟨"A", [⟨"\"x", ["y", "z\""]⟩], "v"⟩ ∧
      Lists line "A;\"x=".toList ['"', 'x'] list ∧
      1 ∈ seams (splitValues false false list) ∧ ¬ Separates line (5 + 1)) := by
  have hmasked : Lists "A;x=\\\",b\":v".toList "A;x=".toList ['x'] "\\\",b\"".toList :=
    ⟨"A;x=\\\",b\"".toList, ['v'], ['A'], [], "x=\\\",b\"".toList, [], by decide +kernel⟩
  have hopen : Lists "A;\"x=y,z\":v".toList "A;\"x=".toList ['"', 'x'] "y,z\"".toList :=
    ⟨"A;\"x=y,z\"".toList, ['v'], ['A'], [], "\"x=y,z\"".toList, [], by decide +kernel⟩
  exact ⟨⟨by decide +kernel, hmasked, by decide +kernel⟩, by decide +kernel, hopen,
    by decide +kernel⟩

end ContentLine

end Almanac
