import Almanac.Line.Escape
import Mathlib.Tactic.Common

/-!
The escaping of TEXT values is undone by reading, and an escaped value stays on one line.

Reading is lenient, so that it can be undone by writing only for some texts: those of plain
characters and the four escapes (`Escaped`), which are just the texts that are written.

    a\,b\\n    read as  a,b\n    and written as  a\,b\\n
    a,b\x     read as  a,b\x    but written as  a\,b\\x
    a\Nb      read as  a, LF, b   but written as  a\nb
-/

namespace Almanac.Escape

theorem decode_cons {c : Char} (h : c ≠ '\\') (rest : List Char) :
    decode (c :: rest) = c :: decode rest := by
  cases rest <;> simp [decode, h]

theorem decode_encodeChar (c : Char) (rest : List Char) :
    decode (encodeChar c ++ rest) = c :: decode rest := by
  unfold encodeChar
  split_ifs with h₁ h₂
  · rcases h₁ with rfl | rfl | rfl <;> rfl
  · subst h₂; rfl
  · exact decode_cons (fun h => h₁ (.inl h)) rest

/-- A text is read back from its escaped form. -/
theorem decode_encode : ∀ text : List Char, decode (encode text) = text
  | [] => rfl
  | c :: text => by
    rw [encode, List.flatMap_cons, decode_encodeChar, ← encode, decode_encode text]

theorem lineFeed_not_mem_encode (text : List Char) : '\n' ∉ encode text := by
  intro h
  obtain ⟨c, -, hc⟩ := List.mem_flatMap.1 h
  unfold encodeChar at hc
  split_ifs at hc with h₁ h₂
  · rcases h₁ with rfl | rfl | rfl <;> revert hc <;> decide
  · revert hc; decide
  · exact h₂ (List.mem_singleton.1 hc).symm

theorem decodeText_encodeText (text : String) : decodeText (encodeText text) = text := by
  rw [decodeText, encodeText, String.toList_ofList, decode_encode, String.ofList_toList]

/-! ### Escaped texts -/

/-- The characters that are not written as they are. -/
def special : List Char := ['\\', ',', ';', '\n']

/-- The characters that a backslash is written before. -/
def marks : List Char := ['\\', ',', ';', 'n']

/-- A sequence of plain characters and escapes of two characters. -/
inductive Escaped : List Char → Prop
  /-- There is nothing. -/
  | nil : Escaped []
  /-- A character that is not special comes first. -/
  | plain {c : Char} {rest : List Char} (hc : c ∉ special) (hrest : Escaped rest) :
      Escaped (c :: rest)
  /-- A backslash and its mark come first. -/
  | escape {c : Char} {rest : List Char} (hc : c ∈ marks) (hrest : Escaped rest) :
      Escaped ('\\' :: c :: rest)

theorem encodeChar_of_plain {c : Char} (h : c ∉ special) : encodeChar c = [c] := by
  simp only [special, List.mem_cons, List.not_mem_nil, not_or, or_false] at h
  simp [encodeChar, h]

/-- What an escape stands for is one character, and it is written as that escape. -/
theorem exists_decodePair {c : Char} (h : c ∈ marks) :
    ∃ d, decodePair c = [d] ∧ encodeChar d = ['\\', c] := by
  simp only [marks, List.mem_cons, List.not_mem_nil, or_false] at h
  rcases h with rfl | rfl | rfl | rfl
  · exact ⟨'\\', rfl, rfl⟩
  · exact ⟨',', rfl, rfl⟩
  · exact ⟨';', rfl, rfl⟩
  · exact ⟨'\n', rfl, rfl⟩

/-- A character is written as itself or as an escape. -/
theorem Escaped.encodeChar_append (c : Char) {rest : List Char} (h : Escaped rest) :
    Escaped (encodeChar c ++ rest) := by
  by_cases hc : c ∈ special
  · simp only [special, List.mem_cons, List.not_mem_nil, or_false] at hc
    rcases hc with rfl | rfl | rfl | rfl
    all_goals exact .escape (by simp [marks]) h
  · rw [encodeChar_of_plain hc]
    exact .plain hc h

theorem escaped_encode : ∀ text : List Char, Escaped (encode text)
  | [] => .nil
  | c :: text => by
    rw [encode, List.flatMap_cons]
    exact (escaped_encode text).encodeChar_append c

/-- An escaped text is written again as it was read. -/
theorem Escaped.encode_decode {text : List Char} (h : Escaped text) :
    encode (decode text) = text := by
  induction h with
  | nil => rfl
  | @plain c rest hc _ ih =>
    have hne : c ≠ '\\' := by
      rintro rfl
      exact hc List.mem_cons_self
    rw [decode_cons hne, encode, List.flatMap_cons, ← encode, ih, encodeChar_of_plain hc]
    rfl
  | @escape c rest hc _ ih =>
    obtain ⟨d, hd, he⟩ := exists_decodePair hc
    have hpair : decode ('\\' :: c :: rest) = d :: decode rest := by
      rw [decode, hd, List.singleton_append]
    rw [hpair, encode, List.flatMap_cons, ← encode, ih, he]
    rfl

/-- Every text is read back from its escaped form.  The texts that are written again as they were
read are the sequences of plain characters and escapes, and these are the escaped forms. -/
theorem encodeText_decodeText_exact :
    (∀ text : String, decodeText (encodeText text) = text) ∧
    ∀ written : String,
      (encodeText (decodeText written) = written ↔ Escaped written.toList) ∧
      (Escaped written.toList ↔ ∃ text, encodeText text = written) := by
  have hform : ∀ text : String, Escaped (encodeText text).toList := by
    intro text
    rw [encodeText, String.toList_ofList]
    exact escaped_encode text.toList
  have hback : ∀ written : String, Escaped written.toList →
      encodeText (decodeText written) = written := by
    intro written h
    rw [encodeText, decodeText, String.toList_ofList, h.encode_decode, String.ofList_toList]
  refine ⟨decodeText_encodeText, fun written => ⟨⟨fun h => ?_, hback written⟩, fun h => ?_, ?_⟩⟩
  · rw [← h]
    exact hform (decodeText written)
  · exact ⟨decodeText written, hback written h⟩
  · rintro ⟨text, rfl⟩
    exact hform text

end Almanac.Escape
