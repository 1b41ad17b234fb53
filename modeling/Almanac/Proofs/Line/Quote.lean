import Almanac.Line.Quote
import Mathlib.Tactic.Common

/-!
The quoting of parameter values is undone by reading.

A written value is of one of two shapes: the value itself, when nothing in it is special, or a body
without a double quote between two of them.  In both a scanner for separators passes over it, and
it stays on one line.
-/

namespace Almanac.Quote

/-! ### The two shapes -/

theorem encode_plain {value : List Char} (h : ∀ c ∈ value, isSpecial c = false) :
    encode value = value := by
  unfold encode
  rw [if_neg]
  simpa using h

theorem encode_special {value : List Char} (h : ¬ ∀ c ∈ value, isSpecial c = false) :
    encode value = '"' :: value.flatMap encodeChar ++ ['"'] := by
  unfold encode
  rw [if_pos]
  simpa using h

/-- A value that is written as it is has nothing special in it. -/
theorem not_mem_plain {value : List Char} (h : ∀ c ∈ value, isSpecial c = false) {c : Char}
    (hc : isSpecial c = true) : c ∉ value := by
  intro hm
  rw [h c hm] at hc
  cases hc

theorem quote_not_mem_encodeChar (c : Char) : '"' ∉ encodeChar c := by
  unfold encodeChar
  split_ifs with h₁ h₂ h₃
  · decide
  · decide
  · decide
  · simpa [eq_comm] using h₃

theorem lineFeed_not_mem_encodeChar (c : Char) : '\n' ∉ encodeChar c := by
  unfold encodeChar
  split_ifs with h₁ h₂ h₃
  · decide
  · decide
  · decide
  · simpa [eq_comm] using h₂

theorem quote_not_mem_body (value : List Char) : '"' ∉ value.flatMap encodeChar := by
  intro h
  obtain ⟨c, -, hc⟩ := List.mem_flatMap.1 h
  exact quote_not_mem_encodeChar c hc

theorem lineFeed_not_mem_encode (value : List Char) : '\n' ∉ encode value := by
  by_cases h : ∀ c ∈ value, isSpecial c = false
  · rw [encode_plain h]
    exact not_mem_plain h rfl
  · rw [encode_special h]
    intro hm
    simp only [List.cons_append, List.mem_cons, List.mem_append, List.not_mem_nil, or_false] at hm
    rcases hm with hm | hm | hm
    · exact absurd hm (by decide)
    · obtain ⟨c, -, hc⟩ := List.mem_flatMap.1 hm
      exact lineFeed_not_mem_encodeChar c hc
    · exact absurd hm (by decide)

/-! ### Reading back -/

theorem decodeCarets_cons {c : Char} (h : c ≠ '^') (rest : List Char) :
    decodeCarets (c :: rest) = c :: decodeCarets rest := by
  rw [decodeCarets.eq_def]
  split <;> simp_all

theorem decodeCarets_encodeChar (c : Char) (rest : List Char) :
    decodeCarets (encodeChar c ++ rest) = c :: decodeCarets rest := by
  unfold encodeChar
  split_ifs with h₁ h₂ h₃
  · subst h₁; rfl
  · subst h₂; rfl
  · subst h₃; rfl
  · exact decodeCarets_cons h₁ rest

theorem decodeCarets_body : ∀ value : List Char, decodeCarets (value.flatMap encodeChar) = value
  | [] => rfl
  | c :: value => by rw [List.flatMap_cons, decodeCarets_encodeChar, decodeCarets_body value]

theorem decodeCarets_plain : ∀ {value : List Char}, '^' ∉ value → decodeCarets value = value
  | [], _ => rfl
  | c :: value, h => by
    rw [List.mem_cons, not_or] at h
    rw [decodeCarets_cons (fun e => h.1 e.symm), decodeCarets_plain h.2]

theorem decodeCommas_plain : ∀ {value : List Char}, '\\' ∉ value → decodeCommas value = value
  | [], _ => rfl
  | c :: value, h => by
    rw [List.mem_cons, not_or] at h
    rw [decodeCommas.eq_def]
    split
    · next heq => exact absurd (List.cons.inj heq).1.symm h.1
    · next heq =>
      obtain ⟨rfl, rfl⟩ := List.cons.inj heq
      rw [decodeCommas_plain h.2]
    · next heq => cases heq

theorem inner?_quoted (body : List Char) : inner? ('"' :: body ++ ['"']) = some body := by
  simp [inner?]

theorem inner?_plain {value : List Char} (h : '"' ∉ value) : inner? value = none := by
  unfold inner?
  split
  · next rest => exact absurd List.mem_cons_self h
  · rfl

/-- A value is read back from its written form. -/
theorem decode_encode (value : List Char) : decode (encode value) = value := by
  by_cases h : ∀ c ∈ value, isSpecial c = false
  · rw [encode_plain h, decode, inner?_plain (not_mem_plain h rfl)]
    dsimp only
    rw [decodeCommas_plain (not_mem_plain h rfl), decodeCarets_plain (not_mem_plain h rfl)]
  · rw [encode_special h, decode, inner?_quoted]
    exact decodeCarets_body value

end Almanac.Quote
