import Almanac.Text.Numeral
import Almanac.Proofs.Text.Blank
import Mathlib.Algebra.Ring.Nat

/-!
Numerals are read back: from their fewest digits, with zeros in front, and with a sign.  Letters and
digits are no blanks, so there is nothing to be trimmed from a numeral.
-/

namespace Almanac.Text

/-! ### Digits -/

theorem isBlank_of_isAlphanum {c : Char} (h : c.isAlphanum = true) : isBlank c = false := by
  have hr : (65 ≤ c.toNat ∧ c.toNat ≤ 90 ∨ 97 ≤ c.toNat ∧ c.toNat ≤ 122) ∨
      48 ≤ c.toNat ∧ c.toNat ≤ 57 := by
    delta Char.isAlphanum Char.isAlpha Char.isUpper Char.isLower Char.isDigit at h
    simpa [UInt32.le_iff_toNat_le] using h
  simp only [isBlank, blankRanges, List.any_cons, List.any_nil, Bool.or_false, Bool.or_eq_false_iff,
    Bool.and_eq_false_iff, decide_eq_false_iff_not]
  omega

theorem isAlphanum_of_isDigit {c : Char} (h : c.isDigit = true) : c.isAlphanum = true := by
  rw [Char.isAlphanum, h, Bool.or_true]

theorem isBlank_of_isDigit {c : Char} (h : c.isDigit = true) : isBlank c = false :=
  isBlank_of_isAlphanum (isAlphanum_of_isDigit h)

theorem isDigit_of_mem_padded {width n : Nat} {c : Char} (h : c ∈ padded width n) :
    c.isDigit = true := by
  rw [padded, List.mem_append] at h
  rcases h with h | h
  · rw [List.eq_of_mem_replicate h]
    rfl
  · exact isDigit_of_mem_digits h

/-- Zeros in front do not change the value. -/
@[simp] theorem digitValue_padded (width n : Nat) : digitValue (padded width n) = n := by
  have hz : ∀ count, Nat.ofDigitChars 10 (List.replicate count '0') 0 = 0 := by
    intro count
    induction count with
    | zero => rfl
    | succ count ih =>
      rw [List.replicate_succ, Nat.ofDigitChars_cons]
      exact ih
  rw [padded, digitValue, Nat.ofDigitChars_append, hz]
  exact digitValue_digits n

theorem digitValue_cons (c : Char) (ds : List Char) :
    digitValue (c :: ds) = 10 ^ ds.length * (c.toNat - '0'.toNat) + digitValue ds := by
  rw [digitValue, Nat.ofDigitChars_cons, Nat.ofDigitChars_eq_ofDigitChars_zero, digitValue]
  rw [Nat.mul_zero, Nat.zero_add]

/-- The value of a numeral is bounded by its length. -/
theorem digitValue_lt {ds : List Char} (h : ∀ c ∈ ds, c.isDigit = true) :
    digitValue ds < 10 ^ ds.length := by
  induction ds with
  | nil => exact Nat.one_pos
  | cons c ds ih =>
    have hrest : digitValue ds < 10 ^ ds.length := ih fun d hd => h d (List.mem_cons_of_mem c hd)
    have hdigit : c.toNat - '0'.toNat ≤ 9 := by
      have hrange := Char.isDigit_iff_toNat.1 (h c List.mem_cons_self)
      have hlast : '9'.toNat = '0'.toNat + 9 := rfl
      omega
    calc digitValue (c :: ds)
        = 10 ^ ds.length * (c.toNat - '0'.toNat) + digitValue ds := digitValue_cons c ds
      _ < 10 ^ ds.length * 9 + 10 ^ ds.length :=
          Nat.add_lt_add_of_le_of_lt (Nat.mul_le_mul_left _ hdigit) hrest
      _ = 10 ^ (c :: ds).length := by rw [List.length_cons, Nat.pow_succ]; omega

theorem length_padded {width n : Nat} (hw : 0 < width) (h : n < 10 ^ width) :
    (padded width n).length = width := by
  have hl : (digits n).length ≤ width := (Nat.length_toDigits_le_iff (by decide) hw).2 h
  rw [padded, List.length_append, List.length_replicate]
  omega

/-! ### Numerals -/

theorem not_mem_digits {c : Char} (h : c.isDigit = false) (n : Nat) : c ∉ digits n := by
  intro hm
  rw [isDigit_of_mem_digits hm] at h
  cases h

/-- A number below the limit is read back. -/
theorem readUnsigned?_digits {limit n : Nat} (h : n < limit) :
    readUnsigned? limit (digits n) = some n := by
  unfold readUnsigned?
  split
  · next rest hd =>
    have hplus := not_mem_digits (show '+'.isDigit = false from rfl) n
    rw [hd] at hplus
    exact absurd List.mem_cons_self hplus
  · dsimp only
    rw [readDigits?_digits]
    simpa using h

/-- A number in the range is read back. -/
theorem readSigned?_signedDigits {lo hi n : Int} (hlo : lo ≤ n) (hhi : n ≤ hi) :
    readSigned? lo hi (signedDigits n) = some n := by
  have hin : (decide (lo ≤ n) && decide (n ≤ hi)) = true := by simpa using ⟨hlo, hhi⟩
  unfold readSigned?
  cases n with
  | ofNat n =>
    have hminus := not_mem_digits (show '-'.isDigit = false from rfl) n
    have hplus := not_mem_digits (show '+'.isDigit = false from rfl) n
    rw [signedDigits]
    dsimp only
    split
    · next rest hd =>
      rw [hd] at hminus
      exact absurd List.mem_cons_self hminus
    · next rest hd =>
      rw [hd] at hplus
      exact absurd List.mem_cons_self hplus
    · rw [readDigits?_digits]
      exact Option.filter_some_pos hin
  | negSucc n =>
    have hread := readDigits?_digits (n + 1)
    rw [signedDigits]
    simp only [hread]
    exact Option.filter_some_pos hin

theorem signedDigits_ne_nil (n : Int) : signedDigits n ≠ [] := by
  cases n with
  | ofNat n => exact digits_ne_nil n
  | negSucc n => exact List.cons_ne_nil _ _

theorem mem_signedDigits {n : Int} {c : Char} (h : c ∈ signedDigits n) :
    c.isDigit = true ∨ c = '-' := by
  cases n with
  | ofNat n => exact .inl (isDigit_of_mem_digits h)
  | negSucc n =>
    rcases List.mem_cons.1 h with rfl | h
    · exact .inr rfl
    · exact .inl (isDigit_of_mem_digits h)

end Almanac.Text
