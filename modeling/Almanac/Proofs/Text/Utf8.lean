import Almanac.Text.Utf8
import Mathlib.Tactic.Common

/-!
UTF-8 both ways.  A text is read back from its bytes, and bytes that are read as a text are the
bytes of that text, so every text has one written form and `decode` accepts nothing else.

Both halves go character by character.  What a first byte announces is told by its range
(`width?_eq_some`), what a second byte may be by the first (`secondByte_iff`), and the value that
the bytes carry is linear arithmetic from there on.
-/

namespace Almanac.Utf8

/-! ### Ranges of bytes -/

theorem width?_eq_some {a : UInt8} {k : Nat} :
    width? a = some k ↔ (k = 1 ∧ a.toNat < 0x80) ∨ (k = 2 ∧ 0xC2 ≤ a.toNat ∧ a.toNat < 0xE0) ∨
      (k = 3 ∧ 0xE0 ≤ a.toNat ∧ a.toNat < 0xF0) ∨ (k = 4 ∧ 0xF0 ≤ a.toNat ∧ a.toNat < 0xF5) := by
  simp only [width?]
  split_ifs <;> simp only [Option.some.injEq, false_iff] <;> omega

theorem isTail_iff {b : UInt8} : isTail b = true ↔ 0x80 ≤ b.toNat ∧ b.toNat < 0xC0 := by
  simp [isTail]

theorem secondByte_iff {a b : UInt8} :
    secondByte a b = true ↔ isTail b = true ∧ (a.toNat = 0xE0 → 0xA0 ≤ b.toNat) ∧
      (a.toNat = 0xED → b.toNat < 0xA0) ∧ (a.toNat = 0xF0 → 0x90 ≤ b.toNat) ∧
      (a.toNat = 0xF4 → b.toNat < 0x90) := by
  simp only [secondByte, isTail]
  split <;> grind

theorem toNat_ofNat_of_lt {n : Nat} (h : n < 256) : (UInt8.ofNat n).toNat = n := by
  rw [UInt8.toNat_ofNat', Nat.mod_eq_of_lt h]

theorem ofNat_eq {n : Nat} {a : UInt8} (h : n = a.toNat) : UInt8.ofNat n = a := by
  rw [h, UInt8.ofNat_toNat]

/-- A code point is no surrogate and not above the last one. -/
theorem toNat_valid (c : Char) : c.toNat < 0xD800 ∨ 0xDFFF < c.toNat ∧ c.toNat < 0x110000 :=
  c.valid

theorem toNat_char {n : Nat} (h : n < 0xD800 ∨ 0xDFFF < n ∧ n < 0x110000) :
    (Char.ofNat n).toNat = n := by
  rw [Char.ofNat, dif_pos h]
  rfl

/-! ### Reading what was written -/

section
variable {a b c d : UInt8} {x : Char} {index : Nat} {rest : List UInt8}

theorem decodeFrom_one (h : width? a = some 1) (hx : x.toNat = a.toNat) :
    decodeFrom index (a :: rest) = (decodeFrom (index + 1) rest).map (x :: ·) := by
  rw [decodeFrom.eq_def]
  simp only [h, ← hx, Char.ofNat_toNat]

theorem decodeFrom_two (h : width? a = some 2) (hb : secondByte a b = true)
    (hx : x.toNat = (a.toNat - 0xC0) * 64 + payload b) :
    decodeFrom index (a :: b :: rest) = (decodeFrom (index + 2) rest).map (x :: ·) := by
  rw [decodeFrom.eq_def]
  simp [h, hb, ← hx]

theorem decodeFrom_three (h : width? a = some 3) (hb : secondByte a b = true)
    (hc : isTail c = true)
    (hx : x.toNat = (a.toNat - 0xE0) * 4096 + payload b * 64 + payload c) :
    decodeFrom index (a :: b :: c :: rest) = (decodeFrom (index + 3) rest).map (x :: ·) := by
  rw [decodeFrom.eq_def]
  simp [h, hb, hc, ← hx]

theorem decodeFrom_four (h : width? a = some 4) (hb : secondByte a b = true)
    (hc : isTail c = true) (hd : isTail d = true)
    (hx : x.toNat
      = (a.toNat - 0xF0) * 262144 + payload b * 4096 + payload c * 64 + payload d) :
    decodeFrom index (a :: b :: c :: d :: rest)
      = (decodeFrom (index + 4) rest).map (x :: ·) := by
  rw [decodeFrom.eq_def]
  simp [h, hb, hc, hd, ← hx]

end

theorem decodeFrom_encodeChar (c : Char) (rest : List UInt8) (index : Nat) :
    decodeFrom index (encodeChar c ++ rest)
      = (decodeFrom (index + (encodeChar c).length) rest).map (c :: ·) := by
  have hc := toNat_valid c
  unfold encodeChar
  dsimp only
  split_ifs with h₁ h₂ h₃
  · have ha := toNat_ofNat_of_lt (n := c.toNat) (by omega)
    exact decodeFrom_one (width?_eq_some.2 (by omega)) (by omega)
  · have ha := toNat_ofNat_of_lt (n := 0xC0 + c.toNat / 64) (by omega)
    have hb := toNat_ofNat_of_lt (n := 0x80 + c.toNat % 64) (by omega)
    refine decodeFrom_two (width?_eq_some.2 (by omega)) (secondByte_iff.2 ?_) ?_
    · rw [isTail_iff]; omega
    · unfold payload; omega
  · have ha := toNat_ofNat_of_lt (n := 0xE0 + c.toNat / 4096) (by omega)
    have hb := toNat_ofNat_of_lt (n := 0x80 + c.toNat / 64 % 64) (by omega)
    have hd := toNat_ofNat_of_lt (n := 0x80 + c.toNat % 64) (by omega)
    refine decodeFrom_three (width?_eq_some.2 (by omega)) (secondByte_iff.2 ?_)
      (isTail_iff.2 (by omega)) ?_
    · rw [isTail_iff]; omega
    · unfold payload; omega
  · have ha := toNat_ofNat_of_lt (n := 0xF0 + c.toNat / 262144) (by omega)
    have hb := toNat_ofNat_of_lt (n := 0x80 + c.toNat / 4096 % 64) (by omega)
    have hd := toNat_ofNat_of_lt (n := 0x80 + c.toNat / 64 % 64) (by omega)
    have he := toNat_ofNat_of_lt (n := 0x80 + c.toNat % 64) (by omega)
    refine decodeFrom_four (width?_eq_some.2 (by omega)) (secondByte_iff.2 ?_)
      (isTail_iff.2 (by omega)) (isTail_iff.2 (by omega)) ?_
    · rw [isTail_iff]; omega
    · unfold payload; omega

theorem decodeFrom_encode (index : Nat) (text : List Char) :
    decodeFrom index (encode text) = .ok text := by
  induction text generalizing index with
  | nil => rfl
  | cons c text ih =>
    rw [encode, List.flatMap_cons, decodeFrom_encodeChar, ← encode, ih]
    rfl

/-- A text is read back from its bytes. -/
theorem decode_encode (text : List Char) : decode (encode text) = .ok text :=
  decodeFrom_encode 0 text

/-! ### Writing what was read -/

section
variable {a b c d : UInt8} {v : Nat}

theorem encodeChar_one (h : a.toNat < 0x80) : encodeChar (Char.ofNat a.toNat) = [a] := by
  have hx := toNat_char (n := a.toNat) (by omega)
  rw [encodeChar, hx, if_pos h, UInt8.ofNat_toNat]

theorem encodeChar_two (ha : 0xC2 ≤ a.toNat ∧ a.toNat < 0xE0) (hb : secondByte a b = true)
    (hv : v = (a.toNat - 0xC0) * 64 + payload b) : encodeChar (Char.ofNat v) = [a, b] := by
  rw [secondByte_iff, isTail_iff] at hb
  unfold payload at hv
  have hx := toNat_char (n := v) (by omega)
  rw [encodeChar, hx, if_neg (by omega), if_pos (by omega)]
  rw [ofNat_eq (a := a) (by omega), ofNat_eq (a := b) (by omega)]

theorem encodeChar_three (ha : 0xE0 ≤ a.toNat ∧ a.toNat < 0xF0) (hb : secondByte a b = true)
    (hc : isTail c = true) (hv : v = (a.toNat - 0xE0) * 4096 + payload b * 64 + payload c) :
    encodeChar (Char.ofNat v) = [a, b, c] := by
  rw [secondByte_iff, isTail_iff] at hb
  rw [isTail_iff] at hc
  unfold payload at hv
  have hx := toNat_char (n := v) (by omega)
  rw [encodeChar, hx, if_neg (by omega), if_neg (by omega), if_pos (by omega)]
  rw [ofNat_eq (a := a) (by omega), ofNat_eq (a := b) (by omega), ofNat_eq (a := c) (by omega)]

theorem encodeChar_four (ha : 0xF0 ≤ a.toNat ∧ a.toNat < 0xF5) (hb : secondByte a b = true)
    (hc : isTail c = true) (hd : isTail d = true)
    (hv : v = (a.toNat - 0xF0) * 262144 + payload b * 4096 + payload c * 64 + payload d) :
    encodeChar (Char.ofNat v) = [a, b, c, d] := by
  rw [secondByte_iff, isTail_iff] at hb
  rw [isTail_iff] at hc hd
  unfold payload at hv
  have hx := toNat_char (n := v) (by omega)
  rw [encodeChar, hx, if_neg (by omega), if_neg (by omega), if_neg (by omega)]
  rw [ofNat_eq (a := a) (by omega), ofNat_eq (a := b) (by omega), ofNat_eq (a := c) (by omega),
    ofNat_eq (a := d) (by omega)]

end

theorem encode_cons (c : Char) (text : List Char) :
    encode (c :: text) = encodeChar c ++ encode text := List.flatMap_cons

theorem encode_append (first second : List Char) :
    encode (first ++ second) = encode first ++ encode second := List.flatMap_append

/-- A reading that goes on after one character has read that character and the rest. -/
theorem exists_of_map_cons {e : Except Fault (List Char)} {c : Char} {text : List Char}
    (h : e.map (c :: ·) = .ok text) : ∃ rest, e = .ok rest ∧ text = c :: rest := by
  cases e with
  | error fault => simp [Except.map] at h
  | ok rest => exact ⟨rest, rfl, (Except.ok.inj h).symm⟩

theorem encode_of_decodeFrom {index : Nat} {bytes : List UInt8} {text : List Char}
    (h : decodeFrom index bytes = .ok text) : encode text = bytes := by
  -- only five of the cases of `decodeFrom` give a text: no byte left, and one for each width
  fun_induction decodeFrom index bytes generalizing text with
  | case1 => cases h; rfl
  | case3 index a rest hw ih =>
    obtain ⟨tail, ht, rfl⟩ := exists_of_map_cons h
    rw [encode_cons, encodeChar_one (by have := width?_eq_some.1 hw; omega), ih ht]
    rfl
  | case6 index a hw b rest hb ih =>
    obtain ⟨tail, ht, rfl⟩ := exists_of_map_cons h
    rw [encode_cons, encodeChar_two (by have := width?_eq_some.1 hw; omega) (by simpa using hb) rfl,
      ih ht]
    rfl
  | case11 index a hw b hb c rest hc ih =>
    obtain ⟨tail, ht, rfl⟩ := exists_of_map_cons h
    rw [encode_cons, encodeChar_three (by have := width?_eq_some.1 hw; omega) (by simpa using hb)
      (by simpa using hc) rfl, ih ht]
    rfl
  | case18 index a k h1 h2 h3 hw b hb c hc d rest hd ih =>
    obtain ⟨tail, ht, rfl⟩ := exists_of_map_cons h
    have ha := (((width?_eq_some.1 hw).resolve_left fun h => h1 h.1).resolve_left
      fun h => h2 h.1).resolve_left fun h => h3 h.1
    rw [encode_cons, encodeChar_four ha.2 (by simpa using hb) (by simpa using hc)
      (by simpa using hd) rfl, ih ht]
    rfl
  | _ => cases h

/-- The bytes that are read as a text are the ones that the text is written in. -/
theorem decode_eq_ok_iff {bytes : List UInt8} {text : List Char} :
    decode bytes = .ok text ↔ bytes = encode text := by
  constructor
  · intro h
    exact (encode_of_decodeFrom h).symm
  · rintro rfl
    exact decode_encode text

/-- The bytes of a text that begin with those of another one belong to a text that begins with
it. -/
theorem exists_of_encode_append : ∀ {front text : List Char} {bytes : List UInt8},
    encode front ++ bytes = encode text → ∃ back, text = front ++ back
  | [], text, _, _ => ⟨text, rfl⟩
  | c :: front, text, bytes, h => by
    have hd := decode_encode text
    rw [← h, encode_cons, List.append_assoc, decode, decodeFrom_encodeChar] at hd
    obtain ⟨rest, hr, rfl⟩ := exists_of_map_cons hd
    rw [encode_cons, encode_cons, List.append_assoc] at h
    obtain ⟨back, rfl⟩ := exists_of_encode_append (List.append_cancel_left h)
    exact ⟨back, rfl⟩

/-! ### ASCII characters among the bytes -/

/-- No byte of another character is the byte of an ASCII character. -/
theorem le_of_mem_encodeChar {c : Char} (hc : 0x80 ≤ c.toNat) {b : UInt8}
    (h : b ∈ encodeChar c) : 0x80 ≤ b.toNat := by
  have hv := toNat_valid c
  unfold encodeChar at h
  dsimp only at h
  rw [if_neg (by omega)] at h
  split_ifs at h <;> simp only [List.mem_cons, List.not_mem_nil, or_false] at h
  · rcases h with rfl | rfl <;> rw [toNat_ofNat_of_lt (by omega)] <;> omega
  · rcases h with rfl | rfl | rfl <;> rw [toNat_ofNat_of_lt (by omega)] <;> omega
  · rcases h with rfl | rfl | rfl | rfl <;> rw [toNat_ofNat_of_lt (by omega)] <;> omega

theorem encodeChar_ne_nil (c : Char) : encodeChar c ≠ [] := by
  unfold encodeChar
  dsimp only
  split_ifs <;> exact List.cons_ne_nil _ _

theorem mem_encodeChar {b : UInt8} (hb : b.toNat < 0x80) {c : Char} :
    b ∈ encodeChar c ↔ c = Char.ofNat b.toNat := by
  constructor
  · intro h
    have hc : c.toNat < 0x80 := by
      by_contra hc
      have := le_of_mem_encodeChar (by omega) h
      omega
    unfold encodeChar at h
    dsimp only at h
    rw [if_pos hc, List.mem_singleton] at h
    rw [h, toNat_ofNat_of_lt (by omega), Char.ofNat_toNat]
  · rintro rfl
    rw [encodeChar_one hb]
    exact List.mem_singleton_self b

/-- The byte of an ASCII character is found where the character is. -/
theorem mem_encode {b : UInt8} (hb : b.toNat < 0x80) {text : List Char} :
    b ∈ encode text ↔ Char.ofNat b.toNat ∈ text := by
  simp [encode, List.mem_flatMap, mem_encodeChar hb]

end Almanac.Utf8
