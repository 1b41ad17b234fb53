/-!
UTF-8.  `encode` writes each character in one to four bytes; `decode` reads a sequence of bytes and,
if it is not valid, says where the longest valid beginning ends and how many bytes after it form the
longest piece that could have begun a character, or that the input stops inside a character.

Overlong forms, surrogates and values above the last code point are told by the second byte: the
range allowed there depends on the first (`secondByte`).
-/

namespace Almanac.Utf8

/-- Where and why a sequence of bytes stops being UTF-8. -/
structure Fault where
  /-- Number of bytes before the offending ones. -/
  index : Nat
  /-- Length of the offending piece, or nothing when the input ends inside a character. -/
  length : Option Nat
  deriving DecidableEq, Repr

/-- The sentence that reports a fault. -/
def Fault.message (f : Fault) : String :=
  match f.length with
  | some k => s!"invalid utf-8 sequence of {k} bytes from index {f.index}"
  | none => s!"incomplete utf-8 byte sequence from index {f.index}"

/-- The bytes of one character. -/
def encodeChar (c : Char) : List UInt8 :=
  let n := c.toNat
  if n < 0x80 then [.ofNat n]
  else if n < 0x800 then [.ofNat (0xC0 + n / 64), .ofNat (0x80 + n % 64)]
  else if n < 0x10000 then
    [.ofNat (0xE0 + n / 4096), .ofNat (0x80 + n / 64 % 64), .ofNat (0x80 + n % 64)]
  else
    [.ofNat (0xF0 + n / 262144), .ofNat (0x80 + n / 4096 % 64), .ofNat (0x80 + n / 64 % 64),
     .ofNat (0x80 + n % 64)]

/-- The bytes of a text. -/
def encode (text : List Char) : List UInt8 := text.flatMap encodeChar

/-- How many bytes a character has that begins with this byte; none if no character does. -/
def width? (b : UInt8) : Option Nat :=
  let n := b.toNat
  if n < 0x80 then some 1
  else if n < 0xC2 then none
  else if n < 0xE0 then some 2
  else if n < 0xF0 then some 3
  else if n < 0xF5 then some 4
  else none

/-- Whether a byte continues a character. -/
def isTail (b : UInt8) : Bool := 0x80 ≤ b.toNat && b.toNat < 0xC0

/-- Whether `b` may stand second after the first byte `a`. -/
def secondByte (a b : UInt8) : Bool :=
  let n := b.toNat
  match a.toNat with
  | 0xE0 => 0xA0 ≤ n && n < 0xC0
  | 0xED => 0x80 ≤ n && n < 0xA0
  | 0xF0 => 0x90 ≤ n && n < 0xC0
  | 0xF4 => 0x80 ≤ n && n < 0x90
  | _ => isTail b

/-- The six low bits that a continuing byte carries. -/
def payload (b : UInt8) : Nat := b.toNat - 0x80

/-- Decodes bytes that follow `index` others. -/
def decodeFrom (index : Nat) : List UInt8 → Except Fault (List Char)
  | [] => .ok []
  | a :: rest =>
    match width? a with
    | none => .error ⟨index, some 1⟩
    | some 1 => (decodeFrom (index + 1) rest).map (Char.ofNat a.toNat :: ·)
    | some 2 =>
      match rest with
      | [] => .error ⟨index, none⟩
      | b :: rest =>
        if !secondByte a b then .error ⟨index, some 1⟩
        else (decodeFrom (index + 2) rest).map
          (Char.ofNat ((a.toNat - 0xC0) * 64 + payload b) :: ·)
    | some 3 =>
      match rest with
      | [] => .error ⟨index, none⟩
      | b :: rest =>
        if !secondByte a b then .error ⟨index, some 1⟩
        else match rest with
          | [] => .error ⟨index, none⟩
          | c :: rest =>
            if !isTail c then .error ⟨index, some 2⟩
            else (decodeFrom (index + 3) rest).map
              (Char.ofNat ((a.toNat - 0xE0) * 4096 + payload b * 64 + payload c) :: ·)
    | some _ =>
      match rest with
      | [] => .error ⟨index, none⟩
      | b :: rest =>
        if !secondByte a b then .error ⟨index, some 1⟩
        else match rest with
          | [] => .error ⟨index, none⟩
          | c :: rest =>
            if !isTail c then .error ⟨index, some 2⟩
            else match rest with
              | [] => .error ⟨index, none⟩
              | d :: rest =>
                if !isTail d then .error ⟨index, some 3⟩
                else (decodeFrom (index + 4) rest).map
                  (Char.ofNat ((a.toNat - 0xF0) * 262144 + payload b * 4096 + payload c * 64
                    + payload d) :: ·)

/-- Decodes a whole sequence of bytes. -/
def decode (bytes : List UInt8) : Except Fault (List Char) := decodeFrom 0 bytes

end Almanac.Utf8
