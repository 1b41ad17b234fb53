/-!
Base64 with the standard alphabet.  Three bytes become four letters; a last group of one or two
bytes is filled up with zero bits and its missing letters are written as `=`.
-/

namespace Almanac.Base64

/-- The sixty-four letters in the order of their values. -/
def alphabet : List Char :=
  "ABCDEFGHIJKLMNOPQRSTUVWXYZabcdefghijklmnopqrstuvwxyz0123456789+/".toList

/-- The letter of a value below sixty-four. -/
def letter (n : Nat) : Char := alphabet.getD n '='

/-- The letters of a sequence of bytes. -/
def encode : List UInt8 → List Char
  | a :: b :: c :: rest =>
    let n := a.toNat * 65536 + b.toNat * 256 + c.toNat
    letter (n / 262144) :: letter (n / 4096 % 64) :: letter (n / 64 % 64) :: letter (n % 64)
      :: encode rest
  | [a, b] =>
    let n := a.toNat * 65536 + b.toNat * 256
    [letter (n / 262144), letter (n / 4096 % 64), letter (n / 64 % 64), '=']
  | [a] =>
    let n := a.toNat * 65536
    [letter (n / 262144), letter (n / 4096 % 64), '=', '=']
  | [] => []

end Almanac.Base64
