/-!
Byte strings written as hexadecimal text, two characters a byte, high half first.
Writing uses lowercase digits. Reading takes each pair of characters as a number
in base 16 that may carry a plus sign: two digits of either case, or `+` and one
digit (`+f` is 15). An odd number of characters, or any other pair, is refused.
-/
namespace FrontCache.Hex

/-- The sixteen digits, in order of value. -/
def digits : List Char := "0123456789abcdef".toList

/-- The digit of a value below sixteen. -/
def digit (n : Nat) : Char := digits.getD n '0'

/-- The value of one digit, in either case. -/
def value? (c : Char) : Option Nat :=
  if '0' ≤ c ∧ c ≤ '9' then some (c.toNat - '0'.toNat)
  else if 'a' ≤ c ∧ c ≤ 'f' then some (c.toNat - 'a'.toNat + 10)
  else if 'A' ≤ c ∧ c ≤ 'F' then some (c.toNat - 'A'.toNat + 10)
  else none

/-- The two digits of one byte. -/
def ofByte (b : UInt8) : List Char := [digit (b.toNat / 16), digit (b.toNat % 16)]

/-- The text of a byte string. -/
def encode (bytes : List UInt8) : String := String.ofList (bytes.flatMap ofByte)

/-- The byte a pair of characters stands for: two digits, or a plus sign and one. -/
def pairValue? : Char → Char → Option Nat
  | '+', lo => value? lo
  | hi, lo => do return (← value? hi) * 16 + (← value? lo)

/-- Characters read two at a time. -/
def decodeChars : List Char → Option (List UInt8)
  | [] => some []
  | [_] => none
  | hi :: lo :: rest =>
    match pairValue? hi lo, decodeChars rest with
    | some b, some tail => some (UInt8.ofNat b :: tail)
    | _, _ => none

/-- The byte string of a text, if it is one. -/
def decode? (s : String) : Option (List UInt8) := decodeChars s.toList

end FrontCache.Hex
