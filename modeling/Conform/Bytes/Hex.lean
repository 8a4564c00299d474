/-!
# Bytes as hexadecimal text

Two lower-case digits a byte; reading takes either case.
-/

namespace Conform.Bytes

/-- The value of a hexadecimal digit. -/
def hexValue? (c : Char) : Option Nat :=
  if '0' ≤ c ∧ c ≤ '9' then some (c.toNat - '0'.toNat)
  else if 'a' ≤ c ∧ c ≤ 'f' then some (c.toNat - 'a'.toNat + 10)
  else if 'A' ≤ c ∧ c ≤ 'F' then some (c.toNat - 'A'.toNat + 10)
  else none

/-- The two digits of a byte. -/
def hexPair (b : UInt8) : List Char := [Nat.digitChar (b.toNat / 16), Nat.digitChar (b.toNat % 16)]

/-- The bytes as text. -/
def toHex (bytes : List UInt8) : String := String.ofList (bytes.flatMap hexPair)

/-- The bytes written by pairs of digits; none for a stray digit or another character. -/
def ofHexChars? : List Char → Option (List UInt8)
  | [] => some []
  | [_] => none
  | high :: low :: rest => do
    let h ← hexValue? high
    let l ← hexValue? low
    let bytes ← ofHexChars? rest
    some (UInt8.ofNat (16 * h + l) :: bytes)

def ofHex? (s : String) : Option (List UInt8) := ofHexChars? s.toList

end Conform.Bytes
