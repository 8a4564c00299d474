/-!
# Bytes as base64 text

The standard alphabet, written with padding. Reading takes canonical text only: the bits that a
last group leaves over are zero, and padding is there, or, when the reader is lenient, possibly
absent or one sign short.
-/

namespace Conform.Bytes

/-- The digits, in order of value. -/
def base64Alphabet : List Char :=
  "ABCDEFGHIJKLMNOPQRSTUVWXYZabcdefghijklmnopqrstuvwxyz0123456789+/".toList

/-- The digit of a value below 64. -/
def base64Digit (n : Nat) : Char := base64Alphabet.getD n '='

/-- The value of a digit. -/
def base64Value? (c : Char) : Option Nat := base64Alphabet.findIdx? (· == c)

/-- The bytes in groups of three, four digits each, the last group padded. -/
def toBase64Chars : List UInt8 → List Char
  | [] => []
  | [a] =>
    let n := a.toNat * 16
    [base64Digit (n / 64), base64Digit (n % 64), '=', '=']
  | [a, b] =>
    let n := (a.toNat * 256 + b.toNat) * 4
    [base64Digit (n / 4096), base64Digit (n / 64 % 64), base64Digit (n % 64), '=']
  | a :: b :: c :: rest =>
    let n := (a.toNat * 256 + b.toNat) * 256 + c.toNat
    base64Digit (n / 262144) :: base64Digit (n / 4096 % 64) :: base64Digit (n / 64 % 64) ::
      base64Digit (n % 64) :: toBase64Chars rest

def toBase64 (bytes : List UInt8) : String := String.ofList (toBase64Chars bytes)

/-- Whether text may lack padding at its end. -/
inductive Padding
  | needed
  | optional
  deriving DecidableEq, Repr

/-- The last group of two digits: one byte, with four zero bits left over. -/
def lastOne? (a b : Nat) : Option (List UInt8) :=
  let n := a * 64 + b
  if n % 16 = 0 then some [UInt8.ofNat (n / 16)] else none

/-- The last group of three digits: two bytes, with two zero bits left over. -/
def lastTwo? (a b c : Nat) : Option (List UInt8) :=
  let n := (a * 64 + b) * 64 + c
  if n % 4 = 0 then some [UInt8.ofNat (n / 1024), UInt8.ofNat (n / 4 % 256)] else none

/-- The bytes written by groups of digits. -/
def ofBase64Chars? (padding : Padding) : List Char → Option (List UInt8)
  | [] => some []
  | [_] => none
  | [a, b] =>
    if padding = .optional then do lastOne? (← base64Value? a) (← base64Value? b) else none
  | [a, b, '='] =>
    if padding = .optional then do lastOne? (← base64Value? a) (← base64Value? b) else none
  | [a, b, c] =>
    if padding = .optional then do
      lastTwo? (← base64Value? a) (← base64Value? b) (← base64Value? c)
    else none
  | [a, b, '=', '='] => do lastOne? (← base64Value? a) (← base64Value? b)
  | [a, b, c, '='] => do lastTwo? (← base64Value? a) (← base64Value? b) (← base64Value? c)
  | a :: b :: c :: d :: rest => do
    let n := ((← base64Value? a) * 64 + (← base64Value? b)) * 64 + (← base64Value? c)
    let n := n * 64 + (← base64Value? d)
    let bytes ← ofBase64Chars? padding rest
    some (UInt8.ofNat (n / 65536) :: UInt8.ofNat (n / 256 % 256) :: UInt8.ofNat (n % 256) :: bytes)

def ofBase64? (padding : Padding) (s : String) : Option (List UInt8) :=
  ofBase64Chars? padding s.toList

end Conform.Bytes
