import Conform.Text.Visible

/-!
# Quoted text

A text between double quotes, every character of it readable: quotes, backslashes and line controls
as two-character escapes, and whatever would not show by itself as `\u` with its code point in
braces.
-/

namespace Conform.Text

/-- A number in lower-case hexadecimal. -/
def hexText (n : Nat) : String := String.ofList (Nat.toDigits 16 n)

/-- One character inside quotes. -/
def quoteChar (c : Char) : String :=
  match c with
  | '\x00' => "\\0"
  | '\t' => "\\t"
  | '\r' => "\\r"
  | '\n' => "\\n"
  | '"' => "\\\""
  | '\\' => "\\\\"
  | _ => if isVisible c then c.toString else "\\u\x7b" ++ hexText c.toNat ++ "\x7d"

/-- The text between quotes. -/
def quoted (s : String) : String := "\"" ++ String.join (s.toList.map quoteChar) ++ "\""

end Conform.Text
