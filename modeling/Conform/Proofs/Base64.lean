import Conform.Bytes.Base64
import Mathlib.Data.List.Basic

/-!
# Bytes read back from base64

What is written in groups of four digits is read back group by group; the last group says by its
padding how many bytes it holds (`ofBase64?_toBase64`).

The digits are read through a table of characters. Every digit is the value of its character, and no
digit is the padding (`value_digit`, `digit_ne_pad`), so that a group with one or two places of
padding is never mistaken for a full one. Then there is one lemma for each number of bytes that a
group can hold, three with something behind them, or two or one at the end. These are the cases of
the reader, and the induction on the bytes goes three by three, as the writer does.
-/

namespace Conform.Bytes

theorem value_digit {n : Nat} (h : n < 64) : base64Value? (base64Digit n) = some n := by
  have hall : ∀ n < 64, base64Value? (base64Digit n) = some n := by decide +kernel
  exact hall n h

theorem digit_ne_pad {n : Nat} (h : n < 64) : base64Digit n ≠ '=' := by
  have hall : ∀ n < 64, base64Digit n ≠ '=' := by decide +kernel
  exact hall n h

theorem ofNat_of_toNat {a : UInt8} {n : Nat} (h : n = a.toNat) : UInt8.ofNat n = a := by
  rw [h, UInt8.ofNat_toNat]

/-- Three bytes are read back from their group, whatever follows it. -/
theorem ofBase64Chars?_three (a b c : UInt8) (rest : List UInt8) :
    ofBase64Chars? .needed (toBase64Chars (a :: b :: c :: rest)) =
      (ofBase64Chars? .needed (toBase64Chars rest)).bind fun bytes =>
      some (a :: b :: c :: bytes) := by
  have ha : a.toNat < 256 := a.toNat_lt
  have hb : b.toNat < 256 := b.toNat_lt
  have hc : c.toNat < 256 := c.toNat_lt
  rw [toBase64Chars]
  generalize hn : (a.toNat * 256 + b.toNat) * 256 + c.toNat = n
  have hpad {k : Nat} (hk : k < 64) : base64Digit k = '=' → False := digit_ne_pad hk
  rw [ofBase64Chars?.eq_8 _ _ _ _ _ _ (fun _ hlast _ => hpad (by omega) hlast)
      fun hlast _ => hpad (by omega) hlast,
    value_digit (by omega), value_digit (by omega), value_digit (by omega), value_digit (by omega)]
  have hjoined : ((n / 262144 * 64 + n / 4096 % 64) * 64 + n / 64 % 64) * 64 + n % 64 = n := by
    omega
  show (ofBase64Chars? .needed (toBase64Chars rest) >>= fun bytes => some (
      UInt8.ofNat
        ((((n / 262144 * 64 + n / 4096 % 64) * 64 + n / 64 % 64) * 64 + n % 64) / 65536) ::
      UInt8.ofNat
        ((((n / 262144 * 64 + n / 4096 % 64) * 64 + n / 64 % 64) * 64 + n % 64) / 256 % 256) ::
      UInt8.ofNat
        ((((n / 262144 * 64 + n / 4096 % 64) * 64 + n / 64 % 64) * 64 + n % 64) % 256) ::
      bytes)) = _
  rw [hjoined, ofNat_of_toNat (a := a) (by omega), ofNat_of_toNat (a := b) (by omega),
    ofNat_of_toNat (a := c) (by omega)]
  rfl

theorem ofBase64Chars?_two (a b : UInt8) :
    ofBase64Chars? .needed (toBase64Chars [a, b]) = some [a, b] := by
  have ha : a.toNat < 256 := a.toNat_lt
  have hb : b.toNat < 256 := b.toNat_lt
  unfold toBase64Chars
  dsimp only
  generalize hn : (a.toNat * 256 + b.toNat) * 4 = n
  rw [ofBase64Chars?.eq_7 _ _ _ _ (digit_ne_pad (by omega)), value_digit (by omega),
    value_digit (by omega), value_digit (by omega)]
  show lastTwo? (n / 4096) (n / 64 % 64) (n % 64) = _
  unfold lastTwo?
  dsimp only
  rw [show (n / 4096 * 64 + n / 64 % 64) * 64 + n % 64 = n by omega, if_pos (by omega),
    ofNat_of_toNat (a := a) (by omega), ofNat_of_toNat (a := b) (by omega)]

theorem ofBase64Chars?_one (a : UInt8) : ofBase64Chars? .needed (toBase64Chars [a]) = some [a] := by
  have ha : a.toNat < 256 := a.toNat_lt
  unfold toBase64Chars
  dsimp only
  generalize hn : a.toNat * 16 = n
  rw [ofBase64Chars?.eq_6, value_digit (by omega), value_digit (by omega)]
  show lastOne? (n / 64) (n % 64) = _
  unfold lastOne?
  dsimp only
  rw [show n / 64 * 64 + n % 64 = n by omega, if_pos (by omega), ofNat_of_toNat (a := a) (by omega)]

theorem ofBase64Chars?_toBase64Chars (bytes : List UInt8) :
    ofBase64Chars? .needed (toBase64Chars bytes) = some bytes := by
  induction bytes using toBase64Chars.induct with
  | case1 => rfl
  | case2 a => exact ofBase64Chars?_one a
  | case3 a b => exact ofBase64Chars?_two a b
  | case4 a b c rest ih =>
    rw [ofBase64Chars?_three, ih]
    rfl

/-- The written bytes are read back. -/
theorem ofBase64?_toBase64 (bytes : List UInt8) :
    ofBase64? .needed (toBase64 bytes) = some bytes := by
  unfold ofBase64? toBase64
  rw [String.toList_ofList]
  exact ofBase64Chars?_toBase64Chars bytes

end Conform.Bytes
