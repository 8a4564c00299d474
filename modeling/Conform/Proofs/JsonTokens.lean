import Mathlib.Data.List.Induction
import Mathlib.Data.List.TakeWhile
import Mathlib.Tactic.IntervalCases
import Conform.Json.Printer
import Conform.Json.Reader

/-!
# Strings and numerals of JSON read back

A string that is written between quotes is read as it was, character by character, whatever is
escaped. The digits of an integer are read to be it. What is read of a numeral does not depend on
what follows, if that does not go on with the numeral (`Ends`).

Strings are read by fuel, one unit for each character or escape. An escape takes at least as many
characters as it stands for, so that the length of the text is fuel enough (`length_le_escaped`).
The reading itself is an induction on the characters of the string with the text read so far as
accumulator; its step has three cases, for the characters with a letter of their own, for the other
control characters and for all the rest (`escapeChar_letter`, `escapeChar_plain`).

A numeral has no closing mark, so the reader stops where something follows that cannot be part of
one. Printed JSON puts a comma, a bracket or a blank there. Each part of a numeral, from its last
to its first, is shown to be read alike with such a rest behind it (the lemmas with `_append`),
and at the end for the whole.

Main statements: `string?_escaped`, `numeral?_toDigits` and `numeral?_append`.
-/

namespace Conform.Json

/-! ### Strings -/

/-- Four hexadecimal digits are read to be the number they were written for. -/
theorem hexFour?_text {n : Nat} (h : n < 32) (rest : List Char) :
    hexFour? ((hexFourText n).toList ++ rest) = some (n, rest) := by
  interval_cases n <;> rfl

/-- Characters that are written as a backslash and a letter, with the letter. -/
def letters : List (Char × Char) :=
  [('"', '"'), ('\\', '\\'), ('\x08', 'b'), ('\x0c', 'f'), ('\n', 'n'), ('\r', 'r'), ('\t', 't')]

/-- The characters with a letter of their own are escaped by it, and the letter stands for them. -/
theorem escapeChar_letter : ∀ entry ∈ letters,
    (escapeChar entry.1).toList = ['\\', entry.2] ∧ entry.2 ≠ 'u' ∧
    simpleEscape? entry.2 = some entry.1 := by
  decide

/-- Any other character is written by its number if it is a control
character, and else as itself. -/
theorem escapeChar_plain {c : Char} (h : c ∉ letters.map Prod.fst) :
    escapeChar c = if c.toNat < 0x20 then "\\u" ++ hexFourText c.toNat else c.toString := by
  simp only [letters, List.map_cons, List.map_nil, List.mem_cons, List.not_mem_nil,
    or_false, not_or] at h
  obtain ⟨hquote, hslash, hback, hfeed, hnewline, hreturn, htab⟩ := h
  exact escapeChar.eq_8 c hquote hslash hback hfeed hnewline hreturn htab

/-- A character that is not escaped stands for itself. -/
theorem stringBody?_plain {c : Char} (hquote : c ≠ '"') (hslash : c ≠ '\\')
    (hcontrol : ¬c.toNat < 0x20) (fuel : Nat) (acc : Option (List Char)) (rest : List Char) :
    stringBody? (fuel + 1) acc (c :: rest) = stringBody? fuel (acc.map (c :: ·)) rest := by
  have hnone : ¬(c.toNat < 0x20 ∨ c = '\\') := fun h => h.elim hcontrol hslash
  rw [stringBody?.eq_4 acc fuel c rest hquote (fun _ h => absurd h hslash)
    (fun _ _ h => absurd h hslash), if_neg hnone]

/-- Every character is read as it was written. -/
theorem stringBody?_escapeChar (c : Char) (fuel : Nat) (acc : Option (List Char))
    (rest : List Char) :
    stringBody? (fuel + 1) acc ((escapeChar c).toList ++ rest) =
      stringBody? fuel (acc.map (c :: ·)) rest := by
  by_cases hletter : c ∈ letters.map Prod.fst
  · obtain ⟨⟨c, letter⟩, hentry, rfl⟩ := List.mem_map.mp hletter
    obtain ⟨htext, hplain, hread⟩ := escapeChar_letter _ hentry
    rw [htext]
    show stringBody? (fuel + 1) acc ('\\' :: letter :: rest) = _
    rw [stringBody?.eq_3 acc fuel letter rest hplain, hread]
    rfl
  · rw [escapeChar_plain hletter]
    by_cases hcontrol : c.toNat < 0x20
    · have hhigh : ¬(0xD800 ≤ c.toNat ∧ c.toNat ≤ 0xDBFF) := by omega
      have hlow : ¬(0xDC00 ≤ c.toNat ∧ c.toNat ≤ 0xDFFF) := by omega
      rw [if_pos hcontrol, String.toList_append]
      show stringBody? (fuel + 1) acc ('\\' :: 'u' :: ((hexFourText c.toNat).toList ++ rest)) = _
      rw [stringBody?.eq_2, hexFour?_text hcontrol]
      dsimp only [Option.bind_eq_bind, Option.bind_some]
      rw [if_neg hhigh, if_neg hlow, Char.ofNat_toNat]
    · have hquote : c ≠ '"' := fun heq => hletter (heq ▸ by decide)
      have hslash : c ≠ '\\' := fun heq => hletter (heq ▸ by decide)
      have htext : c.toString.toList = [c] := String.toList_singleton c
      rw [if_neg hcontrol, htext]
      exact stringBody?_plain hquote hslash hcontrol fuel acc rest

/-- The characters of a written string. -/
def escaped (s : String) : List Char := s.toList.flatMap fun c => (escapeChar c).toList

/-- A string is written escaped, between quotes. -/
theorem toList_stringText (s : String) : (stringText s).toList = '"' :: (escaped s ++ ['"']) := by
  unfold stringText escaped
  rw [String.toList_append, String.toList_append, String.toList_join, List.flatMap_map]
  rfl

/-- What is written of a string is read to its end, behind what was read before. -/
theorem stringBody?_escaped (cs : List Char) {fuel : Nat} (hfuel : cs.length < fuel)
    (acc rest : List Char) :
    stringBody? fuel (some acc) (cs.flatMap (fun c => (escapeChar c).toList) ++ '"' :: rest) =
      some (some (cs.reverse ++ acc), rest) := by
  induction cs generalizing fuel acc with
  | nil =>
    obtain ⟨k, rfl⟩ : ∃ k, fuel = k + 1 := ⟨fuel - 1, by omega⟩
    rfl
  | cons c cs ih =>
    obtain ⟨k, rfl⟩ : ∃ k, fuel = k + 1 := ⟨fuel - 1, by omega⟩
    rw [List.flatMap_cons, List.append_assoc, stringBody?_escapeChar, Option.map_some,
      ih (Nat.lt_of_succ_lt_succ hfuel), List.reverse_cons, List.append_assoc]
    rfl

/-- Escaping leaves nothing out. -/
theorem length_escapeChar (c : Char) : 0 < (escapeChar c).toList.length := by
  by_cases hletter : c ∈ letters.map Prod.fst
  · obtain ⟨entry, hentry, rfl⟩ := List.mem_map.mp hletter
    rw [(escapeChar_letter entry hentry).1]
    exact Nat.succ_pos _
  · rw [escapeChar_plain hletter]
    split
    next =>
      rw [String.toList_append, List.length_append]
      exact Nat.add_pos_left (Nat.succ_pos 1) _
    next =>
      rw [show c.toString.toList = [c] from String.toList_singleton c]
      exact Nat.succ_pos 0

/-- Escaping does not shorten a string. -/
theorem length_le_escaped (cs : List Char) :
    cs.length ≤ (cs.flatMap fun c => (escapeChar c).toList).length := by
  induction cs with
  | nil => exact Nat.le_refl _
  | cons c cs ih =>
    have hpos := length_escapeChar c
    rw [List.flatMap_cons, List.length_append, List.length_cons]
    omega

/-- A string is read as it was written. -/
theorem string?_escaped (s : String) (rest : List Char) :
    string? (escaped s ++ '"' :: rest) = some (some s, rest) := by
  have hfuel : s.toList.length < (escaped s ++ '"' :: rest).length + 1 := by
    have hlong : s.toList.length ≤ (escaped s).length := length_le_escaped s.toList
    rw [List.length_append]
    omega
  have hbody := stringBody?_escaped s.toList hfuel [] rest
  unfold string?
  rw [show stringBody? _ (some []) (escaped s ++ '"' :: rest) = _ from hbody]
  simp only [Option.map_some, List.append_nil, List.reverse_reverse, String.ofList_toList]

/-! ### Numerals -/

/-- No numeral goes on here. -/
def Ends (rest : List Char) : Prop :=
    ∀ c ∈ rest.head?, c.isDigit = false ∧ c ≠ '.' ∧ c ≠ 'e' ∧ c ≠ 'E'

/-- A numeral ends where the text ends. -/
theorem Ends.nil : Ends [] := fun _ h => nomatch h

/-- A numeral ends before a character that is no part of numerals. -/
theorem Ends.cons {c : Char} (h : c.isDigit = false ∧ c ≠ '.' ∧ c ≠ 'e' ∧ c ≠ 'E')
    (rest : List Char) : Ends (c :: rest) := by
  intro d hd
  obtain rfl := Option.some.inj hd
  exact h

/-- The digits of an exponent after its sign. -/
def unsigned? (negative : Bool) (cs : List Char) : Option (Bool × Nat × List Char) :=
  match digits cs with
  | ([], _) => none
  | (ds, rest) => some (negative, ds.foldl (fun acc d => acc * 10 + d) 0, rest)

/-- An exponent without a sign is read as it stands. -/
theorem exponent?_plain {c : Char} (hminus : c ≠ '-') (hplus : c ≠ '+') (cs : List Char) :
    exponent? (c :: cs) = unsigned? false (c :: cs) :=
  exponent?.eq_3 (c :: cs) (fun _ h => hminus (List.cons.inj h).1) fun _ h =>
    hplus (List.cons.inj h).1

/-- What a numeral without exponent is worth. -/
def ended (negative : Bool) (s : Significand) (fractional : Bool) : Source :=
  orUnreadable (if fractional then float? negative s.digits s.exponent else whole? negative s)

/-- A numeral may end where the text ends. -/
theorem numeralEnd?_nil (negative : Bool) (s : Significand) (fractional : Bool) :
    numeralEnd? negative s fractional [] = some (ended negative s fractional, []) := by
  cases fractional <;> rfl

/-- A numeral goes on with an exponent. -/
theorem numeralEnd?_exponent {c : Char} (h : c = 'e' ∨ c = 'E') (negative : Bool) (s : Significand)
    (fractional : Bool) (rest : List Char) :
    numeralEnd? negative s fractional (c :: rest) =
      (exponent? rest).map fun (signed, exponent, rest) =>
      (orUnreadable (withExponent? negative s signed exponent), rest) := by
  unfold numeralEnd?
  dsimp only
  rw [if_pos h]
  cases exponent? rest <;> rfl

/-- A numeral ends where no exponent follows. -/
theorem numeralEnd?_plain {c : Char} (h : ¬(c = 'e' ∨ c = 'E')) (negative : Bool) (s : Significand)
    (fractional : Bool) (rest : List Char) :
    numeralEnd? negative s fractional (c :: rest) =
      some (ended negative s fractional, c :: rest) := by
  unfold numeralEnd?
  dsimp only
  rw [if_neg h]
  cases fractional <;> rfl

/-- What follows the whole digits of a numeral: its fraction, if it has one, and its end. -/
def tail? (negative : Bool) (s : Significand) (cs : List Char) : Option (Source × List Char) :=
  match cs with
  | '.' :: rest =>
    match digits rest with
    | ([], _) => none
    | (fraction, rest) =>
      numeralEnd? negative
        (fraction.foldl Significand.pushFraction { s with full := false }) true rest
  | _ => numeralEnd? negative s false cs

/-- Whole digits: at least one, and a leading zero stands alone. -/
def begins : List Nat → Bool
  | [] => false
  | 0 :: _ :: _ => false
  | _ => true

/-- A numeral begins with digits that begin one, and goes on from there. -/
theorem numeral?_eq (negative : Bool) (cs : List Char) :
    numeral? negative cs =
      if begins (digits cs).1 then tail? negative
        ((digits cs).1.foldl Significand.pushWhole .empty) (digits cs).2
      else none := by
  unfold numeral?
  generalize digits cs = found
  obtain ⟨whole, rest⟩ := found
  match whole with
  | [] => rfl
  | 0 :: _ :: _ => rfl
  | [d] => cases d <;> rfl
  | (_ + 1) :: _ :: _ => rfl

section Rest

variable {rest : List Char} (hrest : Ends rest)
include hrest

/-- What follows a numeral adds no digit. -/
theorem digits_append (cs : List Char) :
    digits (cs ++ rest) = ((digits cs).1, (digits cs).2 ++ rest) := by
  have hnone : rest.takeWhile Char.isDigit = [] := by
    cases rest with
    | nil => rfl
    | cons c rest => exact List.takeWhile_cons_of_neg (by simp [(hrest c rfl).1])
  have htake : (cs ++ rest).takeWhile Char.isDigit = cs.takeWhile Char.isDigit := by
    rw [List.takeWhile_append]
    split
    next hall =>
      rw [hnone, List.append_nil]
      exact ((List.takeWhile_prefix _).eq_of_length hall).symm
    next => rfl
  have hlength : (cs.takeWhile Char.isDigit).length ≤ cs.length :=
    (List.takeWhile_sublist _).length_le
  unfold digits
  dsimp only
  rw [htake, List.drop_append_of_le_length hlength]

/-- The digits of an exponent are read alike before what ends a numeral. -/
theorem unsigned?_append {cs left : List Char} {signed negative : Bool} {exponent : Nat}
    (h : unsigned? signed cs = some (negative, exponent, left)) :
    unsigned? signed (cs ++ rest) = some (negative, exponent, left ++ rest) := by
  unfold unsigned? at h ⊢
  rw [digits_append hrest]
  cases hdigits : digits cs with
  | mk found remaining =>
    rw [hdigits] at h
    cases found with
    | nil => exact nomatch h
    | cons d ds =>
      obtain ⟨rfl, hvalue⟩ := Prod.mk.inj (Option.some.inj h)
      obtain ⟨rfl, rfl⟩ := Prod.mk.inj hvalue
      rfl

/-- An exponent is read alike before what ends a numeral. -/
theorem exponent?_append {cs left : List Char} {negative : Bool} {exponent : Nat}
    (h : exponent? cs = some (negative, exponent, left)) :
    exponent? (cs ++ rest) = some (negative, exponent, left ++ rest) := by
  cases cs with
  | nil => exact nomatch h
  | cons c cs =>
    by_cases hminus : c = '-'
    · subst hminus
      exact @unsigned?_append rest hrest cs left true negative exponent h
    by_cases hplus : c = '+'
    · subst hplus
      exact @unsigned?_append rest hrest cs left false negative exponent h
    rw [exponent?_plain hminus hplus] at h
    rw [List.cons_append, exponent?_plain hminus hplus]
    exact unsigned?_append hrest h

/-- The end of a numeral is read alike before what ends a numeral. -/
theorem numeralEnd?_append {cs left : List Char} {negative fractional : Bool}
    {s : Significand} {source : Source}
    (h : numeralEnd? negative s fractional cs = some (source, left)) :
    numeralEnd? negative s fractional (cs ++ rest) = some (source, left ++ rest) := by
  cases cs with
  | nil =>
    rw [numeralEnd?_nil] at h
    obtain ⟨rfl, rfl⟩ := Prod.mk.inj (Option.some.inj h)
    cases rest with
    | nil => exact numeralEnd?_nil negative s fractional
    | cons c rest =>
      obtain ⟨-, -, he, hE⟩ := hrest c rfl
      exact numeralEnd?_plain (fun h => h.elim he hE) negative s fractional rest
  | cons c cs =>
    by_cases he : c = 'e' ∨ c = 'E'
    · rw [numeralEnd?_exponent he] at h
      obtain ⟨⟨signed, exponent, remaining⟩, hexponent, h⟩ := Option.map_eq_some_iff.mp h
      obtain ⟨rfl, rfl⟩ := Prod.mk.inj h
      rw [List.cons_append, numeralEnd?_exponent he, exponent?_append hrest hexponent]
      rfl
    · rw [numeralEnd?_plain he] at h
      obtain ⟨rfl, rfl⟩ := Prod.mk.inj (Option.some.inj h)
      exact numeralEnd?_plain he negative s fractional (cs ++ rest)

/-- What follows the whole part is read alike before what ends a numeral. -/
theorem tail?_append {cs left : List Char} {negative : Bool} {s : Significand} {source : Source}
    (h : tail? negative s cs = some (source, left)) :
    tail? negative s (cs ++ rest) = some (source, left ++ rest) := by
  have hplain {ds : List Char} (hpoint : ∀ ds', ds ≠ '.' :: ds') :
      tail? negative s ds = numeralEnd? negative s false ds :=
    tail?.eq_2 negative s ds hpoint
  cases cs with
  -- what follows must not bring a point of its own
  | nil =>
    have hpoint : ∀ ds, rest ≠ '.' :: ds := by
      rintro ds rfl
      exact (hrest '.' rfl).2.1 rfl
    rw [List.nil_append, hplain hpoint]
    have h : numeralEnd? negative s false [] = some (source, left) := h
    exact numeralEnd?_append hrest h
  | cons c cs =>
    -- the point is in the text, so the digits after it end where they did
    by_cases hpoint : c = '.'
    · subst hpoint
      rw [tail?.eq_1] at h
      rw [List.cons_append, tail?.eq_1, digits_append hrest]
      cases hdigits : digits cs with
      | mk fraction remaining =>
        rw [hdigits] at h
        cases fraction with
        | nil => exact nomatch h
        | cons d ds => exact numeralEnd?_append hrest h
    · have hneg (ds : List Char) : ∀ ds', c :: ds ≠ '.' :: ds' :=
        fun _ heq => hpoint (List.cons.inj heq).1
      rw [hplain (hneg cs)] at h
      rw [List.cons_append, hplain (hneg _)]
      exact numeralEnd?_append hrest h

/-- What is read of a numeral does not depend on what follows. -/
theorem numeral?_append {cs left : List Char} {negative : Bool} {source : Source}
    (h : numeral? negative cs = some (source, left)) :
    numeral? negative (cs ++ rest) = some (source, left ++ rest) := by
  rw [numeral?_eq] at h ⊢
  rw [digits_append hrest]
  dsimp only
  by_cases hbegins : begins (digits cs).1
  · rw [if_pos hbegins] at h ⊢
    exact tail?_append hrest h
  · rw [if_neg hbegins] at h
    exact nomatch h

end Rest

/-- Digits that fit 64 bits are all taken. -/
theorem foldl_pushWhole (ds : List Nat) (h : ds.foldl (fun acc d => 10 * acc + d) 0 < 2 ^ 64) :
    ds.foldl Significand.pushWhole .empty = ⟨ds.foldl (fun acc d => 10 * acc + d) 0, 0, false⟩ := by
  induction ds using List.reverseRecOn with
  | nil => rfl
  | append_singleton ds d ih =>
    rw [List.foldl_append, List.foldl_cons, List.foldl_nil] at h
    rw [List.foldl_append, List.foldl_append, ih (by omega)]
    generalize ds.foldl (fun acc d => 10 * acc + d) 0 = value at h ⊢
    show Significand.pushWhole ⟨value, 0, false⟩ d = ⟨10 * value + d, 0, false⟩
    have hfits : ¬(false = true ∨ Nat.pow 2 64 ≤ value * 10 + d) := by
      show ¬(false = true ∨ 2 ^ 64 ≤ value * 10 + d)
      simp only [Bool.false_eq_true, false_or]
      omega
    unfold Significand.pushWhole
    rw [if_neg hfits, Nat.mul_comm value 10]

/-- The digits of a natural number begin with a zero only if there is no other. -/
theorem begins_toDigits (n : Nat) : begins ((Nat.toDigits 10 n).map digitValue) = true := by
  have hbegins (n : Nat) (hpos : 0 < n) : ∃ d ds,
      (Nat.toDigits 10 n).map digitValue = (d + 1) :: ds := by
    induction n using Nat.strongRecOn with
    | ind n ih =>
      rw [Nat.toDigits_eq_if (by decide)]
      by_cases hsmall : n < 10
      · rw [if_pos hsmall]
        interval_cases n <;> exact ⟨_, _, rfl⟩
      · obtain ⟨d, ds, hds⟩ := ih (n / 10) (by omega) (by omega)
        rw [if_neg hsmall, List.map_append, hds]
        exact ⟨d, _, rfl⟩
  by_cases hzero : n = 0
  · rw [hzero]
    rfl
  · obtain ⟨d, ds, hds⟩ := hbegins n (by omega)
    rw [hds]
    cases ds <;> rfl

/-- The digits of a number are its decimal digits. -/
theorem digits_toDigits (n : Nat) :
    digits (Nat.toDigits 10 n) = ((Nat.toDigits 10 n).map digitValue, []) := by
  have hall : (Nat.toDigits 10 n).takeWhile Char.isDigit = Nat.toDigits 10 n := by
    rw [List.takeWhile_eq_self_iff]
    exact fun c hc => Nat.isDigit_of_mem_toDigits (by decide) (by decide) hc
  unfold digits
  dsimp only
  rw [hall, List.drop_length]

/-- The digits of a natural number are read to be it. -/
theorem numeral?_toDigits (negative : Bool) {n : Nat} (h : n < 2 ^ 64) :
    numeral? negative (Nat.toDigits 10 n) =
      some (orUnreadable (whole? negative ⟨n, 0, false⟩), []) := by
  have hvalue : ((Nat.toDigits 10 n).map digitValue).foldl (fun acc d => 10 * acc + d) 0 = n := by
    rw [List.foldl_map]
    exact Nat.ofDigitChars_ten_toDigits
  rw [numeral?_eq, digits_toDigits]
  dsimp only
  rw [if_pos (begins_toDigits n), foldl_pushWhole _ (hvalue.symm ▸ h), hvalue]
  exact numeralEnd?_nil negative ⟨n, 0, false⟩ false

end Conform.Json
