import Mathlib.Data.List.Basic
import Mathlib.Data.List.Nodup
import Conform.Proofs.Decimals
import Conform.Value.Basic

/-!
# Texts in set keys

A key is a text of a whole value, the keys of what is inside put between brackets and commas. So a
text is told from what may follow it (`Follows`) if it holds no comma and does not end in a closing
bracket (`Unmistakable.append_inj`). That is so of the texts of numbers and bytes, and these tell
their numbers and bytes apart (`Number.same_of_key`, `Bytes.toHex_inj`). Names are put in quotes,
and a name in quotes is told from anything that may follow (`Text.quoted_append_inj`).

The key of a number has one of four shapes (`Number.KeyOf`): one for what is no number, one for both
zeros, two for the infinities, and for all else the decimal text with the sign. What the key says is
read off shape by shape (`isNaN_of_key`, `isZero_of_key`, `isInfinite_of_key`); the finite numbers
are left, and they are one if their texts are, since a text says how large its number is.

Of quoted names the one thing to know is that a quote inside the name is never written as a quote by
itself. Each character is quoted as a piece that its first characters tell from all the others
(`Text.Quotes`), so that two quoted names agree piece by piece up to the closing quote.
-/

namespace Conform

/-! ### Texts that say what they are -/

/-- A bracket that closes an array or an object. -/
def closes (c : Char) : Bool := c == ']' || c == '\x7d'

/-- What may follow a key inside a value: brackets that close, and then a comma or nothing. -/
inductive Follows : List Char → Prop
  | nil : Follows []
  | comma (rest : List Char) : Follows (',' :: rest)
  | close {c : Char} {rest : List Char} (h : closes c = true) (hrest : Follows rest) :
      Follows (c :: rest)

/-- No comma, and no closing bracket at the end. -/
structure Unmistakable (cs : List Char) : Prop where
  comma : ',' ∉ cs
  last : ∀ c ∈ cs.getLast?, closes c = false

/-- That no character separates or closes can be tested. -/
theorem plain_of_all {cs : List Char} (h : cs.all (fun c => c != ',' && !closes c) = true) :
    ∀ c ∈ cs, c ≠ ',' ∧ closes c = false := by
  intro c hc
  have hplain := List.all_eq_true.mp h c hc
  rwa [Bool.and_eq_true, bne_iff_ne, Bool.not_eq_true'] at hplain

namespace Unmistakable

/-- A text in which no character separates or closes is told from what follows. -/
theorem of_chars {cs : List Char} (h : ∀ c ∈ cs, c ≠ ',' ∧ closes c = false) : Unmistakable cs :=
  ⟨fun hin => (h ',' hin).1 rfl, fun c hc => (h c (List.mem_of_getLast? hc)).2⟩

/-- What may follow, if it begins without a comma, begins with closing brackets. -/
theorem closes_of_follows {cs rest : List Char} (h : Follows (cs ++ rest)) (hcomma : ',' ∉ cs) :
    ∀ c ∈ cs, closes c = true := by
  induction cs with
  | nil => exact List.forall_mem_nil _
  | cons c cs ih =>
    rw [List.cons_append] at h
    cases h with
    | comma => exact absurd (List.mem_cons_self ..) hcomma
    | close hc hrest =>
      exact List.forall_mem_cons.mpr ⟨hc, ih hrest fun hin => hcomma (List.mem_cons_of_mem _ hin)⟩

/-- Such a text is told from what follows. -/
theorem append_inj {a b t t' : List Char} (ha : Unmistakable a)
    (hb : Unmistakable b) (ht : Follows t)
    (ht' : Follows t') (h : a ++ t = b ++ t') : a = b ∧ t = t' := by
  have hlonger : ∀ {a b t t' : List Char}, Unmistakable b → Follows t →
      ∀ c : List Char, b = a ++ c → t = c ++ t' → c = [] := by
    intro a b t t' hb ht c hbc htc
    by_contra hne
    have hcomma : ',' ∉ c := fun hin => hb.comma (hbc ▸ List.mem_append_right _ hin)
    have hcloses := closes_of_follows (htc ▸ ht) hcomma
    have hlast : b.getLast? = some (c.getLast hne) := by
      rw [hbc, List.getLast?_append_of_ne_nil _ hne, List.getLast?_eq_getLast_of_ne_nil hne]
    have hopen := hb.last _ hlast
    rw [hcloses _ (List.getLast_mem hne)] at hopen
    exact absurd hopen (by decide)
  rcases List.append_eq_append_iff.mp h with ⟨c, hbc, htc⟩ | ⟨c, hac, htc⟩
  · obtain rfl := hlonger hb ht c hbc htc
    rw [List.append_nil] at hbc
    exact ⟨hbc.symm, htc⟩
  · obtain rfl := hlonger ha ht' c hac htc
    rw [List.append_nil] at hac
    exact ⟨hac, htc.symm⟩

end Unmistakable

/-! ### Numbers, bytes and names -/

/-- Hexadecimal digits are told apart. -/
theorem digitChar_inj {a b : Nat} (ha : a < 16) (hb : b < 16)
    (h : a.digitChar = b.digitChar) : a = b := by
  have hall : ∀ a : Fin 16, ∀ b : Fin 16, a.val.digitChar = b.val.digitChar → a = b := by decide
  exact congrArg Fin.val (hall ⟨a, ha⟩ ⟨b, hb⟩ h)

/-- Hexadecimal texts tell numbers apart. -/
theorem toDigits_inj {n m : Nat} (h : Nat.toDigits 16 n = Nat.toDigits 16 m) : n = m := by
  have hrest (k : Nat) (hk : 16 ≤ k) : Nat.toDigits 16 k =
      Nat.toDigits 16 (k / 16) ++ [(k % 16).digitChar] :=
    Nat.toDigits_of_base_le (by decide) hk
  have hone (k : Nat) (hk : k < 16) : Nat.toDigits 16 k = [k.digitChar] :=
    Nat.toDigits_of_lt_base hk
  -- a single digit is shorter than what has several
  have hlonger (k l : Nat) (hk : k < 16) (hl : 16 ≤ l)
      (h : Nat.toDigits 16 k = Nat.toDigits 16 l) : False := by
    rw [hone k hk, hrest l hl] at h
    have hlength := congrArg List.length h
    rw [List.length_append, List.length_singleton, List.length_singleton] at hlength
    have hpos : 0 < (Nat.toDigits 16 (l / 16)).length := Nat.length_toDigits_pos
    omega
  induction n using Nat.strongRecOn generalizing m with
  | ind n ih =>
    by_cases hn : n < 16
    · by_cases hm : m < 16
      · rw [hone n hn, hone m hm] at h
        exact digitChar_inj hn hm (List.cons.inj h).1
      · exact (hlonger n m hn (by omega) h).elim
    · by_cases hm : m < 16
      · exact (hlonger m n hm (by omega) h.symm).elim
      · -- the last digit is the remainder, and what stands before it the quotient
        rw [hrest n (by omega), hrest m (by omega)] at h
        obtain ⟨hquotient, hdigit⟩ := List.append_inj' h rfl
        have hdiv := ih (n / 16) (by omega) hquotient
        have hmod := digitChar_inj (by omega) (by omega) (List.cons.inj hdigit).1
        omega

/-- A hexadecimal digit is no sign of punctuation. -/
theorem digitChar_plain {n : Nat} (h : n < 16) :
    n.digitChar ≠ ',' ∧ closes n.digitChar = false := by
  have hall : ∀ n : Fin 16, n.val.digitChar ≠ ',' ∧ closes n.val.digitChar = false := by decide
  exact hall ⟨n, h⟩

/-- The characters of a number in hexadecimal are digits. -/
theorem mem_toDigits {n : Nat} {c : Char} (h : c ∈ Nat.toDigits 16 n) :
    ∃ k, k < 16 ∧ c = k.digitChar := by
  induction n using Nat.strongRecOn with
  | ind n ih =>
    by_cases hn : n < 16
    · rw [Nat.toDigits_of_lt_base hn] at h
      exact ⟨n, hn, List.mem_singleton.mp h⟩
    · rw [Nat.toDigits_of_base_le (by decide) (by omega)] at h
      rcases List.mem_append.mp h with h | h
      · exact ih (n / 16) (by omega) h
      · exact ⟨n % 16, by omega, List.mem_singleton.mp h⟩

namespace Bytes

/-- Pairs of digits tell their bytes apart, one after another. -/
theorem flatMap_hexPair_inj {as bs : List UInt8}
    (h : as.flatMap hexPair = bs.flatMap hexPair) : as = bs := by
  induction as generalizing bs with
  | nil =>
    cases bs with
    | nil => rfl
    | cons b bs => exact nomatch h
  | cons a as ih =>
    cases bs with
    | nil => exact nomatch h
    | cons b bs =>
      obtain ⟨hhigh, h⟩ := List.cons.inj h
      obtain ⟨hlow, h⟩ := List.cons.inj h
      have ha := a.toNat_lt
      have hb := b.toNat_lt
      have hdiv := digitChar_inj (by omega) (by omega) hhigh
      have hmod := digitChar_inj (by omega) (by omega) hlow
      have hbyte : a = b := UInt8.toNat_inj.mp (by omega)
      rw [hbyte, ih h]

/-- Bytes in hexadecimal are told apart. -/
theorem toHex_inj {as bs : List UInt8} (h : toHex as = toHex bs) : as = bs := by
  have hdigits := congrArg String.toList h
  unfold toHex at hdigits
  rw [String.toList_ofList, String.toList_ofList] at hdigits
  exact flatMap_hexPair_inj hdigits

/-- Bytes in hexadecimal hold nothing that separates or closes. -/
theorem toHex_plain (bytes : List UInt8) :
    ∀ c ∈ (toHex bytes).toList, c ≠ ',' ∧ closes c = false := by
  intro c hc
  unfold toHex at hc
  rw [String.toList_ofList] at hc
  obtain ⟨byte, -, hpair⟩ := List.mem_flatMap.mp hc
  have hlt := byte.toNat_lt
  rcases List.mem_cons.mp hpair with rfl | hpair
  · exact digitChar_plain (by omega)
  · rw [List.mem_singleton.mp hpair]
    exact digitChar_plain (by omega)

end Bytes

/-! ### Numbers -/

/-- Digits, points and signs neither separate nor close. -/
theorem isDigit_plain {c : Char} (h : c.isDigit = true ∨ c = '.' ∨ c = '-') :
    c ≠ ',' ∧ closes c = false := by
  rcases h with h | rfl | rfl
  · constructor
    · rintro rfl
      exact absurd h (by decide)
    · by_contra hcloses
      rw [Bool.not_eq_false, closes, Bool.or_eq_true, beq_iff_eq, beq_iff_eq] at hcloses
      rcases hcloses with rfl | rfl <;> exact absurd h (by decide)
  · decide
  · decide

/-- Decimal digits tell numbers apart. -/
theorem repr_inj {n m : Nat} (h : n.repr = m.repr) : n = m := by
  calc
    n = Nat.ofDigitChars 10 n.repr.toList 0 := by
      rw [Nat.toList_repr, Nat.ofDigitChars_ten_toDigits]
    _ = Nat.ofDigitChars 10 m.repr.toList 0 := by rw [h]
    _ = m := by rw [Nat.toList_repr, Nat.ofDigitChars_ten_toDigits]

/-- A number is written in decimal digits. -/
theorem isDigit_repr {n : Nat} {c : Char} (h : c ∈ n.repr.toList) : c.isDigit = true := by
  rw [Nat.toList_repr] at h
  exact Nat.isDigit_of_mem_toDigits (by decide) (by decide) h

/-- Decimal texts tell integers apart. -/
theorem toString_int_inj {i j : Int} (h : toString i = toString j) : i = j := by
  have hsign (n m : Nat) (h : n.repr = "-" ++ (m + 1).repr) : False := by
    have h := congrArg String.toList h
    rw [String.toList_append] at h
    have hfirst : '-' ∈ n.repr.toList := h ▸ List.mem_append_left _ (List.mem_singleton_self _)
    exact absurd (isDigit_repr hfirst) (by decide)
  cases i with
  | ofNat n =>
    cases j with
    | ofNat m => exact congrArg Int.ofNat (repr_inj h)
    | negSucc m => exact (hsign n m h).elim
  | negSucc n =>
    cases j with
    | ofNat m => exact (hsign m n h.symm).elim
    | negSucc m =>
      have h : "-" ++ (n + 1).repr = "-" ++ (m + 1).repr := h
      have hsame : n + 1 = m + 1 := repr_inj ((String.append_right_inj "-").mp h)
      exact congrArg Int.negSucc (by omega)

/-- An integer is written without anything that separates or closes. -/
theorem toString_int_plain (i : Int) : ∀ c ∈ (toString i).toList, c ≠ ',' ∧ closes c = false := by
  intro c hc
  cases i with
  | ofNat n => exact isDigit_plain (.inl (isDigit_repr hc))
  | negSucc n =>
    have hc : c ∈ ("-" ++ (n + 1).repr).toList := hc
    rw [String.toList_append] at hc
    rcases List.mem_append.mp hc with hc | hc
    · exact isDigit_plain (.inr (.inr (List.mem_singleton.mp hc)))
    · exact isDigit_plain (.inl (isDigit_repr hc))

namespace Number

/-- What a number's key is. -/
inductive KeyOf (n : Number) : Prop
  | nan (h : n.isNaN = true) (hkey : Value.numberKey n = "NaN")
  | zero (h : n.isNaN = false) (hzero : n.isZero = true) (hkey : Value.numberKey n = "0")
  | infinite (h : n.isInfinite = true)
      (hkey : Value.numberKey n = if n.isNegative then "-inf" else "inf")
  | finite (h : n.isFinite = true) (hzero : n.isZero = false)
      (hkey : Value.numberKey n = n.plainText)

/-- Every number has a key of one of four shapes. -/
theorem keyOf (n : Number) : n.KeyOf := by
  cases hnan : n.isNaN with
  | true =>
    -- not a number
    refine .nan hnan ?_
    unfold Value.numberKey
    rw [if_pos hnan]
  | false =>
    have hnot : ¬infinityMagnitude < n.magnitude := of_decide_eq_false hnan
    cases hzero : n.isZero with
    | true =>
      -- either zero
      refine .zero hnan hzero ?_
      unfold Value.numberKey
      rw [hnan, hzero]
      rfl
    | false =>
      have hkey : Value.numberKey n = n.plainText := by
        unfold Value.numberKey
        rw [hnan, hzero]
        rfl
      by_cases hlt : n.magnitude < infinityMagnitude
      · -- digits, or a name for what is beyond them
        exact .finite (decide_eq_true hlt) hzero hkey
      · have hinfinite : n.isInfinite = true := decide_eq_true (by omega)
        refine .infinite hinfinite (hkey.trans ?_)
        unfold plainText
        rw [hnan, hinfinite]
        rfl

/-- A finite number's key is a sign and digits that are not worth zero. -/
theorem finite_key {n : Number} (h : n.isFinite = true) (hzero : n.isZero = false) :
    (∀ c ∈ n.plainText.toList, c.isDigit = true ∨ c = '.' ∨ c = '-') ∧ n.plainText ≠ "0" := by
  obtain ⟨d, places, text, htext, hplain, hrounds⟩ := plainText_finite h hzero
  rw [htext, String.toList_append]
  constructor
  · -- a sign can only stand in front
    intro c hc
    rcases List.mem_append.mp hc with hc | hc
    · cases hneg : n.isNegative with
      | true =>
        rw [hneg] at hc
        exact .inr (.inr (List.mem_singleton.mp hc))
      | false =>
        rw [hneg] at hc
        exact absurd hc List.not_mem_nil
    · exact (hplain.chars.1 c hc).imp_right .inl
  · -- what rounds to no zero is worth more than nothing
    intro hone
    have hlist := congrArg String.toList hone
    rw [String.toList_append] at hlist
    cases hneg : n.isNegative with
    | true =>
      rw [hneg] at hlist
      exact absurd (List.cons.inj hlist).1 (by decide)
    | false =>
      rw [hneg] at hlist
      have hlist : text.toList = ['0'] := hlist
      have hpos := hrounds.pos
      rw [hlist] at hpos
      have hworth : textValue ['0'] = 0 := by
        have hdigits : Nat.ofDigitChars 10 (['0'].filter (· != '.')) 0 = 0 := by decide
        unfold textValue
        rw [hdigits, Nat.cast_zero, zero_div]
      exact absurd hpos (hworth ▸ lt_irrefl _)

/-- A text with a character that is no part of a decimal is no finite number's key. -/
theorem plainText_ne {n : Number} (h : n.isFinite = true) (hzero : n.isZero = false)
    {text : String} {c : Char}
    (hc : c ∈ text.toList) (hplain : ¬(c.isDigit = true ∨ c = '.' ∨ c = '-')) :
    n.plainText ≠ text :=
  fun htext => hplain ((finite_key h hzero).1 c (htext ▸ hc))

/-- Only what is not a number has the key of it. -/
theorem isNaN_of_key {n : Number} (h : Value.numberKey n = "NaN") : n.isNaN = true := by
  cases n.keyOf with
  | nan hnan _ => exact hnan
  | zero _ _ hkey => exact absurd (hkey.symm.trans h) (by decide)
  | infinite _ hkey =>
    rw [hkey] at h
    cases hneg : n.isNegative <;> (rw [hneg] at h; exact absurd h (by decide))
  | finite hfinite hzero hkey =>
    exact absurd (hkey.symm.trans h) (plainText_ne (c := 'N') hfinite hzero (by decide) (by decide))

/-- Only the zeros have the key `0`. -/
theorem isZero_of_key {n : Number} (h : Value.numberKey n = "0") :
    n.isNaN = false ∧ n.isZero = true := by
  cases n.keyOf with
  | nan _ hkey => exact absurd (hkey.symm.trans h) (by decide)
  | zero hnan hzero _ => exact ⟨hnan, hzero⟩
  | infinite _ hkey =>
    rw [hkey] at h
    cases hneg : n.isNegative <;> (rw [hneg] at h; exact absurd h (by decide))
  | finite hfinite hzero hkey => exact absurd (hkey.symm.trans h) (finite_key hfinite hzero).2

/-- Only an infinite number has the key of one, and the key tells its sign. -/
theorem isInfinite_of_key {n : Number} {negative : Bool}
    (h : Value.numberKey n = if negative then "-inf" else "inf") :
    n.isInfinite = true ∧ n.isNegative = negative := by
  cases n.keyOf with
  | nan _ hkey =>
    rw [hkey] at h
    cases negative <;> exact absurd h (by decide)
  | zero _ _ hkey =>
    rw [hkey] at h
    cases negative <;> exact absurd h (by decide)
  | infinite hinfinite hkey =>
    rw [hkey] at h
    refine ⟨hinfinite, ?_⟩
    revert h
    cases n.isNegative <;> cases negative <;> decide
  | finite hfinite hzero hkey =>
    have hi : 'i' ∈ (if negative then "-inf" else "inf").toList := by
      cases negative <;> decide
    exact absurd (hkey.symm.trans h) (plainText_ne hfinite hzero hi (by decide))

/-- A finite number other than zero is the only one with its key. -/
theorem eq_of_key {n m : Number} (hfinite : n.isFinite = true) (hzero : n.isZero = false)
    (h : Value.numberKey m = n.plainText) : m = n := by
  cases m.keyOf with
  | nan _ hkey =>
    exact absurd (h.symm.trans hkey) (plainText_ne (c := 'N') hfinite hzero (by decide) (by decide))
  | zero _ _ hkey => exact absurd (h.symm.trans hkey) (finite_key hfinite hzero).2
  | infinite _ hkey =>
    have hi : 'i' ∈ (if m.isNegative then "-inf" else "inf").toList := by
      cases m.isNegative <;> decide
    exact absurd (h.symm.trans hkey) (plainText_ne hfinite hzero hi (by decide))
  | finite hfinite' hzero' hkey =>
    exact eq_of_plainText hfinite' hzero' hfinite hzero (hkey.symm.trans h)

/-- Numbers with one place in the order of numbers are the same. -/
theorem same_of_place {n m : Number} (hn : n.isNaN = false) (hm : m.isNaN = false)
    (hplace : n.place = m.place) : (Value.number n).same (.number m) = true := by
  rw [Value.same, Number.eq, hn, hm, hplace]
  simp

/-- Keys tell numbers apart, but for the zeros. -/
theorem same_of_key {n m : Number} (h : Value.numberKey n = Value.numberKey m) :
    (Value.number n).same (.number m) = true := by
  cases n.keyOf with
  | nan hn hkey =>
    have hm := isNaN_of_key (h.symm.trans hkey)
    rw [Value.same, hn, hm]
    rfl
  | zero hn hzero hkey =>
    obtain ⟨hm, hzero'⟩ := isZero_of_key (h.symm.trans hkey)
    -- both zeros have one place in the order of numbers
    have hplace {k : Number} (hk : k.isZero = true) : k.place = 0 := by
      have hmagnitude : k.magnitude = 0 := of_decide_eq_true hk
      unfold place
      rw [hmagnitude]
      split <;> rfl
    exact same_of_place hn hm ((hplace hzero).trans (hplace hzero').symm)
  | infinite hn hkey =>
    obtain ⟨hm, hsign⟩ := isInfinite_of_key (h.symm.trans hkey)
    have hnan {k : Number} (hk : k.isInfinite = true) : k.isNaN = false := by
      have heq : k.magnitude = infinityMagnitude := of_decide_eq_true hk
      exact decide_eq_false (by omega)
    have hn' : n.magnitude = infinityMagnitude := of_decide_eq_true hn
    have hm' : m.magnitude = infinityMagnitude := of_decide_eq_true hm
    refine same_of_place (hnan hn) (hnan hm) ?_
    unfold place
    rw [hsign, hn', hm']
  | finite hn hzero hkey =>
    obtain rfl := eq_of_key hn hzero (h.symm.trans hkey)
    have hlt : m.magnitude < infinityMagnitude := of_decide_eq_true hn
    have hnan : m.isNaN = false := decide_eq_false (by omega)
    exact same_of_place hnan hnan rfl

/-- The key of a number holds nothing that separates or closes. -/
theorem key_plain (n : Number) : ∀ c ∈ (Value.numberKey n).toList, c ≠ ',' ∧ closes c = false := by
  cases n.keyOf with
  | nan _ hkey =>
    rw [hkey]
    exact plain_of_all rfl
  | zero _ _ hkey =>
    rw [hkey]
    exact plain_of_all rfl
  | infinite _ hkey =>
    rw [hkey]
    cases n.isNegative <;> exact plain_of_all rfl
  | finite h hzero hkey =>
    rw [hkey]
    exact fun c hc => isDigit_plain ((finite_key h hzero).1 c hc)

end Number

/-! ### Names in quotes -/

namespace Text

/-- What a letter behind a backslash stands for. -/
def unescape (letter : Char) : Char :=
  match letter with
  | '0' => '\x00'
  | 't' => '\t'
  | 'r' => '\r'
  | 'n' => '\n'
  | letter => letter

/-- How a character stands in quotes: behind a backslash, by itself, or by its code point. -/
inductive Quotes (c : Char) : List Char → Prop
  | escape (letter : Char) (h : c = unescape letter) (hletter : letter ≠ 'u') :
  Quotes c ['\\', letter]
  | plain (hquote : c ≠ '"') (hslash : c ≠ '\\') : Quotes c [c]
  | code : Quotes c ('\\' :: 'u' :: '\x7b' :: (Nat.toDigits 16 c.toNat ++ ['\x7d']))

/-- What a character is quoted as stands for it. -/
theorem quotes_quoteChar (c : Char) : Quotes c (quoteChar c).toList := by
  unfold quoteChar
  split
  next => exact .escape '0' rfl (by decide)
  next => exact .escape 't' rfl (by decide)
  next => exact .escape 'r' rfl (by decide)
  next => exact .escape 'n' rfl (by decide)
  next => exact .escape '"' rfl (by decide)
  next => exact .escape '\\' rfl (by decide)
  next hquote hslash =>
    split
    next =>
      have hself : c.toString.toList = [c] := String.toList_singleton c
      rw [hself]
      exact .plain hquote hslash
    next =>
      have hcode : (hexText c.toNat).toList = Nat.toDigits 16 c.toNat := String.toList_ofList
      rw [String.toList_append, String.toList_append, hcode, List.append_assoc]
      exact Quotes.code

/-- A character in quotes does not look like the quote that closes. -/
theorem Quotes.ne_quote {c : Char} {cs rest rest' : List Char} (h : Quotes c cs) :
    cs ++ rest ≠ '"' :: rest' := by
  intro heq
  cases h with
  | escape letter => exact absurd (List.cons.inj heq).1 (by decide)
  | plain hquote => exact hquote (List.cons.inj heq).1
  | code => exact absurd (List.cons.inj heq).1 (by decide)

/-- No hexadecimal digit is a closing brace. -/
theorem not_mem_toDigits {n : Nat} : '\x7d' ∉ Nat.toDigits 16 n := by
  intro h
  obtain ⟨k, hk, hdigit⟩ := mem_toDigits h
  have hopen := (digitChar_plain hk).2
  rw [← hdigit] at hopen
  exact absurd hopen (by decide)

/-- The first place of a character cuts a text in one way. -/
theorem append_stop_inj {stop : Char} {a b rest rest' : List Char} (ha : stop ∉ a) (hb : stop ∉ b)
    (h : a ++ stop :: rest = b ++ stop :: rest') : a = b ∧ rest = rest' := by
  induction a generalizing b with
  | nil =>
    cases b with
    | nil => exact ⟨rfl, (List.cons.inj h).2⟩
    | cons d b => exact absurd ((List.cons.inj h).1 ▸ List.mem_cons_self ..) hb
  | cons c a ih =>
    cases b with
    | nil => exact absurd ((List.cons.inj h).1.symm ▸ List.mem_cons_self ..) ha
    | cons d b =>
      obtain ⟨rfl, hothers⟩ := List.cons.inj h
      obtain ⟨rfl, hrest⟩ := ih (fun hin => ha (List.mem_cons_of_mem _ hin))
        (fun hin => hb (List.mem_cons_of_mem _ hin)) hothers
      exact ⟨rfl, hrest⟩

/-- Characters in quotes are told apart, and from what follows. -/
theorem Quotes.append_inj {c d : Char} {cs ds rest rest' : List Char}
    (hc : Quotes c cs) (hd : Quotes d ds)
    (h : cs ++ rest = ds ++ rest') : c = d ∧ rest = rest' := by
  cases hc with
  | escape letter hletter hu =>
    cases hd with
    | escape letter' hletter' =>
      obtain ⟨hsame, hrest⟩ := List.cons.inj (List.cons.inj h).2
      exact ⟨by rw [hletter, hletter', hsame], hrest⟩
    | plain _ hslash' => exact absurd (List.cons.inj h).1.symm hslash'
    | code => exact absurd (List.cons.inj (List.cons.inj h).2).1 hu
  | plain hquote hslash =>
    cases hd with
    | escape => exact absurd (List.cons.inj h).1 hslash
    | plain => exact List.cons.inj h
    | code => exact absurd (List.cons.inj h).1 hslash
  | code =>
    cases hd with
    | escape letter _ hu => exact absurd (List.cons.inj (List.cons.inj h).2).1.symm hu
    | plain _ hslash => exact absurd (List.cons.inj h).1.symm hslash
    | code =>
      have h : '\\' :: 'u' :: '\x7b' :: (Nat.toDigits 16 c.toNat ++ ['\x7d'] ++ rest) =
        '\\' :: 'u' :: '\x7b' :: (Nat.toDigits 16 d.toNat ++ ['\x7d'] ++ rest') := h
      have hdigits := (List.cons.inj (List.cons.inj (List.cons.inj h).2).2).2
      rw [List.append_assoc, List.append_assoc, List.singleton_append,
        List.singleton_append] at hdigits
      obtain ⟨hcode, hrest⟩ := append_stop_inj not_mem_toDigits not_mem_toDigits hdigits
      exact ⟨Char.toNat_inj.mp (toDigits_inj hcode), hrest⟩

/-- Quoted characters up to the quote are told apart, and so is what follows. -/
theorem join_quoteChar_append_inj {cs ds rest rest' : List Char}
    (h : cs.flatMap (fun c => (quoteChar c).toList) ++ '"' :: rest =
      ds.flatMap (fun c => (quoteChar c).toList) ++ '"' :: rest') : cs = ds ∧ rest = rest' := by
  induction cs generalizing ds with
  | nil =>
    cases ds with
    | nil => exact ⟨rfl, (List.cons.inj h).2⟩
    | cons d ds =>
      rw [List.flatMap_cons, List.append_assoc] at h
      exact absurd h.symm (quotes_quoteChar d).ne_quote
  | cons c cs ih =>
    cases ds with
    | nil =>
      rw [List.flatMap_cons, List.append_assoc] at h
      exact absurd h (quotes_quoteChar c).ne_quote
    | cons d ds =>
      rw [List.flatMap_cons, List.flatMap_cons, List.append_assoc, List.append_assoc] at h
      obtain ⟨rfl, hothers⟩ := (quotes_quoteChar c).append_inj (quotes_quoteChar d) h
      obtain ⟨rfl, hrest⟩ := ih hothers
      exact ⟨rfl, hrest⟩

/-- A quoted name is its quoted characters between quotes. -/
theorem toList_quoted (s : String) :
    (quoted s).toList = '"' :: (s.toList.flatMap (fun c => (quoteChar c).toList) ++ ['"']) := by
  have hquote : "\"".toList = ['"'] := rfl
  rw [quoted, String.toList_append, String.toList_append, String.toList_join,
    List.flatMap_map, hquote]
  rfl

/-- A name in quotes is told from anything that follows. -/
theorem quoted_append_inj {a b : String} {rest rest' : List Char}
    (h : (quoted a).toList ++ rest = (quoted b).toList ++ rest') : a = b ∧ rest = rest' := by
  rw [toList_quoted, toList_quoted, List.cons_append, List.cons_append, List.append_assoc,
    List.append_assoc] at h
  obtain ⟨hchars, hrest⟩ := join_quoteChar_append_inj (List.cons.inj h).2
  exact ⟨String.toList_inj.mp hchars, hrest⟩

end Text

end Conform
