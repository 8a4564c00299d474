import Mathlib.Tactic.IntervalCases
import Conform.Check.String

/-!
# Digits with a check digit

Counted from the last digit, every second one is doubled, so what a digit counts depends on the
length of the text and on nothing else that stands around it. A sum that starts at either kind of
place splits where the text is cut (`sumFrom_append`), so two texts of one length that differ in one
place or in two differ in the share of these places only (`sum_mod_ten_eq_iff`). The rest is about
single digits: both ways of counting tell the ten digits apart modulo ten, and of two that are
exchanged they lose the order only of 0 and 9.

A text is accepted if its sum is a multiple of ten. Replacing one digit changes the sum by the
difference of what two digits count in one place, and that is no multiple of ten, as each of the two
ways of counting is a permutation of the digits modulo ten (`counted_mod_ten_inj`). Exchanging two
neighbours changes it by what both count in both places, which is a finite question and is decided
for all pairs of digits. Last, a check digit is found by counting what is missing to a multiple of
ten, in the place where digits are not doubled, and it is the only one.

No digit counts more than nine, so the sum is at most nine times the length of the text, and stays
below `2 ^ 32` for texts of up to four hundred million digits.

Main statement: `slips_are_caught`.
-/

namespace Conform.StringForm

/-! ### What a digit counts -/

/-- What a digit counts where it is doubled, and where it is not. -/
def counted (twice : Bool) (digit : Nat) : Nat := if twice then doubled digit else digit

theorem counted_le {digit : Nat} (h : digit < 10) (twice : Bool) : counted twice digit ≤ 9 := by
  unfold counted doubled
  split
  · split <;> omega
  · omega

/-- Different digits count differently in one place. -/
theorem counted_mod_ten_inj : ∀ twice, ∀ a < 10, ∀ b < 10,
    counted twice a % 10 = counted twice b % 10 → a = b := by
  decide

/-- Two digits in neighbouring places may be exchanged unnoticed if they are equal, or 0 and 9. -/
theorem counted_exchange : ∀ twice, ∀ a < 10, ∀ b < 10,
    (counted twice a + counted (!twice) b) % 10 = (counted twice b + counted (!twice) a) % 10 →
      a = b ∨ (a = 0 ∧ b = 9) ∨ (a = 9 ∧ b = 0) := by
  decide

theorem counted_zero_nine (twice : Bool) :
    (counted twice 0 + counted (!twice) 9) % 10 = (counted twice 9 + counted (!twice) 0) % 10 := by
  cases twice <;> rfl

/-! ### The sum, place by place -/

/-- The sum of digits whose first one is doubled or not, and the others by turns. -/
def sumFrom : Bool → List Nat → Nat
  | _, [] => 0
  | twice, digit :: rest => counted twice digit + sumFrom (!twice) rest

theorem luhnSum_eq (digits : List Nat) : luhnSum digits = sumFrom false digits := by
  induction digits using luhnSum.induct with
  | case1 => rfl
  | case2 d => rfl
  | case3 d e rest ih =>
    rw [luhnSum, ih, Nat.add_assoc]
    rfl

/-- The kind of place that follows so many digits. -/
def placeAfter (twice : Bool) (length : Nat) : Bool := twice ^^ decide (length % 2 = 1)

theorem sumFrom_append (front back : List Nat) (twice : Bool) :
    sumFrom twice (front ++ back) =
      sumFrom twice front + sumFrom (placeAfter twice front.length) back := by
  induction front generalizing twice with
  | nil => simp [sumFrom, placeAfter]
  | cons digit front ih =>
    have hplace : placeAfter (!twice) front.length = placeAfter twice (front.length + 1) := by
      unfold placeAfter
      rcases Nat.mod_two_eq_zero_or_one front.length with h | h
      · rw [h, show (front.length + 1) % 2 = 1 by omega]
        cases twice <;> rfl
      · rw [h, show (front.length + 1) % 2 = 0 by omega]
        cases twice <;> rfl
    rw [List.cons_append, sumFrom, sumFrom, ih, hplace, Nat.add_assoc]
    rfl

theorem sumFrom_le {digits : List Nat} (h : ∀ d ∈ digits, d < 10) (twice : Bool) :
    sumFrom twice digits ≤ 9 * digits.length := by
  induction digits generalizing twice with
  | nil => exact Nat.le_refl 0
  | cons digit rest ih =>
    obtain ⟨hdigit, hrest⟩ := List.forall_mem_cons.mp h
    have hfirst := counted_le hdigit twice
    have hothers := ih hrest (!twice)
    rw [sumFrom, List.length_cons]
    omega

/-- Sums modulo ten agree if those of a middle part do, what stands around it being the same. -/
theorem sum_mod_ten_eq_iff {middle other : List Nat} (hlength : middle.length = other.length)
    (front back : List Nat) (twice : Bool) :
    sumFrom twice (front ++ (middle ++ back)) % 10 = sumFrom twice (front ++ (other ++ back)) % 10 ↔
      sumFrom (placeAfter twice front.length) middle % 10 =
        sumFrom (placeAfter twice front.length) other % 10 := by
  rw [sumFrom_append, sumFrom_append, sumFrom_append front, sumFrom_append other, hlength]
  omega

/-! ### Texts -/

/-- The digit that a character is. -/
def valueOf (c : Char) : Nat := c.toNat - '0'.toNat

/-- The digits of a text, last one first. -/
def digitsOf (cs : List Char) : List Nat := cs.reverse.map valueOf

theorem digitsOf_append (front back : List Char) :
    digitsOf (front ++ back) = digitsOf back ++ digitsOf front := by
  unfold digitsOf
  rw [List.reverse_append, List.map_append]

theorem toNat_of_isDigit {c : Char} (h : c.isDigit = true) :
    '0'.toNat ≤ c.toNat ∧ c.toNat ≤ '9'.toNat := by
  unfold Char.isDigit at h
  rw [Bool.and_eq_true, decide_eq_true_eq, decide_eq_true_eq] at h
  exact ⟨UInt32.le_iff_toNat_le.mp h.1, UInt32.le_iff_toNat_le.mp h.2⟩

theorem valueOf_lt {c : Char} (h : c.isDigit = true) : valueOf c < 10 := by
  have hnine := (toNat_of_isDigit h).2
  show c.toNat - 48 < 10
  have hnine : c.toNat ≤ 57 := hnine
  omega

theorem valueOf_inj {c d : Char} (hc : c.isDigit = true) (hd : d.isDigit = true)
    (h : valueOf c = valueOf d) : c = d := by
  have hc := (toNat_of_isDigit hc).1
  have hd := (toNat_of_isDigit hd).1
  have hsame : c.toNat = d.toNat := by
    unfold valueOf at h
    omega
  exact Char.toNat_inj.mp hsame

/-- Each of the ten digits is that of one character. -/
theorem exists_valueOf {n : Nat} (h : n < 10) : ∃ c : Char, c.isDigit = true ∧ valueOf c = n := by
  refine ⟨Char.ofNat ('0'.toNat + n), ?_⟩
  interval_cases n <;> decide

theorem luhn_iff (cs : List Char) : luhn (String.ofList cs) = true ↔
    cs ≠ [] ∧ (∀ c ∈ cs, c.isDigit = true) ∧ sumFrom false (digitsOf cs) % 10 = 0 := by
  unfold luhn
  rw [String.toList_ofList]
  show (!cs.isEmpty && cs.all Char.isDigit && luhnSum (digitsOf cs) % 10 == 0) = true ↔ _
  rw [luhnSum_eq]
  simp only [Bool.and_eq_true, Bool.not_eq_true', List.isEmpty_eq_false_iff, List.all_eq_true,
    beq_iff_eq, and_assoc]

/-- An accepted text is still accepted with another middle part if that is made of
digits and counts the same. -/
theorem luhn_replaced_iff {front back : List Char} (middle other : List Char)
    (hlength : middle.length = other.length)
    (h : luhn (String.ofList (front ++ (middle ++ back))) = true) :
    luhn (String.ofList (front ++ (other ++ back))) = true ↔
      (∀ c ∈ other, c.isDigit = true) ∧
      sumFrom (placeAfter false back.length) (digitsOf middle) % 10 =
        sumFrom (placeAfter false back.length) (digitsOf other) % 10 := by
  obtain ⟨hsome, hdigits, hsum⟩ := (luhn_iff _).mp h
  have hmiddle : (digitsOf middle).length = (digitsOf other).length := by
    simp only [digitsOf, List.length_map, List.length_reverse, hlength]
  have hback : (digitsOf back).length = back.length := by
    simp only [digitsOf, List.length_map, List.length_reverse]
  have hagree := sum_mod_ten_eq_iff hmiddle (digitsOf back) (digitsOf front) false
  rw [hback] at hagree
  simp only [List.forall_mem_append] at hdigits
  rw [luhn_iff, ← hagree]
  simp only [digitsOf_append, List.append_assoc] at hsum ⊢
  rw [hsum]
  simp only [List.forall_mem_append]
  constructor
  · rintro ⟨-, ⟨-, hother, -⟩, hzero⟩
    exact ⟨hother, hzero.symm⟩
  · rintro ⟨hother, hzero⟩
    refine ⟨fun hnil => hsome ?_, ⟨hdigits.1, hother, hdigits.2.2⟩, hzero.symm⟩
    -- the text has as many characters as the one it came of
    have hempty := congrArg List.length hnil
    simp only [List.length_append, List.length_nil, ← hlength] at hempty
    exact List.length_eq_zero_iff.mp (by simp only [List.length_append]; omega)

/-- The text with one more character behind it. -/
theorem luhn_push_iff (cs : List Char) (c : Char) : luhn (String.ofList (cs ++ [c])) = true ↔
    (∀ d ∈ cs, d.isDigit = true) ∧ c.isDigit = true ∧
    (valueOf c + sumFrom true (digitsOf cs)) % 10 = 0 := by
  rw [luhn_iff, digitsOf_append, List.forall_mem_append, List.forall_mem_singleton]
  have hsum : sumFrom false (digitsOf [c] ++ digitsOf cs) =
      valueOf c + sumFrom true (digitsOf cs) := rfl
  rw [hsum, and_assoc]
  exact and_iff_right (List.append_ne_nil_of_right_ne_nil _ (List.cons_ne_nil _ _))

/-! ### Slips -/

/-- Of an accepted text: replacing one digit by another character makes it refused; exchanging two
neighbours that differ makes it refused unless they are 0 and 9, and is not noticed if they are.
Behind a text of digits exactly one digit can be put so that it is accepted. The sum of a text of
digits is at most nine times its length. -/
theorem slips_are_caught :
    (∀ (front back : List Char) (a b : Char), a ≠ b →
      luhn (String.ofList (front ++ a :: back)) = true →
      luhn (String.ofList (front ++ b :: back)) = false) ∧
    (∀ (front back : List Char) (a b : Char), a ≠ b →
      luhn (String.ofList (front ++ a :: b :: back)) = true →
      (luhn (String.ofList (front ++ b :: a :: back)) = true ↔
        (a = '0' ∧ b = '9') ∨ (a = '9' ∧ b = '0'))) ∧
    ∀ cs : List Char, (∀ c ∈ cs, c.isDigit = true) →
      (∃! c : Char, c.isDigit = true ∧ luhn (String.ofList (cs ++ [c])) = true) ∧
      luhnSum (digitsOf cs) ≤ 9 * cs.length := by
  refine ⟨?_, ?_, ?_⟩
  · intro front back a b hne h
    by_contra haccepted
    rw [Bool.not_eq_false] at haccepted
    obtain ⟨-, ha, -⟩ := (luhn_iff _).mp h
    have ha := ha a (List.mem_append_right _ (List.mem_cons_self ..))
    obtain ⟨hb, hsame⟩ := (luhn_replaced_iff [a] [b] rfl h).mp haccepted
    have hb := hb b (List.mem_cons_self ..)
    -- both digits would count the same in the place where they stand
    have hvalue := counted_mod_ten_inj _ _ (valueOf_lt ha) _ (valueOf_lt hb) hsame
    exact hne (valueOf_inj ha hb hvalue)
  · intro front back a b hne h
    obtain ⟨-, hdigits, -⟩ := (luhn_iff _).mp h
    have ha := hdigits a (List.mem_append_right _ (List.mem_cons_self ..))
    have hb := hdigits b (List.mem_append_right _ (List.mem_cons_of_mem _ (List.mem_cons_self ..)))
    have hiff := luhn_replaced_iff [a, b] [b, a] rfl h
    refine hiff.trans ⟨?_, ?_⟩
    · rintro ⟨-, hsame⟩
      rcases counted_exchange _ _ (valueOf_lt hb) _ (valueOf_lt ha) hsame with
          heq | ⟨hzero, hnine⟩ | ⟨hnine, hzero⟩
      · exact absurd (valueOf_inj hb ha heq) hne.symm
      · exact .inr ⟨valueOf_inj ha rfl hnine, valueOf_inj hb rfl hzero⟩
      · exact .inl ⟨valueOf_inj ha rfl hzero, valueOf_inj hb rfl hnine⟩
    · intro hcase
      refine ⟨fun c hc => ?_, ?_⟩
      · rcases List.mem_cons.mp hc with rfl | hc
        · exact hb
        · rw [List.mem_singleton.mp hc]
          exact ha
      · rcases hcase with ⟨rfl, rfl⟩ | ⟨rfl, rfl⟩
        · exact (counted_zero_nine _).symm
        · exact counted_zero_nine _
  · intro cs hcs
    refine ⟨?_, ?_⟩
    · -- the digit that fills the sum up to the next multiple of ten
      obtain ⟨c, hc, hvalue⟩ :=
        exists_valueOf (n := (10 - sumFrom true (digitsOf cs) % 10) % 10) (by omega)
      refine ⟨c, ⟨hc, (luhn_push_iff cs c).mpr ⟨hcs, hc, by omega⟩⟩, ?_⟩
      rintro d ⟨hd, haccepted⟩
      obtain ⟨-, -, hsum⟩ := (luhn_push_iff cs d).mp haccepted
      have hlt := valueOf_lt hd
      exact valueOf_inj hd hc (by omega)
    · have hsmall : ∀ d ∈ digitsOf cs, d < 10 := by
        intro d hd
        obtain ⟨c, hc, rfl⟩ := List.mem_map.mp hd
        exact valueOf_lt (hcs c (List.mem_reverse.mp hc))
      have hlength : (digitsOf cs).length = cs.length := by
        simp only [digitsOf, List.length_map, List.length_reverse]
      rw [luhnSum_eq, ← hlength]
      exact sumFrom_le hsmall false

/-- A card number, one with a digit replaced, one with two exchanged, and its last digit found
again; and 0 and 9 exchanged unnoticed. -/
theorem slips_are_caught_card :
    luhn "4111111111111111" = true ∧ luhn "4111111911111111" = false ∧
    luhn "1411111111111111" = false ∧
    luhn "091" = true ∧ luhn "901" = true ∧
    ∃! c : Char, c.isDigit = true ∧
      luhn (String.ofList ("411111111111111".toList ++ [c])) = true := by
  obtain ⟨hreplaced, hexchanged, hnext⟩ := slips_are_caught
  have hcard : "4111111111111111" =
      String.ofList ("4111111".toList ++ '1' :: "11111111".toList) := by decide +kernel
  have hslip : "4111111911111111" =
      String.ofList ("4111111".toList ++ '9' :: "11111111".toList) := by decide +kernel
  have hpair : "4111111111111111" =
      String.ofList ([] ++ '4' :: '1' :: "11111111111111".toList) := by decide +kernel
  have hturned : "1411111111111111" =
      String.ofList ([] ++ '1' :: '4' :: "11111111111111".toList) := by decide +kernel
  have haccepted : luhn "4111111111111111" = true := by decide +kernel
  have hzero : luhn (String.ofList ([] ++ '0' :: '9' :: ['1'])) = true := by decide +kernel
  refine ⟨haccepted, ?_, ?_, hzero, ?_, ?_⟩
  · rw [hslip]
    exact hreplaced _ _ '1' '9' (by decide) (hcard ▸ haccepted)
  · have hapart := hexchanged [] "11111111111111".toList '4' '1' (by decide) (hpair ▸ haccepted)
    rw [hturned]
    exact Bool.eq_false_iff.mpr (hapart.not.mpr (by decide))
  · exact (hexchanged [] ['1'] '0' '9' (by decide) hzero).mpr (.inl ⟨rfl, rfl⟩)
  · exact (hnext "411111111111111".toList (List.all_eq_true.mp (by decide +kernel))).1

end Conform.StringForm
