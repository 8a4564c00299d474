import Mathlib.Algebra.Order.Field.Power
import Mathlib.Data.Rat.Cast.Order
import Mathlib.Order.Monotone.Basic
import Mathlib.Tactic.FieldSimp
import Mathlib.Tactic.Linarith
import Mathlib.Tactic.NormNum
import Mathlib.Tactic.Positivity
import Mathlib.Tactic.Ring
import Conform.Number.Basic

/-!
# Doubles on the line of rationals

The absolute value of a double goes up with its magnitude, which is a natural number
(`size_strictMono`). The rationals that round to a double lie between the midpoints to its
neighbours. The midpoints themselves go to the even magnitude, and neighbours are not both even, so
no rational rounds to two doubles (`eq_of_rounds`).

A magnitude is put together of an exponent and the bits of a significand. The largest significand of
one exponent is followed by the smallest of the next one, so counting up the magnitude always goes
one unit in the last place further (`size_succ`). There are four cases to it, each with a lemma of
its own: inside a binade, behind the last magnitude of one, below the first whole binade, where the
last place does not move, and from there on, where it doubles.

Of rounding only the result is used here. A rational rounds to a magnitude if it lies between two
midpoints, and it may be one of these only if the magnitude is even (`Rounds`). Midpoints go up
strictly as sizes do, and of two neighbours one is odd, so that the intervals of different
magnitudes have nothing in common.
-/

namespace Conform.Number

/-- The exponent of the last place of a magnitude. -/
def lastPlace (magnitude : Nat) : Int := (max (magnitude / Nat.pow 2 52) 1 : Nat) - 1075

/-- The significand of a magnitude. -/
def significand (magnitude : Nat) : Nat :=
  if magnitude / Nat.pow 2 52 = 0 then magnitude % Nat.pow 2 52
  else magnitude % Nat.pow 2 52 + Nat.pow 2 52

/-- The absolute value of the finite doubles of a magnitude. -/
def size (magnitude : Nat) : ℚ := significand magnitude * (2 : ℚ) ^ lastPlace magnitude

theorem meaning_eq {n : Number} (h : n.isFinite = true) :
    n.meaning = .finite n.isNegative (significand n.magnitude) (lastPlace n.magnitude) := by
  have hfinite : n.magnitude < infinityMagnitude := of_decide_eq_true h
  have hnan : n.isNaN = false := decide_eq_false (by omega)
  have hinfinite : n.isInfinite = false := decide_eq_false (by omega)
  unfold meaning significand lastPlace
  rw [hnan, hinfinite, if_neg Bool.false_ne_true, if_neg Bool.false_ne_true]
  dsimp only
  by_cases hfield : n.magnitude / Nat.pow 2 52 = 0
  · rw [if_pos hfield, if_pos hfield, hfield]
    rfl
  · rw [if_neg hfield, if_neg hfield, Nat.max_eq_left (Nat.one_le_iff_ne_zero.mpr hfield)]

theorem size_zero : size 0 = 0 := by
  have hzero : significand 0 = 0 := by decide
  unfold size
  rw [hzero, Nat.cast_zero, zero_mul]

theorem significand_lt (magnitude : Nat) : significand magnitude < Nat.pow 2 53 := by
  have hmod : magnitude % Nat.pow 2 52 < Nat.pow 2 52 := Nat.mod_lt _ (by decide)
  have htwice : Nat.pow 2 53 = Nat.pow 2 52 + Nat.pow 2 52 := by decide
  unfold significand
  split <;> omega

theorem significand_pos {magnitude : Nat} (h : 0 < magnitude) : 0 < significand magnitude := by
  have hpos : 0 < Nat.pow 2 52 := by decide
  have hdiv := Nat.div_add_mod magnitude (Nat.pow 2 52)
  unfold significand
  split
  next hfield =>
    rw [hfield, Nat.mul_zero] at hdiv
    omega
  next => omega

theorem significand_mod_two (magnitude : Nat) : significand magnitude % 2 = magnitude % 2 := by
  have hmod : magnitude % Nat.pow 2 52 % 2 = magnitude % 2 := Nat.mod_mod_of_dvd _ (by decide)
  have heven : Nat.pow 2 52 % 2 = 0 := by decide
  unfold significand
  split <;> omega

/-- Inside a binade the next magnitude has the next significand and the same last place. -/
theorem size_succ_inside {magnitude : Nat}
    (hinside : magnitude % Nat.pow 2 52 + 1 < Nat.pow 2 52) :
    size (magnitude + 1) = size magnitude + (2 : ℚ) ^ lastPlace magnitude := by
  have hpos : 0 < Nat.pow 2 52 := by decide
  have hdiv := Nat.div_add_mod magnitude (Nat.pow 2 52)
  have hsame : (magnitude + 1) / Nat.pow 2 52 = magnitude / Nat.pow 2 52 := by
    rw [Nat.div_eq_iff hpos]
    have := Nat.mul_comm (Nat.pow 2 52) (magnitude / Nat.pow 2 52)
    omega
  have hnext : (magnitude + 1) % Nat.pow 2 52 = magnitude % Nat.pow 2 52 + 1 := by
    have hdiv' := Nat.div_add_mod (magnitude + 1) (Nat.pow 2 52)
    rw [hsame] at hdiv'
    omega
  have hsignificand : significand (magnitude + 1) = significand magnitude + 1 := by
    unfold significand
    rw [hsame, hnext]
    split <;> omega
  have hplace : lastPlace (magnitude + 1) = lastPlace magnitude := by
    unfold lastPlace
    rw [hsame]
  unfold size
  rw [hsignificand, hplace]
  push_cast
  ring

/-- Behind the last magnitude of a binade stands the power of two that begins the next one. -/
theorem size_succ_last {magnitude : Nat} (hlast : magnitude % Nat.pow 2 52 + 1 = Nat.pow 2 52) :
    size (magnitude + 1) =
      (Nat.pow 2 52 : ℕ) * (2 : ℚ) ^ (((magnitude / Nat.pow 2 52 + 1 : Nat) : Int) - 1075) := by
  have hpos : 0 < Nat.pow 2 52 := by decide
  have hdiv := Nat.div_add_mod magnitude (Nat.pow 2 52)
  have hnext : (magnitude + 1) / Nat.pow 2 52 = magnitude / Nat.pow 2 52 + 1 := by
    rw [Nat.div_eq_iff hpos]
    have := Nat.mul_comm (Nat.pow 2 52) (magnitude / Nat.pow 2 52)
    have := Nat.add_mul (magnitude / Nat.pow 2 52) 1 (Nat.pow 2 52)
    omega
  have hzero : (magnitude + 1) % Nat.pow 2 52 = 0 := by
    have hdiv' := Nat.div_add_mod (magnitude + 1) (Nat.pow 2 52)
    rw [hnext, Nat.mul_add] at hdiv'
    omega
  have hsignificand : significand (magnitude + 1) = Nat.pow 2 52 := by
    unfold significand
    rw [hnext, hzero]
    simp
  have hplace : lastPlace (magnitude + 1) =
      ((magnitude / Nat.pow 2 52 + 1 : Nat) : Int) - 1075 := by
    unfold lastPlace
    rw [hnext, Nat.max_eq_left (Nat.le_add_left 1 _)]
  unfold size
  rw [hsignificand, hplace]

/-- Below the first whole binade the last place does not move. -/
theorem size_succ_subnormal {magnitude : Nat}
    (hlast : magnitude % Nat.pow 2 52 + 1 = Nat.pow 2 52) (hfield : magnitude / Nat.pow 2 52 = 0) :
    size (magnitude + 1) = size magnitude + (2 : ℚ) ^ lastPlace magnitude := by
  have hown : significand magnitude = Nat.pow 2 52 - 1 := by
    unfold significand
    rw [if_pos hfield]
    omega
  have hplace : lastPlace magnitude = ((0 + 1 : Nat) : Int) - 1075 := by
    unfold lastPlace
    rw [hfield]
    rfl
  rw [size_succ_last hlast, size, hown, hplace, hfield, Nat.cast_sub (by decide)]
  generalize (2 : ℚ) ^ (((0 + 1 : Nat) : Int) - 1075) = step
  push_cast
  ring

/-- From the first whole binade on the last place doubles with each binade. -/
theorem size_succ_doubling {magnitude : Nat}
    (hlast : magnitude % Nat.pow 2 52 + 1 = Nat.pow 2 52) (hfield : magnitude / Nat.pow 2 52 ≠ 0) :
    size (magnitude + 1) = size magnitude + (2 : ℚ) ^ lastPlace magnitude := by
  have htwice : Nat.pow 2 53 = Nat.pow 2 52 + Nat.pow 2 52 := by decide
  have hown : significand magnitude = Nat.pow 2 53 - 1 := by
    unfold significand
    rw [if_neg hfield]
    omega
  have hplace : lastPlace magnitude = ((magnitude / Nat.pow 2 52 : Nat) : Int) - 1075 := by
    unfold lastPlace
    rw [Nat.max_eq_left (Nat.one_le_iff_ne_zero.mpr hfield)]
  have hnext : ((magnitude / Nat.pow 2 52 + 1 : Nat) : Int) - 1075 =
      ((magnitude / Nat.pow 2 52 : Nat) : Int) - 1075 + 1 := by
    push_cast
    ring
  rw [size_succ_last hlast, size, hown, hplace, Nat.cast_sub (by decide), hnext,
    zpow_add₀ (by norm_num)]
  norm_num
  ring

/-- The next magnitude is one unit in the last place further. -/
theorem size_succ (magnitude : Nat) :
    size (magnitude + 1) = size magnitude + (2 : ℚ) ^ lastPlace magnitude := by
  have hmod : magnitude % Nat.pow 2 52 < Nat.pow 2 52 := Nat.mod_lt _ (by decide)
  by_cases hinside : magnitude % Nat.pow 2 52 + 1 < Nat.pow 2 52
  · exact size_succ_inside hinside
  · have hlast : magnitude % Nat.pow 2 52 + 1 = Nat.pow 2 52 := by omega
    by_cases hfield : magnitude / Nat.pow 2 52 = 0
    · exact size_succ_subnormal hlast hfield
    · exact size_succ_doubling hlast hfield

theorem size_strictMono : StrictMono size := by
  refine strictMono_nat_of_lt_succ fun magnitude => ?_
  rw [size_succ]
  have hstep : (0 : ℚ) < (2 : ℚ) ^ lastPlace magnitude := by positivity
  linarith

/-- Below a magnitude the step is as large, or half as large where a binade begins. -/
theorem lastPlace_pred {magnitude : Nat} (h : 0 < magnitude) :
    lastPlace (magnitude - 1) =
      if significand magnitude = Nat.pow 2 52 ∧ -1074 < lastPlace magnitude then
        lastPlace magnitude - 1
      else lastPlace magnitude := by
  have hpos : 0 < Nat.pow 2 52 := by decide
  have hdiv := Nat.div_add_mod magnitude (Nat.pow 2 52)
  have hmod : magnitude % Nat.pow 2 52 < Nat.pow 2 52 := Nat.mod_lt _ hpos
  by_cases hfirst : magnitude % Nat.pow 2 52 = 0
  · -- the magnitude begins a binade, so the one below belongs to the binade before
    have hfield : 0 < magnitude / Nat.pow 2 52 := by
      refine Nat.pos_of_ne_zero fun hzero => ?_
      rw [hzero, Nat.mul_zero] at hdiv
      omega
    have hpred : (magnitude - 1) / Nat.pow 2 52 = magnitude / Nat.pow 2 52 - 1 := by
      rw [Nat.div_eq_iff hpos]
      have := Nat.mul_comm (Nat.pow 2 52) (magnitude / Nat.pow 2 52)
      have := Nat.sub_mul (magnitude / Nat.pow 2 52) 1 (Nat.pow 2 52)
      have : Nat.pow 2 52 ≤ Nat.pow 2 52 * (magnitude / Nat.pow 2 52) :=
        Nat.le_mul_of_pos_right _ hfield
      omega
    have hsignificand : significand magnitude = Nat.pow 2 52 := by
      unfold significand
      rw [if_neg (Nat.ne_of_gt hfield), hfirst, Nat.zero_add]
    unfold lastPlace
    rw [hpred, hsignificand]
    generalize magnitude / Nat.pow 2 52 = field at hfield
    split <;> omega
  · have hpred : (magnitude - 1) / Nat.pow 2 52 = magnitude / Nat.pow 2 52 := by
      rw [Nat.div_eq_iff hpos]
      have := Nat.mul_comm (Nat.pow 2 52) (magnitude / Nat.pow 2 52)
      omega
    have hsignificand : significand magnitude ≠ Nat.pow 2 52 := by
      unfold significand
      split <;> omega
    rw [if_neg fun hboth => hsignificand hboth.1]
    unfold lastPlace
    rw [hpred]

/-! ### Rounding -/

/-- Half-way from a magnitude to the next one. -/
def midpoint (magnitude : Nat) : ℚ := (size magnitude + size (magnitude + 1)) / 2

/-- The rational rounds to a magnitude, which is not zero, ties going to the even one. -/
def Rounds (magnitude : Nat) (x : ℚ) : Prop :=
  if magnitude % 2 = 0 then midpoint (magnitude - 1) ≤ x ∧ x ≤ midpoint magnitude
  else midpoint (magnitude - 1) < x ∧ x < midpoint magnitude

theorem Rounds.bounds {magnitude : Nat} {x : ℚ} (h : Rounds magnitude x) :
    midpoint (magnitude - 1) ≤ x ∧ x ≤ midpoint magnitude := by
  unfold Rounds at h
  split at h
  · exact h
  · exact ⟨le_of_lt h.1, le_of_lt h.2⟩

theorem midpoint_strictMono : StrictMono midpoint := by
  intro a b hab
  have hfirst := size_strictMono hab
  have hsecond := size_strictMono (Nat.add_lt_add_right hab 1)
  unfold midpoint
  linarith

/-- A double lies above the midpoint to the double below it. -/
theorem midpoint_lt_size {magnitude : Nat} (h : 0 < magnitude) :
    midpoint (magnitude - 1) < size magnitude := by
  have hlt := size_strictMono (Nat.sub_one_lt (Nat.ne_of_gt h))
  unfold midpoint
  rw [Nat.sub_add_cancel h]
  linarith

/-- A double lies below the midpoint to the double above it. -/
theorem size_lt_midpoint (magnitude : Nat) : size magnitude < midpoint magnitude := by
  have hlt := size_strictMono (Nat.lt_succ_self magnitude)
  unfold midpoint
  linarith

/-- What rounds to a magnitude is not zero. -/
theorem Rounds.pos {magnitude : Nat} {x : ℚ} (h : Rounds magnitude x) : 0 < x := by
  have hfirst : 0 < midpoint 0 := by
    have hone := size_strictMono Nat.zero_lt_one
    unfold midpoint
    rw [size_zero] at hone ⊢
    linarith
  have hle := midpoint_strictMono.monotone (Nat.zero_le (magnitude - 1))
  have := h.bounds.1
  linarith

/-- Nothing rounds to two magnitudes. -/
theorem eq_of_rounds {a b : Nat} {x : ℚ} (ha : 0 < a) (hb : 0 < b) (hax : Rounds a x)
    (hbx : Rounds b x) : a = b := by
  have hlt : ∀ a b : Nat, 0 < a → a < b → Rounds a x → Rounds b x → False := by
    intro a b ha hab hax hbx
    obtain ⟨-, hhigh⟩ := hax.bounds
    obtain ⟨hlow, -⟩ := hbx.bounds
    by_cases hnext : b = a + 1
    · -- neighbours share a midpoint, and one of them is odd
      subst hnext
      rw [Nat.add_sub_cancel] at hlow
      have hx : x = midpoint a := le_antisymm hhigh hlow
      unfold Rounds at hax hbx
      by_cases heven : a % 2 = 0
      · rw [if_neg (by omega), Nat.add_sub_cancel] at hbx
        exact absurd hbx.1 (by rw [hx]; exact lt_irrefl _)
      · rw [if_neg heven] at hax
        exact absurd hax.2 (by rw [hx]; exact lt_irrefl _)
    · have hbetween := midpoint_strictMono (show a < b - 1 by omega)
      linarith
  rcases Nat.lt_trichotomy a b with hab | heq | hba
  · exact (hlt a b ha hab hax hbx).elim
  · exact heq
  · exact (hlt b a hb hba hbx hax).elim

/-- A double is known by its sign and its magnitude. -/
theorem eq_of_magnitude {n m : Number} (hsign : n.isNegative = m.isNegative)
    (hmagnitude : n.magnitude = m.magnitude) : n = m := by
  have hbits (k : Number) : k.bits.toNat =
      k.magnitude + if k.isNegative then Nat.pow 2 63 else 0 := by
    have hlt : k.bits.toNat < 2 ^ 64 := k.bits.toNat_lt
    have hpow : (2 : Nat) ^ 64 = Nat.pow 2 63 + Nat.pow 2 63 := by decide
    unfold magnitude isNegative
    by_cases hneg : Nat.pow 2 63 ≤ k.bits.toNat
    · rw [decide_eq_true hneg, if_pos rfl, Nat.mod_eq_sub_mod hneg, Nat.mod_eq_of_lt (by omega)]
      omega
    · rw [decide_eq_false hneg, if_neg Bool.false_ne_true,
        Nat.mod_eq_of_lt (by omega), Nat.add_zero]
  obtain ⟨n⟩ := n
  obtain ⟨m⟩ := m
  have hsame : n.toNat = m.toNat := by
    rw [show n.toNat = _ from hbits ⟨n⟩, show m.toNat = _ from hbits ⟨m⟩, hsign, hmagnitude]
  exact congrArg Number.mk (UInt64.toNat_inj.mp hsame)

end Conform.Number
