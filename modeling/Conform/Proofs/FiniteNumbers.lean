import Conform.Json.Reader
import Conform.Proofs.Integers
import Conform.Proofs.Proper

/-!
# JSON texts have finite numbers

A numeral stands for the digits that fit 64 bits, scaled by powers of ten. A product past the
largest double has no value, and a quotient by powers of ten is no larger than the digits. So
whatever is read from a text has finite numbers.

How large a rounded ratio can be is settled by the logarithms of its two sides
(`Number.ofRatio_placed` and the bounds after it): a ratio below a power of two is rounded to a
magnitude below the corresponding binade, and all binades but the last hold finite numbers. The
powers of ten that the reader multiplies and divides by are at least one, so that a quotient has no
larger magnitude than what was divided; there are some three hundred of them, in a table that is
evaluated once (`powerOfTen_spec`).

The reader of numerals is then gone through by its states: digits that are taken while they fit, the
fraction, the exponent and its sign, and what stands at the end. What the reader of values puts
together from numerals is dealt with by induction on the steps it may take, for values, items and
members at once (`FiniteReaders`).

Main statement: `Json.finite_read?`.
-/

namespace Conform

namespace Number

/-! ### How large a rounded ratio is -/

/-- What is rounded does not get past a whole bound. -/
theorem roundHalfEven_le {num den bound : Nat} (h : num < den * bound) :
    roundHalfEven num den ≤ bound := by
  have hfloor : num / den < bound := Nat.div_lt_of_lt_mul h
  unfold roundHalfEven
  dsimp only
  split <;> omega

/-- Scaled down by the place of its leading bit, a ratio fits the bits of a significand. -/
theorem scaled_lt {num den : Nat} (hden : den ≠ 0) {exponent : Int}
    (h : (num.log2 : Int) ≤ den.log2 + exponent + 52) :
    (scaled num den (-exponent)).1 < (scaled num den (-exponent)).2 * Nat.pow 2 53 := by
  have hhigh : num < 2 ^ (num.log2 + 1) := Nat.lt_log2_self
  have hlow : 2 ^ den.log2 ≤ den := Nat.log2_self_le hden
  show _ < _ * 2 ^ 53
  unfold scaled
  by_cases hsign : 0 ≤ -exponent
  · obtain ⟨j, hj⟩ := Int.eq_ofNat_of_zero_le hsign
    rw [if_pos hsign, hj, Int.toNat_natCast]
    calc num * 2 ^ j < 2 ^ (num.log2 + 1) * 2 ^ j :=
      Nat.mul_lt_mul_of_pos_right hhigh (Nat.two_pow_pos j)
      _ = 2 ^ (num.log2 + 1 + j) := (Nat.pow_add ..).symm
      _ ≤ 2 ^ (den.log2 + 53) := Nat.pow_le_pow_right (by decide) (by omega)
      _ = 2 ^ den.log2 * 2 ^ 53 := Nat.pow_add ..
      _ ≤ den * 2 ^ 53 := Nat.mul_le_mul_right _ hlow
  · obtain ⟨j, rfl⟩ : ∃ j : Nat, exponent = j := ⟨exponent.toNat, by omega⟩
    rw [if_neg hsign, Int.neg_neg, Int.toNat_natCast]
    calc num < 2 ^ (num.log2 + 1) := hhigh
      _ ≤ 2 ^ (den.log2 + j + 53) := Nat.pow_le_pow_right (by decide) (by omega)
      _ = 2 ^ den.log2 * 2 ^ j * 2 ^ 53 := by rw [Nat.pow_add, Nat.pow_add]
      _ ≤ den * 2 ^ j * 2 ^ 53 := Nat.mul_le_mul_right _ (Nat.mul_le_mul_right _ hlow)

/-- A ratio below a power of two has logarithms that far apart. -/
theorem log2_le_of_le {num den k : Nat} (hnum : num ≠ 0) (h : num ≤ den * 2 ^ k) :
    num.log2 ≤ den.log2 + k := by
  refine Nat.lt_succ_iff.mp ((Nat.log2_lt hnum).mpr ?_)
  calc num ≤ den * 2 ^ k := h
    _ < 2 ^ (den.log2 + 1) * 2 ^ k :=
    Nat.mul_lt_mul_of_pos_right Nat.lt_log2_self (Nat.two_pow_pos k)
    _ = 2 ^ (den.log2 + k + 1) := by rw [← Nat.pow_add]; congr 1; omega

/-- The place at which a ratio is rounded, and what it is rounded to there. -/
theorem ofRatio_placed (negative : Bool) {num den : Nat} (hpos : ¬(num = 0 ∨ den = 0)) :
    ∃ guess exponent : Int, max ((num.log2 : Int) - den.log2 - 53) (-1074) = guess ∧
      (if (scaled num den (-guess)).1 < (scaled num den (-guess)).2 * Nat.pow 2 53 then guess
        else guess + 1) = exponent ∧
      ofRatio negative num den = ofMagnitude negative (min ((exponent + 1074).toNat * Nat.pow 2 52 +
        roundHalfEven (scaled num den (-exponent)).1 (scaled num den (-exponent)).2)
          infinityMagnitude) := by
  obtain ⟨guess, hguess⟩ : ∃ guess : Int,
      max ((num.log2 : Int) - den.log2 - 53) (-1074) = guess := ⟨_, rfl⟩
  obtain ⟨exponent, hexponent⟩ : ∃ exponent : Int, (if (scaled num den (-guess)).1 <
      (scaled num den (-guess)).2 * Nat.pow 2 53 then guess else guess + 1) = exponent := ⟨_, rfl⟩
  refine ⟨guess, exponent, hguess, hexponent, ?_⟩
  rw [ofRatio_of_guess negative hpos hguess, rounded_eq]
  dsimp only
  rw [hexponent]

/-- A magnitude is capped at that of the infinite numbers. -/
theorem magnitude_capped (negative : Bool) (n : Nat) :
    (ofMagnitude negative (min n infinityMagnitude)).magnitude = min n infinityMagnitude :=
  magnitude_ofMagnitude negative (Nat.lt_of_le_of_lt (Nat.min_le_right _ _) (by decide))

/-- A ratio of at most `2 ^ k` is rounded to a double of at most `2 ^ (k + 1)`. -/
theorem magnitude_ofRatio_le (negative : Bool) {num den k : Nat} (h : num ≤ den * 2 ^ k) :
    (ofRatio negative num den).magnitude ≤ (k + 1024) * Nat.pow 2 52 := by
  by_cases hzero : num = 0 ∨ den = 0
  · unfold ofRatio
    rw [if_pos hzero, magnitude_ofMagnitude negative (by decide)]
    exact Nat.zero_le _
  · obtain ⟨guess, exponent, hguess, hexponent, heq⟩ := ofRatio_placed negative hzero
    have hlog := log2_le_of_le (fun heq => hzero (.inl heq)) h
    -- the guess is one place too low if the scaled ratio does not fit
    have hsmall : (scaled num den (-exponent)).1 <
        (scaled num den (-exponent)).2 * Nat.pow 2 53 := by
      rw [← hexponent]
      split
      next hfits => exact hfits
      next => exact scaled_lt (fun heq => hzero (.inr heq)) (by omega)
    have hplace : (exponent + 1074).toNat ≤ k + 1022 := by
      have hle : exponent ≤ guess + 1 := by rw [← hexponent]; split <;> omega
      omega
    rw [heq, magnitude_capped]
    refine Nat.le_trans (Nat.min_le_left _ _) ?_
    calc (exponent + 1074).toNat * Nat.pow 2 52 + roundHalfEven _ _
        ≤ (k + 1022) * Nat.pow 2 52 + 2 * Nat.pow 2 52 :=
          Nat.add_le_add (Nat.mul_le_mul_right _ hplace) (roundHalfEven_le hsmall)
      _ = (k + 1024) * Nat.pow 2 52 := (Nat.add_mul ..).symm

/-- A ratio is rounded to infinity at most. -/
theorem magnitude_ofRatio_le_infinity (negative : Bool) (num den : Nat) :
    (ofRatio negative num den).magnitude ≤ infinityMagnitude := by
  by_cases hzero : num = 0 ∨ den = 0
  · unfold ofRatio
    rw [if_pos hzero, magnitude_ofMagnitude negative (by decide)]
    exact Nat.zero_le _
  · obtain ⟨guess, exponent, -, -, heq⟩ := ofRatio_placed negative hzero
    rw [heq, magnitude_capped]
    exact Nat.min_le_right _ _

/-- A magnitude below the last binade is finite. -/
theorem isFinite_of_le {n : Number} {k : Nat}
    (h : n.magnitude ≤ (k + 1024) * Nat.pow 2 52) (hk : k < 1023) :
    n.isFinite = true := by
  refine decide_eq_true (Nat.lt_of_le_of_lt h ?_)
  show (k + 1024) * Nat.pow 2 52 < 2047 * Nat.pow 2 52
  exact Nat.mul_lt_mul_of_pos_right (by omega) (by decide)

/-- Integers of 64 bits are finite numbers. -/
theorem isFinite_ofInt {i : Int} (h : i.natAbs ≤ 2 ^ 64) : (ofInt i).isFinite = true := by
  rw [ofInt_eq]
  exact isFinite_of_le (magnitude_ofRatio_le _ (k := 64) (by omega)) (by decide)

/-- The sign does not matter. -/
theorem isFinite_neg {n : Number} (h : n.isFinite = true) : n.neg.isFinite = true := by
  have hlt : n.magnitude < infinityMagnitude := of_decide_eq_true h
  refine decide_eq_true ?_
  show (ofMagnitude (!n.isNegative) n.magnitude).magnitude < infinityMagnitude
  rwa [magnitude_ofMagnitude _ (Nat.lt_trans hlt (by decide))]

/-! ### Products and quotients -/

/-- A product of finite doubles that is not infinite is finite. -/
theorem isFinite_mul {a b : Number} (ha : a.isFinite = true) (hb : b.isFinite = true)
    (hfits : (a.mul b).isInfinite = false) : (a.mul b).isFinite = true := by
  have hle : (a.mul b).magnitude ≤ infinityMagnitude := by
    unfold mul
    rw [meaning_eq ha, meaning_eq hb]
    exact magnitude_ofRatio_le_infinity ..
  exact decide_eq_true (Nat.lt_of_le_of_ne hle (of_decide_eq_false hfits))

/-- Dividing by a double of at least one hardly adds to the size. -/
theorem magnitude_div_le {a b : Number} {k : Nat}
    (ha : a.magnitude ≤ (k + 1024) * Nat.pow 2 52) (hk : k < 1023)
    (hb : b.isFinite = true) (hone : 1023 * Nat.pow 2 52 ≤ b.magnitude) :
    (a.div b).magnitude ≤ (k + 2 + 1024) * Nat.pow 2 52 := by
  have hunit : 0 < Nat.pow 2 52 := by decide
  have hfield : a.magnitude / Nat.pow 2 52 ≤ k + 1024 :=
    Nat.div_le_of_le_mul (by rwa [Nat.mul_comm])
  have hfield' : 1023 ≤ b.magnitude / Nat.pow 2 52 := (Nat.le_div_iff_mul_le hunit).mpr hone
  have hplace : lastPlace a.magnitude - lastPlace b.magnitude ≤ k + 1 := by
    unfold lastPlace
    omega
  -- the divisor is one at least, so its significand has the leading bit
  have hlow : 2 ^ 52 ≤ significand b.magnitude := by
    unfold significand
    rw [if_neg (by omega)]
    exact Nat.le_add_left _ _
  have hhigh : significand a.magnitude ≤ significand b.magnitude * 2 := by
    have hlt : significand a.magnitude < 2 ^ 53 := significand_lt a.magnitude
    omega
  have hpos : significand b.magnitude ≠ 0 := by omega
  unfold div
  rw [meaning_eq (isFinite_of_le ha hk), meaning_eq hb]
  dsimp only
  rw [if_neg hpos]
  refine magnitude_ofRatio_le _ ?_
  generalize significand a.magnitude = m at *
  generalize significand b.magnitude = n at *
  generalize lastPlace a.magnitude - lastPlace b.magnitude = shift at *
  unfold scaled
  by_cases hshift : 0 ≤ shift
  · obtain ⟨j, rfl⟩ := Int.eq_ofNat_of_zero_le hshift
    rw [if_pos hshift, Int.toNat_natCast]
    calc m * 2 ^ j ≤ n * 2 * 2 ^ (k + 1) :=
      Nat.mul_le_mul hhigh (Nat.pow_le_pow_right (by decide) (by omega))
      _ = n * 2 ^ (k + 2) := by rw [Nat.mul_assoc, ← Nat.pow_succ']
  · rw [if_neg hshift]
    calc m ≤ n * 2 ^ 1 := hhigh
      _ ≤ n * 2 ^ (-shift).toNat * 2 ^ (k + 2) :=
      Nat.mul_le_mul (Nat.le_mul_of_pos_right n (Nat.two_pow_pos _))
          (Nat.pow_le_pow_right (by decide) (by omega))

end Number

namespace Json

open Number

/-! ### Numerals -/

/-- The powers of ten up to the three hundred and eighth are finite and at least one. -/
theorem powerOfTen_spec :
    ∀ n ≤ 308, (powerOfTen n).isFinite = true ∧ 1023 * Nat.pow 2 52 ≤ (powerOfTen n).magnitude := by
  decide +kernel

/-- Digits that fit 64 bits are scaled to a finite double, if to any. -/
theorem finite_scale? {digits : Nat} (hdigits : digits < 2 ^ 64) {exponent : Int} {n : Number}
    (h : scale? digits exponent = some n) : n.isFinite = true := by
  have hstart : (ofNat digits).magnitude ≤ (64 + 1024) * Nat.pow 2 52 :=
    magnitude_ofRatio_le false (by omega)
  have hfinite : (ofNat digits).isFinite = true := isFinite_of_le hstart (by decide)
  unfold scale? at h
  dsimp only at h
  split at h
  next hnear =>
    obtain ⟨hpower, hone⟩ := powerOfTen_spec exponent.natAbs hnear
    split at h
    next hsign =>
      split at h
      next => exact absurd h (by simp)
      next hfits =>
        obtain rfl := Option.some.inj h
        rw [show exponent.toNat = exponent.natAbs by omega] at hfits ⊢
        exact isFinite_mul hfinite hpower (Bool.eq_false_iff.mpr hfits)
    next =>
      obtain rfl := Option.some.inj h
      exact isFinite_of_le (magnitude_div_le hstart (by decide) hpower hone) (by decide)
  next =>
    split at h
    next =>
      obtain rfl := Option.some.inj h
      exact hfinite
    next =>
      split at h
      next => exact absurd h (by simp)
      next =>
        split at h
        -- too far below for one quotient
        next hnear =>
          obtain rfl := Option.some.inj h
          obtain ⟨hpower, hone⟩ := powerOfTen_spec 308 (by decide)
          obtain ⟨hpower', hone'⟩ := powerOfTen_spec (exponent + 308).natAbs (by omega)
          have hlowered := magnitude_div_le hstart (by decide) hpower hone
          exact isFinite_of_le (magnitude_div_le hlowered (by decide) hpower' hone') (by decide)
        next =>
          obtain rfl := Option.some.inj h
          decide

/-- Digits are taken while they fit 64 bits. -/
theorem pushWhole_lt {s : Significand} (h : s.digits < 2 ^ 64) (digit : Nat) :
    (s.pushWhole digit).digits < 2 ^ 64 := by
  unfold Significand.pushWhole
  split
  next => exact h
  next hfits => exact Nat.not_le.mp fun hle => hfits (.inr hle)

theorem pushFraction_lt {s : Significand} (h : s.digits < 2 ^ 64) (digit : Nat) :
    (s.pushFraction digit).digits < 2 ^ 64 := by
  unfold Significand.pushFraction
  split
  next => exact h
  next hfits => exact Nat.not_le.mp fun hle => hfits (.inr hle)

/-- Digits of a whole numeral fit 64 bits. -/
theorem foldl_digits_lt {push : Significand → Nat → Significand}
    (hpush : ∀ {s : Significand}, s.digits < 2 ^ 64 → ∀ digit, (push s digit).digits < 2 ^ 64)
    {s : Significand} (h : s.digits < 2 ^ 64) (digits : List Nat) :
    (digits.foldl push s).digits < 2 ^ 64 := by
  induction digits generalizing s with
  | nil => exact h
  | cons digit rest ih => exact ih (hpush h digit)

section Value

variable {negative : Bool} {s : Significand} (hdigits : s.digits < 2 ^ 64)
include hdigits

/-- A numeral with a fraction or an exponent is finite, or unreadable. -/
theorem finite_float? {exponent : Int} {json : Json}
    (h : float? negative s.digits exponent = some json) : json.toSource.isFinite = true := by
  obtain ⟨n, hn, rfl⟩ := Option.map_eq_some_iff.mp h
  have hfinite := finite_scale? hdigits hn
  show (if negative then n.neg else n).isFinite = true
  split
  next => exact isFinite_neg hfinite
  next => exact hfinite

/-- A whole numeral is an integer of 64 bits, or else a finite double. -/
theorem finite_whole? {json : Json} (h : whole? negative s = some json) :
    json.toSource.isFinite = true := by
  unfold whole? at h
  split at h
  next => exact finite_float? hdigits h
  next =>
    split at h
    next =>
      obtain rfl := Option.some.inj h
      exact isFinite_ofInt (by omega)
    next =>
      split at h
      next =>
        obtain rfl := Option.some.inj h
        exact isFinite_neg
          (isFinite_of_le (k := 64) (magnitude_ofRatio_le false (by omega)) (by decide))
      next =>
        obtain rfl := Option.some.inj h
        exact isFinite_ofInt (by omega)

/-- A numeral with an exponent is finite, or unreadable. -/
theorem finite_withExponent? {negativeExponent : Bool} {exponent : Nat} {json : Json}
    (h : withExponent? negative s negativeExponent exponent = some json) :
    json.toSource.isFinite = true := by
  unfold withExponent? at h
  split at h
  next =>
    split at h
    next => exact absurd h (by simp)
    next =>
      obtain rfl := Option.some.inj h
      cases negative <;> decide
  next => exact finite_float? hdigits h

end Value

/-- What cannot be read holds no number. -/
theorem finite_orUnreadable {value : Option Json}
    (h : ∀ json ∈ value, json.toSource.isFinite = true) : (orUnreadable value).isFinite = true := by
  cases value with
  | none => rfl
  | some json => exact h json rfl

/-- The end of a numeral settles which of the three it is. -/
theorem finite_numeralEnd? {negative fractional : Bool} {s : Significand}
    (hdigits : s.digits < 2 ^ 64)
    {cs rest : List Char} {source : Source}
    (h : numeralEnd? negative s fractional cs = some (source, rest)) :
    source.isFinite = true := by
  have hfloat : (orUnreadable (float? negative s.digits s.exponent)).isFinite = true :=
    finite_orUnreadable fun _ hjson => finite_float? hdigits hjson
  have hwhole : (orUnreadable (whole? negative s)).isFinite = true :=
    finite_orUnreadable fun _ hjson => finite_whole? hdigits hjson
  unfold numeralEnd? at h
  split at h
  next =>
    split at h
    next =>
      obtain ⟨exponent, -, h⟩ := Option.bind_eq_some_iff.mp h
      obtain ⟨rfl, -⟩ := Prod.mk.inj (Option.some.inj h)
      exact finite_orUnreadable fun _ hjson => finite_withExponent? hdigits hjson
    next =>
      split at h
      next => exact (Prod.mk.inj (Option.some.inj h)).1 ▸ hfloat
      next => exact (Prod.mk.inj (Option.some.inj h)).1 ▸ hwhole
  next =>
    split at h
    next => exact (Prod.mk.inj (Option.some.inj h)).1 ▸ hfloat
    next => exact (Prod.mk.inj (Option.some.inj h)).1 ▸ hwhole

/-- A numeral that is read is finite. -/
theorem finite_numeral? {negative : Bool} {cs rest : List Char} {source : Source}
    (h : numeral? negative cs = some (source, rest)) : source.isFinite = true := by
  unfold numeral? at h
  split at h
  next => exact absurd h (by simp)
  next => exact absurd h (by simp)
  next whole after _ _ _ =>
    have hwhole : (whole.foldl Significand.pushWhole .empty).digits < 2 ^ 64 :=
      foldl_digits_lt (fun hs => pushWhole_lt hs) (by decide) whole
    dsimp only at h
    split at h
    next =>
      split at h
      next => exact absurd h (by simp)
      next fraction _ _ _ =>
        have hstart : { whole.foldl Significand.pushWhole .empty with
            full := false : Significand }.digits < 2 ^ 64 :=
          hwhole
        exact finite_numeralEnd? (foldl_digits_lt (fun hs => pushFraction_lt hs) hstart fraction) h
    next => exact finite_numeralEnd? hwhole h

/-- A word holds no number. -/
theorem finite_word? {cs rest : List Char} {source : Source} (h : word? cs = some (source, rest)) :
    source.isFinite = true := by
  unfold word? at h
  split at h
  all_goals first
    | exact (Prod.mk.inj (Option.some.inj h)).1 ▸ rfl
    | exact absurd h (by simp)

/-! ### Values -/

/-- A container that is too deep is unreadable, and holds no number. -/
theorem finite_ifShallow {depth : Nat} {container : Source} (h : container.isFinite = true) :
    (ifShallow depth container).isFinite = true := by
  unfold ifShallow
  split
  next => exact h
  next => rfl

/-- What the readers of some fuel take off the front of a text has finite numbers. -/
structure FiniteReaders (fuel : Nat) : Prop where
  value {depth : Nat} {cs rest : List Char} {source : Source} :
    value? fuel depth cs = some (source, rest) → source.isFinite = true
  items {depth : Nat} {cs rest : List Char} {items : List Source} :
    items? fuel depth cs = some (items, rest) → ∀ item ∈ items, item.isFinite = true
  members {depth : Nat} {cs rest : List Char} {members : List (String × Source)} :
    members? fuel depth cs = some (some members, rest) →
    ∀ member ∈ members, member.2.isFinite = true

namespace FiniteReaders

variable {fuel depth : Nat} (ih : FiniteReaders fuel) {cs rest : List Char}
include ih

/-- A value that is read with one step more has finite numbers. -/
theorem value_succ {source : Source} (h : value? (fuel + 1) depth cs = some (source, rest)) :
    source.isFinite = true := by
  rw [value?] at h
  -- by the first character: a text, an array, an object, a numeral with a sign,
  -- anything else, or the end
  split at h
  next =>
    obtain ⟨read, -, hread⟩ := Option.map_eq_some_iff.mp h
    obtain ⟨rfl, -⟩ := Prod.mk.inj hread
    cases read.1 <;> rfl
  next =>
    split at h
    next => exact (Prod.mk.inj (Option.some.inj h)).1 ▸ finite_ifShallow rfl
    next =>
      obtain ⟨read, hitems, hread⟩ := Option.map_eq_some_iff.mp h
      obtain ⟨rfl, -⟩ := Prod.mk.inj hread
      exact finite_ifShallow (Source.finiteItems_iff.mpr (ih.items hitems))
  next =>
    split at h
    next => exact (Prod.mk.inj (Option.some.inj h)).1 ▸ finite_ifShallow rfl
    next =>
      obtain ⟨⟨members, after⟩, hmembers, hread⟩ := Option.map_eq_some_iff.mp h
      obtain ⟨rfl, -⟩ := Prod.mk.inj hread
      cases members with
      | none => rfl
      | some members => exact finite_ifShallow (Source.finiteMembers_iff.mpr (ih.members hmembers))
  next => exact finite_numeral? h
  next =>
    split at h
    next => exact finite_numeral? h
    next => exact finite_word? h
  next => exact absurd h (by simp)

/-- Items that are read with one step more have finite numbers. -/
theorem items_succ {items : List Source} (h : items? (fuel + 1) depth cs = some (items, rest)) :
    ∀ item ∈ items, item.isFinite = true := by
  rw [items?] at h
  obtain ⟨⟨item, after⟩, hitem, h⟩ := Option.bind_eq_some_iff.mp h
  have hfirst := ih.value hitem
  dsimp only at h
  split at h
  next =>
    obtain ⟨⟨others, after⟩, hothers, h⟩ := Option.bind_eq_some_iff.mp h
    obtain ⟨rfl, -⟩ := Prod.mk.inj (Option.some.inj h)
    exact List.forall_mem_cons.mpr ⟨hfirst, ih.items hothers⟩
  next =>
    obtain ⟨rfl, -⟩ := Prod.mk.inj (Option.some.inj h)
    exact List.forall_mem_singleton.mpr hfirst
  next => exact absurd h (by simp)

/-- Members that are read with one step more have finite numbers. -/
theorem members_succ {members : List (String × Source)}
    (h : members? (fuel + 1) depth cs = some (some members, rest)) :
    ∀ member ∈ members, member.2.isFinite = true := by
  rw [members?] at h
  split at h
  next =>
    obtain ⟨⟨key, after⟩, -, h⟩ := Option.bind_eq_some_iff.mp h
    dsimp only at h
    split at h
    next =>
      obtain ⟨⟨value, after⟩, hvalue, h⟩ := Option.bind_eq_some_iff.mp h
      have hfirst := ih.value hvalue
      dsimp only at h
      split at h
      next =>
        obtain ⟨⟨others, after⟩, hothers, h⟩ := Option.bind_eq_some_iff.mp h
        obtain ⟨h, -⟩ := Prod.mk.inj (Option.some.inj h)
        -- there are members only if every key names a text
        obtain ⟨first, hkey, h⟩ := Option.bind_eq_some_iff.mp h
        obtain ⟨name, -, rfl⟩ := Option.map_eq_some_iff.mp hkey
        obtain ⟨read, rfl, h⟩ := Option.bind_eq_some_iff.mp h
        obtain rfl := Option.some.inj h
        exact List.forall_mem_cons.mpr ⟨hfirst, ih.members hothers⟩
      next =>
        obtain ⟨h, -⟩ := Prod.mk.inj (Option.some.inj h)
        obtain ⟨first, hkey, rfl⟩ := Option.map_eq_some_iff.mp h
        obtain ⟨name, -, rfl⟩ := Option.map_eq_some_iff.mp hkey
        exact List.forall_mem_singleton.mpr hfirst
      next => exact absurd h (by simp)
    next => exact absurd h (by simp)
  next => exact absurd h (by simp)

end FiniteReaders

/-- Whatever the readers read has finite numbers, by induction on the steps they may take. -/
theorem finiteReaders (fuel : Nat) : FiniteReaders fuel := by
  induction fuel with
  | zero =>
    exact ⟨fun h => absurd h (by simp [value?]), fun h => absurd h (by simp [items?]),
      fun h => absurd h (by simp [members?])⟩
  | succ fuel ih => exact ⟨ih.value_succ, ih.items_succ, ih.members_succ⟩

/-- What is read from a text has finite numbers. -/
theorem finite_read? {text : String} {source : Source} (h : read? text = some source) :
    source.isFinite = true := by
  unfold read? at h
  dsimp only at h
  split at h
  next found rest hvalue =>
    split at h
    next =>
      obtain rfl := Option.some.inj h
      exact (finiteReaders _).value hvalue
    next => exact absurd h (by simp)
  next => exact absurd h (by simp)

end Json

end Conform
