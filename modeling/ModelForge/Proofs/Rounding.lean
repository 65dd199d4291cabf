/-
`Rounding.lean` -- how far rounding can move a number.

The doubles of one binary exponent lie in a block of `2 ^ 52` patterns, so a bound on a quotient
by a power of two is a bound on the pattern that it rounds to (`nearestBits_le`,
`le_nearestBits`), and a bound on a pattern is one on its value. With that, decimals of at most 64
bits of digits are followed through their scaling by powers of ten: division makes them smaller,
and multiplication gives up past the largest double. So what `ofDecimal?` and `ofInt` yield is
finite.
-/
import Mathlib.Algebra.Order.Field.Power
import Mathlib.Data.Nat.Cast.Order.Field
import Mathlib.Tactic.Positivity
import Mathlib.Tactic.Ring
import ModelForge.Decimal.Binary64

set_option autoImplicit false

namespace ModelForge

/-! ## Powers of two -/

theorem twoPow_pos (n : Nat) : 0 < twoPow n := Nat.two_pow_pos n

theorem cast_twoPow (n : Nat) : ((twoPow n : Nat) : ℚ) = 2 ^ n := Nat.cast_pow 2 n

/-- A power of two with an integer exponent, as a quotient of two natural numbers. -/
theorem two_zpow_eq (e : Int) :
    (2 : ℚ) ^ e = (twoPow e.toNat : Nat) / (twoPow (-e).toNat : Nat) := by
  rw [cast_twoPow, cast_twoPow, ← zpow_natCast, ← zpow_natCast, ← zpow_sub₀ two_ne_zero]
  congr 1
  omega

/-- Powers of two are shifted from one side to the other, so that no fraction is needed. -/
theorem mul_twoPow_le_iff (num den : Nat) (e : Int) :
    den * twoPow e.toNat ≤ num * twoPow (-e).toNat ↔ (2 : ℚ) ^ e * den ≤ num := by
  have hpos : (0 : ℚ) < (twoPow (-e).toNat : Nat) := Nat.cast_pos.2 (twoPow_pos _)
  rw [two_zpow_eq, div_mul_eq_mul_div, div_le_iff₀ hpos, mul_comm _ (den : ℚ), ← Nat.cast_mul,
    ← Nat.cast_mul, Nat.cast_le]

theorem mul_twoPow_lt_iff (num den : Nat) (e : Int) :
    num * twoPow (-e).toNat < den * twoPow e.toNat ↔ (num : ℚ) < 2 ^ e * den := by
  rw [← not_le, mul_twoPow_le_iff, not_le]

namespace Binary64

/-! ## The binary exponent -/

/-- The binary exponent is the one it claims to be. -/
theorem binaryExponent_spec {num den : Nat} (hnum : 0 < num) (hden : 0 < den) :
    (2 : ℚ) ^ binaryExponent num den * den ≤ num
      ∧ (num : ℚ) < 2 ^ (binaryExponent num den + 1) * den := by
  have hnumLow : (2 : ℚ) ^ (num.log2 : Int) ≤ num := by
    rw [zpow_natCast]
    exact_mod_cast Nat.log2_self_le hnum.ne'
  have hnumHigh : (num : ℚ) < 2 ^ ((num.log2 : Int) + 1) := by
    have h := Nat.lt_log2_self (n := num)
    rw [← Nat.cast_succ, zpow_natCast]
    exact_mod_cast h
  have hdenLow : (2 : ℚ) ^ (den.log2 : Int) ≤ den := by
    rw [zpow_natCast]
    exact_mod_cast Nat.log2_self_le hden.ne'
  have hdenHigh : (den : ℚ) < 2 ^ ((den.log2 : Int) + 1) := by
    have h := Nat.lt_log2_self (n := den)
    rw [← Nat.cast_succ, zpow_natCast]
    exact_mod_cast h
  -- the estimate is right or one too large
  have hhigh : (num : ℚ) < 2 ^ ((num.log2 : Int) - den.log2 + 1) * den := by
    calc (num : ℚ) < 2 ^ ((num.log2 : Int) + 1) := hnumHigh
      _ = 2 ^ ((num.log2 : Int) - den.log2 + 1) * 2 ^ (den.log2 : Int) := by
          rw [← zpow_add₀ two_ne_zero]
          congr 1
          ring
      _ ≤ 2 ^ ((num.log2 : Int) - den.log2 + 1) * den :=
          mul_le_mul_of_nonneg_left hdenLow (by positivity)
  have hlow : (2 : ℚ) ^ ((num.log2 : Int) - den.log2 - 1) * den ≤ num := by
    calc (2 : ℚ) ^ ((num.log2 : Int) - den.log2 - 1) * den
        ≤ 2 ^ ((num.log2 : Int) - den.log2 - 1) * 2 ^ ((den.log2 : Int) + 1) :=
          mul_le_mul_of_nonneg_left hdenHigh.le (by positivity)
      _ = 2 ^ (num.log2 : Int) := by
          rw [← zpow_add₀ two_ne_zero]
          congr 1
          ring
      _ ≤ num := hnumLow
  unfold binaryExponent
  dsimp only
  by_cases hguess : den * twoPow ((num.log2 : Int) - den.log2).toNat
      ≤ num * twoPow (-((num.log2 : Int) - den.log2)).toNat
  · rw [if_pos hguess]
    exact ⟨(mul_twoPow_le_iff num den _).1 hguess, hhigh⟩
  · rw [if_neg hguess, sub_add_cancel]
    exact ⟨hlow, (mul_twoPow_lt_iff num den _).1 (not_le.1 hguess)⟩

/-- A ratio below a power of two has a smaller exponent. -/
theorem binaryExponent_lt {num den k : Nat} (hnum : 0 < num) (hden : 0 < den)
    (h : num < den * twoPow k) : binaryExponent num den < k := by
  have hlow := (binaryExponent_spec hnum hden).1
  have hk : (num : ℚ) < 2 ^ (k : Int) * den := by
    rw [zpow_natCast, mul_comm, ← cast_twoPow]
    exact_mod_cast h
  have hden' : (0 : ℚ) < den := Nat.cast_pos.2 hden
  exact (zpow_lt_zpow_iff_right₀ one_lt_two).1 (lt_of_mul_lt_mul_right (hlow.trans_lt hk) hden'.le)

/-- A ratio that reaches a power of two has at least its exponent. -/
theorem le_binaryExponent {num den k : Nat} (hden : 0 < den) (h : den * twoPow k ≤ num) :
    (k : Int) ≤ binaryExponent num den := by
  have hnum : 0 < num := lt_of_lt_of_le (Nat.mul_pos hden (twoPow_pos k)) h
  have hhigh := (binaryExponent_spec hnum hden).2
  have hk : (2 : ℚ) ^ (k : Int) * den ≤ num := by
    rw [zpow_natCast, mul_comm, ← cast_twoPow]
    exact_mod_cast h
  have hden' : (0 : ℚ) < den := Nat.cast_pos.2 hden
  have hlt := (zpow_lt_zpow_iff_right₀ (one_lt_two (α := ℚ))).1
    (lt_of_mul_lt_mul_right (hk.trans_lt hhigh) hden'.le)
  omega

/-! ## Rounded quotients -/

/-- What is below a whole number is rounded to it at most. -/
theorem divideToEven_le_of_lt {num den c : Nat} (h : num < den * c) :
    divideToEven num den ≤ c := by
  have hfloor : num / den < c := Nat.div_lt_of_lt_mul h
  unfold divideToEven
  dsimp only
  split
  · omega
  · split <;> omega

/-- What reaches a whole number is rounded to no less. -/
theorem le_divideToEven {num den c : Nat} (hden : 0 < den) (h : den * c ≤ num) :
    c ≤ divideToEven num den := by
  have hfloor : c ≤ num / den := (Nat.le_div_iff_mul_le hden).2 (by rwa [Nat.mul_comm])
  unfold divideToEven
  dsimp only
  split
  · exact hfloor
  · split <;> omega

/-- The rounded mantissa has at most 53 bits, or is the power of two past them. -/
theorem mantissa_le {num den : Nat} (hnum : 0 < num) (hden : 0 < den) {e : Int}
    (he : binaryExponent num den - 52 ≤ e) :
    divideToEven (num * twoPow (-e).toNat) (den * twoPow e.toNat) ≤ twoPow 53 := by
  refine divideToEven_le_of_lt ?_
  have hhigh : (num : ℚ) < 2 ^ e * ((den * twoPow 53 : Nat) : ℚ) := by
    calc (num : ℚ) < 2 ^ (binaryExponent num den + 1) * den := (binaryExponent_spec hnum hden).2
      _ ≤ 2 ^ (e + 53) * den :=
          mul_le_mul_of_nonneg_right (zpow_le_zpow_right₀ one_le_two (by omega)) (Nat.cast_nonneg _)
      _ = 2 ^ e * ((den * twoPow 53 : Nat) : ℚ) := by
          rw [Nat.cast_mul, cast_twoPow, zpow_add₀ two_ne_zero, mul_assoc, mul_comm (den : ℚ)]
          rfl
  have h := (mul_twoPow_lt_iff num (den * twoPow 53) e).2 hhigh
  rwa [Nat.mul_right_comm] at h

/-- A normal number has all its 53 bits. -/
theorem le_mantissa {num den : Nat} (hnum : 0 < num) (hden : 0 < den) {e : Int}
    (he : e = binaryExponent num den - 52) :
    twoPow 52 ≤ divideToEven (num * twoPow (-e).toNat) (den * twoPow e.toNat) := by
  refine le_divideToEven (Nat.mul_pos hden (twoPow_pos _)) ?_
  have hlow : (2 : ℚ) ^ e * ((den * twoPow 52 : Nat) : ℚ) ≤ num := by
    calc (2 : ℚ) ^ e * ((den * twoPow 52 : Nat) : ℚ) = 2 ^ (e + 52) * den := by
          rw [Nat.cast_mul, cast_twoPow, zpow_add₀ two_ne_zero, mul_assoc, mul_comm (den : ℚ)]
          rfl
      _ = 2 ^ binaryExponent num den * den := by rw [he, sub_add_cancel]
      _ ≤ num := (binaryExponent_spec hnum hden).1
  have h := (mul_twoPow_le_iff num (den * twoPow 52) e).2 hlow
  rwa [Nat.mul_right_comm] at h

/-- **A quotient below a power of two rounds to at most that power.** -/
theorem nearestBits_le {num den k : Nat} (hden : 0 < den) (h : num < den * twoPow k) :
    nearestBits num den ≤ (k + 1023) * twoPow 52 := by
  unfold nearestBits
  by_cases hzero : num = 0
  · rw [if_pos hzero]
    exact Nat.zero_le _
  · rw [if_neg hzero]
    have hnum := Nat.pos_of_ne_zero hzero
    have hexponent := binaryExponent_lt hnum hden h
    have hmantissa := mantissa_le hnum hden (e := max (binaryExponent num den - 52) (-1074))
      (le_max_left _ _)
    have hplace : (max (binaryExponent num den - 52) (-1074) + 1074).toNat ≤ k + 1021 := by omega
    refine (Nat.min_le_left _ _).trans ?_
    calc _ ≤ (k + 1021) * twoPow 52 + 2 * twoPow 52 :=
          Nat.add_le_add (Nat.mul_le_mul_right _ hplace) hmantissa
      _ = (k + 1023) * twoPow 52 := (Nat.add_mul _ _ _).symm

/-- **A quotient that is at least a power of two rounds to at least that power**, or past the
largest double. -/
theorem le_nearestBits {num den k : Nat} (hden : 0 < den) (h : den * twoPow k ≤ num) :
    min ((k + 1023) * twoPow 52) infinityBits ≤ nearestBits num den := by
  have hnum : 0 < num := lt_of_lt_of_le (Nat.mul_pos hden (twoPow_pos k)) h
  have hexponent := le_binaryExponent hden h
  have hmax : max (binaryExponent num den - 52) (-1074) = binaryExponent num den - 52 :=
    max_eq_left (by omega)
  have hmantissa := le_mantissa hnum hden rfl
  have hplace : k + 1022 ≤ (binaryExponent num den - 52 + 1074).toNat := by omega
  unfold nearestBits
  rw [if_neg hnum.ne', hmax]
  refine min_le_min_right _ ?_
  calc (k + 1023) * twoPow 52 = (k + 1022) * twoPow 52 + twoPow 52 := Nat.succ_mul _ _
    _ ≤ _ := Nat.add_le_add (Nat.mul_le_mul_right _ hplace) hmantissa

/-! ## Values of patterns -/

/-- Infinity is the pattern behind the greatest exponent. -/
theorem infinityBits_eq : infinityBits = (1024 + 1023) * twoPow 52 := rfl

/-- The value of a magnitude is the quotient of its ratio, whose denominator is positive. -/
theorem Magnitude.ratio_snd_pos (m : Magnitude) : 0 < m.ratio.2 := twoPow_pos _

/-- A magnitude stays below the power of two that its bits allow. -/
theorem Magnitude.ratio_lt {m : Magnitude} {k : Nat} (hmantissa : m.mantissa < twoPow 53)
    (hexponent : m.exponent + 53 ≤ k) : m.ratio.1 < m.ratio.2 * twoPow k := by
  unfold Magnitude.ratio
  have hplace : 53 + m.exponent.toNat ≤ (-m.exponent).toNat + k := by omega
  calc m.mantissa * twoPow m.exponent.toNat
      < twoPow 53 * twoPow m.exponent.toNat := Nat.mul_lt_mul_of_pos_right hmantissa (twoPow_pos _)
    _ = twoPow (53 + m.exponent.toNat) := (Nat.pow_add 2 53 _).symm
    _ ≤ twoPow ((-m.exponent).toNat + k) := Nat.pow_le_pow_right Nat.two_pos hplace
    _ = twoPow (-m.exponent).toNat * twoPow k := Nat.pow_add 2 _ _

/-- And it reaches the power of two that its first bit stands for. -/
theorem Magnitude.le_ratio {m : Magnitude} {k : Nat} (hmantissa : twoPow 52 ≤ m.mantissa)
    (hexponent : (k : Int) ≤ m.exponent + 52) : m.ratio.2 * twoPow k ≤ m.ratio.1 := by
  unfold Magnitude.ratio
  have hplace : (-m.exponent).toNat + k ≤ 52 + m.exponent.toNat := by omega
  calc twoPow (-m.exponent).toNat * twoPow k
      = twoPow ((-m.exponent).toNat + k) := (Nat.pow_add 2 _ _).symm
    _ ≤ twoPow (52 + m.exponent.toNat) := Nat.pow_le_pow_right Nat.two_pos hplace
    _ = twoPow 52 * twoPow m.exponent.toNat := Nat.pow_add 2 52 _
    _ ≤ m.mantissa * twoPow m.exponent.toNat := Nat.mul_le_mul_right _ hmantissa

/-- A pattern with a small exponent stands for a small number. -/
theorem ratio_magnitudeOfBits_lt {pattern k : Nat} (h : pattern ≤ (k + 1023) * twoPow 52) :
    (magnitudeOfBits pattern).ratio.1 < (magnitudeOfBits pattern).ratio.2 * twoPow (k + 1) := by
  unfold magnitudeOfBits
  by_cases hsmall : pattern < twoPow 52
  · rw [if_pos hsmall]
    have hdouble : twoPow 53 = 2 * twoPow 52 := rfl
    refine Magnitude.ratio_lt ?_ ?_
    · dsimp only
      omega
    · dsimp only
      omega
  · rw [if_neg hsmall]
    have hrest := Nat.mod_lt pattern (twoPow_pos 52)
    have hplace : pattern / twoPow 52 ≤ k + 1023 :=
      Nat.div_le_of_le_mul (by rwa [Nat.mul_comm])
    have hdouble : twoPow 53 = 2 * twoPow 52 := rfl
    refine Magnitude.ratio_lt ?_ ?_
    · dsimp only
      omega
    · dsimp only
      omega

/-- A pattern with a great exponent stands for a great one. -/
theorem le_ratio_magnitudeOfBits {pattern k : Nat} (h : (k + 1023) * twoPow 52 ≤ pattern) :
    (magnitudeOfBits pattern).ratio.2 * twoPow k ≤ (magnitudeOfBits pattern).ratio.1 := by
  unfold magnitudeOfBits
  have hplace : k + 1023 ≤ pattern / twoPow 52 := (Nat.le_div_iff_mul_le (twoPow_pos 52)).2 h
  have hlarge : ¬ pattern < twoPow 52 := by
    intro hsmall
    rw [Nat.div_eq_of_lt hsmall] at hplace
    omega
  rw [if_neg hlarge]
  refine Magnitude.le_ratio ?_ ?_
  · exact Nat.le_add_left _ _
  · dsimp only
    omega

/-! ## Scaling by powers of ten -/

theorem tenPow_pos (e : Nat) : 0 < tenPow e := Nat.pow_pos (by decide)

/-- The double for a power of ten is as large as the powers of two below it. -/
theorem le_ratio_powerOfTen {e k : Nat} (h : twoPow k ≤ tenPow e) (hk : k ≤ 1024) :
    (powerOfTen e).ratio.2 * twoPow k ≤ (powerOfTen e).ratio.1 := by
  have hpattern : min ((k + 1023) * twoPow 52) infinityBits ≤ nearestBits (tenPow e) 1 :=
    le_nearestBits Nat.one_pos (by rwa [Nat.one_mul])
  have hfinite : (k + 1023) * twoPow 52 ≤ infinityBits := by
    rw [infinityBits_eq]
    exact Nat.mul_le_mul_right _ (by omega)
  rw [min_eq_left hfinite] at hpattern
  exact le_ratio_magnitudeOfBits hpattern

/-- Division by a number that is at least `2 ^ j`. -/
theorem overBits_le {a b : Magnitude} {j k : Nat} (ha : a.ratio.1 < a.ratio.2 * twoPow (j + k))
    (hb : b.ratio.2 * twoPow j ≤ b.ratio.1) : overBits a b ≤ (k + 1023) * twoPow 52 := by
  have hbpos : 0 < b.ratio.1 :=
    lt_of_lt_of_le (Nat.mul_pos b.ratio_snd_pos (twoPow_pos j)) hb
  have hquotient : a.ratio.1 * b.ratio.2 < a.ratio.2 * b.ratio.1 * twoPow k := by
    calc a.ratio.1 * b.ratio.2
        < a.ratio.2 * twoPow (j + k) * b.ratio.2 :=
          Nat.mul_lt_mul_of_pos_right ha b.ratio_snd_pos
      _ = a.ratio.2 * (b.ratio.2 * twoPow j) * twoPow k := by
          rw [twoPow, Nat.pow_eq, pow_add, twoPow, twoPow, Nat.pow_eq, Nat.pow_eq]
          ring
      _ ≤ a.ratio.2 * b.ratio.1 * twoPow k :=
          Nat.mul_le_mul_right _ (Nat.mul_le_mul_left _ hb)
  exact nearestBits_le (Nat.mul_pos a.ratio_snd_pos hbpos) hquotient

theorem tenPow_le_tenPow {e e' : Nat} (h : e ≤ e') : tenPow e ≤ tenPow e' :=
  Nat.pow_le_pow_right (by decide) h

theorem two_le_tenPow_maxPowerOfTen : twoPow 1 ≤ tenPow maxPowerOfTen := by
  calc twoPow 1 ≤ tenPow 1 := by decide
    _ ≤ tenPow maxPowerOfTen := tenPow_le_tenPow (by decide)

/-- **What is scaled stays finite.** Division keeps a pattern below `2 ^ 65`, and a product past the
largest double is given up. -/
theorem lt_infinityBits_of_scaleBits {pattern result : Nat} {e : Int}
    (hpattern : pattern ≤ (64 + 1023) * twoPow 52) (h : scaleBits pattern e = some result) :
    result < infinityBits := by
  fun_induction scaleBits pattern e with
  | case1 pattern e hsmall hpositive scaled hfinite =>
      obtain rfl := Option.some.inj h
      exact hfinite
  | case2 pattern e hsmall hpositive scaled hinfinite => exact absurd h (by simp)
  | case3 pattern e hsmall hnegative =>
      obtain rfl := Option.some.inj h
      have hvalue := ratio_magnitudeOfBits_lt hpattern
      have hone : twoPow 0 ≤ tenPow e.natAbs := tenPow_pos _
      have hle := overBits_le (j := 0) (k := 65) hvalue (le_ratio_powerOfTen hone (by omega))
      exact lt_of_le_of_lt hle (Nat.mul_lt_mul_of_pos_right (by decide) (twoPow_pos 52))
  | case4 e hlarge =>
      obtain rfl := Option.some.inj h
      exact Nat.mul_pos (by decide) (twoPow_pos 52)
  | case5 pattern e hlarge hzero hpositive => exact absurd h (by simp)
  | case6 pattern e hlarge hzero hnegative ih =>
      refine ih ?_ h
      have hvalue := ratio_magnitudeOfBits_lt hpattern
      exact overBits_le (j := 1) (k := 64) hvalue
        (le_ratio_powerOfTen two_le_tenPow_maxPowerOfTen (by omega))

/-! ## Finite doubles -/

/-- A pattern below that of infinity stands for a finite number, whatever the sign. -/
theorem isFinite_ofSignedBits {negative : Bool} {pattern : Nat} (h : pattern < infinityBits) :
    (ofSignedBits negative pattern).isFinite = true := by
  have hinfinity : infinityBits = 2047 * twoPow 52 := rfl
  have h63 : twoPow 63 = 2048 * twoPow 52 := rfl
  have h64 : 2 ^ 64 = 2 * twoPow 63 := rfl
  have habs : (ofSignedBits negative pattern).absBits = pattern := by
    have hplain : pattern % twoPow 63 = pattern := Nat.mod_eq_of_lt (by omega)
    unfold absBits ofSignedBits
    dsimp only
    rw [UInt64.toNat_ofNat']
    cases negative with
    | true =>
        have hword : (twoPow 63 + pattern) % 2 ^ 64 = twoPow 63 + pattern :=
          Nat.mod_eq_of_lt (by omega)
        rw [if_pos rfl, hword, Nat.add_mod_left, hplain]
    | false =>
        have hword : pattern % 2 ^ 64 = pattern := Nat.mod_eq_of_lt (by omega)
        rw [if_neg Bool.false_ne_true, hword, hplain]
  unfold isFinite
  rw [habs]
  exact decide_eq_true h

/-- A whole number of at most 64 bits rounds to a finite double. -/
theorem nearestBits_lt_infinityBits {n : Nat} (h : n < twoPow 64) :
    nearestBits n 1 < infinityBits := by
  have hle : nearestBits n 1 ≤ (64 + 1023) * twoPow 52 :=
    nearestBits_le Nat.one_pos (by rwa [Nat.one_mul])
  exact lt_of_le_of_lt hle (Nat.mul_lt_mul_of_pos_right (by decide) (twoPow_pos 52))

/-- An integer of 64 bits is never rounded to infinity. -/
theorem isFinite_ofInt {n : Int} (h : n.natAbs < twoPow 64) : (ofInt n).isFinite = true :=
  isFinite_ofSignedBits (nearestBits_lt_infinityBits h)

/-- **A decimal that has a value is finite**, since one that overflows has none. -/
theorem isFinite_of_ofDecimal? {negative : Bool} {digits : Nat} {e : Int} {x : Binary64}
    (hdigits : digits < twoPow 64) (h : ofDecimal? negative digits e = some x) :
    x.isFinite = true := by
  obtain ⟨pattern, hpattern, rfl⟩ := Option.map_eq_some_iff.1 h
  have hle : nearestBits digits 1 ≤ (64 + 1023) * twoPow 52 :=
    nearestBits_le Nat.one_pos (by rwa [Nat.one_mul])
  exact isFinite_ofSignedBits (lt_infinityBits_of_scaleBits hle hpattern)

end Binary64

end ModelForge
