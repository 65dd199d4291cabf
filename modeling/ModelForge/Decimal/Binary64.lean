/-
`Binary64.lean` -- double-precision numbers, as bit patterns with an exact value.

A finite double is a whole `mantissa` times a power of two. All arithmetic here is exact
arithmetic on natural numbers followed by one rounding, `nearestBits`, to the nearest double with
ties to even.
-/

set_option autoImplicit false

namespace ModelForge

/-- A power of two. -/
def twoPow (n : Nat) : Nat := Nat.pow 2 n

/-- A power of ten. -/
def tenPow (n : Nat) : Nat := Nat.pow 10 n

/-- A double-precision number, given by its 64 bits: sign, eleven bits of exponent, 52 of fraction.
Two patterns are kept apart even where they compare equal as numbers, as the two zeros do. -/
structure Binary64 where
  bits : UInt64
  deriving DecidableEq, Inhabited

namespace Binary64

/-! ## Magnitudes -/

/-- `mantissa * 2 ^ exponent`. -/
structure Magnitude where
  mantissa : Nat
  exponent : Int
  deriving DecidableEq

/-- A magnitude as a quotient of two natural numbers, the second one positive. -/
def Magnitude.ratio (m : Magnitude) : Nat × Nat :=
  (m.mantissa * twoPow m.exponent.toNat, twoPow (-m.exponent).toNat)

/-- The pattern of positive infinity; larger patterns without a sign are no numbers. -/
def infinityBits : Nat := 2047 * twoPow 52

/-- The magnitude of a pattern below `infinityBits`: the implicit leading bit is put back, except in
the subnormal range, where the exponent field is zero. -/
def magnitudeOfBits (pattern : Nat) : Magnitude :=
  if pattern < twoPow 52 then ⟨pattern, -1074⟩
  else ⟨pattern % twoPow 52 + twoPow 52, (pattern / twoPow 52 : Nat) - 1075⟩

/-! ## Rounding -/

/-- `num / den` to the nearest whole number, a half going to the even neighbour. -/
def divideToEven (num den : Nat) : Nat :=
  let floor := num / den
  let rest := 2 * (num % den)
  if rest < den then floor
  else if den < rest then floor + 1
  else floor + floor % 2

/-- The exponent of the largest power of two that is at most `num / den`, for positive `num`. -/
def binaryExponent (num den : Nat) : Int :=
  let guess : Int := (num.log2 : Int) - den.log2
  if den * twoPow guess.toNat ≤ num * twoPow (-guess).toNat then guess else guess - 1

/-- The pattern of the double nearest to `num / den`, ties to even. A mantissa that rounds up to
`2 ^ 53` carries into the exponent field by itself, and past the largest double the result is
infinity. -/
def nearestBits (num den : Nat) : Nat :=
  if num = 0 then 0
  else
    let exponent := max (binaryExponent num den - 52) (-1074)
    let mantissa := divideToEven (num * twoPow (-exponent).toNat) (den * twoPow exponent.toNat)
    min ((exponent + 1074).toNat * twoPow 52 + mantissa) infinityBits

/-! ## Doubles -/

/-- The value of a double. -/
inductive Value where
  | nan
  | infinite (negative : Bool)
  | finite (negative : Bool) (magnitude : Magnitude)

/-- Whether the sign bit is set. -/
def isNegative (x : Binary64) : Bool := twoPow 63 ≤ x.bits.toNat

/-- The pattern without its sign bit. -/
def absBits (x : Binary64) : Nat := x.bits.toNat % twoPow 63

/-- The value that a pattern stands for. -/
def value (x : Binary64) : Value :=
  if x.absBits < infinityBits then .finite x.isNegative (magnitudeOfBits x.absBits)
  else if x.absBits = infinityBits then .infinite x.isNegative
  else .nan

/-- Whether a double is neither an infinity nor no number at all. -/
def isFinite (x : Binary64) : Bool := x.absBits < infinityBits

/-- The double with the given sign and pattern. -/
def ofSignedBits (negative : Bool) (pattern : Nat) : Binary64 :=
  ⟨UInt64.ofNat (if negative then twoPow 63 + pattern else pattern)⟩

/-- The double nearest to an integer; zero has no sign. -/
def ofInt (n : Int) : Binary64 := ofSignedBits (n < 0) (nearestBits n.natAbs 1)

/-- The integer that a double is, if it is one. -/
def toInt? (x : Binary64) : Option Int :=
  match x.value with
  | .finite negative m =>
      let (num, den) := m.ratio
      if num % den = 0 then
        some (if negative then -(num / den : Nat) else (num / den : Nat))
      else none
  | _ => none

/-! ## Scaling by powers of ten

A decimal `n * 10 ^ e` is brought to a double in two steps: `n` is rounded, then it is multiplied or
divided by the double nearest to `10 ^ |e|`. Below `10 ^ (-308)` the division is made in steps of
`10 ^ 308`. Each step rounds, so the result may miss the nearest double by one place. -/

/-- The largest power of ten that is a double. -/
def maxPowerOfTen : Nat := 308

/-- The magnitude of the double nearest to `10 ^ e`. -/
def powerOfTen (e : Nat) : Magnitude := magnitudeOfBits (nearestBits (tenPow e) 1)

/-- The pattern of the rounded product of two magnitudes. -/
def timesBits (a b : Magnitude) : Nat :=
  let (num, den) := a.ratio
  let (num', den') := b.ratio
  nearestBits (num * num') (den * den')

/-- The pattern of the rounded quotient of two magnitudes. -/
def overBits (a b : Magnitude) : Nat :=
  let (num, den) := a.ratio
  let (num', den') := b.ratio
  nearestBits (num * den') (den * num')

/-- The pattern of the double `pattern` times `10 ^ e`; nothing when the result is past the largest
double. -/
def scaleBits (pattern : Nat) (e : Int) : Option Nat :=
  if _small : e.natAbs ≤ maxPowerOfTen then
    if 0 ≤ e then
      let scaled := timesBits (magnitudeOfBits pattern) (powerOfTen e.natAbs)
      if scaled < infinityBits then some scaled else none
    else some (overBits (magnitudeOfBits pattern) (powerOfTen e.natAbs))
  else if pattern = 0 then some 0
  else if 0 ≤ e then none
  else scaleBits (overBits (magnitudeOfBits pattern) (powerOfTen maxPowerOfTen)) (e + maxPowerOfTen)
  termination_by e.natAbs
  decreasing_by
    simp only [maxPowerOfTen] at *
    omega

/-- The double for `digits * 10 ^ e` with a sign; nothing when it is past the largest double. -/
def ofDecimal? (negative : Bool) (digits : Nat) (e : Int) : Option Binary64 :=
  (scaleBits (nearestBits digits 1) e).map (ofSignedBits negative)

end Binary64

end ModelForge
