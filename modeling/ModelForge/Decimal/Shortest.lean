/-
`Shortest.lean` -- the fewest decimal digits that read back to a double.

The reals that round to a double form an interval around it. Decimals of `n` significant digits
form a grid; if the grid has a point in the interval, then one of the two neighbours of the double
on the grid is one. So the search tries `n = 1, 2, …` and stops at the first grid with a hit;
seventeen digits always hit. Of two hits the nearer one is taken, and a tie is left to the caller.
-/
import ModelForge.Decimal.Binary64

set_option autoImplicit false

namespace ModelForge

/-- Which of two equally near decimals is taken. -/
inductive Tie where
  /-- The one whose last digit is even. -/
  | even
  /-- The larger one. -/
  | up
  deriving DecidableEq

/-- `digits * 10 ^ exponent`. -/
structure Decimal where
  digits : Nat
  exponent : Int
  deriving DecidableEq

namespace Decimal

/-- The same value without trailing zeros in its digits. -/
def stripZeros (d : Decimal) : Decimal :=
  if h : 0 < d.digits ∧ d.digits % 10 = 0 then
    stripZeros ⟨d.digits / 10, d.exponent + 1⟩
  else d
  termination_by d.digits
  decreasing_by exact Nat.div_lt_self h.1 (by decide)

/-- A decimal as a quotient of two natural numbers, the second one positive. -/
def ratio (d : Decimal) : Nat × Nat :=
  (d.digits * tenPow d.exponent.toNat, tenPow (-d.exponent).toNat)

end Decimal

namespace Binary64.Magnitude

/-! ## The interval of a magnitude

Quarters of the last place give whole bounds: the next double is one place away, so the upper
bound is two quarters up. The lower one is two quarters down, or one where the double below is
only half a place away, which is so exactly at a power of two above the subnormal range. -/

/-- Quarters of a place from the lower bound to the value. -/
def quartersBelow (m : Magnitude) : Nat :=
  if m.mantissa = twoPow 52 ∧ -1074 < m.exponent then 1 else 2

/-- Whether `d` lies among the reals that round to `m`. The bounds round to the even mantissa, so
they belong to the interval exactly if the mantissa is even. -/
def absorbs (m : Magnitude) (d : Decimal) : Bool :=
  let (num, den) := d.ratio
  let scaleUp := twoPow (m.exponent - 2).toNat
  let scaleDown := twoPow (2 - m.exponent).toNat
  let low := (4 * m.mantissa - m.quartersBelow) * scaleUp * den
  let high := (4 * m.mantissa + 2) * scaleUp * den
  let here := num * scaleDown
  if m.mantissa % 2 = 0 then low ≤ here && here ≤ high else low < here && here < high

/-! ## Grids -/

/-- The place of the decimal point: the least of four candidates `k` around an estimate for which
the magnitude is below `10 ^ k`. The estimate comes from the binary logarithm. -/
def pointPlace (m : Magnitude) : Int :=
  let (num, den) := m.ratio
  let estimate := (binaryExponent num den) * 30103 / 100000
  let below (k : Int) : Bool := num * tenPow (-k).toNat < den * tenPow k.toNat
  let candidates := [estimate - 1, estimate, estimate + 1, estimate + 2]
  (candidates.find? below).getD (estimate + 2)

/-- The two neighbours of `m` on the grid of multiples of `10 ^ exponent`. -/
def neighbours (m : Magnitude) (exponent : Int) : Decimal × Decimal :=
  let (num, den) := m.ratio
  let floor := num * tenPow (-exponent).toNat / (den * tenPow exponent.toNat)
  (⟨floor, exponent⟩, ⟨floor + 1, exponent⟩)

/-- The nearer neighbour of `m`, a tie going as `tie` says. -/
def nearer (m : Magnitude) (tie : Tie) (below above : Decimal) : Decimal :=
  let (num, den) := m.ratio
  let grid := den * tenPow below.exponent.toNat
  let twice := 2 * num * tenPow (-below.exponent).toNat
  let middle := (below.digits + above.digits) * grid
  if twice < middle then below
  else if middle < twice then above
  else match tie with
    | .even => if below.digits % 2 = 0 then below else above
    | .up => above

/-- The hit of the grid with the given exponent, if it has one. -/
def hit? (m : Magnitude) (tie : Tie) (exponent : Int) : Option Decimal :=
  let (below, above) := m.neighbours exponent
  match m.absorbs below, m.absorbs above with
  | true, true => some (m.nearer tie below above)
  | true, false => some below
  | false, true => some above
  | false, false => none

/-- The decimal with the fewest digits among those that round to `m`, the nearest one of that many
digits; `m` is positive. -/
def shortest (m : Magnitude) (tie : Tie) : Decimal :=
  let place := m.pointPlace
  let hit := (List.range 17).findSome? fun (n : Nat) => m.hit? tie (place - 1 - n)
  (hit.getD ⟨0, 0⟩).stripZeros

end Binary64.Magnitude

end ModelForge
