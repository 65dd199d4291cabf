/-
`Style.lean` -- how doubles are written out.

The digits come from `Binary64.Magnitude.shortest`. A `DecimalStyle` says where the decimal point
may stand, whether a whole number shows that it is a double, and which way a tie between digits
goes.
-/
import ModelForge.Decimal.Shortest

set_option autoImplicit false

namespace ModelForge

/-! ## Styles -/

/-- The decisions of a number format. -/
structure DecimalStyle where
  /-- Whether a number whose decimal point stands after the given digit is written without an
  exponent. Place `0` is in front of the first digit. -/
  positional : Int → Bool
  /-- What follows the digits of a whole number that is written without an exponent. -/
  wholeSuffix : String
  /-- Which of two equally near decimals is shown. -/
  tie : Tie

/-- Numbers in JSON text: no exponent from `0.00001` up to below `10 ^ 16`, and always a point or an
exponent, so that a double is told apart from an integer. -/
def DecimalStyle.json : DecimalStyle where
  positional place := -5 < place && place ≤ 16
  wholeSuffix := ".0"
  tie := .even

/-- Numbers in the arguments of a decorator: never an exponent. -/
def DecimalStyle.plain : DecimalStyle where
  positional _ := true
  wholeSuffix := ""
  tie := .up

/-! ## Texts -/

/-- So many zeros. -/
def zeros (n : Nat) : String := String.ofList (List.replicate n '0')

/-- Digits with the decimal point after the first `place` of them, filled up with zeros on either
side. -/
def DecimalStyle.positionalText (style : DecimalStyle) (digits : List Char) (place : Int) :
    String :=
  if place ≤ 0 then
    "0." ++ zeros (-place).toNat ++ String.ofList digits
  else if digits.length ≤ place.toNat then
    String.ofList digits ++ zeros (place.toNat - digits.length) ++ style.wholeSuffix
  else
    String.ofList (digits.take place.toNat) ++ "." ++ String.ofList (digits.drop place.toNat)

/-- Digits with the point after the first of them and an exponent that makes up for it. The exponent
has a sign in either direction. -/
def exponentText (digits : List Char) (place : Int) : String :=
  let power := place - 1
  let mark := if power < 0 then "e-" else "e+"
  let rest := digits.drop 1
  let mantissa :=
    if rest.isEmpty then String.ofList digits
    else String.ofList (digits.take 1) ++ "." ++ String.ofList rest
  mantissa ++ mark ++ toString power.natAbs

/-- A positive magnitude. -/
def DecimalStyle.magnitudeText (style : DecimalStyle) (m : Binary64.Magnitude) : String :=
  let decimal := m.shortest style.tie
  let digits := Nat.toDigits 10 decimal.digits
  let place := decimal.exponent + digits.length
  if style.positional place then style.positionalText digits place else exponentText digits place

/-- A double: its sign and its magnitude, or one of the three names of the other values. -/
def DecimalStyle.text (style : DecimalStyle) (x : Binary64) : String :=
  match x.value with
  | .nan => "NaN"
  | .infinite negative => if negative then "-inf" else "inf"
  | .finite negative m =>
      let magnitude := if m.mantissa = 0 then "0" ++ style.wholeSuffix else style.magnitudeText m
      if negative then "-" ++ magnitude else magnitude

end ModelForge
