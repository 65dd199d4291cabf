/-
`TypeText.lean` -- type expressions of the generated source.

The base of a type is boxed first, where it has to be, then wrapped as an array, then as an
option. So an absent array is told apart from an empty one.
-/
import ModelForge.Model.Primitive

set_option autoImplicit false

namespace ModelForge

/-! ## Wrapping -/

/-- A base type as an array, as an option, or as an option of an array. -/
def wrapType (base : String) (isArray isOptional : Bool) : String :=
  let inner := if isArray then "Vec<" ++ base ++ ">" else base
  if isOptional then "Option<" ++ inner ++ ">" else inner

/-- A base type behind a pointer. -/
def boxType (base : String) : String := "Box<" ++ base ++ ">"

/-- The type for a type name of the model: a keyword becomes the type of its primitive, and any
other name stays as it is. -/
def mapType (name : String) (isArray isOptional : Bool) : String :=
  let base := match Primitive.ofKeyword? name with
    | some p => p.typeText
    | none => name
  wrapType base isArray isOptional

/-! ## Hooks -/

/-- The functions that write and read the values of a member. -/
structure Hooks where
  serialize : String
  deserialize : String
  deriving DecidableEq, Repr

/-- The hooks of date-times. -/
def Hooks.dateTime : Hooks := ⟨"serialize_datetime", "deserialize_datetime"⟩

/-- The hooks of date-times that may be absent. -/
def Hooks.optionalDateTime : Hooks := ⟨"serialize_datetime_option", "deserialize_datetime_option"⟩

/-- The hooks of a member of primitive type. Arrays of date-times have none. -/
def hooksFor? (p : Primitive) (isArray isOptional : Bool) : Option Hooks :=
  match p, isArray, isOptional with
  | .dateTime, false, true => some .optionalDateTime
  | .dateTime, false, false => some .dateTime
  | .dateTime, true, _ => none
  | .boolean, _, _ => none
  | .integer, _, _ => none
  | .long, _, _ => none
  | .double, _, _ => none
  | .string, _, _ => none

end ModelForge
