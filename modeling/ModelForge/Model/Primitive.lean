/-
`Primitive.lean` -- the primitive types of the modelling language.

Each primitive has one keyword in a model and one spelling in the generated source. A name that is
no keyword refers to a declaration.
-/

set_option autoImplicit false

namespace ModelForge

/-- A primitive type. -/
inductive Primitive where
  | boolean
  | integer
  | long
  | double
  | dateTime
  | string
  deriving DecidableEq, Repr

namespace Primitive

/-- All primitives, in the order of the registry. -/
def all : List Primitive := [.boolean, .integer, .long, .double, .dateTime, .string]

/-- The keyword as a model writes it. -/
def keyword : Primitive → String
  | .boolean => "Boolean"
  | .integer => "Integer"
  | .long => "Long"
  | .double => "Double"
  | .dateTime => "DateTime"
  | .string => "String"

/-- The type expression of the generated source. -/
def typeText : Primitive → String
  | .boolean => "bool"
  | .integer => "i32"
  | .long => "i64"
  | .double => "f64"
  | .dateTime => "DateTime<Utc>"
  | .string => "String"

/-- What the values are. -/
def description : Primitive → String
  | .boolean => "Boolean value."
  | .integer => "32-bit signed integer."
  | .long => "64-bit signed integer."
  | .double => "Double-precision float."
  | .dateTime => "UTC timestamp, serialized with a fixed millisecond ISO-8601 profile."
  | .string => "UTF-8 string."

/-- The primitive that a keyword names. Keywords are case-sensitive: `string` names a declaration.
-/
def ofKeyword? (name : String) : Option Primitive := all.find? fun p => p.keyword = name

/-- A keyword names its own primitive, and nothing else names it. -/
theorem ofKeyword?_eq_some_iff {name : String} {p : Primitive} :
    ofKeyword? name = some p ↔ name = p.keyword := by
  constructor
  · intro h
    have := List.find?_some h
    simpa using (of_decide_eq_true this).symm
  · rintro rfl
    cases p <;> decide

end Primitive

end ModelForge
