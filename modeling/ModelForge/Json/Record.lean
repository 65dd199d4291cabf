/-
`Record.lean` -- reading typed values out of JSON values.

A `Decoder` turns a JSON value into a typed one or says what does not fit. The interesting decoder
is `record`, which reads a fixed list of fields out of an object, or out of an array that lists
them in their declared order. An object is judged as a whole: a field with a wrong value is
reported before any missing field, of several wrong ones the one whose key comes first, and of
several missing ones the one declared first. So the order in which an object lists its fields has
no influence on the answer. An array is judged from left to right.
-/
import ModelForge.Json.Basic
import ModelForge.Text.Quoted

set_option autoImplicit false

namespace ModelForge

/-! ## What does not fit -/

/-- Why a JSON value is not what a decoder expects. -/
inductive Mismatch where
  /-- A field without a default is absent. -/
  | missingField (name : String)
  /-- A value is of another type than `expected`. -/
  | wrongType (found : Json) (expected : String)
  /-- An array has `found` items where `expected` says otherwise. -/
  | wrongLength (found : Nat) (expected : String)
  deriving Inhabited

/-- The kind of a value, with the value itself where it is short. -/
def Json.kindText : Json → String
  | .null => "null"
  | .boolean b => "boolean `" ++ (if b then "true" else "false") ++ "`"
  | .number (.integer n) => "integer `" ++ toString n ++ "`"
  | .number (.double x) => "floating point `" ++ DecimalStyle.json.text x ++ "`"
  | .text s => "string " ++ quoted s
  | .array _ => "sequence"
  | .object _ => "map"

/-- The report of a mismatch. -/
def Mismatch.message : Mismatch → String
  | .missingField name => "missing field `" ++ name ++ "`"
  | .wrongType found expected => "invalid type: " ++ found.kindText ++ ", expected " ++ expected
  | .wrongLength found expected => "invalid length " ++ toString found ++ ", expected " ++ expected

/-! ## Decoders of single values -/

/-- A reader of JSON values of one type. -/
abbrev Decoder (α : Type) := Json → Except Mismatch α

namespace Decoder

/-- Any value, as it is. -/
def any : Decoder Json := .ok

/-- A string. -/
def text : Decoder String
  | .text s => .ok s
  | found => .error (.wrongType found "a string")

/-- A boolean. -/
def boolean : Decoder Bool
  | .boolean b => .ok b
  | found => .error (.wrongType found "a boolean")

/-- A double; an integer is rounded to one. -/
def double : Decoder Binary64
  | .number (.double x) => .ok x
  | .number (.integer n) => .ok (Binary64.ofInt n)
  | found => .error (.wrongType found "f64")

/-- An array whose items are all read by `item`, up to the first that does not fit. -/
def list {α : Type} (item : Decoder α) : Decoder (List α)
  | .array items => items.mapM item
  | found => .error (.wrongType found "a sequence")

/-- A value that may be `null`. -/
def nullable {α : Type} (value : Decoder α) : Decoder (Option α)
  | .null => .ok none
  | found => (value found).map some

end Decoder

/-! ## Fields of an object -/

/-- The outcome of reading some fields of an object. -/
inductive Collected (α : Type) where
  | complete (value : α)
  | missing (field : String)
  | wrong (field : String) (mismatch : Mismatch)

namespace Collected

/-- Joins the outcomes of two groups of fields, the first group declared before the second. -/
def ap {α β : Type} (f : Collected (α → β)) (x : Collected α) : Collected β :=
  match f, x with
  | .wrong field m, .wrong field' m' => if field' < field then .wrong field' m' else .wrong field m
  | .wrong field m, _ => .wrong field m
  | _, .wrong field m => .wrong field m
  | .missing field, _ => .missing field
  | _, .missing field => .missing field
  | .complete f, .complete a => .complete (f a)

end Collected

/-! ## Items of an array -/

/-- The outcome of reading fields from the front of an array. -/
inductive Positional (α : Type) where
  /-- All fields are read; what is left of the array. -/
  | complete (value : α) (rest : List Json)
  /-- The array ends in front of the field with this number. -/
  | short (index : Nat)
  | wrong (mismatch : Mismatch)

/-! ## Records -/

/-- How to read a group of fields. -/
structure Record (α : Type) where
  /-- How many fields there are. -/
  size : Nat
  /-- Reads the fields by their keys. -/
  ofFields : List (String × Json) → Collected α
  /-- Reads the fields from the front of an array. -/
  ofItems : List Json → Positional α

namespace Record

/-- Two groups of fields, one after the other. -/
def ap {α β : Type} (f : Record (α → β)) (x : Record α) : Record β where
  size := f.size + x.size
  ofFields fields := (f.ofFields fields).ap (x.ofFields fields)
  ofItems items :=
    match f.ofItems items with
    | .complete g rest =>
        match x.ofItems rest with
        | .complete a rest' => .complete (g a) rest'
        | .short index => .short (f.size + index)
        | .wrong m => .wrong m
    | .short index => .short index
    | .wrong m => .wrong m

instance : Applicative Record where
  pure a :=
    { size := 0, ofFields := fun _ => .complete a, ofItems := fun items => .complete a items }
  seq f x := f.ap (x ())

/-- The value of a field that is there. -/
def collect {α : Type} (name : String) : Except Mismatch α → Collected α
  | .ok a => .complete a
  | .error m => .wrong name m

/-- The first item of an array, read as a field; `absent` is the outcome for an empty array. -/
def first {α : Type} (value : Decoder α) (absent : Positional α) : List Json → Positional α
  | [] => absent
  | item :: rest =>
      match value item with
      | .ok a => .complete a rest
      | .error m => .wrong m

/-- A field that has to be there. -/
def required {α : Type} (name : String) (value : Decoder α) : Record α where
  size := 1
  ofFields fields :=
    match fields.lookup name with
    | some found => collect name (value found)
    | none => .missing name
  ofItems := first value (.short 0)

/-- A field that may be left out or be `null`. An array has to list it all the same. -/
def optional {α : Type} (name : String) (value : Decoder α) : Record (Option α) where
  size := 1
  ofFields fields :=
    match fields.lookup name with
    | some found => collect name (value.nullable found)
    | none => .complete none
  ofItems := first value.nullable (.short 0)

/-- A field that has a default for its absence, but not for `null`. -/
def withDefault {α : Type} (name : String) (default : α) (value : Decoder α) : Record α where
  size := 1
  ofFields fields :=
    match fields.lookup name with
    | some found => collect name (value found)
    | none => .complete default
  ofItems := first value (.complete default [])

end Record

/-- A record with the given name: an object with its fields, or an array of them. -/
def Decoder.record {α : Type} (name : String) (fields : Record α) : Decoder α
  | .object found =>
      match fields.ofFields found with
      | .complete a => .ok a
      | .missing field => .error (.missingField field)
      | .wrong _ m => .error m
  | .array items =>
      match fields.ofItems items with
      | .complete a [] => .ok a
      | .complete _ (_ :: _) => .error (.wrongLength items.length "fewer elements in array")
      | .short index =>
          let plural := if fields.size = 1 then " element" else " elements"
          .error (.wrongLength index ("struct " ++ name ++ " with "
            ++ toString fields.size ++ plural))
      | .wrong m => .error m
  | found => .error (.wrongType found ("struct " ++ name))

end ModelForge
