/-
`Basic.lean` -- JSON values and their compact text.

An object is a list of fields. Values that come from text have their fields in ascending order of
keys, each key once (`Json.ofFields`), and a repeated key has the later value. Numbers keep the
difference between integers of 64 bits and doubles, because the text of a value shows it.
-/
import ModelForge.Decimal.Style
import ModelForge.Text.KeyOrder

set_option autoImplicit false

namespace ModelForge

/-! ## Values -/

/-- A JSON number. -/
inductive JsonNumber where
  | integer (n : Int)
  | double (x : Binary64)
  deriving DecidableEq

/-- A JSON value. -/
inductive Json where
  | null
  | boolean (b : Bool)
  | number (n : JsonNumber)
  | text (s : String)
  | array (items : List Json)
  | object (fields : List (String × Json))
  deriving Inhabited

namespace Json

/-- The object with the given fields; of fields with one key the last one counts. -/
def ofFields (fields : List (String × Json)) : Json := .object (KeyedList.ofList fields)

/-- The value of a key, if the value is an object that has it. -/
def field? (key : String) : Json → Option Json
  | .object fields => fields.lookup key
  | _ => none

/-- The text of a string value. -/
def text? : Json → Option String
  | .text s => some s
  | _ => none

/-! ## Compact text -/

/-- A character inside a string: the two delimiters and the controls are escaped, five controls by a
letter and the others by four hexadecimal digits; all else stands as it is. -/
def escapedChar (c : Char) : List Char :=
  if c = '"' then ['\\', '"']
  else if c = '\\' then ['\\', '\\']
  else if c = '\n' then ['\\', 'n']
  else if c = '\r' then ['\\', 'r']
  else if c = '\t' then ['\\', 't']
  else if c = '\x08' then ['\\', 'b']
  else if c = '\x0c' then ['\\', 'f']
  else if c.toNat < 0x20 then
    ['\\', 'u', '0', '0', Nat.digitChar (c.toNat / 16), Nat.digitChar (c.toNat % 16)]
  else [c]

/-- A string with its quotes. -/
def textLiteral (s : String) : String :=
  String.ofList ('"' :: s.toList.flatMap escapedChar ++ ['"'])

/-- The text of a number. -/
def numberText : JsonNumber → String
  | .integer n => toString n
  | .double x => DecimalStyle.json.text x

mutual

/-- The text of a value, without blanks. -/
def render : Json → String
  | .null => "null"
  | .boolean b => if b then "true" else "false"
  | .number n => numberText n
  | .text s => textLiteral s
  | .array items => "[" ++ ",".intercalate (renderItems items) ++ "]"
  | .object fields => "\x7b" ++ ",".intercalate (renderFields fields) ++ "\x7d"

/-- The texts of the items of an array. -/
def renderItems : List Json → List String
  | [] => []
  | item :: rest => item.render :: renderItems rest

/-- The texts of the fields of an object. -/
def renderFields : List (String × Json) → List String
  | [] => []
  | (key, value) :: rest => (textLiteral key ++ ":" ++ value.render) :: renderFields rest

end

end Json

end ModelForge
