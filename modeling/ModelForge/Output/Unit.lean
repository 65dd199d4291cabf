/-
`Unit.lean` -- units of generated source, and the one that is being written.

A unit is a name and a list of lines. It is written into a buffer, which holds at most one unit at
a time; taking the unit out of the buffer seals it. A call that is out of turn is an error and
leaves the buffer as it is.
-/
import ModelForge.Output.Error

set_option autoImplicit false

namespace ModelForge

/-! ## Lines -/

/-- A line of source: how many levels deep it stands, and its text. -/
structure Line where
  indent : Nat
  text : String
  deriving DecidableEq, Repr

namespace Line

/-- The line without text. -/
def blank : Line := ⟨0, ""⟩

/-- The indentation of one level. -/
def levelIndent : String := "    "

/-- A line as it is stored. A line without text is empty at every level. -/
def render (line : Line) : String :=
  if line.text.isEmpty then ""
  else String.join (List.replicate line.indent levelIndent) ++ line.text

end Line

/-! ## Units -/

/-- A sealed unit. -/
structure SourceUnit where
  name : String
  lines : List String
  deriving DecidableEq, Repr

/-- The unit as the contents of a file: every line is followed by a line feed, and a unit without
lines is one line feed. -/
def SourceUnit.text (unit : SourceUnit) : String := "\n".intercalate unit.lines ++ "\n"

/-- A unit that is being written. -/
structure OpenUnit where
  name : String
  lines : Array String

/-- The unit once it is sealed. -/
def OpenUnit.sealed (unit : OpenUnit) : SourceUnit := ⟨unit.name, unit.lines.toList⟩

/-! ## The buffer -/

/-- Room for one open unit. -/
structure UnitBuffer where
  current : Option OpenUnit

namespace UnitBuffer

/-- The buffer without a unit. -/
def empty : UnitBuffer := ⟨none⟩

/-- Whether a unit is open. -/
def isOpen (buffer : UnitBuffer) : Bool := buffer.current.isSome

/-- Opens a unit without lines. -/
def start (buffer : UnitBuffer) (name : String) : Except SinkError UnitBuffer :=
  match buffer.current with
  | some unit => .error (.unitAlreadyOpen unit.name name)
  | none => .ok ⟨some ⟨name, #[]⟩⟩

/-- Appends a line to the open unit. -/
def write (buffer : UnitBuffer) (line : Line) : Except SinkError UnitBuffer :=
  match buffer with
  | ⟨some ⟨name, lines⟩⟩ => .ok ⟨some ⟨name, lines.push line.render⟩⟩
  | ⟨none⟩ => .error .noOpenUnit

/-- The open unit, sealed. What is left is the empty buffer. -/
def take (buffer : UnitBuffer) : Except SinkError SourceUnit :=
  match buffer.current with
  | some unit => .ok unit.sealed
  | none => .error .noOpenUnit

end UnitBuffer

end ModelForge
