/-
`Options.lean` -- what a generation run can be told.
-/
import ModelForge.Names.Reserved

set_option autoImplicit false

namespace ModelForge

/-- The choices of a run. -/
structure Options where
  /-- Words that are written as identifiers nowhere. -/
  reserved : WordSet
  /-- How date-times are written on the wire. -/
  dateTimeFormat : String

namespace Options

/-- Three digits of fraction and always universal time. -/
def defaultDateTimeFormat : String := "%Y-%m-%dT%H:%M:%S%.3fZ"

/-- The choices of a run that is told nothing. -/
def default : Options := ⟨defaultReserved, defaultDateTimeFormat⟩

/-- Reserves one more word. -/
def reserve (options : Options) (word : String) : Options :=
  { options with reserved := options.reserved.insert word }

/-- Sets the format of date-times. -/
def withDateTimeFormat (options : Options) (format : String) : Options :=
  { options with dateTimeFormat := format }

/-- Whether a word is reserved. -/
def isReserved (options : Options) (word : String) : Bool := decide (word ∈ options.reserved)

end Options

end ModelForge
