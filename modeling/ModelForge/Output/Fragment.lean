/-
`Fragment.lean` -- pieces of generated source.

A fragment says what to write without writing it: its lines, the changes of the indentation level
between them, and where it gives up. `Fragment.emit` turns it into the lines with their levels,
and `Fragment.write` sends those to a sink, up to the first that the sink refuses. The level a
fragment ends at is part of what it yields, because the next fragment of the same unit goes on
from there.
-/
import ModelForge.Output.Sink

set_option autoImplicit false

namespace ModelForge

/-- A piece of generated source. -/
inductive Fragment where
  | nothing
  /-- A line at the current level. -/
  | line (text : String)
  /-- A line at the given level, whatever the current one is. -/
  | lineAt (level : Nat) (text : String)
  /-- One level deeper from here on. -/
  | indent
  /-- One level back from here on, if there is one. -/
  | dedent
  | append (first second : Fragment)
  /-- A header, a body one level deeper, and a closing brace. -/
  | block (header : String) (body : Fragment)
  /-- The end of all writing. -/
  | abort (error : GenerationError)
  deriving Inhabited

/-- What a fragment yields: lines, the level after the last of them, and why it gave up, if it
did. -/
structure Emission where
  lines : List Line
  level : Nat
  error? : Option GenerationError

/-- What two fragments yield one after the other. After an error nothing follows. -/
def Emission.andThen (emission : Emission) (next : Nat → Emission) : Emission :=
  match emission.error? with
  | some _ => emission
  | none =>
      let rest := next emission.level
      { rest with lines := emission.lines ++ rest.lines }

namespace Fragment

instance : Append Fragment := ⟨append⟩

/-- The fragments of a list, one after the other. -/
def all (fragments : List Fragment) : Fragment := fragments.foldr append nothing

/-- The lines of a list, all at the current level. -/
def lines (texts : List String) : Fragment := all (texts.map line)

/-! ## Items of the generated language -/

/-- A blank line, which stands at no level. -/
def blank : Fragment := lineAt 0 ""

/-- An attribute of the item that follows. -/
def attr (body : String) : Fragment := line ("#[" ++ body ++ "]")

/-- A `use` declaration. -/
def use (path : String) : Fragment := line ("use " ++ path ++ ";")

/-- A line of documentation of the item that follows. -/
def doc (text : String) : Fragment := line ("/// " ++ text)

/-- The attribute that derives traits, if there are any to derive. -/
def derive (traits : List String) : Fragment :=
  if traits.isEmpty then nothing else attr ("derive(" ++ ", ".intercalate traits ++ ")")

/-! ## Meaning -/

/-- What a fragment yields when it starts at a level. The level goes back behind a block only if the
block is written to its end. -/
def emit : Fragment → Nat → Emission
  | nothing, level => ⟨[], level, none⟩
  | line text, level => ⟨[⟨level, text⟩], level, none⟩
  | lineAt other text, level => ⟨[⟨other, text⟩], level, none⟩
  | indent, level => ⟨[], level + 1, none⟩
  | dedent, level => ⟨[], level - 1, none⟩
  | append first second, level => (first.emit level).andThen second.emit
  | block header body, level =>
      let opening : Emission := ⟨[⟨level, header ++ " \x7b"⟩], level + 1, none⟩
      (opening.andThen body.emit).andThen fun inner => ⟨[⟨inner - 1, "\x7d"⟩], inner - 1, none⟩
  | abort error, level => ⟨[], level, some error⟩

/-! ## Writing -/

variable {m : Type → Type} [Monad m] [Sink m]

/-- Writes what a fragment yields into the open unit. -/
def write (fragment : Fragment) (level : Nat) : m (Except GenerationError Unit) := do
  let emission := fragment.emit level
  match ← Sink.performAll (emission.lines.map .writeLine) with
  | .error e => pure (.error (.sink e))
  | .ok _ =>
      match emission.error? with
      | some e => pure (.error e)
      | none => pure (.ok ())

/-- Writes fragments one after the other, also behind one that failed; the outcome of each. -/
def writeEach (level : Nat) : List Fragment → m (List (Except GenerationError Unit))
  | [] => pure []
  | fragment :: rest => do
      let outcome ← fragment.write level
      let outcomes ← writeEach (fragment.emit level).level rest
      pure (outcome :: outcomes)

/-- Writes a fragment as a unit of its own. -/
def writeUnit (name : String) (fragment : Fragment) : m (Except GenerationError Unit) :=
  Sink.withUnit name .seal (fragment.write 0)

end Fragment

end ModelForge
