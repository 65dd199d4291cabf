/-
`Sink.lean` -- where units go.

A sink answers three calls that can fail, `SinkCall`, and one that cannot: `abandon` closes the
open unit without publishing it. Nothing that writes a unit makes the calls one by one. It goes
through `withUnit`, which opens the unit, and abandons it when the body fails; so a body that
fails leaves no unit open.
-/
import ModelForge.Output.Unit

set_option autoImplicit false

namespace ModelForge

/-! ## Calls -/

/-- A call on a sink that can fail. -/
inductive SinkCall where
  | openUnit (name : String)
  | writeLine (line : Line)
  | closeUnit
  deriving DecidableEq, Repr

/-- An effect that takes units. -/
class Sink (m : Type → Type) where
  /-- Makes a call. -/
  perform : SinkCall → m (Except SinkError Unit)
  /-- Closes the open unit without publishing it; does nothing when none is open. -/
  abandon : m Unit

namespace Sink

variable {m : Type → Type} [Monad m] [Sink m]

/-- Makes calls one after the other, up to the first that fails. -/
def performAll : List SinkCall → m (Except SinkError Unit)
  | [] => pure (.ok ())
  | call :: rest => do
      match ← perform call with
      | .ok _ => performAll rest
      | .error e => pure (.error e)

/-! ## Units -/

/-- What becomes of a unit whose body has succeeded. -/
inductive Closing where
  | seal
  | drop
  deriving DecidableEq, Repr

/-- Opens a unit, runs the body, and closes the unit. A body that fails has its unit abandoned. When
sealing fails, it is the sink that has to know what became of the unit: nothing is abandoned. -/
def withUnit {α : Type} (name : String) (closing : Closing)
    (body : m (Except GenerationError α)) : m (Except GenerationError α) := do
  match ← perform (.openUnit name) with
  | .error e => pure (.error (.sink e))
  | .ok _ =>
      match ← body with
      | .error e =>
          abandon
          pure (.error e)
      | .ok a =>
          match closing with
          | .drop =>
              abandon
              pure (.ok a)
          | .seal =>
              match ← perform .closeUnit with
              | .ok _ => pure (.ok a)
              | .error e => pure (.error (.sink e))

end Sink

/-! ## Units in memory -/

/-- A sink that keeps what is sealed, in order. -/
structure MemorySink where
  buffer : UnitBuffer
  units : List SourceUnit

namespace MemorySink

/-- The sink without units. -/
def empty : MemorySink := ⟨.empty, []⟩

/-- Whether a unit is open. -/
def isOpen (sink : MemorySink) : Bool := sink.buffer.isOpen

/-- The first sealed unit of the given name. -/
def unit? (sink : MemorySink) (name : String) : Option SourceUnit :=
  sink.units.find? fun unit => unit.name = name

/-- The effect of a call. -/
def step (sink : MemorySink) : SinkCall → Except SinkError MemorySink
  | .openUnit name => (sink.buffer.start name).map fun buffer => ⟨buffer, sink.units⟩
  | .writeLine line => (sink.buffer.write line).map fun buffer => ⟨buffer, sink.units⟩
  | .closeUnit => sink.buffer.take.map fun unit => ⟨.empty, sink.units ++ [unit]⟩

/-- The sink with its open unit dropped. -/
def abandoned (sink : MemorySink) : MemorySink := ⟨.empty, sink.units⟩

instance : Sink (StateM MemorySink) where
  perform call := fun sink =>
    match sink.step call with
    | .ok sink' => pure (.ok (), sink')
    | .error e => pure (.error e, sink)
  abandon := modify abandoned

end MemorySink

end ModelForge
