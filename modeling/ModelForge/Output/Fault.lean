/-
`Fault.lean` -- a sink that fails at a chosen call.

To see what a run does when its sink fails, the sink is wrapped: the wrapper counts the calls that
can fail, passes them on, and fails the chosen one without passing it on. With which error it
fails is chosen as well. It also records what it saw.
-/
import ModelForge.Output.Sink

set_option autoImplicit false

namespace ModelForge

/-- What a wrapped sink saw. -/
inductive SinkEvent where
  | call (call : SinkCall)
  | abandon
  /-- The chosen call came and was failed. -/
  | fault
  deriving DecidableEq, Repr

namespace SinkEvent

/-- The event in a listing. -/
def text : SinkEvent → String
  | .call (.openUnit name) => "open " ++ name
  | .call (.writeLine line) => toString line.indent ++ "|" ++ line.text
  | .call .closeUnit => "close"
  | .abandon => "abandon"
  | .fault => "fault"

end SinkEvent

/-- The state of a wrapped sink. -/
structure FaultState where
  /-- The number of the call that fails, from one; with zero none does. -/
  failAt : Nat
  /-- The answer to that call. -/
  error : SinkError
  /-- How many calls there were. -/
  calls : Nat
  /-- What was seen, the last event first. -/
  events : List SinkEvent

namespace FaultState

/-- The error that names the failed call. -/
def injected (call : Nat) : SinkError := .io ("call " ++ toString call)

/-- The state before the first call. If no error is chosen, the error names the call. -/
def fresh (failAt : Nat) (error : SinkError := injected failAt) : FaultState :=
  ⟨failAt, error, 0, []⟩

/-- The last events, in order, at most so many. -/
def lastEvents (state : FaultState) (count : Nat) : List SinkEvent :=
  (state.events.take count).reverse

instance {m : Type → Type} [Monad m] [Sink m] : Sink (StateT FaultState m) where
  perform call := fun state => do
    let number := state.calls + 1
    if number = state.failAt then
      pure (.error state.error, { state with calls := number, events := .fault :: state.events })
    else
      let outcome ← Sink.perform call
      pure (outcome, { state with calls := number, events := .call call :: state.events })
  abandon := fun state => do
    Sink.abandon
    pure ((), { state with events := .abandon :: state.events })

end FaultState

end ModelForge
