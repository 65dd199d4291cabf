/-
`Emitter.lean` -- fragments written call by call.

`Fragment.write` works out all lines of a fragment and then sends them. An emitter knows no more
than the level that it has come to. It writes a line when it meets one, and the first failure ends
the writing where it stands: the block that was being written is not closed, and the level is not
taken back.
-/
import ModelForge.Output.Fragment

set_option autoImplicit false

namespace ModelForge

/-- An effect of an emitter: there is a level, and there may be a failure. -/
abbrev EmitterT (m : Type → Type) := ExceptT GenerationError (StateT Nat m)

namespace EmitterT

variable {m : Type → Type} [Monad m]

/-- An effect that neither asks for the level nor changes it. -/
def lift {α : Type} (effect : m α) : EmitterT m α := ExceptT.lift (StateT.lift effect)

/-- What an effect answers when it starts at a level. -/
def answerFrom {α : Type} (level : Nat) (effect : EmitterT m α) : m (Except GenerationError α) :=
  Prod.fst <$> effect.run.run level

/-- The current level. -/
def level : EmitterT m Nat := ExceptT.lift get

/-- One level deeper from here on. -/
def indent : EmitterT m Unit := ExceptT.lift (modify (· + 1))

/-- One level back from here on, if there is one. -/
def dedent : EmitterT m Unit := ExceptT.lift (modify (· - 1))

variable [Sink m]

/-- Writes a line at the given level. -/
def lineAt (level : Nat) (text : String) : EmitterT m Unit := do
  match ← lift (Sink.perform (.writeLine ⟨level, text⟩)) with
  | .ok _ => pure ()
  | .error e => throw (.sink e)

/-- Writes a line at the current level. -/
def line (text : String) : EmitterT m Unit := do
  lineAt (← level) text

/-- Writes a header, a body one level deeper, and a closing brace. -/
def block (header : String) (body : EmitterT m Unit) : EmitterT m Unit := do
  line (header ++ " \x7b")
  indent
  body
  dedent
  line "\x7d"

end EmitterT

/-- Writes a fragment, from its first line to its last or to the first failure. -/
def Fragment.exec {m : Type → Type} [Monad m] [Sink m] : Fragment → EmitterT m Unit
  | nothing => pure ()
  | line text => EmitterT.line text
  | lineAt level text => EmitterT.lineAt level text
  | indent => EmitterT.indent
  | dedent => EmitterT.dedent
  | append first second => do
      first.exec
      second.exec
  | block header body => EmitterT.block header body.exec
  | abort error => throw error

end ModelForge
