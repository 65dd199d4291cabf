/-
`Error.lean` -- why units cannot be produced.

A sink fails on a call that is out of turn, or because what it stands for fails. A generation run
fails with its sink, or because two names of the model would become one name of the generated
source. No fault is recovered from: the first one ends the run.
-/

set_option autoImplicit false

namespace ModelForge

/-! ## Sinks -/

/-- Why a call on a sink fails. -/
inductive SinkError where
  /-- A unit was requested while another one was open. -/
  | unitAlreadyOpen (current requested : String)
  /-- A line or a seal came while no unit was open. -/
  | noOpenUnit
  /-- The unit could not be stored. -/
  | io (unit : String)
  deriving DecidableEq, Repr

namespace SinkError

/-- The report. -/
def message : SinkError → String
  | .unitAlreadyOpen current requested =>
      "cannot open unit `" ++ requested ++ "` while `" ++ current ++ "` is still open"
  | .noOpenUnit => "no output unit is open"
  | .io unit => "cannot write output unit `" ++ unit ++ "`"

/-- The diagnostic code of the report. -/
def code : SinkError → String
  | .unitAlreadyOpen .. => "modelgen::sink::unit_already_open"
  | .noOpenUnit => "modelgen::sink::no_open_unit"
  | .io _ => "modelgen::sink::io"

/-- What may help, where there is advice. -/
def help? : SinkError → Option String
  | .io _ => some "check that the output directory is writable"
  | .unitAlreadyOpen .. => none
  | .noOpenUnit => none

end SinkError

/-! ## Generation runs -/

/-- Why a generation run fails. -/
inductive GenerationError where
  | sink (error : SinkError)
  /-- Two namespaces would become one module. -/
  | moduleCollision (module first second : String)
  /-- A namespace would become a module whose name is taken. -/
  | reservedModule (owner module : String)
  /-- Two members of a declaration would become one member. -/
  | memberCollision (declaration field first second : String)
  deriving DecidableEq, Repr

namespace GenerationError

/-- The report. -/
def message : GenerationError → String
  | .sink error => error.message
  | .moduleCollision module first second =>
      "namespaces `" ++ first ++ "` and `" ++ second ++ "` both map to module `" ++ module ++ "`"
  | .reservedModule owner module =>
      "namespace `" ++ owner ++ "` maps to module `" ++ module ++ "`, which is reserved"
  | .memberCollision declaration field first second =>
      "`" ++ declaration ++ "` has members `" ++ first ++ "` and `" ++ second
        ++ "` that both map to field `" ++ field ++ "`"

/-- The diagnostic code of the report. -/
def code : GenerationError → String
  | .sink error => error.code
  | .moduleCollision .. => "modelgen::generate::module_collision"
  | .reservedModule .. => "modelgen::generate::reserved_module"
  | .memberCollision .. => "modelgen::generate::member_collision"

/-- What may help, where there is advice. -/
def help? : GenerationError → Option String
  | .sink error => error.help?
  | .moduleCollision .. =>
      some "module names replace `.` and `@` with `_`; rename one of the namespaces"
  | .reservedModule .. =>
      some
        "`utils`, `mod` and Rust keywords cannot name a generated module; rename the namespace"
  | .memberCollision .. => none

end GenerationError

end ModelForge
