/-
`Command.lean` -- what the command does.

Generating into a directory clears the directory first. Before anything is touched it is made sure
that the model is not in there, and the model is loaded before the directory is cleared; so a run
that is rejected leaves all files as they are.
-/
import ModelForge.Cli.Arguments
import ModelForge.Files.Sink
import ModelForge.Generate.Run
import ModelForge.Metamodel.Source

set_option autoImplicit false

namespace ModelForge

/-! ## Failures -/

/-- Why the command fails. -/
inductive CommandError where
  | load (error : LoadError)
  | generation (error : GenerationError)
  /-- Clearing the output directory would remove the model. -/
  | holdsModel (outputDirectory model : String)
  | notCleared (outputDirectory : String) (fault : FileFault)

namespace CommandError

/-- The diagnostic code, where the failure has one. -/
def code? : CommandError → Option String
  | .load error => some error.code
  | .generation error => some error.code
  | .holdsModel .. => none
  | .notCleared .. => none

/-- A report of several lines: the code, what is wrong, and what may help. -/
def report (code message : String) (help? : Option String) : String :=
  let advice := match help? with
    | some help => "\n  help: " ++ help
    | none => ""
  code ++ "\n\n  × " ++ message ++ advice

/-- What is wrong, without the words of the system. -/
def headline : CommandError → String
  | .load error => error.message
  | .generation error => error.message
  | .holdsModel outputDirectory model =>
      "Refusing to clear output directory '" ++ outputDirectory
        ++ "': it contains the model source '" ++ model
        ++ "' (use --no-clean or another directory)"
  | .notCleared outputDirectory _ => "Error clearing output directory '" ++ outputDirectory ++ "'"

/-- What the user is told. -/
def message (error : CommandError) : String :=
  match error with
  | .load e => report e.code error.headline e.help?
  | .generation e => report e.code error.headline e.help?
  | .holdsModel .. => error.headline
  | .notCleared _ fault => error.headline ++ ": " ++ fault.reason

end CommandError

/-! ## Commands -/

section

variable {m : Type → Type} [Monad m] [FileSystem m]

/-- Whether a model lies in a directory. It does not where one of the two is missing. -/
def holdsModel (model directory : String) : m Bool := do
  match ← FileSystem.canonical model with
  | .error _ => pure false
  | .ok modelPlace =>
      match ← FileSystem.canonical directory with
      | .error _ => pure false
      | .ok place => pure (place.isPrefixOf modelPlace)

/-- Generates a graph into a directory, which is cleared first if `clean` is set. -/
def generateGraph (g : Graph) (outputDirectory : String) (clean : Bool) :
    m (Except CommandError Unit) := do
  let cleared ← if clean then FileSink.clear outputDirectory else pure (.ok ())
  match cleared with
  | .error fault => pure (.error (.notCleared outputDirectory fault))
  | .ok _ =>
      match ← (generate Options.default g : StateT FileSink m _).run (.fresh outputDirectory) with
      | (.ok _, _) => pure (.ok ())
      | (.error e, _) => pure (.error (.generation e))

/-- Generates a model into a directory. -/
def generateDirectory (model outputDirectory : String) (clean : Bool) :
    m (Except CommandError Unit) := do
  let refused ← if clean then holdsModel model outputDirectory else pure false
  if refused then pure (.error (.holdsModel outputDirectory model))
  else
    match ← loadPath model with
    | .error e => pure (.error (.load e))
    | .ok g => generateGraph g outputDirectory clean

/-- A unit under a line with its name. -/
def printedUnit (unit : SourceUnit) : String := "// ==> " ++ unit.name ++ "\n" ++ unit.text

/-- The units of a model as one text. -/
def emitUnits (model : String) : m (Except CommandError String) := do
  match ← loadPath model with
  | .error e => pure (.error (.load e))
  | .ok g =>
      match (generate Options.default g : StateM MemorySink _).run .empty with
      | (.ok _, sink) => pure (.ok (String.join (sink.units.map printedUnit)))
      | (.error e, _) => pure (.error (.generation e))

/-- Does what the command is told; the text to print. -/
def execute (invocation : Invocation) : m (Except CommandError String) := do
  if invocation.emit then emitUnits invocation.model
  else
    let directory := Path.asDirectory invocation.outputDirectory
    match ← generateDirectory invocation.model directory (!invocation.noClean) with
    | .ok _ => pure (.ok "")
    | .error e => pure (.error e)

end

/-! ## Texts -/

/-- The version of the command. -/
def version : String := "0.1.0"

/-- What the command prints when it is asked for its version. -/
def versionText : String := "modelgen " ++ version ++ "\n"

/-- How the command is called. -/
def usageText : String := "Usage: modelgen [OPTIONS] <MODEL> <OUTPUT_DIR>\n"

/-- What the command prints when it is asked for help. -/
def helpText : String :=
  "Generate Rust/serde types from a model set\n\n"
    ++ usageText
    ++ "\nArguments:\n"
    ++ "  <MODEL>       Model file (JSON metamodel) or directory of model files\n"
    ++ "  <OUTPUT_DIR>  Directory receiving the generated sources\n"
    ++ "\nOptions:\n"
    ++ "      --no-clean  Keep prior contents of OUTPUT_DIR instead of clearing it\n"
    ++ "      --emit      Print generated units to stdout instead of writing files\n"
    ++ "  -h, --help      Print help\n"
    ++ "  -V, --version   Print version\n"

/-- What is told to a user whose arguments cannot be carried out. -/
def UsageStop.message : UsageStop → String
  | .helpRequested => helpText
  | .versionRequested => versionText
  | .missingArgument => "error: a required argument is missing\n\n" ++ usageText
  | .unknownArgument => "error: unexpected argument\n\n" ++ usageText
  | .repeatedFlag => "error: a flag cannot be used multiple times\n\n" ++ usageText
  | .flagWithValue => "error: a flag takes no value\n\n" ++ usageText
  | .emptyPath => "error: a path is empty\n\n" ++ usageText

/-! ## The whole command -/

/-- What a run of the command leaves behind, apart from files. -/
structure Outcome where
  exitCode : UInt32
  output : String
  /-- Text for the user that is not output. -/
  complaint : String

/-- A run of the command: the outcome, and the failure if it is one of the command itself. -/
def runCommand {m : Type → Type} [Monad m] [FileSystem m] (arguments : List String) :
    m (Outcome × Option CommandError) := do
  match Invocation.ofArguments arguments with
  | .error stop =>
      if stop.exitCode = 0 then pure (⟨0, stop.message, ""⟩, none)
      else pure (⟨stop.exitCode, "", stop.message⟩, none)
  | .ok invocation =>
      match ← execute invocation with
      | .ok output => pure (⟨0, output, ""⟩, none)
      | .error e => pure (⟨1, "", e.message ++ "\n"⟩, some e)

end ModelForge
