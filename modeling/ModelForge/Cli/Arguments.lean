/-
`Arguments.lean` -- the arguments of the command.

The command takes a model, an output directory and two flags, in any order. After `--` every
argument is one of the two paths. The arguments are read from left to right, and the first fault
ends the reading. A path is judged only when the next path or flag comes, or at the end; so an
unknown argument right behind an empty path is reported before the path is.
-/
import ModelForge.Files.Path

set_option autoImplicit false

namespace ModelForge

/-! ## Outcomes -/

/-- What the command is told to do. -/
structure Invocation where
  model : String
  outputDirectory : String
  /-- Whether what is in the output directory stays. -/
  noClean : Bool
  /-- Whether the units are printed and no files are written. -/
  emit : Bool
  deriving DecidableEq, Repr

/-- Why the command is not carried out. -/
inductive UsageStop where
  | missingArgument
  | unknownArgument
  /-- A flag is given twice. -/
  | repeatedFlag
  /-- A flag is given a value. -/
  | flagWithValue
  /-- A path is empty. -/
  | emptyPath
  | helpRequested
  | versionRequested
  deriving DecidableEq, Repr

/-- The exit code. Help and version are what was asked for; the rest are faults. -/
def UsageStop.exitCode : UsageStop → UInt32
  | .helpRequested => 0
  | .versionRequested => 0
  | .missingArgument => 2
  | .unknownArgument => 2
  | .repeatedFlag => 2
  | .flagWithValue => 2
  | .emptyPath => 2

/-! ## Reading -/

/-- The flags of the command. -/
inductive Flag where
  | noClean
  | emit
  | help
  | version
  deriving DecidableEq, Repr

namespace Flag

/-- The flag of a name behind two dashes. -/
def ofLongName? (name : String) : Option Flag :=
  if name = "no-clean" then some .noClean
  else if name = "emit" then some .emit
  else if name = "help" then some .help
  else if name = "version" then some .version
  else none

/-- The flag of a letter behind one dash. -/
def ofLetter? (letter : Char) : Option Flag :=
  if letter = 'h' then some .help
  else if letter = 'V' then some .version
  else none

end Flag

/-- What has been read so far. -/
structure ArgumentState where
  /-- The paths that have been judged. -/
  paths : List String
  /-- The last path, if it has not been judged yet. -/
  pending : Option String
  noClean : Bool
  emit : Bool
  /-- Whether only paths may follow. -/
  onlyPaths : Bool
  deriving DecidableEq, Repr

namespace ArgumentState

/-- The state in front of the first argument. -/
def initial : ArgumentState := ⟨[], none, false, false, false⟩

/-- Judges the pending path. -/
def settle (state : ArgumentState) : Except UsageStop ArgumentState :=
  match state.pending with
  | none => .ok state
  | some path =>
      if path.isEmpty then .error .emptyPath
      else .ok { state with paths := state.paths ++ [path], pending := none }

/-- How many paths there are, judged or not. -/
def pathCount (state : ArgumentState) : Nat := state.paths.length + state.pending.toList.length

/-- Takes a path. There are two of them. -/
def takePath (state : ArgumentState) (path : String) : Except UsageStop ArgumentState :=
  if 2 ≤ state.pathCount then .error .unknownArgument
  else do
    let settled ← state.settle
    return { settled with pending := some path }

/-- Takes a flag. -/
def takeFlag (state : ArgumentState) (flag : Flag) : Except UsageStop ArgumentState := do
  let settled ← state.settle
  match flag with
  | .noClean =>
      if settled.noClean then .error .repeatedFlag else return { settled with noClean := true }
  | .emit => if settled.emit then .error .repeatedFlag else return { settled with emit := true }
  | .help => .error .helpRequested
  | .version => .error .versionRequested

/-- Takes a long flag, given without its dashes. What follows an equals sign is a value. -/
def takeLong (state : ArgumentState) (text : List Char) : Except UsageStop ArgumentState :=
  let name := String.ofList (text.takeWhile (· ≠ '='))
  match Flag.ofLongName? name with
  | none => .error .unknownArgument
  | some flag => if '=' ∈ text then .error .flagWithValue else state.takeFlag flag

/-- Takes short flags that share one dash. -/
def takeShort (state : ArgumentState) : List Char → Except UsageStop ArgumentState
  | [] => .ok state
  | letter :: rest =>
      match Flag.ofLetter? letter with
      | none => .error .unknownArgument
      | some flag => do
          let state' ← state.takeFlag flag
          state'.takeShort rest

/-- Takes an argument. A single dash is a path. -/
def take (state : ArgumentState) (argument : String) : Except UsageStop ArgumentState :=
  if state.onlyPaths then state.takePath argument
  else match argument.toList with
    | ['-', '-'] => .ok { state with onlyPaths := true }
    | '-' :: '-' :: text => state.takeLong text
    | '-' :: letter :: letters => state.takeShort (letter :: letters)
    | _ => state.takePath argument

end ArgumentState

/-- What the arguments tell the command to do. -/
def Invocation.ofArguments (arguments : List String) : Except UsageStop Invocation := do
  let state ← arguments.foldlM ArgumentState.take .initial
  let settled ← state.settle
  match settled.paths with
  | [model, outputDirectory] =>
      return {
        model := model
        outputDirectory := outputDirectory
        noClean := settled.noClean
        emit := settled.emit }
  | _ => .error .missingArgument

end ModelForge
