/-
`Sink.lean` -- a sink whose units become files.

Each sealed unit becomes a file of its name in one directory. The open unit is kept in memory, so
a unit that is abandoned leaves no file. The unit leaves the buffer before its file is written:
when the file cannot be written, the unit is lost and none is open.
-/
import ModelForge.Files.Path
import ModelForge.Files.System
import ModelForge.Output.Sink

set_option autoImplicit false

namespace ModelForge

/-- A sink on a directory. -/
structure FileSink where
  directory : String
  buffer : UnitBuffer
  /-- The paths of the files written so far, in order. -/
  written : List String

namespace FileSink

/-- The sink on a directory that has written nothing. -/
def fresh (directory : String) : FileSink := ⟨directory, .empty, []⟩

/-- Whether a unit is open. -/
def isOpen (sink : FileSink) : Bool := sink.buffer.isOpen

variable {m : Type → Type} [Monad m] [FileSystem m]

/-- Writes the file of a sealed unit; its path. -/
def store (directory : String) (unit : SourceUnit) : m (Except SinkError String) := do
  match ← FileSystem.createDirectories directory with
  | .error _ => pure (.error (.io unit.name))
  | .ok _ =>
      let path := Path.join directory unit.name
      match ← FileSystem.writeText path unit.text with
      | .error _ => pure (.error (.io unit.name))
      | .ok _ => pure (.ok path)

instance : Sink (StateT FileSink m) where
  perform call := fun sink =>
    match call with
    | .openUnit name =>
        match sink.buffer.start name with
        | .ok buffer => pure (.ok (), { sink with buffer := buffer })
        | .error e => pure (.error e, sink)
    | .writeLine line =>
        match sink.buffer.write line with
        | .ok buffer => pure (.ok (), { sink with buffer := buffer })
        | .error e => pure (.error e, sink)
    | .closeUnit =>
        match sink.buffer.take with
        | .error e => pure (.error e, sink)
        | .ok unit => do
            match ← store sink.directory unit with
            | .ok path =>
                pure (.ok (), { sink with buffer := .empty, written := sink.written ++ [path] })
            | .error e => pure (.error e, { sink with buffer := .empty })
  abandon := fun sink => pure ((), { sink with buffer := .empty })

/-! ## Clearing -/

/-- Removes the given entries of a directory and all that is below them, up to the first that
stays. -/
def removeEntries (directory : String) : List String → m (Except FileFault Unit)
  | [] => pure (.ok ())
  | name :: rest => do
      let path := Path.join directory name
      let outcome ←
        if ← FileSystem.isDirectory path then FileSystem.removeTree path
        else FileSystem.removeFile path
      match outcome with
      | .ok _ => removeEntries directory rest
      | .error fault => pure (.error fault)

/-- Empties a directory, or creates it if there is nothing at its path. -/
def clear (directory : String) : m (Except FileFault Unit) := do
  if ← FileSystem.isPresent directory then
    match ← FileSystem.entryNames directory with
    | .ok names => removeEntries directory names
    | .error fault => pure (.error fault)
  else FileSystem.createDirectories directory

end FileSink

end ModelForge
