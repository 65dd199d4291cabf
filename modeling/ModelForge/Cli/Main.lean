/-
`Main.lean` -- the program.

All that the program decides is in `Cli/Command.lean`. Here the operations on files are those of the
machine, and the outcome goes to the two output streams.
-/
import ModelForge.Cli.Command

set_option autoImplicit false

namespace ModelForge

/-- An action whose failure becomes a fault. -/
def attempt {α : Type} (action : IO α) : IO (Except FileFault α) := do
  try
    return .ok (← action)
  catch e => return .error ⟨toString e⟩

/-- Whether an action succeeds. -/
def succeeds {α : Type} (action : IO α) : IO Bool := do
  match ← attempt action with
  | .ok _ => return true
  | .error _ => return false

/-- Whether a path leads to a directory: whether it can be listed. -/
def isListable (path : String) : IO Bool := succeeds do
  return (← (← IO.FS.realPath path).readDir).size

/-- Creates one directory, unless it is there. -/
def createOne (path : String) : IO Unit := do
  try IO.FS.createDir path
  catch e => unless ← isListable path do throw e

/-- Creates a directory: directly where that is possible, else after those for the names on the
way to it, which are given last name first and begin behind `root`. -/
def createThrough (root path : String) : List String → IO Unit
  | [] => createOne path
  | name :: parents => do
      try IO.FS.createDir path
      catch
        | .noFileOrDirectory .. => do
            createThrough root (root ++ "/".intercalate (name :: parents).reverse) parents
            createOne path
        | e => unless ← isListable path do throw e

instance : FileSystem IO where
  isDirectory := isListable
  isPresent path := succeeds (IO.FS.realPath path)
  canonical path := attempt do
    return (Path.pieces (← IO.FS.realPath path).toString).filter (· ≠ ".")
  entryNames path := attempt do
    return (← (← IO.FS.realPath path).readDir).toList.map fun entry => entry.fileName
  readText path := attempt (IO.FS.readFile path)
  createDirectories path := attempt do
    let pieces := Path.directoryPieces path
    unless pieces.isEmpty do
      createThrough (if Path.isAbsolute path then "/" else "") path (Path.parentNames pieces)
  writeText path text := attempt (IO.FS.writeFile path text)
  removeTree path := attempt (IO.FS.removeDirAll path)
  removeFile path := attempt (IO.FS.removeFile path)

end ModelForge

/-- Runs the command on the arguments of the process. -/
def main (arguments : List String) : IO UInt32 := do
  let (outcome, _) ← ModelForge.runCommand arguments
  IO.print outcome.output
  IO.eprint outcome.complaint
  return outcome.exitCode
