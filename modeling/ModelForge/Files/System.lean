/-
`System.lean` -- what is asked of a file system.

Only the operations that loading and generating need are named, each with the outcomes that make a
difference to them. Why an operation failed is a text for reports and decides nothing.
-/

set_option autoImplicit false

namespace ModelForge

/-- Why an operation failed, in the words of the system. -/
structure FileFault where
  reason : String
  deriving DecidableEq, Repr

/-- An effect with files. -/
class FileSystem (m : Type → Type) where
  /-- Whether a path leads to a directory. -/
  isDirectory : String → m Bool
  /-- Whether a path leads to anything. -/
  isPresent : String → m Bool
  /-- The names on the way from the root to what a path leads to, without detours. -/
  canonical : String → m (Except FileFault (List String))
  /-- The names of what is directly in a directory, in no particular order. -/
  entryNames : String → m (Except FileFault (List String))
  /-- The text of a file. -/
  readText : String → m (Except FileFault String)
  /-- Creates a directory and what is missing on the way to it. What was created before a fault
  stays. -/
  createDirectories : String → m (Except FileFault Unit)
  /-- Makes the text the contents of a file, which may be a new one. -/
  writeText : String → String → m (Except FileFault Unit)
  /-- Removes a directory and all that is below it. -/
  removeTree : String → m (Except FileFault Unit)
  /-- Removes a file. -/
  removeFile : String → m (Except FileFault Unit)

end ModelForge
