/-
`Source.lean` -- a model from the file system.

A source is a file with one document, or a directory of documents. In a directory the files whose
names end in `.json` count, in the order of their names, whatever order the system lists them in.
They are read one after the other, and the first that cannot be read ends the load.
-/
import ModelForge.Files.Path
import ModelForge.Files.System
import ModelForge.Metamodel.Load

set_option autoImplicit false

namespace ModelForge

/-! ## Files of a directory -/

/-- Whether a file of a directory is a document. -/
def isDocumentName (name : String) : Bool := Path.hasExtension name "json"

/-- The documents among the names of a directory, in ascending order. -/
def documentNames (names : List String) : List String :=
  (names.filter isDocumentName).mergeSort fun a b => decide (a ≤ b)

/-! ## Loading -/

section

variable {m : Type → Type} [Monad m] [FileSystem m]

/-- The files of a source. -/
def sourceFiles (path : String) : m (Except LoadError (List String)) := do
  if ← FileSystem.isDirectory path then
    match ← FileSystem.entryNames path with
    | .error _ => pure (.error (.unreadable path))
    | .ok names =>
        match documentNames names with
        | [] => pure (.error (.noModels path))
        | documents => pure (.ok (documents.map (Path.join path)))
  else pure (.ok [path])

/-- The namespaces of a file. -/
def namespacesOfFile (path : String) : m (Except LoadError (List Namespace)) := do
  match ← FileSystem.readText path with
  | .ok text => pure (namespacesOfText path text)
  | .error _ => pure (.error (.unreadable path))

/-- The namespaces of several files, in order. -/
def namespacesOfFiles : List String → m (Except LoadError (List Namespace))
  | [] => pure (.ok [])
  | path :: rest => do
      match ← namespacesOfFile path with
      | .error e => pure (.error e)
      | .ok namespaces =>
          match ← namespacesOfFiles rest with
          | .error e => pure (.error e)
          | .ok others => pure (.ok (namespaces ++ others))

/-- The graph of a source. -/
def loadPath (path : String) : m (Except LoadError Graph) := do
  match ← sourceFiles path with
  | .error e => pure (.error e)
  | .ok files =>
      match ← namespacesOfFiles files with
      | .error e => pure (.error e)
      | .ok namespaces => pure (Graph.ofDistinct namespaces)

end

end ModelForge
