/-
`Error.lean` -- why a model cannot be loaded.

Reading a document finds two kinds of faults, `NodeError`: a value that is not what its place asks
for, and a node of an unknown kind. Loading adds the faults of the source itself and of several
namespaces taken together. Every fault ends the load; none is repaired.
-/
import ModelForge.Json.Parser
import ModelForge.Json.Record
import ModelForge.Metamodel.Kind

set_option autoImplicit false

namespace ModelForge

/-! ## Faults of a document -/

/-- What is wrong with a document whose text is well-formed. -/
inductive NodeError where
  /-- A value does not fit the place it stands at. -/
  | mismatch (mismatch : Mismatch)
  /-- A node has no kind, or one that its position does not know. -/
  | unrecognized (role : NodeRole) (kind : String) (node : Json)

/-- What stands in a report for the kind of a node that has none. -/
def NodeError.missingKind : String := "<missing $class>"

/-- Why a document is not the JSON form of a model. -/
inductive JsonProblem where
  /-- The text is no JSON. -/
  | text (fault : TextFault)
  /-- The text is JSON of another shape. -/
  | shape (mismatch : Mismatch)

/-! ## Faults of a load -/

/-- Why a model cannot be loaded. -/
inductive LoadError where
  /-- A file or directory cannot be read. -/
  | unreadable (path : String)
  | invalidJson (origin : String) (problem : JsonProblem)
  | unrecognizedNode (role : NodeRole) (kind : String) (node : Json)
  | duplicateNamespace (name : String)
  /-- A directory holds no document. -/
  | noModels (path : String)

namespace LoadError

/-- A fault of a document as a fault of loading it from `origin`. -/
def ofNodeError (origin : String) : NodeError → LoadError
  | .mismatch m => .invalidJson origin (.shape m)
  | .unrecognized role kind node => .unrecognizedNode role kind node

/-- The report. -/
def message : LoadError → String
  | .unreadable path => "cannot read model source '" ++ path ++ "'"
  | .invalidJson origin _ => "invalid metamodel JSON in " ++ origin
  | .unrecognizedNode role kind node =>
      "unrecognized " ++ role.text ++ " node kind `" ++ kind ++ "`: " ++ node.render
  | .duplicateNamespace name => "namespace `" ++ name ++ "` is defined more than once"
  | .noModels path => "no metamodel JSON files found in '" ++ path ++ "'"

/-- The diagnostic code of the report. -/
def code : LoadError → String
  | .unreadable _ => "modelgen::load::io"
  | .invalidJson .. => "modelgen::load::json"
  | .unrecognizedNode .. => "modelgen::load::unrecognized_node"
  | .duplicateNamespace _ => "modelgen::load::duplicate_namespace"
  | .noModels _ => "modelgen::load::empty"

/-- What may help, where there is advice. -/
def help? : LoadError → Option String
  | .invalidJson .. => some "the input must be the JSON form of a model, not model source text"
  | .noModels _ => some "model directories are scanned for `*.json` files"
  | .unreadable _ => none
  | .unrecognizedNode .. => none
  | .duplicateNamespace _ => none

end LoadError

end ModelForge
