/-
`Load.lean` -- from texts to a graph.

A text is parsed and read on its own; what several texts say together is judged once all of them are
read. The only thing that can be wrong then is that a namespace is defined twice.
-/
import ModelForge.Metamodel.Reader
import ModelForge.Model.Graph

set_option autoImplicit false

namespace ModelForge

/-! ## Distinct names -/

/-- The first name that is in `seen` or equals an earlier one. -/
def firstRepeat? (seen : List String) : List String → Option String
  | [] => none
  | name :: rest => if name ∈ seen then some name else firstRepeat? (name :: seen) rest

/-! ## Graphs -/

/-- The graph of namespaces with distinct names. -/
def Graph.ofDistinct (namespaces : List Namespace) : Except LoadError Graph :=
  match firstRepeat? [] (namespaces.map Namespace.name) with
  | some name => .error (.duplicateNamespace name)
  | none => .ok (.ofNamespaces namespaces)

/-- The namespaces of a document, which comes from `origin`. -/
def namespacesOfDocument (origin : String) (document : Json) : Except LoadError (List Namespace) :=
  match Metamodel.readDocument document with
  | .ok namespaces => .ok namespaces
  | .error e => .error (.ofNodeError origin e)

/-- The namespaces of a text, which comes from `origin`. -/
def namespacesOfText (origin text : String) : Except LoadError (List Namespace) :=
  match Json.parse text with
  | .ok document => namespacesOfDocument origin document
  | .error fault => .error (.invalidJson origin (.text fault))

/-- The graph of a text that comes from no file. -/
def loadText (text : String) : Except LoadError Graph := do
  Graph.ofDistinct (← namespacesOfText "<string>" text)

end ModelForge
