/-
`Kind.lean` -- the kinds of nodes in a model document.

A document is a tree of nodes, and a node says what it is in its `$class` field. Of that text only
the part after the last dot counts, so every version of the metamodel is read alike. Which kinds
may stand at a position depends on the position: each position has a type of its kinds, and
`NodeKind` ties the type to the words that documents use. `ofName?` finds a kind by its word, and
finds nothing for any other word.
-/
import ModelForge.Json.Basic
import ModelForge.Model.Basic

set_option autoImplicit false

namespace ModelForge

/-! ## Positions -/

/-- A position in a document that holds a node with a kind. -/
inductive NodeRole where
  | root
  | importClause
  | declaration
  | property
  | enumValue
  | decoratorArgument
  deriving DecidableEq, Repr

/-- The position as reports name it. -/
def NodeRole.text : NodeRole → String
  | .root => "root"
  | .importClause => "import"
  | .declaration => "declaration"
  | .property => "property"
  | .enumValue => "enum value"
  | .decoratorArgument => "decorator argument"

/-- The kinds of nodes at one position, and the word for each. -/
class NodeKind (κ : Type) where
  role : NodeRole
  all : List κ
  name : κ → String

/-- The kind that a word stands for. -/
def NodeKind.ofName? (κ : Type) [NodeKind κ] (word : String) : Option κ :=
  (NodeKind.all : List κ).find? fun kind => NodeKind.name kind = word

/-- A kind that is found has the word it was looked up by. -/
theorem NodeKind.name_of_ofName? {κ : Type} [NodeKind κ] {word : String} {kind : κ}
    (h : NodeKind.ofName? κ word = some kind) : NodeKind.name kind = word := by
  unfold NodeKind.ofName? at h
  have := List.find?_some h
  exact of_decide_eq_true this

/-! ## The kinds of each position -/

/-- A document is one model or a list of models. -/
inductive RootKind where
  | models
  | model
  deriving DecidableEq, Repr

instance : NodeKind RootKind where
  role := .root
  all := [.models, .model]
  name
    | .models => "Models"
    | .model => "Model"

/-- An import clause names one type, several types, or a whole namespace. -/
inductive ImportKind where
  | one
  | several
  | all
  deriving DecidableEq, Repr

instance : NodeKind ImportKind where
  role := .importClause
  all := [.one, .several, .all]
  name
    | .one => "ImportType"
    | .several => "ImportTypes"
    | .all => "ImportAll"

/-- All flavors of classes. -/
def Flavor.all : List Flavor := [.concept, .asset, .participant, .transaction, .event]

/-- The word for a flavor. -/
def Flavor.keyword : Flavor → String
  | .concept => "Concept"
  | .asset => "Asset"
  | .participant => "Participant"
  | .transaction => "Transaction"
  | .event => "Event"

/-- A declaration is a class of some flavor, an enum, or a scalar of some primitive. -/
inductive DeclarationKind where
  | record (flavor : Flavor)
  | enumeration
  | scalar (primitive : Primitive)
  deriving DecidableEq, Repr

instance : NodeKind DeclarationKind where
  role := .declaration
  all := Flavor.all.map .record ++ .enumeration :: Primitive.all.map .scalar
  name
    | .record flavor => flavor.keyword ++ "Declaration"
    | .enumeration => "EnumDeclaration"
    | .scalar primitive => primitive.keyword ++ "Scalar"

/-- A property of a class has a primitive type, or names its type as a value or as the end of a
relationship. -/
inductive MemberKind where
  | primitive (p : Primitive)
  | object
  | relationship
  deriving DecidableEq, Repr

instance : NodeKind MemberKind where
  role := .property
  all := Primitive.all.map .primitive ++ [.object, .relationship]
  name
    | .primitive p => p.keyword ++ "Property"
    | .object => "ObjectProperty"
    | .relationship => "RelationshipProperty"

/-- The values of an enum are all of one kind. -/
inductive EnumValueKind where
  | value
  deriving DecidableEq, Repr

instance : NodeKind EnumValueKind where
  role := .enumValue
  all := [.value]
  name
    | .value => "EnumProperty"

/-- An argument of a decorator is a text, a number, a boolean, or a reference to a type. -/
inductive ArgumentKind where
  | text
  | number
  | boolean
  | typeReference
  deriving DecidableEq, Repr

instance : NodeKind ArgumentKind where
  role := .decoratorArgument
  all := [.text, .number, .boolean, .typeReference]
  name
    | .text => "DecoratorString"
    | .number => "DecoratorNumber"
    | .boolean => "DecoratorBoolean"
    | .typeReference => "DecoratorTypeReference"

/-! ## The kind of a node -/

/-- The part of a dotted name after its last dot. -/
def lastSegment (name : String) : String :=
  String.ofList (name.toList.reverse.takeWhile (· ≠ '.')).reverse

/-- The word for a node's kind, if the node has one. -/
def Json.kindWord? (node : Json) : Option String :=
  ((node.field? "$class").bind Json.text?).map lastSegment

end ModelForge
