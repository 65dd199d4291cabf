/-
`Writer.lean` -- the JSON form of namespaces.

Each part of a model becomes one node that says its kind, and every field is written, also one
whose value is the default. What `Metamodel/Reader.lean` reads from such a document is what was
written into it, provided the namespaces are ones that a document can hold
(`Namespace.WellFormed`).
-/
import ModelForge.Metamodel.Kind
import ModelForge.Model.Graph

set_option autoImplicit false

namespace ModelForge

/-! ## What a document can hold -/

/-- Numbers in documents are finite. -/
def Literal.Finite : Literal → Prop
  | .number x => x.isFinite = true
  | .text _ => True
  | .boolean _ => True
  | .typeReference .. => True

/-- The arguments of decorators are finite. -/
def Decorator.Finite (d : Decorator) : Prop := ∀ a ∈ d.arguments, a.Finite

/-- A property of a class is a field or a relationship. -/
def Property.IsMember (p : Property) : Prop :=
  p.kind ≠ .enumValue ∧ ∀ d ∈ p.decorators, d.Finite

/-- A value of an enum has the enum for its type, and is neither an array nor optional. -/
def Property.IsValueOf (p : Property) (enumName : String) : Prop :=
  p = .enumValue p.name enumName p.decorators ∧ ∀ d ∈ p.decorators, d.Finite

/-- What a body of a declaration with the given name holds. -/
def Body.WellFormed (declarationName : String) : Body → Prop
  | .record _ _ _ properties => ∀ p ∈ properties, p.IsMember
  | .enumeration values => ∀ p ∈ values, p.IsValueOf declarationName
  | .scalar .. => True

/-- A declaration says that it belongs to the namespace that lists it. -/
def Declaration.WellFormedIn (d : Declaration) (owner : String) : Prop :=
  d.owner = owner ∧ d.body.WellFormed d.name ∧ ∀ a ∈ d.decorators, a.Finite

/-- A namespace that a document can hold. -/
def Namespace.WellFormed (ns : Namespace) : Prop :=
  ∀ d ∈ ns.declarations, d.WellFormedIn ns.name

/-- Namespaces that a document can hold: their names are distinct. -/
def Graph.WellFormed (g : Graph) : Prop :=
  (g.namespaces.map Namespace.name).Nodup ∧ ∀ ns ∈ g.namespaces, ns.WellFormed

namespace Metamodel

/-! ## Nodes -/

/-- What stands in front of a kind in `$class`. -/
def classPrefix : String := "metamodel@1.0.0."

/-- A node of the given kind. -/
def node (kind : String) (fields : List (String × Json)) : Json :=
  .ofFields (("$class", .text (classPrefix ++ kind)) :: fields)

/-- A field whose value may be absent. -/
def optionalField {α : Type} (name : String) (write : α → Json) : Option α → List (String × Json)
  | some a => [(name, write a)]
  | none => []

/-- A type identifier. -/
def writeTypeRef (r : TypeRef) : Json :=
  node "TypeIdentifier" (("name", .text r.name) :: optionalField "namespace" .text r.qualifier)

/-! ## Decorators -/

/-- An argument of a decorator. -/
def writeArgument : Literal → Json
  | .text s => node (NodeKind.name ArgumentKind.text) [("value", .text s)]
  | .number x => node (NodeKind.name ArgumentKind.number) [("value", .number (.double x))]
  | .boolean b => node (NodeKind.name ArgumentKind.boolean) [("value", .boolean b)]
  | .typeReference name isArray =>
      node (NodeKind.name ArgumentKind.typeReference)
        [("type", writeTypeRef (.named name)), ("isArray", .boolean isArray)]

/-- A decorator. -/
def writeDecorator (d : Decorator) : Json :=
  node "Decorator"
    [("name", .text d.name), ("arguments", .array (d.arguments.map writeArgument))]

/-- The field with decorators. -/
def decoratorsField (decorators : List Decorator) : String × Json :=
  ("decorators", .array (decorators.map writeDecorator))

/-! ## Members -/

/-- The kind of a property's node. A field of primitive type says the type by its kind. -/
def memberKind (p : Property) : MemberKind :=
  if p.kind = .relationship then .relationship
  else match p.typeRef.primitive? with
    | some primitive => .primitive primitive
    | none => .object

/-- A property of a class. -/
def writeProperty (p : Property) : Json :=
  node (NodeKind.name (memberKind p))
    [("name", .text p.name), ("isArray", .boolean p.isArray), ("isOptional", .boolean p.isOptional),
      ("type", writeTypeRef p.typeRef), decoratorsField p.decorators]

/-- A value of an enum. -/
def writeEnumValue (p : Property) : Json :=
  node (NodeKind.name EnumValueKind.value) [("name", .text p.name), decoratorsField p.decorators]

/-! ## Declarations -/

/-- A declaration. -/
def writeDeclaration (d : Declaration) : Json :=
  match d.body with
  | .record flavor isAbstract superType properties =>
      node (NodeKind.name (DeclarationKind.record flavor))
        ([("name", .text d.name), ("isAbstract", .boolean isAbstract),
          ("properties", .array (properties.map writeProperty)), decoratorsField d.decorators]
          ++ optionalField "superType" writeTypeRef superType)
  | .enumeration values =>
      node (NodeKind.name DeclarationKind.enumeration)
        [("name", .text d.name), ("properties", .array (values.map writeEnumValue)),
          decoratorsField d.decorators]
  | .scalar primitive default =>
      node (NodeKind.name (DeclarationKind.scalar primitive))
        ([("name", .text d.name), decoratorsField d.decorators]
          ++ optionalField "defaultValue" .text default)

/-! ## Documents -/

/-- An import clause. -/
def writeImport : Import → Json
  | .one source name =>
      node (NodeKind.name ImportKind.one) [("namespace", .text source), ("name", .text name)]
  | .several source names =>
      node (NodeKind.name ImportKind.several)
        [("namespace", .text source), ("types", .array (names.map .text))]
  | .all source => node (NodeKind.name ImportKind.all) [("namespace", .text source)]

/-- A namespace. -/
def writeModel (ns : Namespace) : Json :=
  node (NodeKind.name RootKind.model)
    [("namespace", .text ns.name), ("imports", .array (ns.imports.map writeImport)),
      ("declarations", .array (ns.declarations.map writeDeclaration))]

/-- Namespaces as one document. -/
def writeDocument (namespaces : List Namespace) : Json :=
  node (NodeKind.name RootKind.models) [("models", .array (namespaces.map writeModel))]

end Metamodel

end ModelForge
