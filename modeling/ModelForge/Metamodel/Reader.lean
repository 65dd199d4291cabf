/-
`Reader.lean` -- namespaces out of the JSON form of a model.

A node is read in three steps: its kind, its fields, the nodes below it. Reading stops at the
first fault, and the order of the steps decides which fault that is. Imports come before
declarations, the members of a declaration before its decorators. An import clause alone is read
before its kind is judged.
-/
import ModelForge.Metamodel.Error
import ModelForge.Metamodel.Shapes

set_option autoImplicit false

namespace ModelForge

namespace Metamodel

/-- The outcome of reading a node. -/
abbrev Reading (α : Type) := Except NodeError α

/-! ## Kinds and fields -/

/-- The fields of a node. -/
def fields {α : Type} (decoder : Decoder α) (node : Json) : Reading α :=
  match decoder node with
  | .ok shape => .ok shape
  | .error m => .error (.mismatch m)

/-- The word for the kind of a node at the given position. -/
def kindWord (role : NodeRole) (node : Json) : Reading String :=
  match node.kindWord? with
  | some word => .ok word
  | none => .error (.unrecognized role NodeError.missingKind node)

/-- The kind of a node at a position whose kinds are `κ`. -/
def kindOf (κ : Type) [NodeKind κ] (node : Json) : Reading κ := do
  let word ← kindWord (NodeKind.role κ) node
  match NodeKind.ofName? κ word with
  | some kind => .ok kind
  | none => .error (.unrecognized (NodeKind.role κ) word node)

/-! ## Decorators -/

/-- An argument of a decorator. -/
def readArgument (node : Json) : Reading Literal := do
  match ← kindOf ArgumentKind node with
  | .text => return .text (← fields (literalDecoder .text) node)
  | .number => return .number (← fields (literalDecoder .double) node)
  | .boolean => return .boolean (← fields (literalDecoder .boolean) node)
  | .typeReference =>
      let shape ← fields TypeReferenceShape.decoder node
      return .typeReference shape.typeRef.name shape.isArray

/-- A decorator. -/
def readDecorator (shape : DecoratorShape) : Reading Decorator := do
  return { name := shape.name, arguments := ← shape.arguments.mapM readArgument }

/-! ## Members -/

/-- A property of a class. A primitive property has its type by its kind; the others name theirs,
and without a type they are of no kind. -/
def readProperty (node : Json) : Reading Property := do
  let kind ← kindOf MemberKind node
  let shape ← fields PropertyShape.decoder node
  let (propertyKind, typeRef) ← match kind, shape.typeRef with
    | .primitive p, _ => pure (PropertyKind.field, TypeRef.ofPrimitive p)
    | .object, some r => pure (.field, r)
    | .relationship, some r => pure (.relationship, r)
    | .object, none => .error (.unrecognized .property (NodeKind.name kind) node)
    | .relationship, none => .error (.unrecognized .property (NodeKind.name kind) node)
  return {
    name := shape.name
    kind := propertyKind
    typeRef := typeRef
    isArray := shape.isArray
    isOptional := shape.isOptional
    decorators := ← shape.decorators.mapM readDecorator }

/-- A value of the enum with the given name. -/
def readEnumValue (enumName : String) (node : Json) : Reading Property := do
  let .value ← kindOf EnumValueKind node
  let shape ← fields PropertyShape.decoder node
  return .enumValue shape.name enumName (← shape.decorators.mapM readDecorator)

/-! ## Declarations -/

/-- The default of a scalar as text: a string as it is, any other value in its JSON form. -/
def defaultText : Json → String
  | .text s => s
  | value => value.render

/-- A declaration of the namespace with the given name. -/
def readDeclaration (owner : String) (node : Json) : Reading Declaration := do
  match ← kindOf DeclarationKind node with
  | .record flavor =>
      let shape ← fields ClassShape.decoder node
      let properties ← shape.properties.mapM readProperty
      return {
        name := shape.name
        owner := owner
        decorators := ← shape.decorators.mapM readDecorator
        body := .record flavor shape.isAbstract shape.superType properties }
  | .enumeration =>
      let shape ← fields EnumShape.decoder node
      let values ← shape.values.mapM (readEnumValue shape.name)
      return {
        name := shape.name
        owner := owner
        decorators := ← shape.decorators.mapM readDecorator
        body := .enumeration values }
  | .scalar primitive =>
      let shape ← fields ScalarShape.decoder node
      return {
        name := shape.name
        owner := owner
        decorators := ← shape.decorators.mapM readDecorator
        body := .scalar primitive (shape.default.map defaultText) }

/-! ## Models -/

/-- An import clause. One that names a single type is of no kind without the name. -/
def readImport (node : Json) : Reading Import := do
  let word ← kindWord .importClause node
  let shape ← fields ImportShape.decoder node
  match NodeKind.ofName? ImportKind word, shape.name with
  | some .one, some name => return .one shape.source name
  | some .several, _ => return .several shape.source shape.names
  | some .all, _ => return .all shape.source
  | some .one, none => .error (.unrecognized .importClause word node)
  | none, _ => .error (.unrecognized .importClause word node)

/-- A model: one namespace. -/
def readModel (node : Json) : Reading Namespace := do
  let shape ← fields ModelShape.decoder node
  let imports ← shape.imports.mapM readImport
  let declarations ← shape.declarations.mapM (readDeclaration shape.name)
  return { name := shape.name, imports := imports, declarations := declarations }

/-- A document: one model, or a list of them. The models of a list need not say their kind. -/
def readDocument (node : Json) : Reading (List Namespace) := do
  match ← kindOf RootKind node with
  | .models => (← fields modelsDecoder node).mapM readModel
  | .model => return [← readModel node]

end Metamodel

end ModelForge
