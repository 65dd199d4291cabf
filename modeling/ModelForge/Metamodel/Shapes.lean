/-
`Shapes.lean` -- the fields of each kind of node.

A shape lists the fields that are read from a node, their types, and which of them may be left
out. All other fields of a node are ignored. Fields whose values are nodes again are kept as JSON
values: what they mean depends on their kinds, which `Metamodel/Reader.lean` looks at.
-/
import ModelForge.Json.Record
import ModelForge.Model.Basic

set_option autoImplicit false

namespace ModelForge

open Record (required optional withDefault)

/-! ## Type identifiers and decorators -/

/-- A type identifier. -/
def TypeRef.decoder : Decoder TypeRef :=
  .record "RawTypeIdentifier"
    (TypeRef.mk <$> required "name" .text <*> optional "namespace" .text)

/-- A decorator with its arguments unread. -/
structure DecoratorShape where
  name : String
  arguments : List Json

/-- Decorators. -/
def DecoratorShape.decoder : Decoder DecoratorShape :=
  .record "RawDecorator"
    (DecoratorShape.mk <$> required "name" .text <*> withDefault "arguments" [] (.list .any))

/-- A decorator argument that is a value. -/
def literalDecoder {α : Type} (value : Decoder α) : Decoder α :=
  .record "RawLiteral" (required "value" value)

/-- A decorator argument that refers to a type. -/
structure TypeReferenceShape where
  typeRef : TypeRef
  isArray : Bool

/-- Decorator arguments that refer to a type. -/
def TypeReferenceShape.decoder : Decoder TypeReferenceShape :=
  .record "RawTypeReferenceArg"
    (TypeReferenceShape.mk <$> required "type" TypeRef.decoder
      <*> withDefault "isArray" false .boolean)

/-! ## Documents -/

/-- A list of models. -/
def modelsDecoder : Decoder (List Json) :=
  .record "RawModels" (required "models" (.list .any))

/-- A model. -/
structure ModelShape where
  name : String
  imports : List Json
  declarations : List Json

/-- Models. -/
def ModelShape.decoder : Decoder ModelShape :=
  .record "RawModel"
    (ModelShape.mk <$> required "namespace" .text
      <*> withDefault "imports" [] (.list .any)
      <*> withDefault "declarations" [] (.list .any))

/-- An import clause of any kind. -/
structure ImportShape where
  source : String
  name : Option String
  names : List String

/-- Import clauses. -/
def ImportShape.decoder : Decoder ImportShape :=
  .record "RawImport"
    (ImportShape.mk <$> required "namespace" .text
      <*> optional "name" .text
      <*> withDefault "types" [] (.list .text))

/-! ## Declarations -/

/-- A class. -/
structure ClassShape where
  name : String
  isAbstract : Bool
  superType : Option TypeRef
  properties : List Json
  decorators : List DecoratorShape

/-- Classes. -/
def ClassShape.decoder : Decoder ClassShape :=
  .record "RawClassDeclaration"
    (ClassShape.mk <$> required "name" .text
      <*> withDefault "isAbstract" false .boolean
      <*> optional "superType" TypeRef.decoder
      <*> withDefault "properties" [] (.list .any)
      <*> withDefault "decorators" [] (.list DecoratorShape.decoder))

/-- An enum. -/
structure EnumShape where
  name : String
  values : List Json
  decorators : List DecoratorShape

/-- Enums. -/
def EnumShape.decoder : Decoder EnumShape :=
  .record "RawEnumDeclaration"
    (EnumShape.mk <$> required "name" .text
      <*> withDefault "properties" [] (.list .any)
      <*> withDefault "decorators" [] (.list DecoratorShape.decoder))

/-- A scalar. -/
structure ScalarShape where
  name : String
  default : Option Json
  decorators : List DecoratorShape

/-- Scalars. The default may be of any type, and `null` is none. -/
def ScalarShape.decoder : Decoder ScalarShape :=
  .record "RawScalarDeclaration"
    (ScalarShape.mk <$> required "name" .text
      <*> optional "defaultValue" .any
      <*> withDefault "decorators" [] (.list DecoratorShape.decoder))

/-- A property of a class, or a value of an enum. -/
structure PropertyShape where
  name : String
  isArray : Bool
  isOptional : Bool
  typeRef : Option TypeRef
  decorators : List DecoratorShape

/-- Properties. -/
def PropertyShape.decoder : Decoder PropertyShape :=
  .record "RawProperty"
    (PropertyShape.mk <$> required "name" .text
      <*> withDefault "isArray" false .boolean
      <*> withDefault "isOptional" false .boolean
      <*> optional "type" TypeRef.decoder
      <*> withDefault "decorators" [] (.list DecoratorShape.decoder))

end ModelForge
