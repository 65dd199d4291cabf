/-
`Basic.lean` -- namespaces, declarations and properties of a model.

The types here are what a model says and nothing more: a type reference is a name, with the
namespace it is qualified by if it is. What a name refers to depends on where it is written and on
the other namespaces, and is answered in `Model/Graph.lean`.
-/
import ModelForge.Decimal.Binary64
import ModelForge.Model.Primitive

set_option autoImplicit false

namespace ModelForge

/-! ## Names -/

/-- The identity of a declaration: the namespace it belongs to and its own name. -/
structure DeclId where
  owner : String
  name : String
  deriving DecidableEq, Repr, Inhabited

/-- The identity as one dotted name. -/
def DeclId.text (id : DeclId) : String := id.owner ++ "." ++ id.name

/-- A reference to a type by name, as it stands on a property or behind `extends`. -/
structure TypeRef where
  name : String
  /-- The namespace of the type, where the reference gives it. -/
  qualifier : Option String
  deriving DecidableEq, Repr

namespace TypeRef

/-- A reference without a namespace. -/
def named (name : String) : TypeRef := ⟨name, none⟩

/-- The reference that a primitive's keyword is. -/
def ofPrimitive (p : Primitive) : TypeRef := named p.keyword

/-- The primitive that a reference names. A qualified reference names a declaration even where its
name is a keyword. -/
def primitive? (r : TypeRef) : Option Primitive :=
  match r.qualifier with
  | some _ => none
  | none => Primitive.ofKeyword? r.name

theorem primitive?_eq_some_iff {r : TypeRef} {p : Primitive} :
    r.primitive? = some p ↔ r = .ofPrimitive p := by
  obtain ⟨name, qualifier⟩ := r
  cases qualifier with
  | none => simp [primitive?, ofPrimitive, named, Primitive.ofKeyword?_eq_some_iff]
  | some owner => simp [primitive?, ofPrimitive, named]

end TypeRef

/-! ## Decorators -/

/-- An argument of a decorator. -/
inductive Literal where
  | text (s : String)
  | number (x : Binary64)
  | boolean (b : Bool)
  | typeReference (name : String) (isArray : Bool)
  deriving DecidableEq

/-- A piece of metadata on a declaration or a property. -/
structure Decorator where
  name : String
  arguments : List Literal
  deriving DecidableEq

/-! ## Properties -/

/-- What a property is a member of, and how it refers to its type. -/
inductive PropertyKind where
  /-- A member of a class that holds a value. -/
  | field
  /-- A member of a class that points to a declaration. -/
  | relationship
  /-- A value of an enum. -/
  | enumValue
  deriving DecidableEq, Repr

/-- A named, typed member of a class or an enum. -/
structure Property where
  name : String
  kind : PropertyKind
  typeRef : TypeRef
  isArray : Bool
  isOptional : Bool
  decorators : List Decorator
  deriving DecidableEq

/-- A value of the enum with the given name. -/
def Property.enumValue (name owner : String) (decorators : List Decorator) : Property where
  name := name
  kind := .enumValue
  typeRef := .named owner
  isArray := false
  isOptional := false
  decorators := decorators

/-- A field of a class that holds one value and has to be there. -/
def Property.field (name : String) (typeRef : TypeRef) : Property where
  name := name
  kind := .field
  typeRef := typeRef
  isArray := false
  isOptional := false
  decorators := []

/-! ## Declarations -/

/-- What a class stands for in a model. All of them become records. -/
inductive Flavor where
  | concept
  | asset
  | participant
  | transaction
  | event
  deriving DecidableEq, Repr

/-- What a declaration declares. -/
inductive Body where
  /-- A class with its supertype, if it has one, and the properties it declares itself. -/
  | record (flavor : Flavor) (isAbstract : Bool) (superType : Option TypeRef)
      (properties : List Property)
  /-- An enum with its values. -/
  | enumeration (values : List Property)
  /-- A name for a primitive. -/
  | scalar (primitive : Primitive) (default : Option String)
  deriving DecidableEq

/-- A named definition of a model. -/
structure Declaration where
  name : String
  /-- The name of the namespace that the declaration says it belongs to. -/
  owner : String
  decorators : List Decorator
  body : Body
  deriving DecidableEq

namespace Declaration

/-- A class that stands for a thing of its own. -/
def concept (owner name : String) (superType : Option TypeRef) (properties : List Property) :
    Declaration where
  name := name
  owner := owner
  decorators := []
  body := .record .concept false superType properties

/-- The identity that a declaration gives itself. -/
def id (d : Declaration) : DeclId := ⟨d.owner, d.name⟩

/-- The fully qualified name, which records carry as their discriminator. -/
def qualifiedName (d : Declaration) : String := d.owner ++ "." ++ d.name

/-- Whether a declaration is a class. -/
def isClass (d : Declaration) : Bool :=
  match d.body with
  | .record .. => true
  | .enumeration _ => false
  | .scalar .. => false

/-- The reference to the supertype; enums and scalars have none. -/
def superType? (d : Declaration) : Option TypeRef :=
  match d.body with
  | .record _ _ superType _ => superType
  | .enumeration _ => none
  | .scalar .. => none

/-- The properties that the declaration itself lists: the values of an enum, none of a scalar. -/
def ownProperties (d : Declaration) : List Property :=
  match d.body with
  | .record _ _ _ properties => properties
  | .enumeration values => values
  | .scalar .. => []

end Declaration

/-! ## Namespaces -/

/-- An import clause. -/
inductive Import where
  /-- One type of a namespace. -/
  | one (source : String) (name : String)
  /-- Several types of a namespace. -/
  | several (source : String) (names : List String)
  /-- All types of a namespace. -/
  | all (source : String)
  deriving DecidableEq

namespace Import

/-- The namespace that is imported from. -/
def source : Import → String
  | .one source _ => source
  | .several source _ => source
  | .all source => source

/-- Whether the clause brings a type of this name into scope. -/
def covers (clause : Import) (typeName : String) : Bool :=
  match clause with
  | .one _ name => name = typeName
  | .several _ names => typeName ∈ names
  | .all _ => true

end Import

/-- A namespace: its name, its imports, and what it declares. -/
structure Namespace where
  name : String
  imports : List Import
  declarations : List Declaration
  deriving DecidableEq

end ModelForge
