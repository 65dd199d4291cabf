/-
`OwnKeys.lean` -- loading looks at the metamodel's own keys and at the last segments of kinds.

Two documents may tell the same model and differ a lot: in the version of the metamodel that their
kinds name, in annotations that some tool has left, in the order of keys. `DocumentAlike` says
that two documents differ in nothing else. For each kind of node it lists the keys that are read
from such a node (`propertyKeys`, `declarationKeys`, ...) and asks for alike values under these
keys, where nodes below a node are again compared as nodes. Of `$class` the text after the last
dot counts, and on type identifiers, decorators and the models of a list `$class` is a key like
any other that is not read.

The walk over the document then keeps this relation from the top down: the kinds agree, so the
same shape is asked for; the shapes are alike (`AlikeRecords.lean`); so the nodes in them are, and
what is built at the end is equal. Only the reports of faults show the rest of a document, and a
fault in one document is matched by some fault in the other.
-/
import Mathlib.Data.List.TakeWhile
import ModelForge.Proofs.AlikeRecords
import ModelForge.Proofs.WrittenForm

set_option autoImplicit false

namespace ModelForge

/-! ## Kinds -/

/-- Two values of `$class` that name one kind: texts with the same last segment, or one value. -/
inductive ClassAlike : Json → Json → Prop where
  | text {s s' : String} (h : lastSegment s = lastSegment s') : ClassAlike (.text s) (.text s')
  | same (x : Json) : ClassAlike x x

/-- The key that says the kind of a node. -/
def classKey : OwnKey := ⟨"$class", ClassAlike, .same⟩

/-- What stands up to the last dot may be replaced by anything that ends in a dot. -/
theorem ClassAlike.of_front (s front : String) :
    ClassAlike (.text s) (.text (front ++ "." ++ lastSegment s)) := by
  have hdot : '.' ∉ (lastSegment s).toList := by
    unfold lastSegment
    rw [String.toList_ofList, List.mem_reverse]
    intro hmem
    have hkept := List.mem_takeWhile_imp (p := fun c => decide (c ≠ '.')) hmem
    exact of_decide_eq_true hkept rfl
  exact .text (lastSegment_append hdot).symm

/-- It may be left out as well. -/
theorem ClassAlike.of_no_front (s : String) : ClassAlike (.text s) (.text (lastSegment s)) := by
  refine .text ?_
  unfold lastSegment
  rw [String.toList_ofList, List.reverse_reverse, List.takeWhile_idem]

namespace Metamodel

/-- Two nodes at a position whose kinds are `κ`: they are of one kind, and a record with the keys
of that kind does not tell them apart. Nodes of no kind that is known there are not read, and only
their `$class` counts. -/
structure NodeAlike (κ : Type) [NodeKind κ] (keys : κ → List OwnKey) (node node' : Json) :
    Prop where
  kind : Option.Rel ClassAlike (node.field? "$class") (node'.field? "$class")
  record : ∀ kind, kindOf κ node = .ok kind → RecordAlike (keys kind) node node'

/-- A node is like itself, at any position. -/
theorem NodeAlike.refl {κ : Type} [NodeKind κ] {keys : κ → List OwnKey} (node : Json) :
    NodeAlike κ keys node node := by
  refine ⟨?_, fun kind _ => .refl (keys kind) node⟩
  cases node.field? "$class" with
  | some x => exact .some (.same x)
  | none => exact .none

/-- Objects of a kind are compared by the keys of that kind and by `$class`. So
`FieldsAlike.of_edit` speaks of nodes too, and `ClassAlike.of_front` of what an edit may do to
`$class`. -/
theorem NodeAlike.object {κ : Type} [NodeKind κ] {keys : κ → List OwnKey} {kind : κ}
    {fields fields' : List (String × Json)} (hkind : kindOf κ (.object fields) = .ok kind)
    (h : FieldsAlike (classKey :: keys kind) fields fields') :
    NodeAlike κ keys (.object fields) (.object fields') := by
  obtain ⟨hclass, hkeys⟩ := List.forall_mem_cons.1 h
  refine ⟨hclass, fun found hfound => ?_⟩
  obtain rfl := Except.ok.inj (hkind.symm.trans hfound)
  exact .object hkeys

/-! ## The keys of each kind of node -/

/-- The keys of a type identifier. -/
def typeIdentifierKeys : List OwnKey := [.plain "name", .plain "namespace"]

/-- The keys of an argument of a decorator. -/
def argumentKeys : ArgumentKind → List OwnKey
  | .text | .number | .boolean => [.plain "value"]
  | .typeReference => [.record "type" typeIdentifierKeys, .plain "isArray"]

def ArgumentAlike : Json → Json → Prop := NodeAlike ArgumentKind argumentKeys

/-- The keys of a decorator. -/
def decoratorKeys : List OwnKey := [.plain "name", .list "arguments" ArgumentAlike NodeAlike.refl]

/-- The key under which declarations and their members have decorators. -/
def decoratorsKey : OwnKey := .list "decorators" (RecordAlike decoratorKeys) (.refl decoratorKeys)

/-- The keys of a property of a class, and of a value of an enum. -/
def propertyKeys : List OwnKey :=
  [.plain "name", .plain "isArray", .plain "isOptional", .record "type" typeIdentifierKeys,
    decoratorsKey]

def PropertyAlike : Json → Json → Prop := NodeAlike MemberKind fun _ => propertyKeys

def EnumValueAlike : Json → Json → Prop := NodeAlike EnumValueKind fun _ => propertyKeys

/-- The keys of a declaration. -/
def declarationKeys : DeclarationKind → List OwnKey
  | .record _ => [.plain "name", .plain "isAbstract", .record "superType" typeIdentifierKeys,
      .list "properties" PropertyAlike NodeAlike.refl, decoratorsKey]
  | .enumeration =>
      [.plain "name", .list "properties" EnumValueAlike NodeAlike.refl, decoratorsKey]
  | .scalar _ => [.plain "name", .plain "defaultValue", decoratorsKey]

def DeclarationAlike : Json → Json → Prop := NodeAlike DeclarationKind declarationKeys

/-- The keys of an import clause. -/
def importKeys : List OwnKey := [.plain "namespace", .plain "name", .plain "types"]

def ImportAlike : Json → Json → Prop := NodeAlike ImportKind fun _ => importKeys

/-- The keys of a model. -/
def modelKeys : List OwnKey :=
  [.plain "namespace", .list "imports" ImportAlike NodeAlike.refl,
    .list "declarations" DeclarationAlike NodeAlike.refl]

/-- The keys of a document, which is a list of models or one model. -/
def rootKeys : RootKind → List OwnKey
  | .models => [.list "models" (RecordAlike modelKeys) (.refl modelKeys)]
  | .model => modelKeys

/-- Two documents that differ, at any of their nodes, only in what stands before the last dot of
`$class`, in keys that are not read there, and in the order of keys. -/
def DocumentAlike : Json → Json → Prop := NodeAlike RootKind rootKeys

/-! ## Kinds and fields are read alike -/

section

variable {κ : Type} [NodeKind κ] {keys : κ → List OwnKey} {node node' : Json}

/-- Alike nodes name one kind, if they name any. -/
theorem NodeAlike.kindWord?_eq (h : NodeAlike κ keys node node') :
    node.kindWord? = node'.kindWord? := by
  unfold Json.kindWord?
  rcases rel_cases h.kind with ⟨hclass, hclass'⟩ | ⟨x, x', hclass, hclass', hrel⟩
  · rw [hclass, hclass']
  · rw [hclass, hclass']
    cases hrel with
    | text hsegment => exact congrArg some hsegment
    | same => rfl

/-- So the kind is found in both nodes, or missed in both. -/
theorem NodeAlike.kindWord (h : NodeAlike κ keys node node') (role : NodeRole) :
    SameOutcome (· = ·) (kindWord role node) (kindWord role node') := by
  unfold Metamodel.kindWord
  rw [h.kindWord?_eq]
  cases node'.kindWord? with
  | some word => exact .succeed rfl
  | none => exact .fail _ _

/-- And it is known at the position of both or of neither. -/
theorem NodeAlike.kindOf (h : NodeAlike κ keys node node') :
    SameOutcome (· = ·) (kindOf κ node) (kindOf κ node') := by
  unfold Metamodel.kindOf
  refine (h.kindWord _).bind fun word _ hword => ?_
  subst hword
  cases NodeKind.ofName? κ word with
  | some kind => exact .succeed rfl
  | none => exact .fail _ _

/-- What is done once the kind is known is done on nodes that the record of that kind does not tell
apart. -/
theorem NodeAlike.read {α : Type} {T : α → α → Prop} {f f' : κ → Reading α}
    (h : NodeAlike κ keys node node')
    (hf : ∀ kind, RecordAlike (keys kind) node node' → SameOutcome T (f kind) (f' kind)) :
    SameOutcome T (Metamodel.kindOf κ node >>= f) (Metamodel.kindOf κ node' >>= f') := by
  rcases h.kindOf.cases_ok with ⟨kind, _, hkind, hkind', rfl⟩ | ⟨e, e', hkind, hkind'⟩
  · rw [hkind, hkind']
    exact hf kind (h.record kind hkind)
  · rw [hkind, hkind']
    exact .fail e e'

/-- The fields of two nodes that a decoder does not tell apart are read alike. -/
theorem sameOutcome_fields {α : Type} {decoder : Decoder α} {S : Json → Json → Prop}
    {T : α → α → Prop} (hdecoder : decoder.Respects S T) (h : S node node') :
    SameOutcome T (fields decoder node) (fields decoder node') := by
  unfold fields
  rcases (hdecoder node node' h).cases_ok with ⟨a, a', ha, ha', hrel⟩ | ⟨m, m', ha, ha'⟩
  · rw [ha, ha']
    exact .succeed hrel
  · rw [ha, ha']
    exact .fail _ _

end

end Metamodel

open Metamodel

/-! ## Shapes are read alike

Equal values under the keys that are taken as they are, and alike nodes in equal number. -/

section

open Record Decoder

/-- Of a type identifier two keys are read, the name and the namespace. -/
theorem TypeRef.respects_decoder :
    TypeRef.decoder.Respects (RecordAlike typeIdentifierKeys) (· = ·) := by
  refine respects_record _ (.seq (.map ?_ (respects_plain_required "name" _))
    (respects_plain_optional "namespace" _))
  rintro name _ rfl qualifier _ rfl
  rfl

/-- Two decorators whose arguments are unread. -/
structure DecoratorShape.Alike (shape shape' : DecoratorShape) : Prop where
  name : shape.name = shape'.name
  arguments : List.Forall₂ ArgumentAlike shape.arguments shape'.arguments

/-- Of a decorator the name is read, and the arguments are nodes to be compared. -/
theorem DecoratorShape.respects_decoder :
    DecoratorShape.decoder.Respects (RecordAlike decoratorKeys) Alike := by
  refine respects_record _ (.seq (.map ?_ (respects_plain_required "name" _))
    (respects_withDefault "arguments" .nil respects_any.list))
  exact fun _ _ hname _ _ harguments => ⟨hname, harguments⟩

/-- Of a literal its value is read. -/
theorem literalDecoder_respects {α : Type} (value : Decoder α) :
    (literalDecoder value).Respects (RecordAlike [.plain "value"]) (· = ·) :=
  respects_record _ (respects_plain_required "value" value)

/-- Of a reference to a type the identifier is read, and whether it is an array. -/
theorem TypeReferenceShape.respects_decoder :
    TypeReferenceShape.decoder.Respects (RecordAlike (argumentKeys .typeReference)) (· = ·) := by
  refine respects_record _ (.seq (.map ?_ (respects_required "type" TypeRef.respects_decoder))
    (respects_plain_withDefault "isArray" _ _))
  rintro typeRef _ rfl isArray _ rfl
  rfl

/-- Of a list of models every model is compared as a record. -/
theorem respects_models :
    modelsDecoder.Respects (RecordAlike (rootKeys .models))
      (List.Forall₂ (RecordAlike modelKeys)) :=
  respects_record _ (respects_required "models" respects_any.list)

/-- Two models whose nodes are unread. -/
structure ModelShape.Alike (shape shape' : ModelShape) : Prop where
  name : shape.name = shape'.name
  imports : List.Forall₂ ImportAlike shape.imports shape'.imports
  declarations : List.Forall₂ DeclarationAlike shape.declarations shape'.declarations

/-- Of a model the name is read; clauses and declarations are nodes to be compared. -/
theorem ModelShape.respects_decoder :
    ModelShape.decoder.Respects (RecordAlike modelKeys) Alike := by
  refine respects_record _ (.seq (.seq (.map ?_ (respects_plain_required "namespace" _))
    (respects_withDefault "imports" .nil respects_any.list))
    (respects_withDefault "declarations" .nil respects_any.list))
  exact fun _ _ hname _ _ himports _ _ hdeclarations => ⟨hname, himports, hdeclarations⟩

/-- Of an import clause three keys are read. -/
theorem ImportShape.respects_decoder :
    ImportShape.decoder.Respects (RecordAlike importKeys) (· = ·) := by
  refine respects_record _ (.seq (.seq (.map ?_ (respects_plain_required "namespace" _))
    (respects_plain_optional "name" _)) (respects_plain_withDefault "types" _ _))
  rintro source _ rfl name _ rfl names _ rfl
  rfl

/-- The decorators of a declaration or of a member. -/
theorem respects_decorators : (withDefault "decorators" [] DecoratorShape.decoder.list).Respects
    [decoratorsKey] (List.Forall₂ DecoratorShape.Alike) :=
  respects_withDefault "decorators" .nil DecoratorShape.respects_decoder.list

/-- A type that may be left out. -/
theorem respects_optional_typeRef (name : String) :
    (optional name TypeRef.decoder).Respects [.record name typeIdentifierKeys] (· = ·) := by
  have h : (optional name TypeRef.decoder).Respects [.record name typeIdentifierKeys]
      (Option.Rel (· = ·)) :=
    respects_optional name TypeRef.respects_decoder fun _ _ => RecordAlike.eq_null_iff
  rwa [rel_eq_eq] at h

/-- Two classes whose properties and arguments are unread. -/
structure ClassShape.Alike (shape shape' : ClassShape) : Prop where
  name : shape.name = shape'.name
  isAbstract : shape.isAbstract = shape'.isAbstract
  superType : shape.superType = shape'.superType
  properties : List.Forall₂ PropertyAlike shape.properties shape'.properties
  decorators : List.Forall₂ DecoratorShape.Alike shape.decorators shape'.decorators

/-- Of a class five keys are read, and its properties are nodes to be compared. -/
theorem ClassShape.respects_decoder (flavor : Flavor) :
    ClassShape.decoder.Respects (RecordAlike (declarationKeys (.record flavor))) Alike := by
  refine respects_record _ (.seq (.seq (.seq (.seq (.map ?_ (respects_plain_required "name" _))
    (respects_plain_withDefault "isAbstract" _ _)) (respects_optional_typeRef "superType"))
    (respects_withDefault "properties" .nil respects_any.list)) respects_decorators)
  exact fun _ _ hname _ _ habstract _ _ hsuper _ _ hproperties _ _ hdecorators =>
    ⟨hname, habstract, hsuper, hproperties, hdecorators⟩

/-- Two enums whose values and arguments are unread. -/
structure EnumShape.Alike (shape shape' : EnumShape) : Prop where
  name : shape.name = shape'.name
  values : List.Forall₂ EnumValueAlike shape.values shape'.values
  decorators : List.Forall₂ DecoratorShape.Alike shape.decorators shape'.decorators

/-- Of an enum three keys are read, and its values are nodes to be compared. -/
theorem EnumShape.respects_decoder :
    EnumShape.decoder.Respects (RecordAlike (declarationKeys .enumeration)) Alike := by
  refine respects_record _ (.seq (.seq (.map ?_ (respects_plain_required "name" _))
    (respects_withDefault "properties" .nil respects_any.list)) respects_decorators)
  exact fun _ _ hname _ _ hvalues _ _ hdecorators => ⟨hname, hvalues, hdecorators⟩

/-- Two scalars whose arguments are unread. -/
structure ScalarShape.Alike (shape shape' : ScalarShape) : Prop where
  name : shape.name = shape'.name
  default : shape.default = shape'.default
  decorators : List.Forall₂ DecoratorShape.Alike shape.decorators shape'.decorators

/-- Of a scalar three keys are read. -/
theorem ScalarShape.respects_decoder (primitive : Primitive) :
    ScalarShape.decoder.Respects (RecordAlike (declarationKeys (.scalar primitive))) Alike := by
  refine respects_record _ (.seq (.seq (.map ?_ (respects_plain_required "name" _))
    (respects_plain_optional "defaultValue" _)) respects_decorators)
  exact fun _ _ hname _ _ hdefault _ _ hdecorators => ⟨hname, hdefault, hdecorators⟩

/-- Two properties, or two values of an enum, whose arguments are unread. -/
structure PropertyShape.Alike (shape shape' : PropertyShape) : Prop where
  name : shape.name = shape'.name
  isArray : shape.isArray = shape'.isArray
  isOptional : shape.isOptional = shape'.isOptional
  typeRef : shape.typeRef = shape'.typeRef
  decorators : List.Forall₂ DecoratorShape.Alike shape.decorators shape'.decorators

/-- Of a property five keys are read, as of a value of an enum. -/
theorem PropertyShape.respects_decoder :
    PropertyShape.decoder.Respects (RecordAlike propertyKeys) Alike := by
  refine respects_record _ (.seq (.seq (.seq (.seq (.map ?_ (respects_plain_required "name" _))
    (respects_plain_withDefault "isArray" _ _)) (respects_plain_withDefault "isOptional" _ _))
    (respects_optional_typeRef "type")) respects_decorators)
  exact fun _ _ hname _ _ harray _ _ hoptional _ _ htype _ _ hdecorators =>
    ⟨hname, harray, hoptional, htype, hdecorators⟩

end

/-! ## Nodes are read alike -/

namespace Metamodel

variable {node node' : Json}

/-- Arguments that are alike are read as one argument, or neither is. -/
theorem ArgumentAlike.read (h : ArgumentAlike node node') :
    SameOutcome (· = ·) (readArgument node) (readArgument node') := by
  refine NodeAlike.read h fun kind hrecord => ?_
  cases kind with
  | text =>
      exact (sameOutcome_fields (literalDecoder_respects _) hrecord).bind fun a a' ha =>
        .pure (congrArg Literal.text ha)
  | number =>
      exact (sameOutcome_fields (literalDecoder_respects _) hrecord).bind fun a a' ha =>
        .pure (congrArg Literal.number ha)
  | boolean =>
      exact (sameOutcome_fields (literalDecoder_respects _) hrecord).bind fun a a' ha =>
        .pure (congrArg Literal.boolean ha)
  | typeReference =>
      refine (sameOutcome_fields TypeReferenceShape.respects_decoder hrecord).bind fun a a' ha => ?_
      rw [ha]
      exact .pure rfl

theorem sameOutcome_readDecorators {shapes shapes' : List DecoratorShape}
    (h : List.Forall₂ DecoratorShape.Alike shapes shapes') :
    SameOutcome (· = ·) (shapes.mapM readDecorator) (shapes'.mapM readDecorator) := by
  refine .mapM_eq h fun shape shape' hshape => ?_
  unfold readDecorator
  rw [hshape.name]
  refine SameOutcome.bind (.mapM_eq hshape.arguments fun _ _ => ArgumentAlike.read) ?_
  rintro arguments _ rfl
  exact .pure rfl

/-- Properties that are alike are read as one property, or neither is. -/
theorem PropertyAlike.read (h : PropertyAlike node node') :
    SameOutcome (· = ·) (readProperty node) (readProperty node') := by
  refine NodeAlike.read h fun kind hrecord => ?_
  refine (sameOutcome_fields PropertyShape.respects_decoder hrecord).bind
    fun shape shape' hshape => ?_
  rw [hshape.name, hshape.isArray, hshape.isOptional, hshape.typeRef]
  have hdecorators := sameOutcome_readDecorators hshape.decorators
  -- what is put together has equal decorators, whatever its type is
  have hbuilt : ∀ propertyKind typeRef, SameOutcome (· = ·)
      (shape.decorators.mapM readDecorator >>= fun decorators =>
        (pure ⟨shape'.name, propertyKind, typeRef, shape'.isArray, shape'.isOptional, decorators⟩
          : Reading Property))
      (shape'.decorators.mapM readDecorator >>= fun decorators =>
        pure ⟨shape'.name, propertyKind, typeRef, shape'.isArray,
          shape'.isOptional, decorators⟩) := by
    intro propertyKind typeRef
    refine hdecorators.bind ?_
    rintro decorators _ rfl
    exact .pure rfl
  cases kind with
  | primitive p => exact hbuilt _ _
  | object =>
      cases shape'.typeRef with
      | some r => exact hbuilt _ _
      | none => exact .fail _ _
  | relationship =>
      cases shape'.typeRef with
      | some r => exact hbuilt _ _
      | none => exact .fail _ _

/-- Values of an enum that are alike are read as one value, or neither is. -/
theorem EnumValueAlike.read (h : EnumValueAlike node node') (enumName : String) :
    SameOutcome (· = ·) (readEnumValue enumName node) (readEnumValue enumName node') := by
  refine NodeAlike.read h fun kind hrecord => ?_
  refine (sameOutcome_fields PropertyShape.respects_decoder hrecord).bind
    fun shape shape' hshape => ?_
  rw [hshape.name]
  refine (sameOutcome_readDecorators hshape.decorators).bind ?_
  rintro decorators _ rfl
  exact .pure rfl

/-- **Declarations that are alike are read as one declaration**, or neither is, whatever their
kind. -/
theorem DeclarationAlike.read (h : DeclarationAlike node node') (owner : String) :
    SameOutcome (· = ·) (readDeclaration owner node) (readDeclaration owner node') := by
  refine NodeAlike.read h fun kind hrecord => ?_
  cases kind with
  | record flavor =>
      refine (sameOutcome_fields (ClassShape.respects_decoder flavor) hrecord).bind
        fun shape shape' hshape => ?_
      rw [hshape.name, hshape.isAbstract, hshape.superType]
      refine SameOutcome.bind (.mapM_eq hshape.properties fun _ _ => PropertyAlike.read) ?_
      rintro properties _ rfl
      refine (sameOutcome_readDecorators hshape.decorators).bind ?_
      rintro decorators _ rfl
      exact .pure rfl
  | enumeration =>
      refine (sameOutcome_fields EnumShape.respects_decoder hrecord).bind
        fun shape shape' hshape => ?_
      rw [hshape.name]
      refine SameOutcome.bind (.mapM_eq hshape.values
        fun _ _ hvalue => EnumValueAlike.read hvalue _) ?_
      rintro values _ rfl
      refine (sameOutcome_readDecorators hshape.decorators).bind ?_
      rintro decorators _ rfl
      exact .pure rfl
  | scalar primitive =>
      refine (sameOutcome_fields (ScalarShape.respects_decoder primitive) hrecord).bind
        fun shape shape' hshape => ?_
      rw [hshape.name, hshape.default]
      refine (sameOutcome_readDecorators hshape.decorators).bind ?_
      rintro decorators _ rfl
      exact .pure rfl

/-- An import clause that is read has a kind, although its fields are read first. -/
theorem exists_kindOf_of_readImport {i : Import} (h : readImport node = .ok i) :
    ∃ kind, kindOf ImportKind node = .ok kind := by
  unfold readImport at h
  obtain ⟨word, hword, h⟩ := bind_eq_ok_iff.1 h
  obtain ⟨shape, -, h⟩ := bind_eq_ok_iff.1 h
  cases hkind : NodeKind.ofName? ImportKind word with
  | some kind => exact ⟨kind, bind_eq_ok_iff.2 ⟨word, hword, by rw [hkind]⟩⟩
  | none =>
      rw [hkind] at h
      exact absurd h (by simp)

/-- Import clauses that are alike are read as one clause, or neither is. -/
theorem ImportAlike.read (h : ImportAlike node node') :
    SameOutcome (· = ·) (readImport node) (readImport node') := by
  rcases (NodeAlike.kindOf h).cases_ok with ⟨kind, _, hkind, -, rfl⟩ | ⟨e, e', hkind, hkind'⟩
  · refine (NodeAlike.kindWord h _).bind ?_
    rintro word _ rfl
    refine (sameOutcome_fields ImportShape.respects_decoder (h.record kind hkind)).bind ?_
    rintro shape _ rfl
    cases NodeKind.ofName? ImportKind word with
    | none => exact .fail _ _
    | some found =>
        cases found with
        | one =>
            cases shape.name with
            | some name => exact .pure rfl
            | none => exact .fail _ _
        | several => exact .pure rfl
        | all => exact .pure rfl
  · -- a clause of an unknown kind is not read, and its fields are free
    refine .of_not_ok (fun i hi => ?_) fun i hi => ?_
    · obtain ⟨kind, hkind''⟩ := exists_kindOf_of_readImport hi
      exact absurd (hkind.symm.trans hkind'') (by simp)
    · obtain ⟨kind, hkind''⟩ := exists_kindOf_of_readImport hi
      exact absurd (hkind'.symm.trans hkind'') (by simp)

/-- Models that are alike are read as one namespace, or neither is. -/
theorem sameOutcome_readModel (h : RecordAlike modelKeys node node') :
    SameOutcome (· = ·) (readModel node) (readModel node') := by
  refine (sameOutcome_fields ModelShape.respects_decoder h).bind fun shape shape' hshape => ?_
  rw [hshape.name]
  refine SameOutcome.bind (.mapM_eq hshape.imports fun _ _ => ImportAlike.read) ?_
  rintro imports _ rfl
  refine SameOutcome.bind (.mapM_eq hshape.declarations fun _ _ h => DeclarationAlike.read h _) ?_
  rintro declarations _ rfl
  exact .pure rfl

/-- Documents that are alike hold the same namespaces, or both hold none. -/
theorem DocumentAlike.read (h : DocumentAlike node node') :
    SameOutcome (· = ·) (readDocument node) (readDocument node') := by
  refine NodeAlike.read h fun kind hrecord => ?_
  cases kind with
  | models =>
      exact (sameOutcome_fields respects_models hrecord).bind fun nodes nodes' hnodes =>
        .mapM_eq hnodes fun _ _ => sameOutcome_readModel
  | model =>
      refine (sameOutcome_readModel hrecord).bind ?_
      rintro ns _ rfl
      exact .pure rfl

end Metamodel

/-! ## Loading -/

/-- **Loading looks at own keys and at last segments only.** Two documents that differ, at any of
their nodes, in nothing but the front part of `$class`, the keys that are not read there and the
order of keys give one graph, or both give none. So do two texts of such documents. -/
theorem alike_documents_load_alike {document document' : Json}
    (h : DocumentAlike document document') :
    (∀ origin, SameOutcome (· = ·) (namespacesOfDocument origin document >>= Graph.ofDistinct)
      (namespacesOfDocument origin document' >>= Graph.ofDistinct))
    ∧ ∀ text text', Json.parse text = .ok document → Json.parse text' = .ok document' →
      SameOutcome (· = ·) (loadText text) (loadText text') := by
  have hvalues : ∀ origin,
      SameOutcome (· = ·) (namespacesOfDocument origin document >>= Graph.ofDistinct)
      (namespacesOfDocument origin document' >>= Graph.ofDistinct) := by
    intro origin
    unfold namespacesOfDocument
    rcases (DocumentAlike.read h).cases_ok
      with ⟨namespaces, _, hread, hread', rfl⟩ | ⟨e, e', hread, hread'⟩
    · rw [hread, hread']
      exact .refl _
    · rw [hread, hread']
      exact .fail _ _
  refine ⟨hvalues, fun text text' hparse hparse' => ?_⟩
  unfold loadText namespacesOfText
  rw [hparse, hparse']
  exact hvalues _

/-! ## Tools -/

/-- A tool that writes documents in its own way. It says the kind of a node by another text of the
same last segment, leaves a note in every node, and puts the fields of a node into an order of its
own. -/
structure Tool where
  kindText : String → String
  arrange : List (String × Json) → List (String × Json)
  kind_alike : ∀ s, ClassAlike (.text s) (.text (kindText s))
  perm : ∀ fields, (fields.map Prod.fst).Nodup → (arrange fields).Perm fields

namespace Tool

/-- A node as the tool writes it. -/
def node (tool : Tool) (kind : String) (fields : List (String × Json)) : Json :=
  .object (tool.arrange
    (fields ++ [("$class", .text (tool.kindText (classPrefix ++ kind))), ("note", .text kind)]))

/-- The tool that names no version, and starts with the last field. -/
def shortening : Tool where
  kindText := lastSegment
  arrange := List.reverse
  kind_alike := ClassAlike.of_no_front
  perm fields _ := List.reverse_perm fields

/-- The tool that names another metamodel, and sorts the fields by their keys. -/
def sorting : Tool where
  kindText s := "org.models@2.0.0" ++ "." ++ lastSegment s
  arrange := KeyedList.ofList
  kind_alike s := ClassAlike.of_front s "org.models@2.0.0"
  perm _ := KeyedList.perm_ofList

section

variable (tool : Tool) (kind : String) {keys : List OwnKey} {fields fields' : List (String × Json)}

/-- **What a tool writes is an edit.** The values of a node may be written in the way of the tool
as well, as long as they stay alike. -/
theorem fieldsAlike (h : EntriesAlike keys fields fields')
    (hkeys : ("$class" :: "note" :: keys.map OwnKey.name).Nodup)
    (hfields : ("$class" :: "note" :: fields.map Prod.fst).Nodup) :
    FieldsAlike (classKey :: keys)
      (KeyedList.ofList (("$class", .text (classPrefix ++ kind)) :: fields))
      (tool.arrange
        (fields'
          ++ [("$class", .text (tool.kindText (classPrefix ++ kind))), ("note", .text kind)])) := by
  rw [List.nodup_cons, List.nodup_cons, List.mem_cons, not_or] at hkeys
  obtain ⟨⟨-, hclass⟩, hnote, -⟩ := hkeys
  have hforeign {name : String} (hname : name ∉ keys.map OwnKey.name) :
      ∀ key ∈ keys, name ≠ key.name :=
    fun key hkey heq => hname (heq ▸ List.mem_map_of_mem hkey)
  -- both objects have distinct keys, so they may be taken for their entries in any order
  have hsorted : (("$class", Json.text (classPrefix ++ kind)) :: fields).map Prod.fst |>.Nodup :=
    hfields.sublist (.cons_cons _ (List.sublist_cons_self _ _))
  have hwritten : (fields' ++ [("$class", Json.text (tool.kindText (classPrefix ++ kind))),
      ("note", .text kind)]).map Prod.fst |>.Nodup := by
    rw [List.map_append, ← h.map_fst_eq]
    exact List.perm_append_comm.nodup_iff.1 hfields
  have hperm := KeyedList.perm_ofList hsorted
  have hperm' := tool.perm _ hwritten
  have hdistinct := (hperm.map Prod.fst).nodup_iff.2 hsorted
  have hdistinct' := (hperm'.map Prod.fst).nodup_iff.2 hwritten
  have hfront : (("$class", Json.text (classPrefix ++ kind)) :: fields).Perm
      (fields ++ [("$class", .text (classPrefix ++ kind))]) :=
        (List.perm_append_singleton _ fields).symm
  refine .cons ?_ (.of_edit (hperm.trans hfront) hperm' hdistinct hdistinct' h ?_ ?_)
  · have hlookup := lookup_of_mem hdistinct (hperm.mem_iff.2 List.mem_cons_self)
    have hlookup' := lookup_of_mem hdistinct'
      (hperm'.mem_iff.2 (List.mem_append_right fields' List.mem_cons_self))
    rw [classKey, hlookup, hlookup']
    exact .some (tool.kind_alike _)
  · exact fun key hkey => List.forall_mem_singleton.2 (hforeign hclass key hkey)
  · exact fun key hkey => List.forall_mem_cons.2 ⟨hforeign hclass key hkey,
      List.forall_mem_singleton.2 (hforeign hnote key hkey)⟩

/-- What a tool writes in the place of a record is alike. -/
theorem recordAlike (h : EntriesAlike keys fields fields')
    (hkeys : ("$class" :: "note" :: keys.map OwnKey.name).Nodup)
    (hfields : ("$class" :: "note" :: fields.map Prod.fst).Nodup) :
    RecordAlike keys (Metamodel.node kind fields) (tool.node kind fields') :=
  .object (List.forall_mem_cons.1 (tool.fieldsAlike kind h hkeys hfields)).2

/-- So is what it writes in the place of a node. -/
theorem nodeAlike {κ : Type} [NodeKind κ] {keys : κ → List OwnKey} {found : κ}
    (hkind : kindOf κ (Metamodel.node kind fields) = .ok found)
    (h : EntriesAlike (keys found) fields fields')
    (hkeys : ("$class" :: "note" :: (keys found).map OwnKey.name).Nodup)
    (hfields : ("$class" :: "note" :: fields.map Prod.fst).Nodup) :
    NodeAlike κ keys (Metamodel.node kind fields) (tool.node kind fields') :=
  .object hkind (tool.fieldsAlike kind h hkeys hfields)

end

end Tool

/-! The document of a fleet is written in the usual way, and by any tool. -/

section

variable (node : String → List (String × Json) → Json)

def carType : Json := node "TypeIdentifier" [("name", .text "Car")]

def carArgument : Json := node "DecoratorString" [("value", .text "any car")]

def carDecorator : Json :=
  node "Decorator" [("name", .text "doc"), ("arguments", .array [carArgument node])]

/-- A property that has a type and a decorator. -/
def carSuccessor : Json :=
  node "ObjectProperty" [
    ("name", .text "successor"),
    ("type", carType node),
    ("decorators", .array [carDecorator node])]

def car : Json :=
  node "ConceptDeclaration" [("name", .text "Car"), ("properties", .array [carSuccessor node])]

def colourValue : Json := node "EnumProperty" [("name", .text "RED")]

def colour : Json :=
  node "EnumDeclaration" [("name", .text "Colour"), ("properties", .array [colourValue node])]

def baseImport : Json := node "ImportAll" [("namespace", .text "org.base")]

/-- A document of one namespace, with nodes that are made by `node`. -/
def fleet : Json :=
  node "Model" [
    ("namespace", .text "org.fleet"),
    ("imports", .array [baseImport node]),
    ("declarations", .array [car node, colour node])]

end

/-- Whatever tool writes the document of the fleet, it is alike. -/
theorem fleet_alike (tool : Tool) : DocumentAlike (fleet node) (fleet tool.node) := by
  have htype : RecordAlike typeIdentifierKeys (carType node) (carType tool.node) :=
    tool.recordAlike _ (.kept _ .nil) (by decide) (by decide)
  have hargument : ArgumentAlike (carArgument node) (carArgument tool.node) :=
    tool.nodeAlike _ rfl (.kept _ .nil) (by decide) (by decide)
  have hdecorator : RecordAlike decoratorKeys (carDecorator node) (carDecorator tool.node) :=
    tool.recordAlike _
      (.kept _ (.exchanged (.list "arguments" ArgumentAlike NodeAlike.refl) (by decide)
      (by simp [decoratorKeys]) (.array (.cons hargument .nil)) .nil)) (by decide) (by decide)
  have hsuccessor : PropertyAlike (carSuccessor node) (carSuccessor tool.node) :=
    tool.nodeAlike _ rfl (.kept _ (.exchanged (.record "type" typeIdentifierKeys) (by decide)
      (by simp [propertyKeys]) htype (.exchanged decoratorsKey (by decide) (by simp [propertyKeys])
        (.array (.cons hdecorator .nil)) .nil))) (by decide) (by decide)
  have hvalue : EnumValueAlike (colourValue node) (colourValue tool.node) :=
    tool.nodeAlike _ rfl (.kept _ .nil) (by decide) (by decide)
  have himport : ImportAlike (baseImport node) (baseImport tool.node) :=
    tool.nodeAlike _ rfl (.kept _ .nil) (by decide) (by decide)
  have hcar : DeclarationAlike (car node) (car tool.node) :=
    tool.nodeAlike _ rfl
      (.kept _ (.exchanged (.list "properties" PropertyAlike NodeAlike.refl) (by decide)
      (by simp [declarationKeys]) (.array (.cons hsuccessor .nil)) .nil)) (by decide) (by decide)
  have hcolour : DeclarationAlike (colour node) (colour tool.node) :=
    tool.nodeAlike _ rfl
      (.kept _ (.exchanged (.list "properties" EnumValueAlike NodeAlike.refl) (by decide)
      (by simp [declarationKeys]) (.array (.cons hvalue .nil)) .nil)) (by decide) (by decide)
  exact tool.nodeAlike _ rfl
    (.kept _ (.exchanged (.list "imports" ImportAlike NodeAlike.refl) (by decide)
    (by simp [rootKeys, modelKeys]) (.array (.cons himport .nil))
    (.exchanged (.list "declarations" DeclarationAlike NodeAlike.refl) (by decide)
      (by simp [rootKeys, modelKeys]) (.array (.cons hcar (.cons hcolour .nil))) .nil)))
    (by decide) (by decide)

/-- What a tool has written is loaded as the graph that was meant. -/
theorem alike_documents_load_alike_fleet :
    (∀ origin, SameOutcome (· = ·) (namespacesOfDocument origin (fleet node) >>= Graph.ofDistinct)
      (namespacesOfDocument origin (fleet Tool.shortening.node) >>= Graph.ofDistinct))
    ∧ ∃ g, loadText (fleet node).render = .ok g
      ∧ loadText (fleet Tool.sorting.node).render = .ok g := by
  refine ⟨(alike_documents_load_alike (fleet_alike .shortening)).1, ?_⟩
  have htexts := (alike_documents_load_alike (fleet_alike .sorting)).2 _ _
    (Json.parse_render (by decide +kernel)) (Json.parse_render (by decide +kernel))
  have hloads : ∃ g, loadText (fleet node).render = .ok g :=
    ⟨_, loadText_render (by decide +kernel) rfl (by decide)⟩
  obtain ⟨g, hg⟩ := hloads
  rcases htexts.cases_ok with ⟨_, _, hfirst, hsecond, rfl⟩ | ⟨e, _, hfirst, -⟩
  · exact ⟨_, hfirst, hsecond⟩
  · exact absurd (hfirst.symm.trans hg) (by simp)

end ModelForge
