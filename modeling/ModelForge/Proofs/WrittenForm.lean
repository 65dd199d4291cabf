/-
`WrittenForm.lean` -- a graph that is written as a document is read back.

Each writer of `Metamodel/Writer.lean` has its reader, and the lemmas here follow the writers from
the arguments of decorators up to the document. A node is read back in the two steps that readers
take: the word behind the last dot of `$class` is that of the kind it was written with, and the
fields that a shape reads are among those that were written. Reading gives back every part of a
graph but what `Graph.WellFormed` demands, and what is loaded is well formed, so documents hold
exactly the well-formed graphs.
-/
import ModelForge.Proofs.LoadedForm

set_option autoImplicit false

namespace ModelForge

open Record (reads_optional reads_optional_of_absent reads_required reads_withDefault
  reads_withDefault_of_absent)

/-! ## Lists -/

section

variable {ε α β γ : Type}

/-- Items that are each read back are read back as a list. -/
theorem mapM_map_eq_ok {write : α → β} {read : β → Except ε γ} {result : α → γ} {items : List α}
    (h : ∀ a ∈ items, read (write a) = .ok (result a)) :
    (items.map write).mapM read = .ok (items.map result) := by
  induction items with
  | nil => rfl
  | cons a rest ih =>
      rw [List.forall_mem_cons] at h
      rw [List.map_cons, List.mapM_cons, h.1, ih h.2]
      rfl

/-- Items that are read back one by one are read back as a list. -/
theorem mapM_map_eq_ok_self {write : α → β} {read : β → Except ε α} {items : List α}
    (h : ∀ a ∈ items, read (write a) = .ok a) : (items.map write).mapM read = .ok items := by
  have hmap : (items.map write).mapM read = .ok (items.map id) := mapM_map_eq_ok h
  rw [hmap, List.map_id]

/-- Unread values are taken as they are. -/
theorem list_any_array (values : List Json) : Decoder.any.list (.array values) = .ok values := by
  have hvalues : (values.map id).mapM Decoder.any = .ok values := mapM_map_eq_ok_self fun _ _ => rfl
  rwa [List.map_id] at hvalues

/-- An array of written values is read as the list of what they give. -/
theorem list_array_map {decoder : Decoder γ} {write : α → Json} {result : α → γ} {items : List α}
    (h : ∀ a, decoder (write a) = .ok (result a)) :
    decoder.list (.array (items.map write)) = .ok (items.map result) :=
  mapM_map_eq_ok fun a _ => h a

end

/-! ## Kinds -/

/-- Each kind is found by its own word, and no word has a dot. -/
class LawfulNodeKind (κ : Type) [NodeKind κ] : Prop where
  ofName?_name : ∀ kind : κ, NodeKind.ofName? κ (NodeKind.name kind) = some kind
  dot_not_mem : ∀ kind : κ, '.' ∉ (NodeKind.name kind).toList

instance : LawfulNodeKind RootKind where
  ofName?_name kind := by cases kind <;> decide
  dot_not_mem kind := by cases kind <;> decide

instance : LawfulNodeKind ImportKind where
  ofName?_name kind := by cases kind <;> decide
  dot_not_mem kind := by cases kind <;> decide

instance : LawfulNodeKind DeclarationKind where
  ofName?_name
    | .record flavor => by cases flavor <;> decide
    | .enumeration => by decide
    | .scalar primitive => by cases primitive <;> decide
  dot_not_mem
    | .record flavor => by cases flavor <;> decide
    | .enumeration => by decide
    | .scalar primitive => by cases primitive <;> decide

instance : LawfulNodeKind MemberKind where
  ofName?_name
    | .primitive p => by cases p <;> decide
    | .object => by decide
    | .relationship => by decide
  dot_not_mem
    | .primitive p => by cases p <;> decide
    | .object => by decide
    | .relationship => by decide

instance : LawfulNodeKind EnumValueKind where
  ofName?_name kind := by cases kind; decide
  dot_not_mem kind := by cases kind; decide

instance : LawfulNodeKind ArgumentKind where
  ofName?_name kind := by cases kind <;> decide
  dot_not_mem kind := by cases kind <;> decide

/-- What comes before a dot is no part of the last segment. -/
theorem lastSegment_append {front word : String} (hword : '.' ∉ word.toList) :
    lastSegment (front ++ "." ++ word) = word := by
  have hchars : ∀ c ∈ word.toList.reverse, decide (c ≠ '.') = true := by
    intro c hc
    refine decide_eq_true fun hdot => hword ?_
    rw [← hdot]
    exact List.mem_reverse.1 hc
  have hdot : "." = String.singleton '.' := rfl
  unfold lastSegment
  rw [String.toList_append, String.toList_append, List.reverse_append, List.reverse_append, hdot,
    String.toList_singleton, List.reverse_singleton, List.takeWhile_append_of_pos hchars,
    List.singleton_append, List.takeWhile_cons_of_neg (by decide), List.append_nil,
    List.reverse_reverse,
    String.ofList_toList]

namespace Metamodel

/-! ## Nodes -/

/-- The fields of a node as a reader finds them. -/
def nodeFields (kind : String) (fields : List (String × Json)) : KeyedList Json :=
  .ofList (("$class", .text (classPrefix ++ kind)) :: fields)

/-- A field that was written is found, except for the kind. -/
theorem lookup_nodeFields {kind key : String} {fields : List (String × Json)}
    (hkey : key ≠ "$class") :
    (nodeFields kind fields).lookup key = fields.reverse.lookup key := by
  rw [nodeFields, KeyedList.lookup_ofList, List.reverse_cons,
    List.lookup_append, lookup_cons_eq_ite, if_neg hkey, List.lookup_nil, Option.or_none]

/-- A node has the kind it was written with. -/
theorem kindWord?_node {kind : String} {fields : List (String × Json)}
    (hfields : fields.reverse.lookup "$class" = none) (hkind : '.' ∉ kind.toList) :
    (node kind fields).kindWord? = some kind := by
  have hclass : (nodeFields kind fields).lookup "$class" = some (.text (classPrefix ++ kind)) := by
    rw [nodeFields, KeyedList.lookup_ofList, List.reverse_cons, List.lookup_append, hfields,
      Option.none_or, lookup_cons_eq_ite, if_pos rfl]
  have hdotted : classPrefix = "metamodel@1.0.0" ++ "." := rfl
  show (((nodeFields kind fields).lookup "$class").bind Json.text?).map lastSegment = some kind
  rw [hclass, hdotted]
  exact congrArg some (lastSegment_append hkind)

section

variable {κ : Type} [NodeKind κ] [LawfulNodeKind κ]

/-- The kind that a node was written with is the kind that is seen. -/
theorem kindWord_node (role : NodeRole) (kind : κ) {fields : List (String × Json)}
    (hfields : fields.reverse.lookup "$class" = none) :
    kindWord role (node (NodeKind.name kind) fields) = .ok (NodeKind.name kind) := by
  unfold kindWord
  rw [kindWord?_node hfields (LawfulNodeKind.dot_not_mem kind)]

/-- And it is found among the kinds of its position. -/
theorem kindOf_node (kind : κ) {fields : List (String × Json)}
    (hfields : fields.reverse.lookup "$class" = none) :
    kindOf κ (node (NodeKind.name kind) fields) = .ok kind := by
  unfold kindOf
  refine bind_eq_ok_iff.2 ⟨NodeKind.name kind, kindWord_node _ kind hfields, ?_⟩
  rw [LawfulNodeKind.ofName?_name kind]

end

section

variable {α : Type} {kind name : String} {written : List (String × Json)}
    {record : Record α} {a : α}

/-- A node is read as its record reads the fields that were written. -/
theorem decoder_node (hread : record.Reads (nodeFields kind written) a) :
    Decoder.record name record (node kind written) = .ok a :=
  Decoder.record_of_reads name hread

/-- Reading the fields of a node is no different from decoding it. -/
theorem fields_node (hread : record.Reads (nodeFields kind written) a) :
    fields (Decoder.record name record) (node kind written) = .ok a := by
  unfold fields
  rw [decoder_node hread]

variable {key : String} {decoder : Decoder α} {found : Json}

/-! A field that was written is read, in whichever way the shape asks for it. -/

/-- A required field that was written is read as what it holds. -/
theorem required_node (hkey : key ≠ "$class") (hfound : written.reverse.lookup key = some found)
    (ha : decoder found = .ok a) :
    (Record.required key decoder).Reads (nodeFields kind written) a :=
  reads_required ((lookup_nodeFields hkey).trans hfound) ha

/-- So is a field with a default that was written all the same. -/
theorem withDefault_node {default : α} (hkey : key ≠ "$class")
    (hfound : written.reverse.lookup key = some found) (ha : decoder found = .ok a) :
    (Record.withDefault key default decoder).Reads (nodeFields kind written) a :=
  reads_withDefault ((lookup_nodeFields hkey).trans hfound) ha

/-- And so is an optional field. -/
theorem optional_node {value : Option α} (hkey : key ≠ "$class")
    (hfound : written.reverse.lookup key = some found)
    (hvalue : decoder.nullable found = .ok value) :
    (Record.optional key decoder).Reads (nodeFields kind written) value :=
  reads_optional ((lookup_nodeFields hkey).trans hfound) hvalue

/-- An optional field that was not written is read as absent. -/
theorem optional_node_of_absent (hkey : key ≠ "$class")
    (habsent : written.reverse.lookup key = none) :
    (Record.optional key decoder).Reads (nodeFields kind written) none :=
  reads_optional_of_absent ((lookup_nodeFields hkey).trans habsent)

/-- A field that was not written has its default. -/
theorem withDefault_node_of_absent (hkey : key ≠ "$class")
    (habsent : written.reverse.lookup key = none) :
    (Record.withDefault key a decoder).Reads (nodeFields kind written) a :=
  reads_withDefault_of_absent ((lookup_nodeFields hkey).trans habsent)

/-! A field that may be absent is written behind the others. -/

/-- A field that may be left out does not hide the ones in front of it. -/
theorem lookup_append_optionalField {β : Type} {name : String} {write : β → Json} {value : Option β}
    (hkey : key ≠ name) (hfound : written.reverse.lookup key = some found) :
    (written ++ optionalField name write value).reverse.lookup key = some found := by
  cases value with
  | none => rwa [optionalField, List.append_nil]
  | some b =>
      rw [optionalField, List.reverse_append, List.reverse_singleton, List.singleton_append,
        lookup_cons_eq_ite, if_neg hkey, hfound]

/-- An optional field is read as it was given, be it written or left out. -/
theorem optional_node_of_optionalField {write : α → Json} {value : Option α} (hkey : key ≠ "$class")
    (habsent : written.reverse.lookup key = none)
    (hwrite : ∀ a, decoder.nullable (write a) = .ok (some a)) :
    (Record.optional key decoder).Reads (nodeFields kind (written ++ optionalField key write value))
      value := by
  cases value with
  | none =>
      refine optional_node_of_absent hkey ?_
      rwa [optionalField, List.append_nil]
  | some b =>
      refine optional_node hkey ?_ (hwrite b)
      rw [optionalField, List.reverse_append, List.reverse_singleton, List.singleton_append,
        lookup_cons_eq_ite, if_pos rfl]

end

/-! ## Decorators -/

/-- A type identifier is read back. -/
theorem decoder_writeTypeRef (r : TypeRef) : TypeRef.decoder (writeTypeRef r) = .ok r := by
  have hwritten : writeTypeRef r = node "TypeIdentifier"
    ([("name", .text r.name)] ++ optionalField "namespace" .text r.qualifier) := rfl
  rw [hwritten]
  refine decoder_node (.seq (.map TypeRef.mk ?_) ?_)
  · exact required_node (by decide) (lookup_append_optionalField (by decide) rfl) rfl
  · exact optional_node_of_optionalField (by decide) rfl fun _ => rfl

/-- A type identifier is no `null`, so it is read where it may be left out as well. -/
theorem nullable_writeTypeRef (r : TypeRef) :
    TypeRef.decoder.nullable (writeTypeRef r) = .ok (some r) := by
  show (TypeRef.decoder (writeTypeRef r)).map some = _
  rw [decoder_writeTypeRef]
  rfl

/-- An argument of a decorator is read back, whatever its kind. -/
theorem readArgument_writeArgument (a : Literal) : readArgument (writeArgument a) = .ok a := by
  unfold readArgument
  cases a with
  | text s =>
      refine bind_eq_ok_iff.2 ⟨.text, kindOf_node _ rfl, ?_⟩
      exact bind_eq_ok_iff.2 ⟨s, fields_node (required_node (by decide) rfl rfl), rfl⟩
  | number x =>
      refine bind_eq_ok_iff.2 ⟨.number, kindOf_node _ rfl, ?_⟩
      exact bind_eq_ok_iff.2 ⟨x, fields_node (required_node (by decide) rfl rfl), rfl⟩
  | boolean b =>
      refine bind_eq_ok_iff.2 ⟨.boolean, kindOf_node _ rfl, ?_⟩
      exact bind_eq_ok_iff.2 ⟨b, fields_node (required_node (by decide) rfl rfl), rfl⟩
  | typeReference name isArray =>
      refine bind_eq_ok_iff.2 ⟨.typeReference, kindOf_node _ rfl, ?_⟩
      refine bind_eq_ok_iff.2 ⟨⟨.named name, isArray⟩, fields_node ?_, rfl⟩
      refine .seq (.map TypeReferenceShape.mk ?_) ?_
      · exact required_node (by decide) rfl (decoder_writeTypeRef _)
      · exact withDefault_node (by decide) rfl rfl

/-- A decorator that was written, as a reader finds it. -/
def writtenShape (d : Decorator) : DecoratorShape := ⟨d.name, d.arguments.map writeArgument⟩

/-- A decorator is read as its name, with arguments that are nodes still. -/
theorem decoder_writeDecorator (d : Decorator) :
    DecoratorShape.decoder (writeDecorator d) = .ok (writtenShape d) := by
  refine decoder_node (.seq (.map DecoratorShape.mk ?_) ?_)
  · exact required_node (by decide) rfl rfl
  · exact withDefault_node (by decide) rfl (list_any_array _)

/-- Those arguments are read back. -/
theorem readDecorator_writtenShape (d : Decorator) : readDecorator (writtenShape d) = .ok d := by
  unfold readDecorator
  exact bind_eq_ok_iff.2 ⟨d.arguments,
    mapM_map_eq_ok_self fun a _ => readArgument_writeArgument a, rfl⟩

/-- So are all decorators of a node. -/
theorem readDecorators_writtenShapes (decorators : List Decorator) :
    (decorators.map writtenShape).mapM readDecorator = .ok decorators :=
  mapM_map_eq_ok_self fun d _ => readDecorator_writtenShape d

/-- The decorators of a node are found under their key. -/
theorem decoder_decorators (decorators : List Decorator) :
    DecoratorShape.decoder.list (.array (decorators.map writeDecorator))
      = .ok (decorators.map writtenShape) :=
  list_array_map decoder_writeDecorator

/-! ## Members -/

/-- The fields of a property are read back, whatever its kind is. -/
theorem fields_writeProperty (p : Property) :
    fields PropertyShape.decoder (writeProperty p)
      = .ok ⟨p.name, p.isArray, p.isOptional, some p.typeRef, p.decorators.map writtenShape⟩ := by
  refine fields_node (.seq (.seq (.seq (.seq (.map PropertyShape.mk ?_) ?_) ?_) ?_) ?_)
  · exact required_node (by decide) rfl rfl
  · exact withDefault_node (by decide) rfl rfl
  · exact withDefault_node (by decide) rfl rfl
  · exact optional_node (by decide) rfl (nullable_writeTypeRef _)
  · exact withDefault_node (by decide) rfl (decoder_decorators _)

/-- A property of a class is read back. -/
theorem readProperty_writeProperty {p : Property} (hp : p.IsMember) :
    readProperty (writeProperty p) = .ok p := by
  obtain ⟨hkind, -⟩ := hp
  unfold readProperty
  refine bind_eq_ok_iff.2 ⟨memberKind p, kindOf_node _ rfl, ?_⟩
  refine bind_eq_ok_iff.2 ⟨_, fields_writeProperty p, ?_⟩
  have hdecorators := readDecorators_writtenShapes p.decorators
  obtain ⟨name, kind, typeRef, isArray, isOptional, decorators⟩ := p
  cases kind with
  | field =>
      cases hprimitive : typeRef.primitive? with
      | none =>
          have hmember : memberKind ⟨name, .field, typeRef, isArray, isOptional, decorators⟩
              = .object := by
            simp [memberKind, hprimitive]
          rw [hmember]
          exact bind_eq_ok_iff.2 ⟨_, rfl, bind_eq_ok_iff.2 ⟨_, hdecorators, rfl⟩⟩
      | some primitive =>
          have hmember : memberKind ⟨name, .field, typeRef, isArray, isOptional, decorators⟩
              = .primitive primitive := by
            simp [memberKind, hprimitive]
          -- the reader makes the type from the kind, whatever type is written
          rw [hmember, TypeRef.primitive?_eq_some_iff.1 hprimitive]
          exact bind_eq_ok_iff.2 ⟨_, rfl, bind_eq_ok_iff.2 ⟨_, hdecorators, rfl⟩⟩
  | relationship => exact bind_eq_ok_iff.2 ⟨_, rfl, bind_eq_ok_iff.2 ⟨_, hdecorators, rfl⟩⟩
  | enumValue => exact absurd rfl hkind

/-- The fields of a value of an enum are read back, without a type. -/
theorem fields_writeEnumValue (p : Property) :
    fields PropertyShape.decoder (writeEnumValue p)
      = .ok ⟨p.name, false, false, none, p.decorators.map writtenShape⟩ := by
  refine fields_node (.seq (.seq (.seq (.seq (.map PropertyShape.mk ?_) ?_) ?_) ?_) ?_)
  · exact required_node (by decide) rfl rfl
  · exact withDefault_node_of_absent (by decide) rfl
  · exact withDefault_node_of_absent (by decide) rfl
  · exact optional_node_of_absent (by decide) rfl
  · exact withDefault_node (by decide) rfl (decoder_decorators _)

/-- A value of an enum is read back. -/
theorem readEnumValue_writeEnumValue {enumName : String} {p : Property}
    (hp : p.IsValueOf enumName) :
    readEnumValue enumName (writeEnumValue p) = .ok p := by
  unfold readEnumValue
  refine bind_eq_ok_iff.2 ⟨.value, kindOf_node _ rfl, ?_⟩
  refine bind_eq_ok_iff.2 ⟨_, fields_writeEnumValue p, ?_⟩
  exact bind_eq_ok_iff.2 ⟨_, readDecorators_writtenShapes p.decorators,
    congrArg Except.ok hp.1.symm⟩

/-! ## Declarations -/

/-- **A declaration is read back**, if it could have been read from a document at all. -/
theorem readDeclaration_writeDeclaration {owner : String} {d : Declaration}
    (hd : d.WellFormedIn owner) : readDeclaration owner (writeDeclaration d) = .ok d := by
  obtain ⟨rfl, hbody, -⟩ := hd
  obtain ⟨name, owner, decorators, body⟩ := d
  have hdecorators := readDecorators_writtenShapes decorators
  unfold readDeclaration
  cases body with
  | record flavor isAbstract superType properties =>
      have hproperties : (properties.map writeProperty).mapM readProperty = .ok properties :=
        mapM_map_eq_ok_self fun p hp => readProperty_writeProperty (hbody p hp)
      refine bind_eq_ok_iff.2 ⟨.record flavor, kindOf_node _ ?_, ?_⟩
      · -- whether there is a supertype decides which fields are written
        cases superType <;> rfl
      refine bind_eq_ok_iff.2
        ⟨⟨name, isAbstract, superType, properties.map writeProperty,
          decorators.map writtenShape⟩, ?_, ?_⟩
      · refine fields_node (.seq (.seq (.seq (.seq (.map ClassShape.mk ?_) ?_) ?_) ?_) ?_)
        · exact required_node (by decide) (lookup_append_optionalField (by decide) rfl) rfl
        · exact withDefault_node (by decide) (lookup_append_optionalField (by decide) rfl) rfl
        · exact optional_node_of_optionalField (by decide) rfl nullable_writeTypeRef
        · exact withDefault_node (by decide) (lookup_append_optionalField (by decide) rfl)
            (list_any_array _)
        · exact withDefault_node (by decide) (lookup_append_optionalField (by decide) rfl)
            (decoder_decorators _)
      · exact bind_eq_ok_iff.2 ⟨_, hproperties, bind_eq_ok_iff.2 ⟨_, hdecorators, rfl⟩⟩
  | enumeration values =>
      have hvalues : (values.map writeEnumValue).mapM (readEnumValue name) = .ok values :=
        mapM_map_eq_ok_self fun p hp => readEnumValue_writeEnumValue (hbody p hp)
      refine bind_eq_ok_iff.2 ⟨.enumeration, kindOf_node _ rfl, ?_⟩
      refine bind_eq_ok_iff.2
        ⟨⟨name, values.map writeEnumValue, decorators.map writtenShape⟩, ?_, ?_⟩
      · refine fields_node (.seq (.seq (.map EnumShape.mk ?_) ?_) ?_)
        · exact required_node (by decide) rfl rfl
        · exact withDefault_node (by decide) rfl (list_any_array _)
        · exact withDefault_node (by decide) rfl (decoder_decorators _)
      · exact bind_eq_ok_iff.2 ⟨_, hvalues, bind_eq_ok_iff.2 ⟨_, hdecorators, rfl⟩⟩
  | scalar primitive default =>
      refine bind_eq_ok_iff.2 ⟨.scalar primitive, kindOf_node _ ?_, ?_⟩
      · cases default <;> rfl
      refine bind_eq_ok_iff.2 ⟨⟨name, default.map .text, decorators.map writtenShape⟩, ?_, ?_⟩
      · refine fields_node (.seq (.seq (.map ScalarShape.mk ?_) ?_) ?_)
        · exact required_node (by decide) (lookup_append_optionalField (by decide) rfl) rfl
        · cases default with
          | none => exact optional_node_of_absent (by decide) rfl
          | some value => exact optional_node (by decide) rfl rfl
        · exact withDefault_node (by decide) (lookup_append_optionalField (by decide) rfl)
            (decoder_decorators _)
      · refine bind_eq_ok_iff.2 ⟨_, hdecorators, ?_⟩
        cases default <;> rfl

/-! ## Documents -/

/-- An import clause is read back. -/
theorem readImport_writeImport (clause : Import) :
    readImport (writeImport clause) = .ok clause := by
  unfold readImport
  cases clause with
  | one source name =>
      refine bind_eq_ok_iff.2 ⟨_, kindWord_node _ ImportKind.one rfl, ?_⟩
      refine bind_eq_ok_iff.2 ⟨⟨source, some name, []⟩, ?_, rfl⟩
      refine fields_node (.seq (.seq (.map ImportShape.mk ?_) ?_) ?_)
      · exact required_node (by decide) rfl rfl
      · exact optional_node (by decide) rfl rfl
      · exact withDefault_node_of_absent (by decide) rfl
  | several source names =>
      have hnames : Decoder.text.list (.array (names.map .text)) = .ok names :=
        mapM_map_eq_ok_self fun _ _ => rfl
      refine bind_eq_ok_iff.2 ⟨_, kindWord_node _ ImportKind.several rfl, ?_⟩
      refine bind_eq_ok_iff.2 ⟨⟨source, none, names⟩, ?_, rfl⟩
      refine fields_node (.seq (.seq (.map ImportShape.mk ?_) ?_) ?_)
      · exact required_node (by decide) rfl rfl
      · exact optional_node_of_absent (by decide) rfl
      · exact withDefault_node (by decide) rfl hnames
  | all source =>
      refine bind_eq_ok_iff.2 ⟨_, kindWord_node _ ImportKind.all rfl, ?_⟩
      refine bind_eq_ok_iff.2 ⟨⟨source, none, []⟩, ?_, rfl⟩
      refine fields_node (.seq (.seq (.map ImportShape.mk ?_) ?_) ?_)
      · exact required_node (by decide) rfl rfl
      · exact optional_node_of_absent (by decide) rfl
      · exact withDefault_node_of_absent (by decide) rfl

/-- A namespace is read back with its clauses and declarations. -/
theorem readModel_writeModel {ns : Namespace} (hns : ns.WellFormed) :
    readModel (writeModel ns) = .ok ns := by
  have himports : (ns.imports.map writeImport).mapM readImport = .ok ns.imports :=
    mapM_map_eq_ok_self fun clause _ => readImport_writeImport clause
  have hdeclarations :
      (ns.declarations.map writeDeclaration).mapM (readDeclaration ns.name) = .ok ns.declarations :=
    mapM_map_eq_ok_self fun d hd => readDeclaration_writeDeclaration (hns d hd)
  unfold readModel
  refine bind_eq_ok_iff.2
    ⟨⟨ns.name, ns.imports.map writeImport, ns.declarations.map writeDeclaration⟩, ?_, ?_⟩
  · refine fields_node (.seq (.seq (.map ModelShape.mk ?_) ?_) ?_)
    · exact required_node (by decide) rfl rfl
    · exact withDefault_node (by decide) rfl (list_any_array _)
    · exact withDefault_node (by decide) rfl (list_any_array _)
  · exact bind_eq_ok_iff.2 ⟨_, himports, bind_eq_ok_iff.2 ⟨_, hdeclarations, rfl⟩⟩

/-- Namespaces that a document can hold are read from the document that is written for them. -/
theorem readDocument_writeDocument {namespaces : List Namespace}
    (hnamespaces : ∀ ns ∈ namespaces, ns.WellFormed) :
    readDocument (writeDocument namespaces) = .ok namespaces := by
  have hmodels : (namespaces.map writeModel).mapM readModel = .ok namespaces :=
    mapM_map_eq_ok_self fun ns hns => readModel_writeModel (hnamespaces ns hns)
  unfold readDocument
  refine bind_eq_ok_iff.2 ⟨.models, kindOf_node _ rfl, ?_⟩
  refine bind_eq_ok_iff.2 ⟨namespaces.map writeModel, fields_node ?_, hmodels⟩
  exact required_node (by decide) rfl (list_any_array _)

/-! ## Numbers of a written document -/

/-- A node is in range if its fields are. -/
theorem inRange_node {kind : String} {fields : List (String × Json)}
    (h : ∀ field ∈ fields, field.2.InRange) : (node kind fields).InRange :=
  Json.inRange_ofFields (List.forall_mem_cons.2 ⟨.text _, h⟩)

/-- An array is in range if each of its items is. -/
theorem inRange_array_map {α : Type} {write : α → Json} {items : List α}
    (h : ∀ a ∈ items, (write a).InRange) : (Json.array (items.map write)).InRange :=
  .array (List.forall_mem_map.2 h)

/-- A field that may be left out is in range if its values are. -/
theorem inRange_optionalField {α : Type} {name : String} {write : α → Json} {value : Option α}
    (h : ∀ a, (write a).InRange) : ∀ field ∈ optionalField name write value, field.2.InRange := by
  cases value with
  | none => exact List.forall_mem_nil _
  | some a => exact List.forall_mem_singleton.2 (h a)

theorem inRange_writeTypeRef (r : TypeRef) : (writeTypeRef r).InRange :=
  inRange_node (List.forall_mem_cons.2 ⟨.text _, inRange_optionalField .text⟩)

/-- The value of an argument is the only place of a document where a number stands. -/
theorem inRange_writeArgument {a : Literal} (ha : a.Finite) : (writeArgument a).InRange := by
  cases a with
  | text s => exact inRange_node (List.forall_mem_singleton.2 (.text s))
  | number x => exact inRange_node (List.forall_mem_singleton.2 (.number ha))
  | boolean b => exact inRange_node (List.forall_mem_singleton.2 (.boolean b))
  | typeReference name isArray =>
      refine inRange_node (List.forall_mem_cons.2 ⟨inRange_writeTypeRef _, ?_⟩)
      exact List.forall_mem_singleton.2 (.boolean isArray)

/-- Decorators are in range if their arguments are finite. -/
theorem inRange_decoratorsField {decorators : List Decorator} (h : ∀ d ∈ decorators, d.Finite) :
    (decoratorsField decorators).2.InRange := by
  refine inRange_array_map fun d hd => inRange_node ?_
  simp only [List.forall_mem_cons]
  exact ⟨.text _, inRange_array_map fun a ha => inRange_writeArgument (h d hd a ha),
    List.forall_mem_nil _⟩

theorem inRange_writeProperty {p : Property} (hp : p.IsMember) : (writeProperty p).InRange := by
  refine inRange_node ?_
  simp only [List.forall_mem_cons]
  exact ⟨.text _, .boolean _, .boolean _, inRange_writeTypeRef _, inRange_decoratorsField hp.2,
    List.forall_mem_nil _⟩

theorem inRange_writeEnumValue {enumName : String} {p : Property} (hp : p.IsValueOf enumName) :
    (writeEnumValue p).InRange := by
  refine inRange_node ?_
  simp only [List.forall_mem_cons]
  exact ⟨.text _, inRange_decoratorsField hp.2, List.forall_mem_nil _⟩

/-- A declaration that could be read has numbers in range. -/
theorem inRange_writeDeclaration {owner : String} {d : Declaration} (hd : d.WellFormedIn owner) :
    (writeDeclaration d).InRange := by
  obtain ⟨-, hbody, hdecorators⟩ := hd
  obtain ⟨name, owner', decorators, body⟩ := d
  cases body with
  | record flavor isAbstract superType properties =>
      refine inRange_node ?_
      simp only [List.forall_mem_append, List.forall_mem_cons]
      exact ⟨⟨.text _, .boolean _, inRange_array_map fun p hp => inRange_writeProperty (hbody p hp),
        inRange_decoratorsField hdecorators, List.forall_mem_nil _⟩,
        inRange_optionalField inRange_writeTypeRef⟩
  | enumeration values =>
      refine inRange_node ?_
      simp only [List.forall_mem_cons]
      exact ⟨.text _, inRange_array_map fun p hp => inRange_writeEnumValue (hbody p hp),
        inRange_decoratorsField hdecorators, List.forall_mem_nil _⟩
  | scalar primitive default =>
      refine inRange_node ?_
      simp only [List.forall_mem_append, List.forall_mem_cons]
      exact ⟨⟨.text _, inRange_decoratorsField hdecorators, List.forall_mem_nil _⟩,
        inRange_optionalField .text⟩

theorem inRange_writeImport (clause : Import) : (writeImport clause).InRange := by
  cases clause <;> refine inRange_node ?_ <;> simp only [List.forall_mem_cons]
  case one source name => exact ⟨.text _, .text _, List.forall_mem_nil _⟩
  case several source names =>
    exact ⟨.text _, inRange_array_map fun name _ => .text name, List.forall_mem_nil _⟩
  case all source => exact ⟨.text _, List.forall_mem_nil _⟩

/-- A document of well-formed namespaces can be rendered and parsed again. -/
theorem inRange_writeDocument {namespaces : List Namespace}
    (hnamespaces : ∀ ns ∈ namespaces, ns.WellFormed) : (writeDocument namespaces).InRange := by
  refine inRange_node (List.forall_mem_singleton.2 (inRange_array_map
    fun ns hns => inRange_node ?_))
  simp only [List.forall_mem_cons]
  exact ⟨.text _, inRange_array_map fun clause _ => inRange_writeImport clause,
    inRange_array_map fun d hd => inRange_writeDeclaration (hnamespaces ns hns d hd),
    List.forall_mem_nil _⟩

end Metamodel

/-! ## Documents and graphs -/

/-- The origin of a document is told in reports only. -/
theorem namespacesOfDocument_eq_ok_iff {origin : String} {document : Json}
    {namespaces : List Namespace} :
    namespacesOfDocument origin document = .ok namespaces
      ↔ Metamodel.readDocument document = .ok namespaces := by
  unfold namespacesOfDocument
  cases Metamodel.readDocument document with
  | ok found => simp only [Except.ok.injEq]
  | error e => exact ⟨fun h => absurd h (by simp), fun h => absurd h (by simp)⟩

/-- The graph of the namespaces of a document: what the reader finds, with distinct names. -/
theorem ofDistinct_namespacesOfDocument_eq_ok_iff {origin : String} {document : Json} {g : Graph} :
    (namespacesOfDocument origin document >>= Graph.ofDistinct) = .ok g
      ↔ Metamodel.readDocument document = .ok g.namespaces
        ∧ (g.namespaces.map Namespace.name).Nodup := by
  rw [bind_eq_ok_iff]
  constructor
  · rintro ⟨namespaces, hread, hdistinct⟩
    obtain ⟨rfl, hnodup⟩ := Graph.ofDistinct_eq_ok_iff.1 hdistinct
    exact ⟨namespacesOfDocument_eq_ok_iff.1 hread, hnodup⟩
  · rintro ⟨hread, hnodup⟩
    exact ⟨g.namespaces, namespacesOfDocument_eq_ok_iff.2 hread,
      Graph.ofDistinct_eq_ok_iff.2 ⟨rfl, hnodup⟩⟩

/-- **Documents hold exactly the well-formed graphs.** Every text that loads gives a well-formed
graph, and so does every document whose numbers are in range. Conversely a well-formed graph is
read from the document that is written for it, with nothing lost and nothing changed. -/
theorem documents_hold_wellFormed_graphs :
    (∀ text g, loadText text = .ok g → g.WellFormed)
      ∧ (∀ origin g, g.WellFormed ↔ ∃ document : Json, document.InRange
          ∧ (namespacesOfDocument origin document >>= Graph.ofDistinct) = .ok g)
      ∧ ∀ origin g, g.WellFormed →
        (namespacesOfDocument origin (Metamodel.writeDocument g.namespaces) >>= Graph.ofDistinct)
          = .ok g := by
  have hwritten : ∀ origin (g : Graph), g.WellFormed →
      (namespacesOfDocument origin (Metamodel.writeDocument g.namespaces) >>= Graph.ofDistinct)
        = .ok g :=
    fun origin g hg => ofDistinct_namespacesOfDocument_eq_ok_iff.2
      ⟨Metamodel.readDocument_writeDocument hg.2, hg.1⟩
  refine ⟨fun text g => Graph.wellFormed_of_loadText, fun origin g => ⟨fun hg => ?_, ?_⟩, hwritten⟩
  · exact ⟨_, Metamodel.inRange_writeDocument hg.2, hwritten origin g hg⟩
  · rintro ⟨document, hdocument, hread⟩
    obtain ⟨hread, hdistinct⟩ := ofDistinct_namespacesOfDocument_eq_ok_iff.1 hread
    exact ⟨hdistinct, Metamodel.wellFormed_of_readDocument hdocument hread⟩

/-! A catalogue of parts uses every kind of node. The arguments of its decorator are left open,
since only an argument can be a number. -/

/-- A property of the given kind with a decorator. -/
def decorated (kind : PropertyKind) (typeRef : TypeRef) (arguments : List Literal) : Property where
  name := "member"
  kind := kind
  typeRef := typeRef
  isArray := kind = .relationship
  isOptional := kind = .field
  decorators := [⟨"range", arguments⟩]

def catalogue (arguments : List Literal) : Graph :=
  .ofNamespaces [
    ⟨"org.parts@1.0.0",
      [.all "org.base", .one "org.units" "Unit", .several "org.people" ["A", "B"]], [
      ⟨"Part", "org.parts@1.0.0", [⟨"doc", arguments⟩],
        .record .asset true (some ⟨"Base", some "org.base"⟩) [
          decorated .field (.ofPrimitive .double) arguments,
          decorated .field ⟨"String", some "org.base"⟩ [],
          decorated .relationship (.named "Part") arguments]⟩,
      ⟨"Colour", "org.parts@1.0.0", [],
        .enumeration [.enumValue "RED" "Colour" [⟨"doc", arguments⟩]]⟩,
      ⟨"Code", "org.parts@1.0.0", [⟨"doc", arguments⟩], .scalar .string (some "none")⟩,
      ⟨"Count", "org.parts@1.0.0", [], .scalar .integer none⟩]⟩,
    ⟨"org.base", [], [.concept "org.base" "Base" none []]⟩]

/-- Arguments of every kind. -/
def everyArgument : List Literal :=
  [.text "a \\ \"b\"", .number (.ofInt (-3)), .boolean true, .typeReference "Part" false]

/-- A catalogue with every kind of node and of argument is loaded as it was written. -/
theorem documents_hold_wellFormed_graphs_catalogue :
    (∃ text, loadText text = .ok (catalogue [.boolean true])
      ∧ (catalogue [.boolean true]).WellFormed)
      ∧ (catalogue everyArgument).WellFormed
      ∧ (∃ document : Json, document.InRange
        ∧ (namespacesOfDocument "a.json" document >>= Graph.ofDistinct)
          = .ok (catalogue everyArgument))
      ∧ (namespacesOfDocument "a.json"
        (Metamodel.writeDocument (catalogue everyArgument).namespaces)
          >>= Graph.ofDistinct) = .ok (catalogue everyArgument) := by
  obtain ⟨hloaded, hheld, hwritten⟩ := documents_hold_wellFormed_graphs
  have hplain : (catalogue [.boolean true]).WellFormed := by decide
  have htext : loadText (Metamodel.writeDocument (catalogue [.boolean true]).namespaces).render
      = .ok (catalogue [.boolean true]) :=
    loadText_render (by decide +kernel) (Metamodel.readDocument_writeDocument hplain.2) hplain.1
  have hg : (catalogue everyArgument).WellFormed := by decide
  exact ⟨⟨_, htext, hloaded _ _ htext⟩, hg, (hheld "a.json" _).1 hg, hwritten "a.json" _ hg⟩

end ModelForge
