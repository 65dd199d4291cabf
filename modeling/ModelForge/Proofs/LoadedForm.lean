/-
`LoadedForm.lean` -- a loaded graph is one that a document can hold.

`Loading.lean` says what reading makes of owners, members and values. What is left of
`Graph.WellFormed` are the numbers in decorators. A text gives no number that is not finite, and
reading hands on parts of the document as they are, from the document down to the arguments. So
each shape is asked which parts of a node it keeps, and each reader what it makes of them.
`Graph.wellFormed_of_loadText` puts the two halves together.
-/
import ModelForge.Metamodel.Writer
import ModelForge.Proofs.RecordFields

set_option autoImplicit false

namespace ModelForge

open Decoder (ensures_any ensures_double ensures_list ensures_record ensures_true)
open Record (ensures_optional ensures_required ensures_withDefault)

/-! ## What a document can hold, decided -/

instance : DecidablePred Literal.Finite
  | .number x => inferInstanceAs (Decidable (x.isFinite = true))
  | .text _ => .isTrue trivial
  | .boolean _ => .isTrue trivial
  | .typeReference .. => .isTrue trivial

instance (d : Decorator) : Decidable d.Finite :=
  inferInstanceAs (Decidable (∀ a ∈ d.arguments, a.Finite))

instance (p : Property) : Decidable p.IsMember :=
  inferInstanceAs (Decidable (p.kind ≠ .enumValue ∧ ∀ d ∈ p.decorators, d.Finite))

instance (p : Property) (enumName : String) : Decidable (p.IsValueOf enumName) :=
  inferInstanceAs (Decidable
    (p = .enumValue p.name enumName p.decorators ∧ ∀ d ∈ p.decorators, d.Finite))

instance (declarationName : String) : DecidablePred (Body.WellFormed declarationName)
  | .record _ _ _ properties => inferInstanceAs (Decidable (∀ p ∈ properties, p.IsMember))
  | .enumeration values => inferInstanceAs (Decidable (∀ p ∈ values, p.IsValueOf declarationName))
  | .scalar .. => .isTrue trivial

instance (d : Declaration) (owner : String) : Decidable (d.WellFormedIn owner) :=
  inferInstanceAs (Decidable
    (d.owner = owner ∧ d.body.WellFormed d.name ∧ ∀ a ∈ d.decorators, a.Finite))

instance (ns : Namespace) : Decidable ns.WellFormed :=
  inferInstanceAs (Decidable (∀ d ∈ ns.declarations, d.WellFormedIn ns.name))

instance (g : Graph) : Decidable g.WellFormed :=
  inferInstanceAs (Decidable
    ((g.namespaces.map Namespace.name).Nodup ∧ ∀ ns ∈ g.namespaces, ns.WellFormed))

/-! ## What shapes keep -/

/-- All arguments of a decorator are in range. -/
def DecoratorShape.InRange (shape : DecoratorShape) : Prop := ∀ a ∈ shape.arguments, a.InRange

/-- Nodes in a list that may be left out are in range. -/
theorem ensures_nodes (name : String) :
    (Record.withDefault name [] (.list .any)).Ensures fun nodes => ∀ node ∈ nodes, node.InRange :=
  ensures_withDefault name (fun _ h => absurd h List.not_mem_nil) (ensures_list ensures_any)

/-- The arguments of a decorator are still nodes, and in range. -/
theorem DecoratorShape.ensures_decoder :
    DecoratorShape.decoder.Ensures DecoratorShape.InRange :=
  ensures_record _ (.seq (.map (fun _ _ _ harguments => harguments)
    (ensures_required "name" (ensures_true _))) (ensures_nodes "arguments"))

/-- So are those of all decorators of a node. -/
theorem ensures_decorators :
    (Record.withDefault "decorators" [] (.list DecoratorShape.decoder)).Ensures
      fun shapes => ∀ shape ∈ shapes, shape.InRange :=
  ensures_withDefault _ (fun _ h => absurd h List.not_mem_nil)
    (ensures_list DecoratorShape.ensures_decoder)

/-- The models of a document are nodes in range. -/
theorem ensures_models : modelsDecoder.Ensures fun nodes => ∀ node ∈ nodes, node.InRange :=
  ensures_record _ (ensures_required _ (ensures_list ensures_any))

/-- The declarations of a model are nodes in range. -/
theorem ModelShape.ensures_decoder :
    ModelShape.decoder.Ensures fun shape => ∀ node ∈ shape.declarations, node.InRange :=
  ensures_record _ (.seq (.seq (.map (fun _ _ _ _ _ hdeclarations => hdeclarations)
    (ensures_required "namespace" (ensures_true _))) (ensures_nodes "imports"))
      (ensures_nodes "declarations"))

/-- All numbers below a class are in range. -/
structure ClassShape.InRange (shape : ClassShape) : Prop where
  properties : ∀ node ∈ shape.properties, node.InRange
  decorators : ∀ d ∈ shape.decorators, d.InRange

/-- The nodes in a class are in range. -/
theorem ClassShape.ensures_decoder : ClassShape.decoder.Ensures ClassShape.InRange :=
  ensures_record _ (.seq (.seq (.seq (.seq (.map
    (fun _ _ _ _ _ _ _ hproperties _ hdecorators => ⟨hproperties, hdecorators⟩)
    (ensures_required "name" (ensures_true _)))
    (ensures_withDefault "isAbstract" trivial (ensures_true _)))
    (ensures_optional "superType" trivial (ensures_true _)))
    (ensures_nodes "properties")) ensures_decorators)

/-- All numbers below an enum are in range. -/
structure EnumShape.InRange (shape : EnumShape) : Prop where
  values : ∀ node ∈ shape.values, node.InRange
  decorators : ∀ d ∈ shape.decorators, d.InRange

/-- The nodes in an enum are in range. -/
theorem EnumShape.ensures_decoder : EnumShape.decoder.Ensures EnumShape.InRange :=
  ensures_record _ (.seq (.seq (.map (fun _ _ _ hvalues _ hdecorators => ⟨hvalues, hdecorators⟩)
    (ensures_required "name" (ensures_true _))) (ensures_nodes "properties")) ensures_decorators)

/-- The nodes in a scalar are in range. -/
theorem ScalarShape.ensures_decoder :
    ScalarShape.decoder.Ensures fun shape => ∀ d ∈ shape.decorators, d.InRange :=
  ensures_record _ (.seq (.seq (.map (fun _ _ _ _ _ hdecorators => hdecorators)
    (ensures_required "name" (ensures_true _)))
    (ensures_optional "defaultValue" trivial (ensures_true _))) ensures_decorators)

/-- The nodes in a property are in range. -/
theorem PropertyShape.ensures_decoder :
    PropertyShape.decoder.Ensures fun shape => ∀ d ∈ shape.decorators, d.InRange :=
  ensures_record _ (.seq (.seq (.seq (.seq (.map (fun _ _ _ _ _ _ _ _ _ hdecorators => hdecorators)
    (ensures_required "name" (ensures_true _)))
    (ensures_withDefault "isArray" trivial (ensures_true _)))
    (ensures_withDefault "isOptional" trivial (ensures_true _)))
    (ensures_optional "type" trivial (ensures_true _))) ensures_decorators)

/-! ## What readers hand on -/

namespace Metamodel

/-- What is read from the fields of a node is what its decoder yields. -/
theorem eq_ok_of_fields {α : Type} {decoder : Decoder α} {x : Json} {shape : α}
    (h : fields decoder x = .ok shape) : decoder x = .ok shape := by
  unfold fields at h
  split at h
  · rename_i hdecoder
    rw [hdecoder, Except.ok.inj h]
  · exact absurd h (by simp)

/-- A number in range is read as a finite argument. -/
theorem finite_of_readArgument {x : Json} {a : Literal} (hx : x.InRange)
    (h : readArgument x = .ok a) : a.Finite := by
  unfold readArgument at h
  obtain ⟨kind, -, h⟩ := bind_eq_ok_iff.1 h
  cases kind with
  | number =>
      obtain ⟨value, hvalue, h⟩ := bind_eq_ok_iff.1 h
      obtain rfl := pure_eq_ok_iff.1 h
      exact ensures_record _ (ensures_required _ ensures_double) x hx value (eq_ok_of_fields hvalue)
  | text | boolean | typeReference =>
      obtain ⟨value, -, h⟩ := bind_eq_ok_iff.1 h
      obtain rfl := pure_eq_ok_iff.1 h
      trivial

/-- A decorator whose nodes are in range gets finite arguments. -/
theorem finite_of_readDecorator {shape : DecoratorShape} {d : Decorator} (hshape : shape.InRange)
    (h : readDecorator shape = .ok d) : d.Finite := by
  unfold readDecorator at h
  obtain ⟨arguments, harguments, h⟩ := bind_eq_ok_iff.1 h
  obtain rfl := pure_eq_ok_iff.1 h
  intro a ha
  obtain ⟨x, hx, hread⟩ := exists_of_mem_mapM harguments ha
  exact finite_of_readArgument (hshape x hx) hread

theorem finite_of_readDecorators {shapes : List DecoratorShape} {decorators : List Decorator}
    (hshapes : ∀ shape ∈ shapes, shape.InRange) (h : shapes.mapM readDecorator = .ok decorators) :
    ∀ d ∈ decorators, d.Finite := by
  intro d hd
  obtain ⟨shape, hshape, hread⟩ := exists_of_mem_mapM h hd
  exact finite_of_readDecorator (hshapes shape hshape) hread

/-- The decorators of a property are finite when its node is in range. -/
theorem finite_of_readProperty {x : Json} {p : Property} (hx : x.InRange)
    (h : readProperty x = .ok p) : ∀ d ∈ p.decorators, d.Finite := by
  unfold readProperty at h
  obtain ⟨kind, -, h⟩ := bind_eq_ok_iff.1 h
  obtain ⟨shape, hshape, h⟩ := bind_eq_ok_iff.1 h
  have hdecorators := PropertyShape.ensures_decoder x hx shape (eq_ok_of_fields hshape)
  -- in every case of the match on the kind the decorators are read last
  split at h
  all_goals
    obtain ⟨⟨propertyKind, typeRef⟩, -, h⟩ := bind_eq_ok_iff.1 h
    obtain ⟨decorators, hread, h⟩ := bind_eq_ok_iff.1 h
    obtain rfl := pure_eq_ok_iff.1 h
    exact finite_of_readDecorators hdecorators hread

/-- So are those of a value of an enum. -/
theorem finite_of_readEnumValue {enumName : String} {x : Json} {p : Property} (hx : x.InRange)
    (h : readEnumValue enumName x = .ok p) : ∀ d ∈ p.decorators, d.Finite := by
  unfold readEnumValue at h
  obtain ⟨kind, -, h⟩ := bind_eq_ok_iff.1 h
  obtain ⟨shape, hshape, h⟩ := bind_eq_ok_iff.1 h
  obtain ⟨decorators, hread, h⟩ := bind_eq_ok_iff.1 h
  obtain rfl := pure_eq_ok_iff.1 h
  exact finite_of_readDecorators
    (PropertyShape.ensures_decoder x hx shape (eq_ok_of_fields hshape)) hread

/-- The numbers in the decorators of a declaration and of what it lists. -/
structure FiniteIn (d : Declaration) : Prop where
  decorators : ∀ a ∈ d.decorators, a.Finite
  properties : ∀ p ∈ d.ownProperties, ∀ a ∈ p.decorators, a.Finite

/-- **Whatever decorators a declaration has are finite**, its own and those of its members. -/
theorem finiteIn_of_readDeclaration {owner : String} {x : Json} {d : Declaration} (hx : x.InRange)
    (h : readDeclaration owner x = .ok d) : FiniteIn d := by
  unfold readDeclaration at h
  obtain ⟨kind, -, h⟩ := bind_eq_ok_iff.1 h
  cases kind with
  | record flavor =>
      obtain ⟨shape, hshape, h⟩ := bind_eq_ok_iff.1 h
      have hrange := ClassShape.ensures_decoder x hx shape (eq_ok_of_fields hshape)
      obtain ⟨properties, hproperties, h⟩ := bind_eq_ok_iff.1 h
      obtain ⟨decorators, hread, h⟩ := bind_eq_ok_iff.1 h
      obtain rfl := pure_eq_ok_iff.1 h
      refine ⟨finite_of_readDecorators hrange.decorators hread, fun p hp => ?_⟩
      obtain ⟨item, hitem, hp⟩ := exists_of_mem_mapM hproperties hp
      exact finite_of_readProperty (hrange.properties item hitem) hp
  | enumeration =>
      obtain ⟨shape, hshape, h⟩ := bind_eq_ok_iff.1 h
      have hrange := EnumShape.ensures_decoder x hx shape (eq_ok_of_fields hshape)
      obtain ⟨values, hvalues, h⟩ := bind_eq_ok_iff.1 h
      obtain ⟨decorators, hread, h⟩ := bind_eq_ok_iff.1 h
      obtain rfl := pure_eq_ok_iff.1 h
      refine ⟨finite_of_readDecorators hrange.decorators hread, fun p hp => ?_⟩
      obtain ⟨item, hitem, hp⟩ := exists_of_mem_mapM hvalues hp
      exact finite_of_readEnumValue (hrange.values item hitem) hp
  | scalar primitive =>
      obtain ⟨shape, hshape, h⟩ := bind_eq_ok_iff.1 h
      obtain ⟨decorators, hread, h⟩ := bind_eq_ok_iff.1 h
      obtain rfl := pure_eq_ok_iff.1 h
      exact ⟨finite_of_readDecorators
          (ScalarShape.ensures_decoder x hx shape (eq_ok_of_fields hshape)) hread,
        fun _ hp => absurd hp List.not_mem_nil⟩

theorem finiteIn_of_readModel {x : Json} {ns : Namespace} (hx : x.InRange)
    (h : readModel x = .ok ns) : ∀ d ∈ ns.declarations, FiniteIn d := by
  unfold readModel at h
  obtain ⟨shape, hshape, h⟩ := bind_eq_ok_iff.1 h
  obtain ⟨imports, -, h⟩ := bind_eq_ok_iff.1 h
  obtain ⟨declarations, hdeclarations, h⟩ := bind_eq_ok_iff.1 h
  obtain rfl := pure_eq_ok_iff.1 h
  intro d hd
  obtain ⟨item, hitem, hread⟩ := exists_of_mem_mapM hdeclarations hd
  exact finiteIn_of_readDeclaration
    (ModelShape.ensures_decoder x hx shape (eq_ok_of_fields hshape) item hitem) hread

/-- All declarations of a document in range have finite decorators only. -/
theorem finiteIn_of_readDocument {document : Json} {namespaces : List Namespace}
    (hdocument : document.InRange) (h : readDocument document = .ok namespaces) :
    ∀ ns ∈ namespaces, ∀ d ∈ ns.declarations, FiniteIn d := by
  unfold readDocument at h
  obtain ⟨kind, -, h⟩ := bind_eq_ok_iff.1 h
  cases kind with
  | models =>
      obtain ⟨nodes, hnodes, h⟩ := bind_eq_ok_iff.1 h
      intro ns hns
      obtain ⟨x, hx, hread⟩ := exists_of_mem_mapM h hns
      exact finiteIn_of_readModel
        (ensures_models document hdocument nodes (eq_ok_of_fields hnodes) x hx) hread
  | model =>
      obtain ⟨ns, hns, h⟩ := bind_eq_ok_iff.1 h
      obtain rfl := pure_eq_ok_iff.1 h
      intro other hother
      rw [List.mem_singleton.1 hother]
      exact finiteIn_of_readModel hdocument hns

/-- A declaration with the members of its kind and with finite numbers is one that a document can
hold. -/
theorem ReadFrom.wellFormedIn {owner : String} {d : Declaration} (hd : ReadFrom owner d)
    (hfinite : FiniteIn d) : d.WellFormedIn owner := by
  refine ⟨hd.owner, ?_, hfinite.decorators⟩
  have hproperties := hfinite.properties
  unfold Declaration.ownProperties at hproperties
  cases hbody : d.body with
  | record flavor isAbstract superType properties =>
      rw [hbody] at hproperties
      exact fun p hp => ⟨hd.members _ _ _ _ hbody p hp, hproperties p hp⟩
  | enumeration values =>
      rw [hbody] at hproperties
      exact fun p hp => ⟨hd.values _ hbody p hp, hproperties p hp⟩
  | scalar primitive default => trivial

/-- The namespaces of a document whose numbers are in range are well formed. -/
theorem wellFormed_of_readDocument {document : Json} {namespaces : List Namespace}
    (hdocument : document.InRange) (h : readDocument document = .ok namespaces) :
    ∀ ns ∈ namespaces, ns.WellFormed := by
  have hread := readFrom_of_readDocument h
  have hfinite := finiteIn_of_readDocument hdocument h
  exact fun ns hns d hd => (hread ns hns d hd).wellFormedIn (hfinite ns hns d hd)

end Metamodel

/-! ## Loaded graphs -/

/-- **Every loaded graph is one that a document can hold.** -/
theorem Graph.wellFormed_of_loadText {text : String} {g : Graph} (h : loadText text = .ok g) :
    g.WellFormed := by
  obtain ⟨document, hparse, hread, hdistinct⟩ := exists_document_of_loadText h
  exact ⟨hdistinct, Metamodel.wellFormed_of_readDocument (Json.inRange_of_parse hparse) hread⟩

end ModelForge
