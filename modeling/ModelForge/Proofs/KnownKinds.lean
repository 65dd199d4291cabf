/-
`KnownKinds.lean` -- nodes of unknown kinds are not passed over.

A document is a tree of nodes, and at each position of the tree certain kinds may stand
(`TaggedPosition.kinds`). `StandsAt` says which nodes stand where, from the document down. What is
read is read with all that stands below it: one lemma for each kind of node says that its reader
hands every node below to the reader of that position (`models_read`, `members_read`, ...), and by
induction every node of a document that is read was read itself (`StandsAt.wasRead`). The readers
of all positions but one ask for a known kind (`WasRead.knows`). The exception are the members of
`models`, whose kinds are not looked at.
-/
import ModelForge.Proofs.OwnKeys
import ModelForge.Proofs.RecordSources

set_option autoImplicit false

namespace ModelForge

open Decoder (tells_record)
open Record (tells_list tells_required untold_optional untold_required untold_withDefault)

/-! ## Positions and their kinds -/

/-- A position at which nodes say their kinds. -/
inductive TaggedPosition where
  | root
  | model
  | importClause
  | declaration
  | property
  | enumValue
  | argument
  deriving DecidableEq

namespace TaggedPosition

/-- The kinds of classes. -/
def classKinds : List String :=
  ["AssetDeclaration", "ConceptDeclaration", "ParticipantDeclaration", "TransactionDeclaration",
    "EventDeclaration"]

/-- The kinds that may stand at a position. -/
def kinds : TaggedPosition → List String
  | root => ["Model", "Models"]
  | model => ["Model"]
  | importClause => ["ImportType", "ImportTypes", "ImportAll"]
  | declaration =>
      classKinds
        ++ ["EnumDeclaration", "StringScalar", "BooleanScalar", "IntegerScalar", "LongScalar",
        "DoubleScalar", "DateTimeScalar"]
  | property =>
      ["StringProperty", "BooleanProperty", "DateTimeProperty", "DoubleProperty", "IntegerProperty",
        "LongProperty", "ObjectProperty", "RelationshipProperty"]
  | enumValue => ["EnumProperty"]
  | argument => ["DecoratorString", "DecoratorNumber", "DecoratorBoolean", "DecoratorTypeReference"]

/-- A node has a `$class` text, and what follows its last dot is a kind of the position. -/
def Knows (position : TaggedPosition) (node : Json) : Prop :=
  ∃ name, node.field? "$class" = some (.text name) ∧ lastSegment name ∈ position.kinds

/-- A node is known at a position if the last part of its `$class` is one of the words that may
stand there. -/
theorem knows_iff {position : TaggedPosition} {node : Json} :
    position.Knows node ↔ ∃ word ∈ position.kinds, node.kindWord? = some word := by
  unfold Json.kindWord?
  constructor
  · rintro ⟨name, hname, hkind⟩
    exact ⟨lastSegment name, hkind, by rw [hname]; rfl⟩
  · rintro ⟨word, hkind, hword⟩
    obtain ⟨name, hname, rfl⟩ := Option.map_eq_some_iff.1 hword
    obtain ⟨value, hvalue, htext⟩ := Option.bind_eq_some_iff.1 hname
    cases value with
    | text s =>
        obtain rfl := Option.some.inj htext
        exact ⟨s, hvalue, hkind⟩
    | _ => exact absurd htext (by simp [Json.text?])

instance (position : TaggedPosition) (node : Json) : Decidable (position.Knows node) :=
  decidable_of_iff _ knows_iff.symm

end TaggedPosition

open TaggedPosition (classKinds Knows)

/-! ## The nodes of a document

Nodes with a kind are objects. A model and a decorator may also be arrays that list their fields,
in the places that `Json.items` is given. -/

/-- The nodes under a key of a node that has a kind. -/
def Json.nodes (node : Json) (key : String) : List Json := itemsOf (node.field? key)

/-- The models of a document. -/
def Json.models (document : Json) : List Json :=
  if document.kindWord? = some "Models" then document.nodes "models"
  else if document.kindWord? = some "Model" then [document]
  else []

/-- A list of models has them under its key. -/
theorem Json.models_of_list {document : Json} (h : document.kindWord? = some "Models") :
    document.models = document.nodes "models" := if_pos h

/-- A single model is the only one of its document. -/
theorem Json.models_of_one {document : Json} (h : document.kindWord? = some "Model") :
    document.models = [document] := by
  rw [models, h, if_neg (by decide), if_pos rfl]

/-- The arguments of the decorators of a node. -/
def Json.arguments (node : Json) : List Json :=
  (node.nodes "decorators").flatMap fun decorator => decorator.items "arguments" 1

/-- A node stands at a position of a document. -/
inductive StandsAt (document : Json) : TaggedPosition → Json → Prop where
  | root : StandsAt document .root document
  | model {node : Json} (hroot : document.kindWord? = some "Models")
      (h : node ∈ document.nodes "models") :
      StandsAt document .model node
  | importClause {model node : Json} (hmodel : model ∈ document.models)
      (h : node ∈ model.items "imports" 1) :
      StandsAt document .importClause node
  | declaration {model node : Json} (hmodel : model ∈ document.models)
      (h : node ∈ model.items "declarations" 2) : StandsAt document .declaration node
  | property {owner node : Json} {kind : String} (howner : StandsAt document .declaration owner)
      (hkind : owner.kindWord? = some kind) (hclass : kind ∈ classKinds)
      (h : node ∈ owner.nodes "properties") : StandsAt document .property node
  | enumValue {owner node : Json} (howner : StandsAt document .declaration owner)
      (hkind : owner.kindWord? = some "EnumDeclaration") (h : node ∈ owner.nodes "properties") :
      StandsAt document .enumValue node
  | argument {position : TaggedPosition} {owner node : Json}
      (howner : StandsAt document position owner)
      (hposition : position ∈ [.declaration, .property, .enumValue]) (h : node ∈ owner.arguments) :
      StandsAt document .argument node

/-! ## What the shapes keep -/

/-- What stands in a node with a kind is what stands under its keys. -/
theorem Json.part?_of_kindWord? {node : Json} {word : String} (h : node.kindWord? = some word)
    (key : String) (place : Nat) :
    node.part? key place = node.field? key := by
  cases node with
  | object fields => rfl
  | _ => exact absurd h (by simp [kindWord?, field?])

/-- All arguments of the decorators at a place were kept, each in one of the shapes. -/
def KeepsArguments (found : Option Json) (shapes : List DecoratorShape) : Prop :=
  ∀ decorator ∈ Json.itemsOf found, ∀ node ∈ decorator.items "arguments" 1,
    ∃ shape ∈ shapes, node ∈ shape.arguments

/-- What was read item by item holds every item of the list. -/
theorem mem_of_readsAll {found : Option Json} {nodes : List Json} (h : ReadsAll .any found nodes)
    {node : Json} (hnode : node ∈ Json.itemsOf found) :
    node ∈ nodes := by
  obtain ⟨kept, hkept, hany⟩ := h node hnode
  rwa [Except.ok.inj hany]

/-- Where all nodes of a place are kept and all that is kept is read, the nodes of the place are
read. -/
theorem exists_of_readsAll {ε β : Type} {read : Json → Except ε β} {found : Option Json}
    {nodes : List Json} {results : List β} (hkeeps : ReadsAll .any found nodes)
    (hread : nodes.mapM read = .ok results) {node : Json} (hnode : node ∈ Json.itemsOf found) :
    ∃ result, read node = .ok result := by
  obtain ⟨result, -, h⟩ := exists_of_mapM hread (mem_of_readsAll hkeeps hnode)
  exact ⟨result, h⟩

/-- A decorator that is read keeps its arguments. -/
theorem DecoratorShape.tells {decorator : Json} {shape : DecoratorShape}
    (h : DecoratorShape.decoder decorator = .ok shape) :
    ReadsAll .any (decorator.part? "arguments" 1) shape.arguments :=
  tells_record
    (p := fun look (shape : DecoratorShape) => ReadsAll .any (look "arguments" 1) shape.arguments) h
    (.seq (.map (fun _ _ _ _ harguments => harguments) untold_required) tells_list)

/-- So do decorators that are read one by one. -/
theorem keepsArguments_of_readsAll {found : Option Json} {shapes : List DecoratorShape}
    (h : ReadsAll DecoratorShape.decoder found shapes) : KeepsArguments found shapes := by
  intro decorator hdecorator node hnode
  obtain ⟨shape, hshape, hread⟩ := h decorator hdecorator
  exact ⟨shape, hshape, mem_of_readsAll (DecoratorShape.tells hread) hnode⟩

/-- A list of models that is read keeps all of them. -/
theorem modelsDecoder_tells {document : Json} {nodes : List Json}
    (h : modelsDecoder document = .ok nodes) :
    ReadsAll .any (document.part? "models" 0) nodes :=
  tells_record (p := fun look nodes => ReadsAll .any (look "models" 0) nodes) h
    (tells_required readsAll_list)

/-- The nodes that a model keeps. -/
structure ModelShape.Keeps (look : Lookup) (shape : ModelShape) : Prop where
  imports : ReadsAll .any (look "imports" 1) shape.imports
  declarations : ReadsAll .any (look "declarations" 2) shape.declarations

/-- A model that is read keeps its declarations and its decorators. -/
theorem ModelShape.tells {node : Json} {shape : ModelShape}
    (h : ModelShape.decoder node = .ok shape) :
    ModelShape.Keeps node.part? shape :=
  tells_record h
    (.seq (.seq (.map (fun _ _ _ _ himports _ hdeclarations => ⟨himports, hdeclarations⟩)
    untold_required) tells_list) tells_list)

/-- The nodes that a class keeps. -/
structure ClassShape.Keeps (look : Lookup) (shape : ClassShape) : Prop where
  properties : ReadsAll .any (look "properties" 3) shape.properties
  arguments : KeepsArguments (look "decorators" 4) shape.decorators

/-- A class keeps its properties and its decorators. -/
theorem ClassShape.tells {node : Json} {shape : ClassShape}
    (h : ClassShape.decoder node = .ok shape) :
    ClassShape.Keeps node.part? shape :=
  tells_record h (.seq (.seq (.seq (.seq (.map
    (fun _ _ _ _ _ _ _ _ hproperties _ hdecorators =>
      ⟨hproperties, keepsArguments_of_readsAll hdecorators⟩)
    untold_required) untold_withDefault) untold_optional) tells_list) tells_list)

/-- The nodes that an enum keeps. -/
structure EnumShape.Keeps (look : Lookup) (shape : EnumShape) : Prop where
  values : ReadsAll .any (look "properties" 1) shape.values
  arguments : KeepsArguments (look "decorators" 2) shape.decorators

/-- An enum keeps its values and its decorators. -/
theorem EnumShape.tells {node : Json} {shape : EnumShape} (h : EnumShape.decoder node = .ok shape) :
    EnumShape.Keeps node.part? shape :=
  tells_record h (.seq (.seq (.map
    (fun _ _ _ _ hvalues _ hdecorators => ⟨hvalues, keepsArguments_of_readsAll hdecorators⟩)
    untold_required) tells_list) tells_list)

/-- A scalar keeps its decorators. -/
theorem ScalarShape.tells {node : Json} {shape : ScalarShape}
    (h : ScalarShape.decoder node = .ok shape) :
    KeepsArguments (node.part? "decorators" 2) shape.decorators :=
  tells_record
    (p := fun look (shape : ScalarShape) => KeepsArguments (look "decorators" 2) shape.decorators) h
    (.seq (.seq (.map (fun _ _ _ _ _ _ hdecorators => keepsArguments_of_readsAll hdecorators)
      untold_required) untold_optional) tells_list)

/-- A property keeps its decorators. -/
theorem PropertyShape.tells {node : Json} {shape : PropertyShape}
    (h : PropertyShape.decoder node = .ok shape) :
    KeepsArguments (node.part? "decorators" 4) shape.decorators :=
  tells_record
    (p := fun look (shape : PropertyShape) => KeepsArguments (look "decorators" 4) shape.decorators)
    h
    (.seq (.seq (.seq (.seq (.map
      (fun _ _ _ _ _ _ _ _ _ _ hdecorators => keepsArguments_of_readsAll hdecorators)
      untold_required) untold_withDefault) untold_withDefault) untold_optional) tells_list)

/-! ## What is read was read with all its nodes -/

namespace Metamodel

/-- The reader of a position has read the node. -/
def WasRead : TaggedPosition → Json → Prop
  | .root, node => ∃ namespaces, readDocument node = .ok namespaces
  | .model, node => ∃ ns, readModel node = .ok ns
  | .importClause, node => ∃ i, readImport node = .ok i
  | .declaration, node => ∃ owner d, readDeclaration owner node = .ok d
  | .property, node => ∃ p, readProperty node = .ok p
  | .enumValue, node => ∃ enumName p, readEnumValue enumName node = .ok p
  | .argument, node => ∃ a, readArgument node = .ok a

variable {node : Json}

/-- A kind is read from the last part of the `$class`, which is its word. -/
theorem kindWord?_of_kindOf {κ : Type} [NodeKind κ] {kind : κ} (h : kindOf κ node = .ok kind) :
    node.kindWord? = some (NodeKind.name kind) := by
  unfold kindOf at h
  obtain ⟨word, hword, h⟩ := bind_eq_ok_iff.1 h
  unfold kindWord at hword
  split at hword
  · rename_i hfound
    obtain rfl := Except.ok.inj hword
    split at h
    · rename_i hkind
      rw [hfound, ← Except.ok.inj h, NodeKind.name_of_ofName? hkind]
    · exact absurd h (by simp)
  · exact absurd hword (by simp)

/-- The arguments under the decorators of a node that has a kind. -/
theorem arguments_read {κ : Type} [NodeKind κ] {kind : κ} (hkind : kindOf κ node = .ok kind)
    {place : Nat} {shapes : List DecoratorShape} {decorators : List Decorator}
    (hkeeps : KeepsArguments (node.part? "decorators" place) shapes)
    (hread : shapes.mapM readDecorator = .ok decorators) :
    ∀ a ∈ node.arguments, WasRead .argument a := by
  rw [Json.part?_of_kindWord? (kindWord?_of_kindOf hkind)] at hkeeps
  intro a ha
  obtain ⟨decorator, hdecorator, ha⟩ := List.mem_flatMap.1 ha
  obtain ⟨shape, hshape, hkept⟩ := hkeeps decorator hdecorator a ha
  obtain ⟨_, -, hshape⟩ := exists_of_mapM hread hshape
  unfold readDecorator at hshape
  obtain ⟨arguments, harguments, -⟩ := bind_eq_ok_iff.1 hshape
  obtain ⟨result, -, ha⟩ := exists_of_mapM harguments hkept
  exact ⟨result, ha⟩

/-- What was read below a property. -/
theorem property_arguments_read (h : WasRead .property node) :
    ∀ a ∈ node.arguments, WasRead .argument a := by
  obtain ⟨p, h⟩ := h
  unfold readProperty at h
  obtain ⟨kind, hkind, h⟩ := bind_eq_ok_iff.1 h
  obtain ⟨shape, hshape, h⟩ := bind_eq_ok_iff.1 h
  have hkeeps := PropertyShape.tells (eq_ok_of_fields hshape)
  -- in every case of the match on the kind the decorators are read last
  split at h
  all_goals
    obtain ⟨⟨propertyKind, typeRef⟩, -, h⟩ := bind_eq_ok_iff.1 h
    obtain ⟨decorators, hread, h⟩ := bind_eq_ok_iff.1 h
    exact arguments_read hkind hkeeps hread

/-- What was read below a value of an enum. -/
theorem enumValue_arguments_read (h : WasRead .enumValue node) :
    ∀ a ∈ node.arguments, WasRead .argument a := by
  obtain ⟨enumName, p, h⟩ := h
  unfold readEnumValue at h
  obtain ⟨kind, hkind, h⟩ := bind_eq_ok_iff.1 h
  obtain ⟨shape, hshape, h⟩ := bind_eq_ok_iff.1 h
  obtain ⟨decorators, hread, h⟩ := bind_eq_ok_iff.1 h
  exact arguments_read hkind (PropertyShape.tells (eq_ok_of_fields hshape)) hread

/-- What was read below a declaration. -/
structure BelowDeclarationRead (node : Json) : Prop where
  arguments : ∀ a ∈ node.arguments, WasRead .argument a
  properties : ∀ kind, node.kindWord? = some kind → kind ∈ classKinds →
    ∀ p ∈ node.nodes "properties", WasRead .property p
  values : node.kindWord? = some "EnumDeclaration" →
    ∀ p ∈ node.nodes "properties", WasRead .enumValue p

/-- A declaration was read with its arguments, and with its properties or values if its kind has
them. -/
theorem belowDeclaration_read (h : WasRead .declaration node) : BelowDeclarationRead node := by
  obtain ⟨owner, d, h⟩ := h
  unfold readDeclaration at h
  obtain ⟨kind, hkind, h⟩ := bind_eq_ok_iff.1 h
  have hword := kindWord?_of_kindOf hkind
  have hpart := Json.part?_of_kindWord? hword
  cases kind with
  | record flavor =>
      obtain ⟨shape, hshape, h⟩ := bind_eq_ok_iff.1 h
      obtain ⟨properties, hproperties, h⟩ := bind_eq_ok_iff.1 h
      obtain ⟨decorators, hread, h⟩ := bind_eq_ok_iff.1 h
      have hkeeps := ClassShape.tells (eq_ok_of_fields hshape)
      refine ⟨arguments_read hkind hkeeps.arguments hread, fun _ _ _ p hp => ?_, fun henum => ?_⟩
      · rw [Json.nodes, ← hpart "properties" 3] at hp
        exact exists_of_readsAll hkeeps.properties hproperties hp
      · have hflavor : NodeKind.name (DeclarationKind.record flavor) ≠ "EnumDeclaration" := by
          cases flavor <;> decide
        exact absurd (Option.some.inj (hword.symm.trans henum)) hflavor
  | enumeration =>
      obtain ⟨shape, hshape, h⟩ := bind_eq_ok_iff.1 h
      obtain ⟨values, hvalues, h⟩ := bind_eq_ok_iff.1 h
      obtain ⟨decorators, hread, h⟩ := bind_eq_ok_iff.1 h
      have hkeeps := EnumShape.tells (eq_ok_of_fields hshape)
      refine ⟨arguments_read hkind hkeeps.arguments hread,
        fun word hclass hmem => ?_, fun _ p hp => ?_⟩
      · obtain rfl := Option.some.inj (hword.symm.trans hclass)
        exact absurd hmem (by decide)
      · rw [Json.nodes, ← hpart "properties" 1] at hp
        exact ⟨_, exists_of_readsAll hkeeps.values hvalues hp⟩
  | scalar primitive =>
      obtain ⟨shape, hshape, h⟩ := bind_eq_ok_iff.1 h
      obtain ⟨decorators, hread, h⟩ := bind_eq_ok_iff.1 h
      have hprimitive :
          NodeKind.name (DeclarationKind.scalar primitive) ∉ "EnumDeclaration" :: classKinds := by
        cases primitive <;> decide
      refine ⟨arguments_read hkind (ScalarShape.tells (eq_ok_of_fields hshape)) hread,
        fun word hclass hmem => ?_, fun henum => ?_⟩
      · obtain rfl := Option.some.inj (hword.symm.trans hclass)
        exact absurd (List.mem_cons_of_mem _ hmem) hprimitive
      · have hname := Option.some.inj (hword.symm.trans henum)
        exact absurd (hname ▸ List.mem_cons_self) hprimitive

/-- What was read below a model. -/
theorem belowModel_read (h : WasRead .model node) :
    (∀ i ∈ node.items "imports" 1, WasRead .importClause i)
      ∧ ∀ d ∈ node.items "declarations" 2, WasRead .declaration d := by
  obtain ⟨ns, h⟩ := h
  unfold readModel at h
  obtain ⟨shape, hshape, h⟩ := bind_eq_ok_iff.1 h
  obtain ⟨imports, himports, h⟩ := bind_eq_ok_iff.1 h
  obtain ⟨declarations, hdeclarations, h⟩ := bind_eq_ok_iff.1 h
  have hkeeps := ModelShape.tells (eq_ok_of_fields hshape)
  constructor
  · exact fun i hi => exists_of_readsAll hkeeps.imports himports hi
  · exact fun d hd => ⟨_, exists_of_readsAll hkeeps.declarations hdeclarations hd⟩

/-- The models of a document that was read. -/
theorem models_read (h : WasRead .root node) : ∀ model ∈ node.models, WasRead .model model := by
  obtain ⟨namespaces, h⟩ := h
  unfold readDocument at h
  obtain ⟨kind, hkind, h⟩ := bind_eq_ok_iff.1 h
  have hword := kindWord?_of_kindOf hkind
  cases kind with
  | models =>
      obtain ⟨nodes, hnodes, h⟩ := bind_eq_ok_iff.1 h
      have hkeeps := modelsDecoder_tells (eq_ok_of_fields hnodes)
      intro model hmodel
      rw [Json.models_of_list hword, Json.nodes,
        ← Json.part?_of_kindWord? hword "models" 0] at hmodel
      exact exists_of_readsAll hkeeps h hmodel
  | model =>
      obtain ⟨ns, hns, -⟩ := bind_eq_ok_iff.1 h
      intro model hmodel
      rw [Json.models_of_one hword] at hmodel
      exact ⟨ns, List.mem_singleton.1 hmodel ▸ hns⟩

end Metamodel

open Metamodel

/-- **What is read is read with all its nodes.** -/
theorem StandsAt.wasRead {document node : Json} {position : TaggedPosition}
    (hdocument : WasRead .root document) (h : StandsAt document position node) :
    WasRead position node := by
  induction h with
  | root => exact hdocument
  | model hroot h => exact models_read hdocument _ (by rwa [Json.models_of_list hroot])
  | importClause hmodel h => exact (belowModel_read (models_read hdocument _ hmodel)).1 _ h
  | declaration hmodel h => exact (belowModel_read (models_read hdocument _ hmodel)).2 _ h
  | property howner hkind hclass h ih =>
      exact (belowDeclaration_read ih).properties _ hkind hclass _ h
  | enumValue howner hkind h ih => exact (belowDeclaration_read ih).values hkind _ h
  | argument howner hposition h ih =>
      simp only [List.mem_cons, List.not_mem_nil, or_false] at hposition
      rcases hposition with rfl | rfl | rfl
      · exact (belowDeclaration_read ih).arguments _ h
      · exact property_arguments_read ih _ h
      · exact enumValue_arguments_read ih _ h

/-! ## What is read has a known kind -/

/-- Whatever kind is read at a position, its node is known there. -/
theorem knows_of_kindOf {κ : Type} [NodeKind κ] {position : TaggedPosition} {node : Json} {kind : κ}
    (hkinds : ∀ kind : κ, NodeKind.name kind ∈ position.kinds) (h : kindOf κ node = .ok kind) :
    Knows position node :=
  TaggedPosition.knows_iff.2 ⟨_, hkinds kind, kindWord?_of_kindOf h⟩

/-- The readers of all positions but one ask for the kinds of the position. -/
theorem Metamodel.WasRead.knows {position : TaggedPosition} {node : Json}
    (h : WasRead position node) (hposition : position ≠ .model) :
    Knows position node := by
  cases position with
  | root =>
      obtain ⟨namespaces, h⟩ := h
      obtain ⟨kind, hkind, -⟩ := bind_eq_ok_iff.1 h
      exact knows_of_kindOf (fun kind => by cases kind <;> decide) hkind
  | model => exact absurd rfl hposition
  | importClause =>
      obtain ⟨i, h⟩ := h
      obtain ⟨kind, hkind⟩ := exists_kindOf_of_readImport h
      exact knows_of_kindOf (fun kind => by cases kind <;> decide) hkind
  | declaration =>
      obtain ⟨owner, d, h⟩ := h
      obtain ⟨kind, hkind, -⟩ := bind_eq_ok_iff.1 h
      refine knows_of_kindOf (fun kind => ?_) hkind
      cases kind with
      | record flavor => cases flavor <;> decide
      | enumeration => decide
      | scalar primitive => cases primitive <;> decide
  | property =>
      obtain ⟨p, h⟩ := h
      obtain ⟨kind, hkind, -⟩ := bind_eq_ok_iff.1 h
      refine knows_of_kindOf (fun kind => ?_) hkind
      cases kind with
      | primitive primitive => cases primitive <;> decide
      | object => decide
      | relationship => decide
  | enumValue =>
      obtain ⟨enumName, p, h⟩ := h
      obtain ⟨kind, hkind, -⟩ := bind_eq_ok_iff.1 h
      exact knows_of_kindOf (fun kind => by cases kind; decide) hkind
  | argument =>
      obtain ⟨a, h⟩ := h
      obtain ⟨kind, hkind, -⟩ := bind_eq_ok_iff.1 h
      exact knows_of_kindOf (fun kind => by cases kind <;> decide) hkind

/-! ## The members of `models` -/

/-- Two values that differ in `$class` at most. -/
inductive SameButClass : Json → Json → Prop where
  | object {fields fields' : List (String × Json)}
      (h : ∀ key, key ≠ "$class" → fields.lookup key = fields'.lookup key) :
      SameButClass (.object fields) (.object fields')
  | same (x : Json) : SameButClass x x

/-- The value of `$class` may be exchanged. -/
theorem SameButClass.of_front (x x' : Json) (fields : List (String × Json)) :
    SameButClass (.object (("$class", x) :: fields)) (.object (("$class", x') :: fields)) := by
  refine .object fun key hkey => ?_
  rw [lookup_cons_eq_ite, lookup_cons_eq_ite, if_neg hkey, if_neg hkey]

/-- A record that does not name `$class` does not look at it. -/
theorem SameButClass.recordAlike {keys : List OwnKey} (hkeys : ∀ key ∈ keys, key.name ≠ "$class")
    {x x' : Json} (h : SameButClass x x') :
    RecordAlike keys x x' := by
  cases h with
  | @object fields fields' h =>
      refine .object fun key hkey => ?_
      rw [h key.name (hkeys key hkey)]
      exact FieldsAlike.refl keys fields' key hkey
  | same => exact .refl keys x

/-- A list of models is read model by model. -/
theorem readDocument_of_list {document : Json} {models : List Json}
    (hkind : document.kindWord? = some "Models")
    (hmodels : document.field? "models" = some (.array models)) :
    readDocument document = models.mapM readModel := by
  cases document with
  | object fields =>
      have hfields : Metamodel.fields modelsDecoder (.object fields) = .ok models := by
        rw [Metamodel.fields, modelsDecoder,
          Decoder.record_of_reads "RawModels"
            (Record.reads_required hmodels (list_any_array models))]
      have hroot : kindOf RootKind (.object fields) = .ok .models := by
        rw [kindOf, kindWord, hkind]
        rfl
      rw [readDocument, hroot]
      exact congrArg (· >>= List.mapM readModel) hfields
  | _ => exact absurd hmodels (by simp [Json.field?])

/-- Texts whose documents are read alike are loaded alike. -/
theorem sameOutcome_loadText {text text' : String} {document document' : Json}
    (hparse : Json.parse text = .ok document) (hparse' : Json.parse text' = .ok document')
    (h : SameOutcome (· = ·) (readDocument document) (readDocument document')) :
    SameOutcome (· = ·) (loadText text) (loadText text') := by
  unfold loadText namespacesOfText
  rw [hparse, hparse']
  show SameOutcome (· = ·) (namespacesOfDocument _ document >>= Graph.ofDistinct)
    (namespacesOfDocument _ document' >>= Graph.ofDistinct)
  unfold namespacesOfDocument
  rcases h.cases_ok with ⟨namespaces, _, hread, hread', rfl⟩ | ⟨e, e', hread, hread'⟩
  · rw [hread, hread']
    exact .refl _
  · rw [hread, hread']
    exact .fail _ _

/-! ## Loading -/

/-- Where a load looks at the kinds of nodes. -/
structure KindsAreChecked (text : String) (document : Json) : Prop where
  /-- A node that is of no known kind, anywhere but among the members of `models`, ends the load. -/
  fatal : ∀ position node, StandsAt document position node → position ≠ .model →
    ¬ Knows position node →
    ∃ e, loadText text = .error e
  /-- The kinds of the members of `models` make no difference. -/
  unread : ∀ text' document' models models', Json.parse text' = .ok document' →
    document.kindWord? = some "Models" → document'.kindWord? = some "Models" →
    document.field? "models" = some (.array models) →
    document'.field? "models" = some (.array models') →
    List.Forall₂ SameButClass models models' → SameOutcome (· = ·) (loadText text) (loadText text')

/-- **Unknown kinds are fatal**, at every position but one, in documents of any depth. -/
theorem unknown_kinds_are_fatal {text : String} {document : Json}
    (h : Json.parse text = .ok document) :
    KindsAreChecked text document := by
  refine ⟨fun position node hstands hposition hunknown => ?_,
    fun text' document' models models' h' hkind hkind' hmodels hmodels' hsame => ?_⟩
  · cases hload : loadText text with
    | error e => exact ⟨e, rfl⟩
    | ok g =>
        obtain ⟨read, hparse, hread, -⟩ := Graph.exists_document_of_loadText hload
        obtain rfl : read = document := Except.ok.inj (hparse.symm.trans h)
        exact absurd ((hstands.wasRead ⟨_, hread⟩).knows hposition) hunknown
  · refine sameOutcome_loadText h h' ?_
    rw [readDocument_of_list hkind hmodels, readDocument_of_list hkind' hmodels']
    exact .mapM_eq hsame fun x x' hx => sameOutcome_readModel (hx.recordAlike (by decide))

/-- A list of one model, which has a scalar with one decorator with one argument. -/
def scalarModels (modelKind argumentKind : String) : Json :=
  node "Models" [("models", .array [
    node modelKind [
      ("namespace", .text "a"),
      ("declarations", .array [
        node "StringScalar" [
          ("name", .text "Code"),
          ("decorators", .array [
            node "Decorator" [
              ("name", .text "doc"),
              ("arguments", .array [node argumentKind [("value", .text "a code")]])]])]])]])]

/-- An unknown kind below a scalar is fatal. What is said to be no model loads like a model. -/
theorem unknown_kinds_are_fatal_scalar :
    (∃ e, loadText (scalarModels "Model" "DecoratorText").render = .error e)
    ∧ SameOutcome (· = ·) (loadText (scalarModels "Model" "DecoratorString").render)
      (loadText (scalarModels "ConceptDeclaration" "DecoratorString").render) := by
  have hparse (modelKind argumentKind : String)
      (h : (scalarModels modelKind argumentKind).readable Json.Parser.maxDepth = true) :=
    Json.parse_render h
  constructor
  · have hchecked := unknown_kinds_are_fatal (hparse "Model" "DecoratorText" (by decide +kernel))
    have hdeclaration : StandsAt (scalarModels "Model" "DecoratorText") .declaration _ :=
      .declaration List.mem_cons_self List.mem_cons_self
    have hargument : StandsAt (scalarModels "Model" "DecoratorText") .argument _ :=
      .argument hdeclaration List.mem_cons_self List.mem_cons_self
    exact hchecked.fatal _ _ hargument (by decide) (by decide +kernel)
  · have hchecked := unknown_kinds_are_fatal (hparse "Model" "DecoratorString" (by decide +kernel))
    exact hchecked.unread _ _ _ _
      (hparse "ConceptDeclaration" "DecoratorString" (by decide +kernel))
      (by decide) (by decide) rfl rfl (.cons (.of_front _ _ _) .nil)

/-- Among the members of `models` a node of another kind is taken for a model. -/
theorem foreign_model_loads :
    ∃ document node,
      Json.parse (scalarModels "ConceptDeclaration" "DecoratorString").render = .ok document
      ∧ StandsAt document .model node ∧ ¬ Knows .model node
      ∧ ∃ g, loadText (scalarModels "ConceptDeclaration" "DecoratorString").render = .ok g := by
  refine ⟨_, _, Json.parse_render (by decide +kernel), .model (by decide) List.mem_cons_self,
    by decide +kernel, ?_⟩
  exact ⟨_, loadText_render (by decide +kernel) rfl (by decide)⟩

end ModelForge
