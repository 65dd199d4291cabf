/-
`Loading.lean` -- what every loaded graph satisfies.

Reading a document builds a namespace from the top down, and hands the name of the namespace to
its declarations and the name of an enum to its values. So in a graph that comes from a text
(`loadText`) every declaration says that it belongs to where it is listed, and every value of an
enum has that enum for its type. The properties of a class are fields and relationships, since no
other kind of node is read there; and two namespaces of one name are refused. `Graph.Loaded` says
this, and `Graph.loaded_of_loadText` proves it.
-/
import ModelForge.Metamodel.Load
import ModelForge.Proofs.CompactText
import ModelForge.Proofs.Resolution

set_option autoImplicit false

namespace ModelForge

/-! ## Steps -/

section

variable {ε α β : Type}

/-- Two steps succeed if the first does and the second does with its result. -/
theorem bind_eq_ok_iff {x : Except ε α} {f : α → Except ε β} {b : β} :
    (x >>= f) = .ok b ↔ ∃ a, x = .ok a ∧ f a = .ok b := by
  cases x with
  | error e => simp [bind, Except.bind]
  | ok a => simp [bind, Except.bind]

/-- They fail if the first does, or if the second does with its result. -/
theorem bind_eq_error_iff {x : Except ε α} {f : α → Except ε β} {e : ε} :
    (x >>= f) = .error e ↔ x = .error e ∨ ∃ a, x = .ok a ∧ f a = .error e := by
  cases x with
  | error fault => simp [bind, Except.bind]
  | ok a => simp [bind, Except.bind]

theorem pure_eq_ok_iff {a b : α} : (pure a : Except ε α) = .ok b ↔ a = b := by
  simp [pure, Except.pure]

/-- A list that is read to its end has one result for each item, in their order. -/
theorem mapM_eq_ok_iff {f : α → Except ε β} {items : List α} {results : List β} :
    items.mapM f = .ok results ↔ List.Forall₂ (fun a b => f a = .ok b) items results := by
  induction items generalizing results with
  | nil => rw [List.mapM_nil, pure_eq_ok_iff, List.forall₂_nil_left_iff, eq_comm]
  | cons a rest ih =>
      rw [List.mapM_cons, bind_eq_ok_iff, List.forall₂_cons_left_iff]
      refine exists_congr fun b => ?_
      rw [bind_eq_ok_iff]
      constructor
      · rintro ⟨hb, others, hothers, h⟩
        exact ⟨others, hb, ih.1 hothers, (pure_eq_ok_iff.1 h).symm⟩
      · rintro ⟨others, hb, hothers, rfl⟩
        exact ⟨hb, others, ih.2 hothers, rfl⟩

/-- Each result of a list that is read to its end was read from some item. -/
theorem exists_of_mem_mapM {f : α → Except ε β} {items : List α} {results : List β}
    (h : items.mapM f = .ok results) {b : β} (hb : b ∈ results) : ∃ a ∈ items, f a = .ok b :=
  exists_mem_of_forall₂ (mapM_eq_ok_iff.1 h).flip hb

end

/-! ## Distinct names -/

/-- No name is repeated if the names are distinct and none has been seen before. -/
theorem firstRepeat?_eq_none_iff {seen names : List String} :
    firstRepeat? seen names = none ↔ names.Nodup ∧ ∀ name ∈ names, name ∉ seen := by
  induction names generalizing seen with
  | nil => simp [firstRepeat?]
  | cons name rest ih =>
      rw [firstRepeat?]
      by_cases hseen : name ∈ seen
      · rw [if_pos hseen]
        refine ⟨fun h => absurd h (by simp), fun h => ?_⟩
        exact absurd hseen (h.2 name List.mem_cons_self)
      · rw [if_neg hseen, ih, List.nodup_cons]
        -- a name that is put on the list must not come again, and conversely
        constructor
        · rintro ⟨hnodup, hrest⟩
          refine ⟨⟨fun hmem => hrest name hmem List.mem_cons_self, hnodup⟩, fun other hmem => ?_⟩
          rcases List.mem_cons.1 hmem with rfl | hmem
          · exact hseen
          · exact fun h => hrest other hmem (List.mem_cons_of_mem _ h)
        · rintro ⟨⟨hnew, hnodup⟩, hrest⟩
          refine ⟨hnodup, fun other hmem h => ?_⟩
          rcases List.mem_cons.1 h with rfl | h
          · exact hnew hmem
          · exact hrest other (List.mem_cons_of_mem _ hmem) h

/-- A graph that is accepted holds the namespaces it was made of, and their names are distinct. -/
theorem Graph.ofDistinct_eq_ok_iff {namespaces : List Namespace} {g : Graph} :
    Graph.ofDistinct namespaces = .ok g
      ↔ g.namespaces = namespaces ∧ (namespaces.map Namespace.name).Nodup := by
  unfold Graph.ofDistinct
  have hnone : firstRepeat? [] (namespaces.map Namespace.name) = none ↔ _ :=
    firstRepeat?_eq_none_iff
  cases hrepeat : firstRepeat? [] (namespaces.map Namespace.name) with
  | some name =>
      refine ⟨fun h => absurd h (by simp), fun h => ?_⟩
      have := hnone.2 ⟨h.2, fun _ _ => List.not_mem_nil⟩
      exact absurd (hrepeat.symm.trans this) (by simp)
  | none =>
      simp only [Except.ok.injEq]
      constructor
      · rintro rfl
        exact ⟨rfl, (hnone.1 hrepeat).1⟩
      · rintro ⟨h, -⟩
        exact Graph.ext_namespaces h.symm

/-! ## Reading -/

namespace Metamodel

/-- No kind of node below a class is read as a value of an enum. -/
theorem kind_of_readProperty {node : Json} {p : Property} (h : readProperty node = .ok p) :
    p.kind ≠ .enumValue := by
  unfold readProperty at h
  obtain ⟨kind, -, h⟩ := bind_eq_ok_iff.1 h
  obtain ⟨shape, -, h⟩ := bind_eq_ok_iff.1 h
  -- The rest of the reading stands below every case of the match on the kind.
  split at h
  all_goals obtain ⟨⟨propertyKind, typeRef⟩, hkind, h⟩ := bind_eq_ok_iff.1 h
  · obtain ⟨decorators, -, h⟩ := bind_eq_ok_iff.1 h
    obtain rfl := pure_eq_ok_iff.1 h
    obtain ⟨rfl, -⟩ := Prod.mk.inj (pure_eq_ok_iff.1 hkind)
    exact PropertyKind.noConfusion
  · obtain ⟨decorators, -, h⟩ := bind_eq_ok_iff.1 h
    obtain rfl := pure_eq_ok_iff.1 h
    obtain ⟨rfl, -⟩ := Prod.mk.inj (pure_eq_ok_iff.1 hkind)
    exact PropertyKind.noConfusion
  · obtain ⟨decorators, -, h⟩ := bind_eq_ok_iff.1 h
    obtain rfl := pure_eq_ok_iff.1 h
    obtain ⟨rfl, -⟩ := Prod.mk.inj (pure_eq_ok_iff.1 hkind)
    exact PropertyKind.noConfusion
  · exact absurd hkind (by simp)
  · exact absurd hkind (by simp)

/-- A value of an enum has the enum for its type. -/
theorem eq_enumValue_of_readEnumValue {enumName : String} {node : Json} {p : Property}
    (h : readEnumValue enumName node = .ok p) : p = .enumValue p.name enumName p.decorators := by
  unfold readEnumValue at h
  obtain ⟨kind, -, h⟩ := bind_eq_ok_iff.1 h
  obtain ⟨shape, -, h⟩ := bind_eq_ok_iff.1 h
  obtain ⟨decorators, -, h⟩ := bind_eq_ok_iff.1 h
  obtain rfl := pure_eq_ok_iff.1 h
  rfl

/-- What a declaration of the namespace `owner` is after reading. -/
structure ReadFrom (owner : String) (d : Declaration) : Prop where
  owner : d.owner = owner
  members : ∀ flavor isAbstract superType properties,
    d.body = .record flavor isAbstract superType properties → ∀ p ∈ properties, p.kind ≠ .enumValue
  values : ∀ values, d.body = .enumeration values →
    ∀ p ∈ values, p = .enumValue p.name d.name p.decorators

/-- A declaration is read with its owner, and so are its own properties. -/
theorem readFrom_of_readDeclaration {owner : String} {node : Json} {d : Declaration}
    (h : readDeclaration owner node = .ok d) : ReadFrom owner d := by
  unfold readDeclaration at h
  obtain ⟨kind, -, h⟩ := bind_eq_ok_iff.1 h
  cases kind with
  | record flavor =>
      obtain ⟨shape, -, h⟩ := bind_eq_ok_iff.1 h
      obtain ⟨properties, hproperties, h⟩ := bind_eq_ok_iff.1 h
      obtain ⟨decorators, -, h⟩ := bind_eq_ok_iff.1 h
      obtain rfl := pure_eq_ok_iff.1 h
      refine ⟨rfl, fun _ _ _ _ hbody p hp => ?_, fun values hbody => absurd hbody (by simp)⟩
      obtain ⟨-, -, -, rfl⟩ := Body.record.inj hbody
      obtain ⟨item, -, hitem⟩ := exists_of_mem_mapM hproperties hp
      exact kind_of_readProperty hitem
  | enumeration =>
      obtain ⟨shape, -, h⟩ := bind_eq_ok_iff.1 h
      obtain ⟨values, hvalues, h⟩ := bind_eq_ok_iff.1 h
      obtain ⟨decorators, -, h⟩ := bind_eq_ok_iff.1 h
      obtain rfl := pure_eq_ok_iff.1 h
      refine ⟨rfl, fun _ _ _ _ hbody => absurd hbody (by simp), fun _ hbody p hp => ?_⟩
      obtain rfl := Body.enumeration.inj hbody
      obtain ⟨item, -, hitem⟩ := exists_of_mem_mapM hvalues hp
      exact eq_enumValue_of_readEnumValue hitem
  | scalar primitive =>
      obtain ⟨shape, -, h⟩ := bind_eq_ok_iff.1 h
      obtain ⟨decorators, -, h⟩ := bind_eq_ok_iff.1 h
      obtain rfl := pure_eq_ok_iff.1 h
      exact ⟨rfl, fun _ _ _ _ hbody => absurd hbody (by simp),
        fun _ hbody => absurd hbody (by simp)⟩

/-- So are all declarations of a model. -/
theorem readFrom_of_readModel {node : Json} {ns : Namespace} (h : readModel node = .ok ns) :
    ∀ d ∈ ns.declarations, ReadFrom ns.name d := by
  unfold readModel at h
  obtain ⟨shape, -, h⟩ := bind_eq_ok_iff.1 h
  obtain ⟨imports, -, h⟩ := bind_eq_ok_iff.1 h
  obtain ⟨declarations, hdeclarations, h⟩ := bind_eq_ok_iff.1 h
  obtain rfl := pure_eq_ok_iff.1 h
  intro d hd
  obtain ⟨item, -, hitem⟩ := exists_of_mem_mapM hdeclarations hd
  exact readFrom_of_readDeclaration hitem

/-- And those of a document. -/
theorem readFrom_of_readDocument {document : Json} {namespaces : List Namespace}
    (h : readDocument document = .ok namespaces) :
    ∀ ns ∈ namespaces, ∀ d ∈ ns.declarations, ReadFrom ns.name d := by
  unfold readDocument at h
  obtain ⟨kind, -, h⟩ := bind_eq_ok_iff.1 h
  cases kind with
  | models =>
      obtain ⟨nodes, -, h⟩ := bind_eq_ok_iff.1 h
      intro ns hns
      obtain ⟨node, -, hnode⟩ := exists_of_mem_mapM h hns
      exact readFrom_of_readModel hnode
  | model =>
      obtain ⟨ns, hns, h⟩ := bind_eq_ok_iff.1 h
      obtain rfl := pure_eq_ok_iff.1 h
      intro other hother
      rw [List.mem_singleton.1 hother]
      exact readFrom_of_readModel hns

end Metamodel

/-! ## Loaded graphs -/

namespace Graph

/-- What is known of a graph that was loaded, whatever it was loaded from. -/
structure Loaded (g : Graph) : Prop where
  /-- No namespace is listed twice. -/
  namespacesDistinct : (g.namespaces.map Namespace.name).Nodup
  /-- Declarations are read for the namespace that lists them. -/
  readFrom : ∀ ns ∈ g.namespaces, ∀ d ∈ ns.declarations, Metamodel.ReadFrom ns.name d

/-- In a loaded graph every declaration has the owner that lists it. -/
theorem Loaded.ownersMatch {g : Graph} (hg : g.Loaded) : g.OwnersMatch :=
  fun ns hns d hd => (hg.readFrom ns hns d hd).owner

/-- Loaded namespaces are distinct. So no identity is declared twice, unless by one of them. -/
theorem Loaded.namesDistinct {g : Graph} (hg : g.Loaded)
    (hnames : ∀ ns ∈ g.namespaces, (ns.declarations.map Declaration.name).Nodup) :
    g.NamesDistinct :=
  ⟨hg.namespacesDistinct, hnames⟩

/-- A loaded graph holds what was read from the document that its text is. -/
theorem exists_document_of_loadText {text : String} {g : Graph} (h : loadText text = .ok g) :
    ∃ document, Json.parse text = .ok document
      ∧ Metamodel.readDocument document = .ok g.namespaces
      ∧ (g.namespaces.map Namespace.name).Nodup := by
  unfold loadText at h
  obtain ⟨namespaces, hread, h⟩ := bind_eq_ok_iff.1 h
  obtain ⟨rfl, hdistinct⟩ := ofDistinct_eq_ok_iff.1 h
  -- a text that does not parse, or a document that cannot be read, gives no graph
  unfold namespacesOfText at hread
  split at hread
  · rename_i document hparse
    unfold namespacesOfDocument at hread
    split at hread
    · rename_i hdocument
      obtain rfl := Except.ok.inj hread
      exact ⟨document, hparse, hdocument, hdistinct⟩
    · exact absurd hread (by simp)
  · exact absurd hread (by simp)

/-- **Loading yields loaded graphs.** -/
theorem loaded_of_loadText {text : String} {g : Graph} (h : loadText text = .ok g) : g.Loaded := by
  obtain ⟨document, -, hread, hdistinct⟩ := exists_document_of_loadText h
  exact ⟨hdistinct, Metamodel.readFrom_of_readDocument hread⟩

end Graph

/-- A document that is read is also read from its compact text. -/
theorem loadText_render {document : Json} {namespaces : List Namespace}
    (hreadable : document.readable Json.Parser.maxDepth = true)
    (hread : Metamodel.readDocument document = .ok namespaces)
    (hdistinct : (namespaces.map Namespace.name).Nodup) :
    loadText document.render = .ok (.ofNamespaces namespaces) := by
  have htext : namespacesOfText "<string>" document.render = .ok namespaces := by
    rw [namespacesOfText, Json.parse_render hreadable]
    simp only [namespacesOfDocument, hread]
  rw [loadText, htext]
  exact Graph.ofDistinct_eq_ok_iff.2 ⟨rfl, hdistinct⟩

end ModelForge
