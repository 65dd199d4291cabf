/-
`Graph.lean` -- a set of namespaces, and what the names in it refer to.

The graph keeps an index from identities to places. It is built once, in the order of the
namespaces and of the declarations in each, and the first declaration of an identity keeps its
place. The identity in the index takes the name of the namespace that lists the declaration.
-/
import ModelForge.Model.Basic

set_option autoImplicit false

namespace ModelForge

/-! ## The index -/

/-- The place of a declaration: the number of its namespace, and its number in there. -/
structure Place where
  namespaceIndex : Nat
  declarationIndex : Nat
  deriving DecidableEq, Repr

/-- Places by identity, each identity at most once. -/
abbrev Index := List (DeclId × Place)

/-- Adds a place unless the identity has one. -/
def Index.insertNew (index : Index) (entry : DeclId × Place) : Index :=
  if (index.lookup entry.1).isSome then index else entry :: index

/-- The places of all declarations with the identities they have there, in order. -/
def placesOf (namespaces : List Namespace) : List (DeclId × Place) :=
  namespaces.zipIdx.flatMap fun (ns, i) =>
    ns.declarations.zipIdx.map fun (d, j) => (⟨ns.name, d.name⟩, ⟨i, j⟩)

/-- The index of a list of namespaces. -/
def Index.ofNamespaces (namespaces : List Namespace) : Index :=
  (placesOf namespaces).foldl Index.insertNew []

/-! ## The graph -/

/-- Namespaces in a fixed order, with the index of their declarations. -/
structure Graph where
  namespaces : List Namespace
  index : Index := Index.ofNamespaces namespaces
  index_eq : index = Index.ofNamespaces namespaces := by rfl

namespace Graph

/-- The graph of a list of namespaces. -/
def ofNamespaces (namespaces : List Namespace) : Graph where
  namespaces := namespaces

/-- A graph is determined by its namespaces. -/
theorem ext_namespaces {g h : Graph} (eq : g.namespaces = h.namespaces) : g = h := by
  obtain ⟨ns, index, rfl⟩ := g
  obtain ⟨ns', index', rfl⟩ := h
  simp only at eq
  subst eq
  rfl

/-- The first namespace with the given name. -/
def namespace? (g : Graph) (name : String) : Option Namespace :=
  g.namespaces.find? fun ns => ns.name = name

/-- All declarations, in order. -/
def declarations (g : Graph) : List Declaration := g.namespaces.flatMap (·.declarations)

/-- The declaration at a place. -/
def at? (g : Graph) (place : Place) : Option Declaration :=
  g.namespaces[place.namespaceIndex]?.bind fun ns => ns.declarations[place.declarationIndex]?

/-- The declaration with the given identity. -/
def declaration? (g : Graph) (id : DeclId) : Option Declaration :=
  (g.index.lookup id).bind g.at?

/-- Whether there is a declaration with the given identity. -/
def contains (g : Graph) (id : DeclId) : Bool := (g.index.lookup id).isSome

/-- The number of identities. -/
def declarationCount (g : Graph) : Nat := g.index.length

/-- The namespace that supplies a type to another one: the source of its first import clause that
covers the name and whose source declares it. -/
def importOwner? (g : Graph) (fromNamespace typeName : String) : Option String :=
  match g.namespace? fromNamespace with
  | none => none
  | some ns =>
      ((ns.imports.filter fun clause => clause.covers typeName).map Import.source).find?
        fun source => g.contains ⟨source, typeName⟩

/-- The declaration that a reference written in a namespace refers to. A qualified reference is
looked up where it says. Of the others, primitive keywords refer to no declaration, and a local
declaration comes before an imported one. -/
def resolve (g : Graph) (fromNamespace : String) (r : TypeRef) : Option Declaration :=
  match r.qualifier with
  | some owner => g.declaration? ⟨owner, r.name⟩
  | none =>
      if (Primitive.ofKeyword? r.name).isSome then none
      else match g.declaration? ⟨fromNamespace, r.name⟩ with
        | some d => some d
        | none =>
            match g.importOwner? fromNamespace r.name with
            | some owner => g.declaration? ⟨owner, r.name⟩
            | none => none

/-! ## What is found is in the graph -/

theorem mem_declarations_of_at? {g : Graph} {place : Place} {d : Declaration}
    (h : g.at? place = some d) : d ∈ g.declarations := by
  simp only [at?, Option.bind_eq_some_iff] at h
  obtain ⟨ns, hns, hd⟩ := h
  exact List.mem_flatMap.2 ⟨ns, List.mem_of_getElem? hns, List.mem_of_getElem? hd⟩

theorem mem_declarations_of_declaration? {g : Graph} {id : DeclId} {d : Declaration}
    (h : g.declaration? id = some d) : d ∈ g.declarations := by
  simp only [declaration?, Option.bind_eq_some_iff] at h
  obtain ⟨place, -, hd⟩ := h
  exact mem_declarations_of_at? hd

theorem mem_declarations_of_resolve {g : Graph} {fromNamespace : String} {r : TypeRef}
    {d : Declaration} (h : g.resolve fromNamespace r = some d) : d ∈ g.declarations := by
  unfold resolve at h
  split at h
  · exact mem_declarations_of_declaration? h
  · split at h
    · exact absurd h (by simp)
    · split at h
      · rename_i found
        exact mem_declarations_of_declaration? (h ▸ found)
      · split at h
        · exact mem_declarations_of_declaration? h
        · exact absurd h (by simp)

/-! ## Declarations not seen yet

Walks over the graph end because each step sees an identity for the first time. What is left to
see is counted by `unseen`. -/

/-- How many declarations have an identity outside of `seen`. -/
def unseen (g : Graph) (seen : List DeclId) : Nat :=
  g.declarations.countP fun d => d.id ∉ seen

theorem unseen_cons_lt {g : Graph} {seen : List DeclId} {d : Declaration}
    (hd : d ∈ g.declarations) (hnew : d.id ∉ seen) : g.unseen (d.id :: seen) < g.unseen seen := by
  unfold unseen
  generalize g.declarations = declarations at hd ⊢
  induction declarations with
  | nil => exact absurd hd List.not_mem_nil
  | cons first rest ih =>
      have hmono : rest.countP (fun e => decide (e.id ∉ d.id :: seen))
          ≤ rest.countP (fun e => decide (e.id ∉ seen)) :=
        List.countP_mono_left fun e _ he => by
          simp only [decide_eq_true_eq, List.mem_cons, not_or] at he ⊢
          exact he.2
      rw [List.countP_cons, List.countP_cons]
      rcases List.mem_cons.1 hd with rfl | hd
      · have hin : d.id ∈ d.id :: seen := List.mem_cons_self
        simp only [hin, hnew, not_true_eq_false, not_false_eq_true, decide_false, decide_true,
          Bool.false_eq_true, if_false, if_true]
        omega
      · have := ih hd
        by_cases hin : first.id ∈ d.id :: seen
        · simp only [hin, not_true_eq_false, decide_false, Bool.false_eq_true, if_false]
          omega
        · have hout : first.id ∉ seen := fun h => hin (List.mem_cons_of_mem _ h)
          simp only [hin, hout, not_false_eq_true, decide_true, if_true]
          omega

end Graph

end ModelForge
