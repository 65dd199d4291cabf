/-
`Dependencies.lean` -- which namespaces a namespace depends on.

A namespace needs the namespaces that its clauses import from and the ones that qualify a
reference in it, and what those need (`Graph.Needs`). Whatever is looked up for one of its
declarations is looked up in a namespace that it needs. So two graphs that have these namespaces
in common answer every question about the declaration alike. The questions are gone through in the
order in which they build on each other: look-up, imports, resolution, lineage, members,
referents, and the search along references.
-/
import ModelForge.Proofs.Search

set_option autoImplicit false

namespace ModelForge

/-- The references in a declaration: to its supertype, and to the types of its properties. -/
def Declaration.references (d : Declaration) : List TypeRef :=
  d.superType?.toList ++ d.ownProperties.map Property.typeRef

namespace Graph

/-! ## Needs -/

/-- The names of the namespaces that `start` depends on. -/
inductive Needs (g : Graph) (start : String) : String → Prop
  | start : Needs g start start
  /-- What a clause imports from. -/
  | clause {name : String} {ns : Namespace} {clause : Import} (h : Needs g start name)
      (hns : g.namespace? name = some ns) (hclause : clause ∈ ns.imports) :
      Needs g start clause.source
  /-- What qualifies a reference. -/
  | qualifier {name owner : String} {ns : Namespace} {d : Declaration} {r : TypeRef}
      (h : Needs g start name) (hns : g.namespace? name = some ns) (hd : d ∈ ns.declarations)
      (hr : r ∈ d.references) (howner : r.qualifier = some owner) : Needs g start owner

/-- A list of names that holds what the namespaces of these names need. -/
def ClosedUnderNeeds (g : Graph) (names : List String) : Prop :=
  ∀ name ∈ names, ∀ ns ∈ g.namespace? name,
    (∀ clause ∈ ns.imports, clause.source ∈ names)
      ∧ ∀ d ∈ ns.declarations, ∀ r ∈ d.references, ∀ owner ∈ r.qualifier, owner ∈ names

instance (g : Graph) (names : List String) : Decidable (g.ClosedUnderNeeds names) := by
  unfold ClosedUnderNeeds
  infer_instance

/-- What is needed is in every such list that holds the start. -/
theorem mem_of_needs {g : Graph} {start : String} {names : List String}
    (hclosed : g.ClosedUnderNeeds names) (hstart : start ∈ names) {name : String}
    (h : g.Needs start name) : name ∈ names := by
  induction h with
  | start => exact hstart
  | clause _ hns hclause ih => exact (hclosed _ ih _ hns).1 _ hclause
  | qualifier _ hns hd hr howner ih => exact (hclosed _ ih _ hns).2 _ hd _ hr _ howner

/-- Two graphs that have in common what `start` needs: a namespace of that kind is the same in
both, or missing from both. Both list every namespace once. -/
structure AgreeAround (start : String) (g g' : Graph) : Prop where
  owners : g.OwnersMatch
  owners' : g'.OwnersMatch
  distinct : (g.namespaces.map Namespace.name).Nodup
  distinct' : (g'.namespaces.map Namespace.name).Nodup
  same : ∀ name, g.Needs start name → g.namespace? name = g'.namespace? name

/-- A declaration of a namespace that `start` needs. -/
def Within (g : Graph) (start : String) (d : Declaration) : Prop :=
  ∃ ns, g.namespace? d.owner = some ns ∧ d ∈ ns.declarations ∧ g.Needs start d.owner

/-- A reference that is written where `start` looks it up, and says nothing of any other
namespace. -/
structure Covers (g : Graph) (start fromNamespace : String) (r : TypeRef) : Prop where
  written : g.Needs start fromNamespace
  qualified : ∀ owner, r.qualifier = some owner → g.Needs start owner

/-- A declaration within the needs of a namespace refers to nothing that they leave out. -/
theorem Within.covers {g : Graph} {start : String} {d : Declaration} (hd : g.Within start d)
    {r : TypeRef} (hr : r ∈ d.references) : g.Covers start d.owner r := by
  obtain ⟨ns, hns, hmem, hneeds⟩ := hd
  exact ⟨hneeds, fun owner howner => .qualifier hneeds hns hmem hr howner⟩

/-! ## Look-up -/

/-- Under the name of a namespace its declarations are found by their own names. -/
theorem lookup_declarations (ns : Namespace) (id : DeclId) (declarations : List Declaration) :
    (declarations.map fun d => ((⟨ns.name, d.name⟩ : DeclId), d)).lookup id
      = if ns.name = id.owner then declarations.find? fun d => d.name = id.name else none := by
  induction declarations with
  | nil => simp
  | cons d rest ih =>
      rw [List.map_cons, lookup_cons_eq_ite, ih]
      obtain ⟨owner, name⟩ := id
      by_cases howner : ns.name = owner
      · by_cases hname : d.name = name
        · simp [howner, hname]
        · have hne : ¬ name = d.name := fun h => hname h.symm
          simp [howner, hname, hne]
      · have hne : ¬ owner = ns.name := fun h => howner h.symm
        simp [howner, hne]

/-- With distinct namespaces a declaration is looked up in the namespace of its owner. -/
theorem lookup_listing {namespaces : List Namespace}
    (hdistinct : (namespaces.map Namespace.name).Nodup) (id : DeclId) :
    (listing namespaces).lookup id
      = (namespaces.find? fun ns => ns.name = id.owner).bind fun ns =>
          ns.declarations.find? fun d => d.name = id.name := by
  induction namespaces with
  | nil => rfl
  | cons ns rest ih =>
      rw [List.map_cons, List.nodup_cons] at hdistinct
      have hlisting : listing (ns :: rest)
          = (ns.declarations.map fun d => ((⟨ns.name, d.name⟩ : DeclId), d)) ++ listing rest := rfl
      rw [hlisting, List.lookup_append, lookup_declarations, ih hdistinct.2, List.find?_cons]
      by_cases howner : ns.name = id.owner
      · -- no other namespace has the name
        have hnone : rest.find? (fun other => other.name = id.owner) = none := by
          rw [List.find?_eq_none]
          intro other hother hname
          rw [decide_eq_true_eq, ← howner] at hname
          exact hdistinct.1 (hname ▸ List.mem_map_of_mem hother)
        simp [howner, hnone]
      · simp [howner]

/-- A look-up goes to the namespace of the owner first, and then to the declarations there. -/
theorem declaration?_eq_bind {g : Graph} (hdistinct : (g.namespaces.map Namespace.name).Nodup)
    (id : DeclId) :
    g.declaration? id = (g.namespace? id.owner).bind fun ns =>
      ns.declarations.find? fun d => d.name = id.name := by
  rw [declaration?_eq_lookup, lookup_listing hdistinct, namespace?]

namespace AgreeAround

variable {start : String} {g g' : Graph}

/-- Graphs that agree around a namespace find the same declaration in every namespace it needs. -/
theorem declaration? (h : AgreeAround start g g') {id : DeclId} (hid : g.Needs start id.owner) :
    g.declaration? id = g'.declaration? id := by
  rw [declaration?_eq_bind h.distinct, declaration?_eq_bind h.distinct', h.same id.owner hid]

/-- What is found there is within its needs. -/
theorem within_of_declaration? (h : AgreeAround start g g') {id : DeclId} {d : Declaration}
    (hid : g.Needs start id.owner) (hd : g.declaration? id = some d) : g.Within start d := by
  have howner := owner_of_declaration? h.owners hd
  rw [declaration?_eq_bind h.distinct] at hd
  obtain ⟨ns, hns, hfound⟩ := Option.bind_eq_some_iff.1 hd
  rw [← howner] at hid hns
  exact ⟨ns, hns, List.mem_of_find?_eq_some hfound, hid⟩

/-- They agree on which declarations there are. -/
theorem contains (h : AgreeAround start g g') {id : DeclId} (hid : g.Needs start id.owner) :
    g.contains id = g'.contains id := by
  rw [contains_eq_isSome, contains_eq_isSome, h.declaration? hid]

/-! ## Resolution -/

/-- They agree on where an import clause brings a name from. -/
theorem importOwner? (h : AgreeAround start g g') {fromNamespace : String}
    (hfrom : g.Needs start fromNamespace) (name : String) :
    g.importOwner? fromNamespace name = g'.importOwner? fromNamespace name := by
  unfold Graph.importOwner?
  rw [← h.same fromNamespace hfrom]
  cases hns : g.namespace? fromNamespace with
  | none => rfl
  | some ns =>
      refine List.find?_congr fun source hsource => ?_
      obtain ⟨clause, hclause, rfl⟩ := List.mem_map.1 hsource
      exact h.contains (.clause hfrom hns (List.mem_filter.1 hclause).1)

/-- And that namespace is needed in turn. -/
theorem needs_of_importOwner? {fromNamespace name owner : String}
    (hfrom : g.Needs start fromNamespace)
    (howner : g.importOwner? fromNamespace name = some owner) : g.Needs start owner := by
  unfold Graph.importOwner? at howner
  cases hns : g.namespace? fromNamespace with
  | none =>
      rw [hns] at howner
      exact absurd howner (by simp)
  | some ns =>
      rw [hns] at howner
      obtain ⟨clause, hclause, rfl⟩ := List.mem_map.1 (List.mem_of_find?_eq_some howner)
      exact .clause hfrom hns (List.mem_filter.1 hclause).1

/-- They resolve a reference alike that the needs cover. -/
theorem resolve (h : AgreeAround start g g') {fromNamespace : String} {r : TypeRef}
    (hr : g.Covers start fromNamespace r) :
    g.resolve fromNamespace r = g'.resolve fromNamespace r := by
  have hlocal : g.declaration? ⟨fromNamespace, r.name⟩ = g'.declaration? ⟨fromNamespace, r.name⟩ :=
    h.declaration? hr.written
  unfold Graph.resolve
  rw [← hlocal, ← h.importOwner? hr.written]
  cases hqualifier : r.qualifier with
  | some owner => exact h.declaration? (hr.qualified owner hqualifier)
  | none =>
      cases howner : g.importOwner? fromNamespace r.name with
      | none => rfl
      | some owner =>
          have himported : g.declaration? ⟨owner, r.name⟩ = g'.declaration? ⟨owner, r.name⟩ :=
            h.declaration? (needs_of_importOwner? hr.written howner)
          dsimp only
          rw [himported]

/-- What a covered reference resolves to is within the needs. -/
theorem within_of_resolve (h : AgreeAround start g g') {fromNamespace : String} {r : TypeRef}
    (hr : g.Covers start fromNamespace r) {d : Declaration}
    (hd : g.resolve fromNamespace r = some d) : g.Within start d := by
  unfold Graph.resolve at hd
  split at hd
  · rename_i owner howner
    exact h.within_of_declaration? (hr.qualified owner howner) hd
  · split at hd
    · exact absurd hd (by simp)
    · split at hd
      · rename_i found hlocal
        rw [hd] at hlocal
        exact h.within_of_declaration? hr.written hlocal
      · split at hd
        · rename_i owner howner
          exact h.within_of_declaration? (needs_of_importOwner? hr.written howner) hd
        · exact absurd hd (by simp)

/-! ## Lineage and members -/

/-- The reference to a supertype is one of the references of a declaration. -/
theorem mem_references_of_superType? {d : Declaration} {r : TypeRef} (hr : d.superType? = some r) :
    r ∈ d.references :=
  List.mem_append_left _ (Option.mem_toList.2 hr)

/-- So are the types of its properties. -/
theorem mem_references_of_property {d : Declaration} {p : Property} (hp : p ∈ d.ownProperties) :
    p.typeRef ∈ d.references :=
  List.mem_append_right _ (List.mem_map_of_mem hp)

/-- Graphs that agree around a namespace give a declaration within its needs the same supertype.
-/
theorem parent? (h : AgreeAround start g g') {d : Declaration} (hd : g.Within start d) :
    g.parent? d = g'.parent? d := by
  unfold Graph.parent?
  cases hsuper : d.superType? with
  | none => rfl
  | some r => exact h.resolve (hd.covers (mem_references_of_superType? hsuper))

/-- A supertype is within the needs of what inherits from it. -/
theorem within_of_parent? (h : AgreeAround start g g') {d p : Declaration} (hd : g.Within start d)
    (hp : g.parent? d = some p) : g.Within start p := by
  unfold Graph.parent? at hp
  split at hp
  · rename_i r hsuper
    exact h.within_of_resolve (hd.covers (mem_references_of_superType? hsuper)) hp
  · exact absurd hp (by simp)

/-- The walk up the supertypes is the same in both graphs. -/
theorem lineageFrom (h : AgreeAround start g g') {seen : List DeclId} {d : Declaration}
    (hd : g.Within start d) : g.lineageFrom seen d = g'.lineageFrom seen d := by
  induction seen, d using Graph.lineageFrom.induct g with
  | case1 seen d hparent =>
      rw [lineageFrom_of_none hparent, lineageFrom_of_none ((h.parent? hd).symm.trans hparent)]
  | case2 seen d p hparent hseen =>
      rw [lineageFrom_of_some hparent, lineageFrom_of_some ((h.parent? hd).symm.trans hparent),
        if_pos hseen, if_pos hseen]
  | case3 seen d p hparent hnew ih =>
      rw [lineageFrom_of_some hparent, lineageFrom_of_some ((h.parent? hd).symm.trans hparent),
        if_neg hnew, if_neg hnew, ih (h.within_of_parent? hd hparent)]

/-- It does not leave the needs. -/
theorem within_of_mem_lineageFrom (h : AgreeAround start g g') {seen : List DeclId}
    {d e : Declaration} (hd : g.Within start d) (he : e ∈ g.lineageFrom seen d) :
    g.Within start e := by
  induction seen, d using Graph.lineageFrom.induct g with
  | case1 seen d hparent =>
      rw [lineageFrom_of_none hparent, List.mem_singleton] at he
      exact he ▸ hd
  | case2 seen d p hparent hseen =>
      rw [lineageFrom_of_some hparent, if_pos hseen, List.mem_singleton] at he
      exact he ▸ hd
  | case3 seen d p hparent hnew ih =>
      rw [lineageFrom_of_some hparent, if_neg hnew, List.mem_cons] at he
      rcases he with rfl | he
      · exact hd
      · exact ih (h.within_of_parent? hd hparent) he

/-- So a class has the same members in both, inherited ones among them. -/
theorem members (h : AgreeAround start g g') {d : Declaration} (hd : g.Within start d) :
    g.members d = g'.members d := by
  rw [Graph.members, Graph.members, lineage, lineage, h.lineageFrom hd]

/-- An inherited member writes its reference where it is listed. -/
theorem covers_of_mem_members (h : AgreeAround start g g') {d : Declaration} (hd : g.Within start d)
    {m : Member} (hm : m ∈ g.members d) :
    g.Covers start m.declaredIn.owner m.property.typeRef := by
  obtain ⟨e, he, hm⟩ := List.mem_flatMap.1 hm
  obtain ⟨p, hp, rfl⟩ := List.mem_map.1 hm
  have hwithin : g.Within start e := h.within_of_mem_lineageFrom hd (List.mem_reverse.1 he)
  exact hwithin.covers (mem_references_of_property hp)

/-- Each of the members has a type that means the same in both graphs. -/
theorem memberReferent (h : AgreeAround start g g') {d : Declaration} (hd : g.Within start d)
    {m : Member} (hm : m ∈ g.members d) : g.memberReferent m = g'.memberReferent m := by
  rw [Graph.memberReferent, Graph.memberReferent, referent, referent, declared, declared,
    h.resolve (h.covers_of_mem_members hd hm)]

/-- The declaration that it means is within the needs. -/
theorem within_of_memberReferent (h : AgreeAround start g g') {d target : Declaration}
    (hd : g.Within start d) {m : Member} (hm : m ∈ g.members d)
    (href : g.memberReferent m = .declaration target) : g.Within start target :=
  h.within_of_resolve (h.covers_of_mem_members hd hm) (resolve_of_referent href)

/-! ## Search -/

/-- The reference relation starts alike at what is within the needs. -/
theorem refersTo_iff (h : AgreeAround start g g') {a : Declaration} (ha : g.Within start a)
    (b : Declaration) : g.RefersTo a b ↔ g'.RefersTo a b := by
  unfold RefersTo
  rw [← h.members ha]
  refine exists_congr fun m => and_congr_right fun hm => ?_
  rw [h.memberReferent ha hm]

/-- And it leads to what is within the needs. -/
theorem within_of_refersTo (h : AgreeAround start g g') {a b : Declaration} (ha : g.Within start a)
    (hab : g.RefersTo a b) : g.Within start b := by
  obtain ⟨m, hm, -, href, -⟩ := hab
  exact h.within_of_memberReferent ha hm href

/-- References of one graph can be followed in the other one: they never leave what `start` needs.
-/
theorem follows (h : AgreeAround start g g') :
    Follows (fun d d' => d = d' ∧ g.Within start d) g g' where
  outline := by
    rintro d _ ⟨rfl, -⟩
    exact .refl d
  refersTo := by
    rintro a _ b ⟨rfl, ha⟩ hab
    exact ⟨b, (h.refersTo_iff ha b).1 hab, rfl, h.within_of_refersTo ha hab⟩

/-- Seen from the other graph, the references can be followed as well. -/
theorem follows_flip (h : AgreeAround start g g') :
    Follows (flip fun d d' => d = d' ∧ g.Within start d) g' g where
  outline := by
    rintro d _ ⟨rfl, -⟩
    exact .refl _
  refersTo := by
    rintro _ a b ⟨rfl, ha⟩ hab
    have hab := (h.refersTo_iff ha b).2 hab
    exact ⟨b, hab, rfl, h.within_of_refersTo ha hab⟩

/-- Whether a declaration within the needs is recursive is the same in both graphs. -/
theorem isRecursive (h : AgreeAround start g g') {d : Declaration} (hd : g.Within start d) :
    g.isRecursive d = g'.isRecursive d :=
  (h.follows.isRecursive_eq h.owners h.owners' h.follows_flip ⟨rfl, hd⟩).symm

/-- Whether it leads back to some origin is the same too. -/
theorem leadsBack (h : AgreeAround start g g') {d : Declaration} (hd : g.Within start d)
    (origin : Declaration) : g.leadsBack d origin = g'.leadsBack d origin :=
  (h.follows.leadsBack_eq h.owners h.owners' h.follows_flip ⟨rfl, hd⟩ rfl).symm

end AgreeAround

end Graph

end ModelForge
