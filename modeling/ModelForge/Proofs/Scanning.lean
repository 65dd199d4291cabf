/-
`Scanning.lean` -- every answer of a graph, told by going through its namespaces.

A graph answers from an index of places. Nobody who asks has to know: what it answers is what a
reader finds who goes through the declarations of all namespaces from the first to the last
(`scan`). A reference with a namespace is looked for there. Any other one that is no keyword is
looked for in one namespace after the other (`searched`): in its own first, then in those of the
clauses that bring its name into scope, and the first one that declares the name answers.

Nothing is asked of the namespaces here. Names may be repeated, of namespaces and of declarations
alike, and clauses may import from where there is nothing.
-/
import Mathlib.Data.Finset.Card
import ModelForge.Proofs.Resolution

set_option autoImplicit false

namespace ModelForge

/-! ## Going through the namespaces -/

/-- The first declaration with the given identity, in the order of the namespaces and of the
declarations in each. -/
def scan (namespaces : List Namespace) (id : DeclId) : Option Declaration :=
  ((listing namespaces).find? fun entry => entry.1 = id).map Prod.snd

/-- A clause brings a name into scope that it has, that it has among others, or any name at all. -/
inductive Import.Brings : Import → String → Prop
  | one (source name : String) : Brings (.one source name) name
  | several {source name : String} {names : List String} (h : name ∈ names) :
      Brings (.several source names) name
  | all (source name : String) : Brings (.all source) name

theorem Import.covers_iff_brings {clause : Import} {name : String} :
    clause.covers name = true ↔ clause.Brings name := by
  constructor
  · intro h
    cases clause with
    | one source other =>
        obtain rfl := of_decide_eq_true h
        exact .one source other
    | several source names => exact .several (of_decide_eq_true h)
    | all source => exact .all source name
  · intro h
    cases h with
    | one => exact decide_eq_true rfl
    | several h => exact decide_eq_true h
    | all => rfl

instance (clause : Import) (name : String) : Decidable (clause.Brings name) :=
  decidable_of_iff _ Import.covers_iff_brings

/-- The namespaces from which a namespace has a name, in the order of its clauses. Of several
namespaces with its own name, the first one has the clauses that count. -/
def suppliers (namespaces : List Namespace) (fromNamespace name : String) : List String :=
  let home := namespaces.find? fun ns => ns.name = fromNamespace
  let clauses := home.toList.flatMap Namespace.imports
  (clauses.filter fun clause => clause.Brings name).map Import.source

/-- The namespaces in which a name is looked for that is written in a namespace. -/
def searched (namespaces : List Namespace) (fromNamespace name : String) : List String :=
  fromNamespace :: suppliers namespaces fromNamespace name

/-! ## The places of the index -/

/-- A place of a listing is where a declaration of that identity stands. -/
theorem getElem?_of_mem_placesOf {namespaces : List Namespace} {entry : DeclId × Place}
    (h : entry ∈ placesOf namespaces) :
    ∃ ns d, namespaces[entry.2.namespaceIndex]? = some ns
      ∧ ns.declarations[entry.2.declarationIndex]? = some d ∧ entry.1 = ⟨ns.name, d.name⟩ := by
  obtain ⟨⟨ns, i⟩, hns, hentry⟩ := List.mem_flatMap.1 h
  obtain ⟨⟨d, j⟩, hd, rfl⟩ := List.mem_map.1 hentry
  exact ⟨ns, d, List.mem_zipIdx_iff_getElem?.1 hns, List.mem_zipIdx_iff_getElem?.1 hd, rfl⟩

namespace Index

/-- An insertion adds at most its own entry. -/
theorem mem_of_mem_insertNew {index : Index} {entry other : DeclId × Place}
    (h : other ∈ index.insertNew entry) : other = entry ∨ other ∈ index := by
  unfold insertNew at h
  split at h
  · exact .inr h
  · exact List.mem_cons.1 h

theorem mem_keys_insertNew {index : Index} {entry : DeclId × Place} {id : DeclId} :
    id ∈ (index.insertNew entry).map Prod.fst ↔ id = entry.1 ∨ id ∈ index.map Prod.fst := by
  unfold insertNew
  split
  · rename_i htaken
    -- the identity of the entry has a place already
    have hmem : entry.1 ∈ index.map Prod.fst := by
      by_contra hfree
      rw [lookup_eq_none_iff_not_mem.2 hfree] at htaken
      exact absurd htaken (by simp)
    constructor
    · exact .inr
    · rintro (rfl | h)
      · exact hmem
      · exact h
  · rw [List.map_cons, List.mem_cons]

/-- No identity gets a second place. -/
theorem nodup_keys_insertNew {index : Index} (h : (index.map Prod.fst).Nodup)
    (entry : DeclId × Place) : ((index.insertNew entry).map Prod.fst).Nodup := by
  unfold insertNew
  split
  · exact h
  · rename_i hfree
    rw [Option.not_isSome_iff_eq_none, lookup_eq_none_iff_not_mem] at hfree
    rw [List.map_cons]
    exact List.nodup_cons.2 ⟨hfree, h⟩

/-- What the index holds once all entries are inserted: some of them, and of every identity just
one. -/
theorem foldl_insertNew (entries : List (DeclId × Place)) (index : Index)
    (hindex : (index.map Prod.fst).Nodup) :
    (∀ other ∈ entries.foldl insertNew index, other ∈ entries ∨ other ∈ index)
      ∧ ((entries.foldl insertNew index).map Prod.fst).Nodup
      ∧ ∀ id, id ∈ (entries.foldl insertNew index).map Prod.fst
        ↔ id ∈ entries.map Prod.fst ∨ id ∈ index.map Prod.fst := by
  -- the index grows while the list of entries shrinks
  induction entries generalizing index with
  | nil => exact ⟨fun other h => .inr h, hindex, fun id => by simp⟩
  | cons entry rest ih =>
      obtain ⟨hmem, hnodup, hkeys⟩ := ih (index.insertNew entry) (nodup_keys_insertNew hindex entry)
      rw [List.foldl_cons]
      refine ⟨fun other hother => ?_, hnodup, fun id => ?_⟩
      · rcases hmem other hother with hrest | hinserted
        · exact .inl (List.mem_cons_of_mem _ hrest)
        · rcases mem_of_mem_insertNew hinserted with rfl | hold
          · exact .inl List.mem_cons_self
          · exact .inr hold
      · rw [hkeys, mem_keys_insertNew, List.map_cons, List.mem_cons, or_left_comm, or_assoc]

end Index

namespace Graph

/-- Everything in the index is a place of the graph, at which a declaration of that identity
stands. -/
theorem getElem?_of_mem_index {g : Graph} {entry : DeclId × Place} (h : entry ∈ g.index) :
    ∃ ns d, g.namespaces[entry.2.namespaceIndex]? = some ns
      ∧ ns.declarations[entry.2.declarationIndex]? = some d ∧ entry.1 = ⟨ns.name, d.name⟩ := by
  rw [g.index_eq] at h
  obtain ⟨hmem, -, -⟩ := Index.foldl_insertNew (placesOf g.namespaces) [] List.nodup_nil
  exact getElem?_of_mem_placesOf ((hmem entry h).resolve_right List.not_mem_nil)

/-- The places have the identities of the listing. -/
theorem keys_placesOf (g : Graph) :
    (placesOf g.namespaces).map Prod.fst = (listing g.namespaces).map Prod.fst := by
  have h := congrArg (List.map Prod.fst) g.map_at?_placesOf
  rwa [List.map_map, List.map_map] at h

/-- The index has one place for each identity. -/
theorem declarationCount_eq (g : Graph) :
    g.declarationCount = ((listing g.namespaces).map Prod.fst).toFinset.card := by
  obtain ⟨-, hnodup, hkeys⟩ := Index.foldl_insertNew (placesOf g.namespaces) [] List.nodup_nil
  have hsame : (g.index.map Prod.fst).toFinset
      = ((listing g.namespaces).map Prod.fst).toFinset := by
    ext id
    rw [List.mem_toFinset, List.mem_toFinset, ← g.keys_placesOf, g.index_eq]
    exact (hkeys id).trans (or_iff_left List.not_mem_nil)
  rw [← hsame, List.toFinset_card_of_nodup, List.length_map, declarationCount]
  rw [g.index_eq]
  exact hnodup

/-! ## Resolution -/

theorem declaration?_eq_scan (g : Graph) (id : DeclId) :
    g.declaration? id = scan g.namespaces id := by
  rw [declaration?_eq_lookup, scan]
  generalize listing g.namespaces = entries
  induction entries with
  | nil => rfl
  | cons entry rest ih =>
      rw [lookup_cons_eq_ite, List.find?_cons, ih]
      by_cases h : entry.1 = id
      · rw [if_pos h.symm, decide_eq_true h]
        rfl
      · rw [if_neg (Ne.symm h), decide_eq_false h]

/-- The namespace that supplies a name is the first of those that may. -/
theorem importOwner?_eq_find? (g : Graph) (fromNamespace name : String) :
    g.importOwner? fromNamespace name
      = (suppliers g.namespaces fromNamespace name).find? fun owner =>
          (scan g.namespaces ⟨owner, name⟩).isSome := by
  have hcovers (clause : Import) : clause.covers name = decide (clause.Brings name) := by
    rw [Bool.eq_iff_iff, Import.covers_iff_brings, decide_eq_true_eq]
  unfold importOwner? suppliers namespace?
  cases g.namespaces.find? fun ns => ns.name = fromNamespace with
  | none => rfl
  | some ns =>
      simp only [hcovers, contains_eq_isSome, declaration?_eq_scan, Option.toList_some,
        List.flatMap_singleton]

/-- A name that is no keyword comes from where it is written, or from the namespace that supplies
it. -/
theorem resolve_named_eq_or (g : Graph) {fromNamespace name : String}
    (hname : ∀ p : Primitive, name ≠ p.keyword) :
    g.resolve fromNamespace (.named name)
      = (scan g.namespaces ⟨fromNamespace, name⟩).or
          ((g.importOwner? fromNamespace name).bind
            fun owner => scan g.namespaces ⟨owner, name⟩) := by
  have hkeyword : Primitive.ofKeyword? name = none := by
    by_contra h
    obtain ⟨p, hp⟩ := Option.ne_none_iff_exists'.1 h
    exact hname p (Primitive.ofKeyword?_eq_some_iff.1 hp)
  simp only [resolve, TypeRef.named, hkeyword, declaration?_eq_scan]
  cases scan g.namespaces ⟨fromNamespace, name⟩ with
  | some d => rfl
  | none => cases g.importOwner? fromNamespace name <;> rfl

/-- Behind the first that has something, nothing is asked for. -/
theorem bind_find?_isSome {α β : Type} (f : α → Option β) (items : List α) :
    (items.find? fun item => (f item).isSome).bind f = items.findSome? f := by
  induction items with
  | nil => rfl
  | cons item rest ih =>
      rw [List.find?_cons, List.findSome?_cons]
      cases h : f item with
      | none => exact ih
      | some b => exact h

/-! ## All answers -/

/-- What a graph answers, told by its namespaces alone. -/
structure AnswersLikeScan (g : Graph) : Prop where
  /-- A place that was found can be followed: a namespace and a declaration stand there, with that
  identity. -/
  places : ∀ entry ∈ g.index, ∃ ns d, g.namespaces[entry.2.namespaceIndex]? = some ns
    ∧ ns.declarations[entry.2.declarationIndex]? = some d ∧ entry.1 = ⟨ns.name, d.name⟩
  /-- A declaration is the first one of its identity. -/
  declaration? : ∀ id, g.declaration? id = scan g.namespaces id
  /-- Identities are counted once. -/
  count : g.declarationCount = ((listing g.namespaces).map Prod.fst).toFinset.card
  /-- A reference with a namespace means a declaration of that namespace, whatever it is called. -/
  qualified : ∀ fromNamespace owner name,
    g.resolve fromNamespace ⟨name, some owner⟩ = scan g.namespaces ⟨owner, name⟩
  /-- A keyword means no declaration, though there be one of that name. -/
  keyword : ∀ fromNamespace (p : Primitive), g.resolve fromNamespace (.named p.keyword) = none
  /-- Any other name means the first declaration in what is searched. Namespaces that do not
  declare it are passed over. -/
  unqualified : ∀ fromNamespace name, (∀ p : Primitive, name ≠ p.keyword) →
    g.resolve fromNamespace (.named name)
      = (searched g.namespaces fromNamespace name).findSome? fun owner =>
          scan g.namespaces ⟨owner, name⟩
  /-- The owner of an import is the first supplier that declares the name. -/
  importOwner? : ∀ fromNamespace name, g.importOwner? fromNamespace name
    = (suppliers g.namespaces fromNamespace name).find? fun owner =>
        (scan g.namespaces ⟨owner, name⟩).isSome
  /-- That owner is the one whose declaration is meant where no local one is, and there is none if
  nothing is meant. -/
  imported : ∀ fromNamespace name, (∀ p : Primitive, name ≠ p.keyword) →
    scan g.namespaces ⟨fromNamespace, name⟩ = none →
    g.resolve fromNamespace (.named name)
        = (g.importOwner? fromNamespace name).bind (fun owner => scan g.namespaces ⟨owner, name⟩)
      ∧ (g.importOwner? fromNamespace name = none ↔ g.resolve fromNamespace (.named name) = none)

/-- **The index cannot be seen.** Looking up, counting and resolving answer what a scan of the
namespaces answers, for all namespaces. -/
theorem lookups_follow_scan (g : Graph) : g.AnswersLikeScan where
  places _ h := getElem?_of_mem_index h
  declaration? := g.declaration?_eq_scan
  count := g.declarationCount_eq
  qualified _ owner name := g.declaration?_eq_scan ⟨owner, name⟩
  keyword := g.resolve_ofPrimitive
  unqualified fromNamespace name hname := by
    rw [g.resolve_named_eq_or hname, importOwner?_eq_find?, bind_find?_isSome, searched,
      List.findSome?_cons]
    cases scan g.namespaces ⟨fromNamespace, name⟩ <;> rfl
  importOwner? := g.importOwner?_eq_find?
  imported fromNamespace name hname hlocal := by
    have himported : g.resolve fromNamespace (.named name)
        = (g.importOwner? fromNamespace name).bind
          fun owner => scan g.namespaces ⟨owner, name⟩ := by
      rw [g.resolve_named_eq_or hname, hlocal, Option.none_or]
    refine ⟨himported, ?_⟩
    rw [himported]
    cases howner : g.importOwner? fromNamespace name with
    | none => exact iff_of_true rfl rfl
    | some owner =>
        -- an owner was asked whether it declares the name
        rw [importOwner?_eq_find?] at howner
        have hdeclared := List.find?_some howner
        refine iff_of_false (by simp) fun hnone => ?_
        rw [Option.bind_some] at hnone
        rw [hnone] at hdeclared
        exact absurd hdeclared (by simp)

end Graph

end ModelForge
