/-
`Resolution.lean` -- looking a declaration up, without the index.

The index of a graph holds places, and a place is followed to a declaration in a second step. None
of that can be seen from outside: `Graph.declaration?` is the look-up of an identity in the plain
list of all declarations (`Graph.declaration?_eq_lookup`), where each stands under the name of the
namespace that lists it. The first entry of an identity counts, because the index never replaces a
place.

On a graph whose declarations say that they belong to where they are listed (`Graph.OwnersMatch`)
the identity that is looked up is the one that the declaration gives itself. If in addition no
identity is taken twice (`Graph.NamesDistinct`), every declaration is the one that its identity
stands for.

The last section opens `Graph.referent`: when the type of a member is a declaration of the graph,
it is the one that the reference resolves to.
-/
import Mathlib.Data.List.Forall2
import Mathlib.Data.List.Nodup
import ModelForge.Model.References

set_option autoImplicit false

namespace ModelForge

/-! ## Lists -/

section Lookup

variable {α β γ : Type}

/-- Each item of a list has its partner in a related one. -/
theorem exists_mem_of_forall₂ {r : α → β → Prop} {xs : List α} {ys : List β}
    (h : List.Forall₂ r xs ys) {x : α} (hx : x ∈ xs) : ∃ y ∈ ys, r x y := by
  induction h with
  | nil => exact absurd hx List.not_mem_nil
  | cons hrel _ ih =>
      rcases List.mem_cons.1 hx with rfl | hx
      · exact ⟨_, List.mem_cons_self, hrel⟩
      · obtain ⟨y, hy, hrel⟩ := ih hx
        exact ⟨y, List.mem_cons_of_mem _ hy, hrel⟩

theorem lookup_cons_eq_ite [DecidableEq α] (key : α) (entry : α × β) (rest : List (α × β)) :
    List.lookup key (entry :: rest) = if key = entry.1 then some entry.2 else rest.lookup key := by
  rw [List.lookup_cons]
  by_cases h : key = entry.1
  · rw [if_pos h, h, beq_self_eq_true]
  · rw [if_neg h, beq_eq_false_iff_ne.2 h]

theorem lookup_map_snd [DecidableEq α] (entries : List (α × β)) (f : β → γ) (key : α) :
    (entries.map fun e => (e.1, f e.2)).lookup key = (entries.lookup key).map f := by
  induction entries with
  | nil => rfl
  | cons entry rest ih =>
      rw [List.map_cons, lookup_cons_eq_ite, lookup_cons_eq_ite, ih]
      split <;> rfl

/-- What is found stands in the list under the key. -/
theorem mem_of_lookup [DecidableEq α] {entries : List (α × β)} {key : α} {value : β}
    (h : entries.lookup key = some value) : (key, value) ∈ entries := by
  induction entries with
  | nil => exact absurd h (by simp)
  | cons entry rest ih =>
      rw [lookup_cons_eq_ite] at h
      split at h
      · rename_i hkey
        rw [hkey, ← Option.some.inj h]
        exact List.mem_cons_self
      · exact List.mem_cons_of_mem _ (ih h)

/-- Where no key stands twice, every entry is found. -/
theorem lookup_of_mem [DecidableEq α] {entries : List (α × β)} {key : α} {value : β}
    (hdistinct : (entries.map Prod.fst).Nodup) (h : (key, value) ∈ entries) :
    entries.lookup key = some value := by
  induction entries with
  | nil => exact absurd h List.not_mem_nil
  | cons entry rest ih =>
      rw [List.map_cons, List.nodup_cons] at hdistinct
      rw [lookup_cons_eq_ite]
      rcases List.mem_cons.1 h with rfl | h
      · rw [if_pos rfl]
      · have hne : key ≠ entry.1 := by
          rintro rfl
          exact hdistinct.1 (List.mem_map.2 ⟨_, h, rfl⟩)
        rw [if_neg hne, ih hdistinct.2 h]

theorem lookup_eq_none_iff_not_mem [DecidableEq α] {entries : List (α × β)} {key : α} :
    entries.lookup key = none ↔ key ∉ entries.map Prod.fst := by
  induction entries with
  | nil => simp
  | cons entry rest ih =>
      rw [lookup_cons_eq_ite, List.map_cons, List.mem_cons, not_or]
      by_cases hkey : key = entry.1
      · simp [hkey]
      · rw [if_neg hkey, ih]
        exact ⟨fun h => ⟨hkey, h⟩, fun h => h.2⟩

end Lookup

/-! ## The index -/

/-- A place that is inserted answers for its identity only if nothing else does yet. -/
theorem Index.lookup_insertNew (index : Index) (entry : DeclId × Place) (id : DeclId) :
    (index.insertNew entry).lookup id = (index.lookup id).or (List.lookup id [entry]) := by
  unfold Index.insertNew
  rw [lookup_cons_eq_ite id entry [], List.lookup_nil]
  split
  · rename_i htaken
    split
    · rename_i hid
      rw [hid, Option.or_of_isSome htaken]
    · rw [Option.or_none]
  · rename_i hfree
    rw [lookup_cons_eq_ite]
    split
    · rename_i hid
      rw [hid, Option.not_isSome_iff_eq_none.1 hfree, Option.none_or]
    · rw [Option.or_none]

/-- **The first place wins.** Inserting places one after the other answers like the list they come
from, behind what was there before. -/
theorem Index.lookup_foldl_insertNew (entries : List (DeclId × Place)) (index : Index)
    (id : DeclId) :
    (entries.foldl Index.insertNew index).lookup id
      = (index.lookup id).or (entries.lookup id) := by
  induction entries generalizing index with
  | nil => rw [List.foldl_nil, List.lookup_nil, Option.or_none]
  | cons entry rest ih =>
      rw [List.foldl_cons, ih, Index.lookup_insertNew, Option.or_assoc]
      rw [lookup_cons_eq_ite id entry [], lookup_cons_eq_ite id entry rest]
      split <;> rfl

/-- The index finds what a scan of all places finds. -/
theorem Index.lookup_ofNamespaces (namespaces : List Namespace) (id : DeclId) :
    (Index.ofNamespaces namespaces).lookup id = (placesOf namespaces).lookup id := by
  rw [Index.ofNamespaces, Index.lookup_foldl_insertNew, List.lookup_nil, Option.none_or]

/-! ## The list behind the index -/

/-- All declarations in order, each under the identity that its place gives it. -/
def listing (namespaces : List Namespace) : List (DeclId × Declaration) :=
  namespaces.flatMap fun ns => ns.declarations.map fun d => (⟨ns.name, d.name⟩, d)

/-- What is listed is a declaration of one of the namespaces, under its name there. -/
theorem mem_listing {namespaces : List Namespace} {id : DeclId} {d : Declaration} :
    (id, d) ∈ listing namespaces
      ↔ ∃ ns ∈ namespaces, d ∈ ns.declarations ∧ id = ⟨ns.name, d.name⟩ := by
  simp only [listing, List.mem_flatMap, List.mem_map, Prod.mk.injEq]
  constructor
  · rintro ⟨ns, hns, e, he, rfl, rfl⟩
    exact ⟨ns, hns, he, rfl⟩
  · rintro ⟨ns, hns, hd, rfl⟩
    exact ⟨ns, hns, d, hd, rfl, rfl⟩

namespace Graph

/-- Following every place gives the listing. Nothing is lost, because each place was made from a
declaration that stands there. -/
theorem map_at?_placesOf (g : Graph) :
    (placesOf g.namespaces).map (fun e => (e.1, g.at? e.2))
      = (listing g.namespaces).map fun e => (e.1, some e.2) := by
  -- inside one namespace, which is found under its number
  have hplaces : ∀ entry ∈ g.namespaces.zipIdx,
      (entry.1.declarations.zipIdx.map fun e =>
          ((⟨entry.1.name, e.1.name⟩ : DeclId), g.at? ⟨entry.2, e.2⟩))
        = entry.1.declarations.map fun d => (⟨entry.1.name, d.name⟩, some d) := by
    rintro ⟨ns, i⟩ hi
    have hat : g.namespaces[i]? = some ns := List.mem_zipIdx_iff_getElem?.1 hi
    have hd : ∀ e ∈ ns.declarations.zipIdx,
        ((⟨ns.name, e.1.name⟩ : DeclId), g.at? ⟨i, e.2⟩) = (⟨ns.name, e.1.name⟩, some e.1) := by
      rintro ⟨d, j⟩ hj
      simp only [at?, hat, Option.bind_some, List.mem_zipIdx_iff_getElem?.1 hj]
    dsimp only
    rw [List.map_congr_left hd]
    conv => rhs; rw [← List.zipIdx_map_fst 0 ns.declarations, List.map_map]
    rfl
  calc (placesOf g.namespaces).map (fun e => (e.1, g.at? e.2))
      = g.namespaces.zipIdx.flatMap fun entry => entry.1.declarations.zipIdx.map fun e =>
          ((⟨entry.1.name, e.1.name⟩ : DeclId), g.at? ⟨entry.2, e.2⟩) := by
        simp only [placesOf, List.map_flatMap, List.map_map, Function.comp_def]
    _ = g.namespaces.zipIdx.flatMap fun entry => entry.1.declarations.map fun d =>
          ((⟨entry.1.name, d.name⟩ : DeclId), some d) := List.flatMap_congr hplaces
    _ = (listing g.namespaces).map fun e => (e.1, some e.2) := by
        simp only [listing, List.map_flatMap, List.map_map, Function.comp_def]
        conv => rhs; rw [← List.zipIdx_map_fst 0 g.namespaces, List.flatMap_map]

/-- **Looking up through the index is looking up in the listing.** -/
theorem declaration?_eq_lookup (g : Graph) (id : DeclId) :
    g.declaration? id = (listing g.namespaces).lookup id := by
  have h := congrArg (List.lookup id) g.map_at?_placesOf
  rw [lookup_map_snd, lookup_map_snd] at h
  rw [declaration?, g.index_eq, Index.lookup_ofNamespaces]
  cases hplace : (placesOf g.namespaces).lookup id with
  | none =>
      rw [hplace] at h
      exact (Option.map_eq_none_iff.1 h.symm).symm
  | some place =>
      rw [hplace] at h
      obtain ⟨d, hd, hat⟩ := Option.map_eq_some_iff.1 h.symm
      rw [hd, Option.bind_some, ← hat]

/-- An identity has a place exactly when it stands for a declaration. -/
theorem contains_eq_isSome (g : Graph) (id : DeclId) :
    g.contains id = (g.declaration? id).isSome := by
  have h := congrArg (List.lookup id) g.map_at?_placesOf
  rw [lookup_map_snd, lookup_map_snd] at h
  have hsome := congrArg Option.isSome h
  rw [Option.isSome_map, Option.isSome_map] at hsome
  rw [contains, g.index_eq, Index.lookup_ofNamespaces, declaration?_eq_lookup, hsome]

/-! ## Graphs with consistent identities -/

/-- Every declaration says that it belongs to the namespace that lists it. -/
def OwnersMatch (g : Graph) : Prop :=
  ∀ ns ∈ g.namespaces, ∀ d ∈ ns.declarations, d.owner = ns.name

/-- No namespace is listed twice, and none declares a name twice. -/
def NamesDistinct (g : Graph) : Prop :=
  (g.namespaces.map Namespace.name).Nodup
    ∧ ∀ ns ∈ g.namespaces, (ns.declarations.map Declaration.name).Nodup

instance (g : Graph) : Decidable g.OwnersMatch := by
  unfold OwnersMatch; infer_instance

instance (g : Graph) : Decidable g.NamesDistinct := by
  unfold NamesDistinct; infer_instance

/-- The identity that is looked up is the one that the declaration gives itself. -/
theorem id_of_declaration? {g : Graph} (hg : g.OwnersMatch) {id : DeclId} {d : Declaration}
    (h : g.declaration? id = some d) : d.id = id := by
  rw [declaration?_eq_lookup] at h
  obtain ⟨ns, hns, hd, rfl⟩ := mem_listing.1 (mem_of_lookup h)
  rw [Declaration.id, hg ns hns d hd]

/-- What is found under an identity has the owner it says. -/
theorem owner_of_declaration? {g : Graph} (hg : g.OwnersMatch) {id : DeclId} {d : Declaration}
    (h : g.declaration? id = some d) : d.owner = id.owner :=
  congrArg DeclId.owner (id_of_declaration? hg h)

/-- And the name it says. -/
theorem name_of_declaration? {g : Graph} (hg : g.OwnersMatch) {id : DeclId} {d : Declaration}
    (h : g.declaration? id = some d) : d.name = id.name :=
  congrArg DeclId.name (id_of_declaration? hg h)

/-- A declaration that is found is the one that its own identity stands for. -/
theorem declaration?_id_of_declaration? {g : Graph} (hg : g.OwnersMatch) {id : DeclId}
    {d : Declaration} (h : g.declaration? id = some d) : g.declaration? d.id = some d := by
  rw [id_of_declaration? hg h, h]

/-- With distinct names the listing gives every identity once. -/
theorem listing_nodup {namespaces : List Namespace}
    (hnamespaces : (namespaces.map Namespace.name).Nodup)
    (hnames : ∀ ns ∈ namespaces, (ns.declarations.map Declaration.name).Nodup) :
    ((listing namespaces).map Prod.fst).Nodup := by
  induction namespaces with
  | nil => exact List.nodup_nil
  | cons ns rest ih =>
      rw [List.map_cons, List.nodup_cons] at hnamespaces
      have hhead : (ns.declarations.map fun d => (⟨ns.name, d.name⟩ : DeclId)).Nodup := by
        have := (hnames ns List.mem_cons_self).map (f := fun name => (⟨ns.name, name⟩ : DeclId))
          (fun a b h => (DeclId.mk.inj h).2)
        rwa [List.map_map] at this
      have htail := ih hnamespaces.2 fun other h => hnames other (List.mem_cons_of_mem _ h)
      rw [listing, List.flatMap_cons, List.map_append, List.map_map]
      -- two identities from different namespaces differ in the owner
      refine List.nodup_append.2 ⟨hhead, htail, ?_⟩
      rintro a ha b hb rfl
      obtain ⟨d, -, rfl⟩ := List.mem_map.1 ha
      obtain ⟨⟨id, e⟩, he, hid⟩ := List.mem_map.1 hb
      obtain ⟨other, hother, -, rfl⟩ := mem_listing.1 he
      exact hnamespaces.1 (List.mem_map.2 ⟨other, hother, (DeclId.mk.inj hid).1⟩)

/-- **Every declaration is found by its identity**, if no identity is taken twice. -/
theorem declaration?_id {g : Graph} (hg : g.OwnersMatch) (hnames : g.NamesDistinct)
    {d : Declaration} (hd : d ∈ g.declarations) : g.declaration? d.id = some d := by
  obtain ⟨ns, hns, hd⟩ := List.mem_flatMap.1 hd
  rw [declaration?_eq_lookup]
  refine lookup_of_mem (listing_nodup hnames.1 hnames.2) (mem_listing.2 ⟨ns, hns, hd, ?_⟩)
  rw [Declaration.id, hg ns hns d hd]

/-- With distinct names the identity decides which declaration is meant. -/
theorem eq_of_id_eq {g : Graph} (hg : g.OwnersMatch) (hnames : g.NamesDistinct) {a b : Declaration}
    (ha : a ∈ g.declarations) (hb : b ∈ g.declarations) (h : a.id = b.id) : a = b := by
  have hfound := declaration?_id hg hnames ha
  rw [h, declaration?_id hg hnames hb] at hfound
  exact (Option.some.inj hfound).symm

/-- What a reference refers to is the one that its own identity stands for. -/
theorem declaration?_id_of_resolve {g : Graph} (hg : g.OwnersMatch) {fromNamespace : String}
    {r : TypeRef} {d : Declaration} (h : g.resolve fromNamespace r = some d) :
    g.declaration? d.id = some d := by
  unfold resolve at h
  split at h
  · exact declaration?_id_of_declaration? hg h
  · split at h
    · exact absurd h (by simp)
    · split at h
      · rename_i found
        exact declaration?_id_of_declaration? hg (h ▸ found)
      · split at h
        · exact declaration?_id_of_declaration? hg h
        · exact absurd h (by simp)

/-- A name that is declared where it is written refers to that, unless it is a keyword. -/
theorem resolve_named_of_declaration? {g : Graph} {fromNamespace name : String} {d : Declaration}
    (h : g.declaration? ⟨fromNamespace, name⟩ = some d) :
    g.resolve fromNamespace (.named name)
      = if (Primitive.ofKeyword? name).isSome then none else some d := by
  simp only [resolve, TypeRef.named, h]

/-- A name that is not declared where it is written comes from a namespace that supplies it. -/
theorem importOwner?_of_resolve_named {g : Graph} {fromNamespace name : String} {d : Declaration}
    (hlocal : g.declaration? ⟨fromNamespace, name⟩ = none)
    (h : g.resolve fromNamespace (.named name) = some d) :
    ∃ owner, g.importOwner? fromNamespace name = some owner
      ∧ g.declaration? ⟨owner, name⟩ = some d := by
  simp only [resolve, TypeRef.named, hlocal] at h
  by_cases hkeyword : (Primitive.ofKeyword? name).isSome = true
  · rw [if_pos hkeyword] at h
    exact absurd h (by simp)
  · rw [if_neg hkeyword] at h
    cases howner : g.importOwner? fromNamespace name with
    | none =>
        rw [howner] at h
        exact absurd h (by simp)
    | some owner =>
        rw [howner] at h
        exact ⟨owner, rfl, h⟩

/-- Whatever a name refers to has that name. -/
theorem declaration?_of_resolve_named {g : Graph} {fromNamespace name : String} {d : Declaration}
    (h : g.resolve fromNamespace (.named name) = some d) :
    ∃ owner, g.declaration? ⟨owner, name⟩ = some d := by
  cases hlocal : g.declaration? ⟨fromNamespace, name⟩ with
  | none =>
      obtain ⟨owner, -, hd⟩ := importOwner?_of_resolve_named hlocal h
      exact ⟨owner, hd⟩
  | some found =>
      rw [resolve_named_of_declaration? hlocal] at h
      by_cases hkeyword : (Primitive.ofKeyword? name).isSome = true
      · rw [if_pos hkeyword] at h
        exact absurd h (by simp)
      · rw [if_neg hkeyword] at h
        exact ⟨fromNamespace, hlocal.trans h⟩

/-! ## Referents -/

/-- A referent in the graph is what the reference resolves to, and it is a class or an enum. -/
theorem declared_eq_declaration_iff {g : Graph} {fromNamespace : String} {kind : PropertyKind}
    {r : TypeRef} {d : Declaration} :
    g.declared fromNamespace kind r = .declaration d
      ↔ g.resolve fromNamespace r = some d ∧ ∀ p default, d.body ≠ .scalar p default := by
  unfold declared
  cases hresolve : g.resolve fromNamespace r with
  | none => simp
  | some e =>
      simp only [Option.some.injEq]
      cases hbody : e.body with
      | scalar p default =>
          have hne : (if kind = .field then Referent.primitive p else .unresolved r.name)
              ≠ .declaration d := by
            split <;> simp
          refine ⟨fun h => absurd h hne, ?_⟩
          rintro ⟨rfl, hscalar⟩
          exact absurd hbody (hscalar p default)
      | record flavor isAbstract superType properties =>
          simp only [Referent.declaration.injEq]
          refine ⟨?_, fun h => h.1⟩
          rintro rfl
          exact ⟨rfl, fun p default h => by simp [hbody] at h⟩
      | enumeration values =>
          simp only [Referent.declaration.injEq]
          refine ⟨?_, fun h => h.1⟩
          rintro rfl
          exact ⟨rfl, fun p default h => by simp [hbody] at h⟩

/-- Only a field that names a primitive is spared the look-up. -/
theorem referent_eq_declaration_iff {g : Graph} {fromNamespace : String} {kind : PropertyKind}
    {r : TypeRef} {d : Declaration} :
    g.referent fromNamespace kind r = .declaration d
      ↔ (kind = .field → r.primitive? = none)
        ∧ g.declared fromNamespace kind r = .declaration d := by
  unfold referent
  by_cases hkind : kind = .field
  · rw [if_pos hkind]
    cases hprimitive : r.primitive? with
    | none => simp
    | some p => simp [hkind]
  · simp [hkind]

/-- A keyword refers to no declaration, not even to one that has its name. -/
theorem resolve_ofPrimitive (g : Graph) (fromNamespace : String) (p : Primitive) :
    g.resolve fromNamespace (.ofPrimitive p) = none := by
  have hkeyword : Primitive.ofKeyword? p.keyword = some p := Primitive.ofKeyword?_eq_some_iff.2 rfl
  simp [resolve, TypeRef.ofPrimitive, TypeRef.named, hkeyword]

/-- **What holds a primitive.** Only a field does: it has the keyword, or a reference to a scalar.
-/
theorem referent_eq_primitive_iff {g : Graph} {fromNamespace : String} {kind : PropertyKind}
    {r : TypeRef} {p : Primitive} :
    g.referent fromNamespace kind r = .primitive p
      ↔ kind = .field ∧ (r = .ofPrimitive p
        ∨ ∃ d default, g.resolve fromNamespace r = some d ∧ d.body = .scalar p default) := by
  have hdeclared : g.declared fromNamespace kind r = .primitive p ↔ kind = .field
      ∧ ∃ d default, g.resolve fromNamespace r = some d ∧ d.body = .scalar p default := by
    unfold declared
    cases hresolve : g.resolve fromNamespace r with
    | none => simp
    | some d =>
        cases hbody : d.body with
        | record flavor isAbstract superType properties => simp [hbody]
        | enumeration values => simp [hbody]
        | scalar primitive default => by_cases hkind : kind = .field <;> simp [hkind, hbody]
  unfold referent
  by_cases hkind : kind = .field
  · rw [if_pos hkind]
    cases hprimitive : r.primitive? with
    | none =>
        have hkeyword : r ≠ .ofPrimitive p := by
          intro h
          rw [TypeRef.primitive?_eq_some_iff.2 h] at hprimitive
          exact absurd hprimitive (by simp)
        dsimp only
        rw [hdeclared, or_iff_right hkeyword]
    | some primitive =>
        -- the reference is a keyword, so that there is no scalar to see through
        obtain rfl := TypeRef.primitive?_eq_some_iff.1 hprimitive
        dsimp only
        rw [← TypeRef.primitive?_eq_some_iff, hprimitive, resolve_ofPrimitive]
        simp [hkind]
  · rw [if_neg hkind, hdeclared]
    simp [hkind]

/-- What refers to nothing in the graph keeps the name that it has in the model. -/
theorem name_of_referent_unresolved {g : Graph} {fromNamespace name : String} {kind : PropertyKind}
    {r : TypeRef} (h : g.referent fromNamespace kind r = .unresolved name) : name = r.name := by
  have hdeclared : g.declared fromNamespace kind r = .unresolved name → name = r.name := by
    unfold declared
    intro h
    split at h
    · exact (Referent.unresolved.inj h).symm
    · split at h
      · split at h
        · exact absurd h (by simp)
        · exact (Referent.unresolved.inj h).symm
      · exact absurd h (by simp)
      · exact absurd h (by simp)
  unfold referent at h
  split at h
  · split at h
    · exact absurd h (by simp)
    · exact hdeclared h
  · exact hdeclared h

/-- A reference to a declaration is resolved to it. -/
theorem resolve_of_referent {g : Graph} {fromNamespace : String} {kind : PropertyKind}
    {r : TypeRef} {d : Declaration} (h : g.referent fromNamespace kind r = .declaration d) :
    g.resolve fromNamespace r = some d :=
  (declared_eq_declaration_iff.1 (referent_eq_declaration_iff.1 h).2).1

/-- What a member refers to is found under its own identity. -/
theorem declaration?_id_of_memberReferent {g : Graph} (hg : g.OwnersMatch) {m : Member}
    {d : Declaration} (h : g.memberReferent m = .declaration d) : g.declaration? d.id = some d :=
  declaration?_id_of_resolve hg (resolve_of_referent h)

end Graph

end ModelForge
