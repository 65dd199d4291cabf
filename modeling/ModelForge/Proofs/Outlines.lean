/-
`Outlines.lean` -- as much of a declaration as look-up and inheritance can see.

To resolve a name, and to go from a class to its supertype, nobody reads the properties of a
declaration. What is read is its name, its namespace, what it declares and which supertype it has:
its outline. So two graphs give the same answers if the one has a declaration of the same outline
wherever the other one has a declaration (`Graph.Alike`). What is found in the one corresponds to
what is found in the other.

Which declarations correspond is left open, as a relation `r`. It may say anything about their
properties, as long as it implies one outline. The relation is carried through the model one
function at a time, in the order in which those build on each other: look-up, imports, resolution,
lineage, referents.
-/
import Mathlib.Data.List.Forall2
import ModelForge.Proofs.Resolution

set_option autoImplicit false

namespace ModelForge

/-! ## Related lists and options -/

section

variable {α β : Type} {r : α → β → Prop}

/-- Two related options are both empty, or hold related values. -/
theorem rel_cases {a : Option α} {b : Option β} (h : Option.Rel r a b) :
    a = none ∧ b = none ∨ ∃ x y, a = some x ∧ b = some y ∧ r x y := by
  cases h with
  | none => exact .inl ⟨rfl, rfl⟩
  | some h => exact .inr ⟨_, _, rfl, rfl, h⟩

/-- A function that sends related elements to one value sends related lists to one list. -/
theorem map_eq_of_forall₂ {γ : Type} {f : α → γ} {f' : β → γ} {xs : List α} {ys : List β}
    (h : List.Forall₂ r xs ys) (hf : ∀ x y, r x y → f' y = f x) : ys.map f' = xs.map f := by
  induction h with
  | nil => rfl
  | cons hrel _ ih => rw [List.map_cons, List.map_cons, hf _ _ hrel, ih]

/-- Under keys that are the same one by one, related entries are found or none is. -/
theorem rel_lookup {κ : Type} [DecidableEq κ] {entries : List (κ × α)} {entries' : List (κ × β)}
    (h : List.Forall₂ (fun e e' => e.1 = e'.1 ∧ r e.2 e'.2) entries entries') (key : κ) :
    Option.Rel r (entries.lookup key) (entries'.lookup key) := by
  induction h with
  | nil => exact .none
  | cons hentry _ ih =>
      rw [lookup_cons_eq_ite, lookup_cons_eq_ite, ← hentry.1]
      split
      · exact .some hentry.2
      · exact ih

end

/-! ## Outlines -/

/-- The body without the properties that it lists. -/
def Body.outline : Body → Body
  | .record flavor isAbstract superType _ => .record flavor isAbstract superType []
  | .enumeration _ => .enumeration []
  | .scalar primitive default => .scalar primitive default

/-- Bodies of one outline differ in their properties only. -/
theorem Body.outline_cases {b b' : Body} (h : b.outline = b'.outline) :
    (∃ flavor isAbstract superType properties properties',
        b = .record flavor isAbstract superType properties
          ∧ b' = .record flavor isAbstract superType properties')
      ∨ (∃ values values', b = .enumeration values ∧ b' = .enumeration values')
      ∨ ∃ primitive default, b = .scalar primitive default ∧ b' = .scalar primitive default := by
  cases b with
  | record flavor isAbstract superType properties =>
      cases b' with
      | record flavor' isAbstract' superType' properties' =>
          obtain ⟨rfl, rfl, rfl, -⟩ := Body.record.inj h
          exact .inl ⟨_, _, _, _, _, rfl, rfl⟩
      | enumeration | scalar => exact Body.noConfusion h
  | enumeration values =>
      cases b' with
      | enumeration values' => exact .inr (.inl ⟨values, values', rfl, rfl⟩)
      | record | scalar => exact Body.noConfusion h
  | scalar primitive default =>
      cases b' with
      | scalar primitive' default' =>
          obtain ⟨rfl, rfl⟩ := Body.scalar.inj h
          exact .inr (.inr ⟨_, _, rfl, rfl⟩)
      | record | enumeration => exact Body.noConfusion h

/-- The declarations agree in all that look-up and inheritance can see. -/
structure Declaration.SameOutline (d d' : Declaration) : Prop where
  name : d.name = d'.name
  owner : d.owner = d'.owner
  body : d.body.outline = d'.body.outline

namespace Declaration.SameOutline

variable {d d' : Declaration}

theorem refl (d : Declaration) : d.SameOutline d := ⟨rfl, rfl, rfl⟩

theorem symm (h : d.SameOutline d') : d'.SameOutline d := ⟨h.name.symm, h.owner.symm, h.body.symm⟩

/-- The outline holds what identifies a declaration. -/
theorem id (h : d.SameOutline d') : d.id = d'.id := by
  rw [Declaration.id, Declaration.id, h.name, h.owner]

/-- So it does with the name that records carry on the wire. -/
theorem qualifiedName (h : d.SameOutline d') : d.qualifiedName = d'.qualifiedName := by
  rw [Declaration.qualifiedName, Declaration.qualifiedName, h.name, h.owner]

/-- Whether a declaration is a class can be told from its outline. -/
theorem isClass (h : d.SameOutline d') : d.isClass = d'.isClass := by
  rw [Declaration.isClass, Declaration.isClass]
  rcases Body.outline_cases h.body with
    ⟨_, _, _, _, _, hd, hd'⟩ | ⟨_, _, hd, hd'⟩ | ⟨_, _, hd, hd'⟩ <;> rw [hd, hd']

/-- The reference to the supertype is a part of the outline. -/
theorem superType? (h : d.SameOutline d') : d.superType? = d'.superType? := by
  rw [Declaration.superType?, Declaration.superType?]
  rcases Body.outline_cases h.body with
    ⟨_, _, _, _, _, hd, hd'⟩ | ⟨_, _, hd, hd'⟩ | ⟨_, _, hd, hd'⟩ <;> rw [hd, hd']

end Declaration.SameOutline

/-! ## Graphs of one outline -/

section

variable (r : Declaration → Declaration → Prop)

/-- The same namespace but for its declarations, which correspond one by one. -/
structure Namespace.Alike (ns ns' : Namespace) : Prop where
  name : ns.name = ns'.name
  imports : ns.imports = ns'.imports
  declarations : List.Forall₂ r ns.declarations ns'.declarations

/-- The same graph but for its declarations. Those that correspond have one outline. -/
structure Graph.Alike (g g' : Graph) : Prop where
  outline : ∀ d d', r d d' → d.SameOutline d'
  namespaces : List.Forall₂ (Namespace.Alike r) g.namespaces g'.namespaces

/-- The same referent, or declarations that correspond. -/
inductive Referent.Alike : Referent → Referent → Prop
  | primitive (p : Primitive) : Alike (.primitive p) (.primitive p)
  | declaration {d d' : Declaration} (h : r d d') : Alike (.declaration d) (.declaration d')
  | unresolved (name : String) : Alike (.unresolved name) (.unresolved name)

end

section

variable {r : Declaration → Declaration → Prop}

/-- What is like a declaration is a declaration. -/
theorem Referent.Alike.exists_declaration {d : Declaration} {referent : Referent}
    (h : Referent.Alike r (.declaration d) referent) :
    ∃ d', referent = .declaration d' ∧ r d d' := by
  cases h with
  | declaration h => exact ⟨_, rfl, h⟩

theorem Referent.Alike.symm {referent referent' : Referent}
    (h : Referent.Alike r referent referent') :
    Referent.Alike (flip r) referent' referent := by
  cases h with
  | primitive p => exact .primitive p
  | declaration h => exact .declaration h
  | unresolved name => exact .unresolved name

/-- Alike namespaces list their declarations under the same identities, in the same order. -/
theorem Namespace.Alike.forall₂_listing {namespaces namespaces' : List Namespace}
    (houtline : ∀ d d', r d d' → d.SameOutline d')
    (h : List.Forall₂ (Namespace.Alike r) namespaces namespaces') :
    List.Forall₂ (fun e e' => e.1 = e'.1 ∧ r e.2 e'.2) (listing namespaces)
      (listing namespaces') := by
  unfold listing
  induction h with
  | nil => exact List.Forall₂.nil
  | cons hns _ ih =>
      rw [List.flatMap_cons, List.flatMap_cons]
      refine List.rel_append ?_ ih
      rw [List.forall₂_map_left_iff, List.forall₂_map_right_iff]
      exact hns.declarations.imp fun d d' hd => ⟨by rw [hns.name, (houtline d d' hd).name], hd⟩

/-- Whether a namespace of a given name is found does not depend on the side. -/
theorem Namespace.Alike.find? {namespaces namespaces' : List Namespace}
    (h : List.Forall₂ (Namespace.Alike r) namespaces namespaces') (name : String) :
    Option.Rel (Namespace.Alike r) (namespaces.find? fun ns => ns.name = name)
      (namespaces'.find? fun ns => ns.name = name) := by
  induction h with
  | nil => exact .none
  | cons hns _ ih =>
      rw [List.find?_cons, List.find?_cons, ← hns.name]
      split
      · exact .some hns
      · exact ih

namespace Graph.Alike

variable {g g' : Graph}

theorem symm (h : g.Alike r g') : g'.Alike (flip r) g where
  outline d' d hd := (h.outline d d' hd).symm
  namespaces := h.namespaces.flip.imp fun _ _ hns =>
    ⟨hns.name.symm, hns.imports.symm, hns.declarations.flip⟩

/-- Declarations know their namespaces on both sides or on neither. -/
theorem ownersMatch (h : g.Alike r g') (hg : g.OwnersMatch) : g'.OwnersMatch := by
  intro ns' hns' d' hd'
  obtain ⟨ns, hns, hrel⟩ := exists_mem_of_forall₂ h.symm.namespaces hns'
  obtain ⟨d, hd, hdrel⟩ := exists_mem_of_forall₂ hrel.declarations hd'
  rw [← (h.outline d d' hdrel).owner, hrel.name]
  exact hg ns hns d hd

/-- **Look-ups find related declarations.** Everything else that a graph answers about names is
built on this. -/
theorem declaration? (h : g.Alike r g') (id : DeclId) :
    Option.Rel r (g.declaration? id) (g'.declaration? id) := by
  rw [declaration?_eq_lookup, declaration?_eq_lookup]
  exact rel_lookup (Namespace.Alike.forall₂_listing h.outline h.namespaces) id

/-- Both sides declare the same identities. -/
theorem contains (h : g.Alike r g') (id : DeclId) : g.contains id = g'.contains id := by
  rw [contains_eq_isSome, contains_eq_isSome]
  rcases rel_cases (h.declaration? id) with ⟨hd, hd'⟩ | ⟨d, d', hd, hd', -⟩
  · rw [hd, hd']
  · rw [hd, hd', Option.isSome_some, Option.isSome_some]

/-- Import clauses are the same on both sides, so they bring a name from the same namespace. -/
theorem importOwner? (h : g.Alike r g') (fromNamespace typeName : String) :
    g.importOwner? fromNamespace typeName = g'.importOwner? fromNamespace typeName := by
  unfold Graph.importOwner? Graph.namespace?
  -- the clauses are the same, and so is what the namespaces behind them declare
  rcases rel_cases (Namespace.Alike.find? h.namespaces fromNamespace) with
    ⟨hns, hns'⟩ | ⟨ns, ns', hns, hns', hrel⟩
  · rw [hns, hns']
  · rw [hns, hns']
    simp only [hrel.imports, h.contains]

/-- A reference is resolved to related declarations, or on both sides to none. -/
theorem resolve (h : g.Alike r g') (fromNamespace : String) (ref : TypeRef) :
    Option.Rel r (g.resolve fromNamespace ref) (g'.resolve fromNamespace ref) := by
  unfold Graph.resolve
  split
  · exact h.declaration? _
  · split
    · exact .none
    · rcases rel_cases (h.declaration? ⟨fromNamespace, ref.name⟩) with
        ⟨hd, hd'⟩ | ⟨d, d', hd, hd', hrel⟩
      · rw [hd, hd', h.importOwner?]
        cases g'.importOwner? fromNamespace ref.name with
        | none => exact .none
        | some owner => exact h.declaration? ⟨owner, ref.name⟩
      · rw [hd, hd']
        exact .some hrel

/-- Supertypes of related declarations are related. -/
theorem parent? (h : g.Alike r g') {d d' : Declaration} (hd : r d d') :
    Option.Rel r (g.parent? d) (g'.parent? d') := by
  unfold Graph.parent?
  rw [← (h.outline d d' hd).superType?, ← (h.outline d d' hd).owner]
  split
  · exact h.resolve _ _
  · exact .none

/-- Lineages go through the same identities, and so are cut at the same place. -/
theorem lineageFrom (h : g.Alike r g') (seen : List DeclId) (d d' : Declaration) (hd : r d d') :
    List.Forall₂ r (g.lineageFrom seen d) (g'.lineageFrom seen d') := by
  -- the walk of `g` is followed step by step, and the one of `g'` keeps up with it
  induction seen, d using Graph.lineageFrom.induct g generalizing d' with
  | case1 seen d hparent =>
      rcases rel_cases (h.parent? hd) with ⟨-, hparent'⟩ | ⟨p, p', hp, -, -⟩
      · rw [lineageFrom_of_none hparent, lineageFrom_of_none hparent']
        exact .cons hd .nil
      · exact absurd (hparent.symm.trans hp) (by simp)
  | case2 seen d p hparent hseen =>
      rcases rel_cases (h.parent? hd) with ⟨hp, -⟩ | ⟨q, p', hq, hparent', hrel⟩
      · exact absurd (hparent.symm.trans hp) (by simp)
      · obtain rfl := Option.some.inj (hparent.symm.trans hq)
        rw [lineageFrom_of_some hparent, lineageFrom_of_some hparent', ← (h.outline p p' hrel).id,
          if_pos hseen, if_pos hseen]
        exact .cons hd .nil
  | case3 seen d p hparent hnew ih =>
      rcases rel_cases (h.parent? hd) with ⟨hp, -⟩ | ⟨q, p', hq, hparent', hrel⟩
      · exact absurd (hparent.symm.trans hp) (by simp)
      · obtain rfl := Option.some.inj (hparent.symm.trans hq)
        rw [lineageFrom_of_some hparent, lineageFrom_of_some hparent', ← (h.outline p p' hrel).id,
          if_neg hnew, if_neg hnew]
        exact .cons hd (ih p' hrel)

/-- The chains of supertypes are related step by step, and as long as one another. -/
theorem lineage (h : g.Alike r g') {d d' : Declaration} (hd : r d d') :
    List.Forall₂ r (g.lineage d) (g'.lineage d') := by
  rw [Graph.lineage, Graph.lineage, ← (h.outline d d' hd).id]
  exact h.lineageFrom [d.id] d d' hd

/-- What the type of a property is declared as is alike on both sides. -/
theorem declared (h : g.Alike r g') (fromNamespace : String) (kind : PropertyKind) (ref : TypeRef) :
    Referent.Alike r (g.declared fromNamespace kind ref) (g'.declared fromNamespace kind ref) := by
  unfold Graph.declared
  rcases rel_cases (h.resolve fromNamespace ref) with ⟨hd, hd'⟩ | ⟨d, d', hd, hd', hrel⟩
  · rw [hd, hd']
    exact .unresolved ref.name
  · rw [hd, hd']
    dsimp only
    -- what is a scalar in the one graph is the same scalar in the other
    rcases Body.outline_cases (h.outline d d' hrel).body with
      ⟨_, _, _, _, _, hb, hb'⟩ | ⟨_, _, hb, hb'⟩ | ⟨p, _, hb, hb'⟩
    · rw [hb, hb']
      exact .declaration hrel
    · rw [hb, hb']
      exact .declaration hrel
    · rw [hb, hb']
      dsimp only
      split
      · exact .primitive p
      · exact .unresolved ref.name

/-- And so is what it comes to when a scalar has been replaced by its primitive. -/
theorem referent (h : g.Alike r g') (fromNamespace : String) (kind : PropertyKind) (ref : TypeRef) :
    Referent.Alike r (g.referent fromNamespace kind ref) (g'.referent fromNamespace kind ref) := by
  unfold Graph.referent
  split
  · split
    · exact .primitive _
    · exact h.declared fromNamespace kind ref
  · exact h.declared fromNamespace kind ref

end Graph.Alike

end

end ModelForge
