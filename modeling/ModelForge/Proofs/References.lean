/-
`References.lean` -- the reference graph of classes, as a relation.

`Graph.RefersTo` says that a member of one declaration, its own or an inherited one, has another
one for its class. It is what the search of `Model/References.lean` walks along
(`Graph.mem_classTargets`), but it says nothing about the order in which members are listed.

The second half makes this precise. Two graphs that differ only in the order of the properties of
their declarations (`Graph.Reordered`) have one outline, and so resolve every name alike
(`Graph.Alike`). What is left to compare are the members, and then the references are the same.
-/
import ModelForge.Proofs.Outlines

set_option autoImplicit false

namespace ModelForge

namespace Graph

/-! ## References -/

/-- A member of `a` has the class `b` for its type. The values of an enum refer to nothing. -/
def RefersTo (g : Graph) (a b : Declaration) : Prop :=
  ∃ m ∈ g.members a, m.property.kind ≠ .enumValue ∧ g.memberReferent m = .declaration b
    ∧ b.isClass = true

/-- A member holds a class if its type leads to one. An enum value has no type to follow. -/
theorem memberClass?_eq_some_iff {g : Graph} {m : Member} {node : g.Node} :
    g.memberClass? m = some node
      ↔ m.property.kind ≠ .enumValue ∧ g.memberReferent m = .declaration node.1
        ∧ node.1.isClass = true := by
  unfold memberClass?
  by_cases hkind : m.property.kind = .enumValue
  · simp [hkind]
  · rw [if_neg hkind]
    split
    · rename_i d hd
      by_cases hclass : d.isClass = true
      · rw [if_pos hclass, Option.some.injEq]
        constructor
        · rintro rfl
          exact ⟨hkind, hd, hclass⟩
        · rintro ⟨-, href, -⟩
          exact Subtype.ext (Referent.declaration.inj (hd.symm.trans href))
      · rw [if_neg hclass]
        constructor
        · intro h
          exact absurd h (by simp)
        · rintro ⟨-, href, h⟩
          rw [Referent.declaration.inj (hd.symm.trans href)] at hclass
          exact absurd h hclass
    · rename_i p hp
      simp [hp]
    · rename_i name hname
      simp [hname]

/-- The targets that the search enumerates are the declarations that are referred to. -/
theorem mem_classTargets {g : Graph} {d : Declaration} {node : g.Node} :
    node ∈ g.classTargets d ↔ g.RefersTo d node.1 := by
  simp only [classTargets, List.mem_filterMap, memberClass?_eq_some_iff, RefersTo]

/-- What something refers to is in the graph. -/
theorem RefersTo.mem_declarations {g : Graph} {a b : Declaration} (h : g.RefersTo a b) :
    b ∈ g.declarations := by
  obtain ⟨m, -, -, href, -⟩ := h
  exact mem_declarations_of_referent href

/-- What is referred to is the one that its identity stands for, also where an identity is taken
twice: a reference always means the first. -/
theorem RefersTo.declaration?_id {g : Graph} (hg : g.OwnersMatch) {a b : Declaration}
    (h : g.RefersTo a b) : g.declaration? b.id = some b := by
  obtain ⟨m, -, -, href, -⟩ := h
  exact declaration?_id_of_memberReferent hg href

/-- The classes that a declaration may contain are found under their identities. -/
theorem declaration?_id_of_mem_classTargets {g : Graph} (hg : g.OwnersMatch) (d : Declaration) :
    ∀ node ∈ g.classTargets d, g.declaration? node.1.id = some node.1 :=
  fun _ hnode => (mem_classTargets.1 hnode).declaration?_id hg

/-- A reference can be followed in another graph, where its member corresponds to one of the same
kind that means what corresponds. -/
theorem Alike.refersTo {r : Declaration → Declaration → Prop} {g g' : Graph} (h : g.Alike r g')
    {a a' b : Declaration}
    (hmembers : ∀ m ∈ g.members a, ∃ m' ∈ g'.members a', m'.property.kind = m.property.kind
      ∧ Referent.Alike r (g.memberReferent m) (g'.memberReferent m'))
    (hab : g.RefersTo a b) : ∃ b', g'.RefersTo a' b' ∧ r b b' := by
  obtain ⟨m, hm, hkind, href, hclass⟩ := hab
  obtain ⟨m', hm', hsame, hreferent⟩ := hmembers m hm
  rw [href] at hreferent
  obtain ⟨b', href', hb⟩ := hreferent.exists_declaration
  rw [(h.outline b b' hb).isClass] at hclass
  exact ⟨b', ⟨m', hm', hsame ▸ hkind, href', hclass⟩, hb⟩

end Graph

/-! ## Reordered graphs -/

/-- The same body but for the order of its properties. -/
inductive Body.Reordered : Body → Body → Prop
  | record (flavor : Flavor) (isAbstract : Bool) (superType : Option TypeRef)
      {properties properties' : List Property} (h : properties.Perm properties') :
      Reordered (.record flavor isAbstract superType properties)
        (.record flavor isAbstract superType properties')
  | enumeration {values values' : List Property} (h : values.Perm values') :
      Reordered (.enumeration values) (.enumeration values')
  | scalar (primitive : Primitive) (default : Option String) :
      Reordered (.scalar primitive default) (.scalar primitive default)

/-- The same declaration but for the order of its properties. -/
structure Declaration.Reordered (d d' : Declaration) : Prop where
  name : d.name = d'.name
  owner : d.owner = d'.owner
  body : d.body.Reordered d'.body

/-- The same namespace but for the order of the properties in each declaration. -/
structure Namespace.Reordered (ns ns' : Namespace) : Prop where
  name : ns.name = ns'.name
  imports : ns.imports = ns'.imports
  declarations : List.Forall₂ Declaration.Reordered ns.declarations ns'.declarations

/-- The same graph but for the order of the properties in each declaration. -/
def Graph.Reordered (g g' : Graph) : Prop :=
  List.Forall₂ Namespace.Reordered g.namespaces g'.namespaces

namespace Declaration.Reordered

variable {d d' : Declaration}

/-- A reordered declaration has the same outline. -/
theorem sameOutline (h : d.Reordered d') : d.SameOutline d' := by
  obtain ⟨_, _, _, body⟩ := d
  obtain ⟨_, _, _, body'⟩ := d'
  refine ⟨h.name, h.owner, ?_⟩
  cases h.body <;> rfl

/-- It has the same properties in another order. -/
theorem ownProperties (h : d.Reordered d') : d.ownProperties.Perm d'.ownProperties := by
  obtain ⟨_, _, _, body⟩ := d
  obtain ⟨_, _, _, body'⟩ := d'
  cases h.body with
  | record _ _ _ hperm => exact hperm
  | enumeration hperm => exact hperm
  | scalar => exact List.Perm.refl _

theorem symm (h : d.Reordered d') : d'.Reordered d := by
  obtain ⟨_, _, _, body⟩ := d
  obtain ⟨_, _, _, body'⟩ := d'
  refine ⟨h.name.symm, h.owner.symm, ?_⟩
  cases h.body with
  | record flavor isAbstract superType hperm => exact .record flavor isAbstract superType hperm.symm
  | enumeration hperm => exact .enumeration hperm.symm
  | scalar primitive default => exact .scalar primitive default

end Declaration.Reordered

namespace Namespace.Reordered

variable {ns ns' : Namespace}

theorem symm (h : ns.Reordered ns') : ns'.Reordered ns where
  name := h.name.symm
  imports := h.imports.symm
  declarations := h.declarations.flip.imp fun _ _ h => Declaration.Reordered.symm h

end Namespace.Reordered

/-! ## What reordering does not change -/

namespace Graph.Reordered

variable {g g' : Graph}

theorem symm (h : g.Reordered g') : g'.Reordered g :=
  (List.Forall₂.flip h).imp fun _ _ h => Namespace.Reordered.symm h

/-- **A reordered graph is alike** in all that resolution looks at. -/
theorem alike (h : g.Reordered g') : g.Alike Declaration.Reordered g' where
  outline _ _ hd := hd.sameOutline
  namespaces := h.imp fun _ _ hns => ⟨hns.name, hns.imports, hns.declarations⟩

/-- A member keeps its property, and its place in a declaration that is the same but for the
order. -/
theorem exists_mem_members (h : g.Reordered g') {d d' : Declaration} (hd : d.Reordered d')
    {m : Member} (hm : m ∈ g.members d) :
    ∃ m' ∈ g'.members d', m'.property = m.property ∧ m.declaredIn.Reordered m'.declaredIn := by
  obtain ⟨owner, howner, hm⟩ := List.mem_flatMap.1 hm
  obtain ⟨p, hp, rfl⟩ := List.mem_map.1 hm
  obtain ⟨owner', howner', hrel⟩ :=
    exists_mem_of_forall₂ (h.alike.lineage hd) (List.mem_reverse.1 howner)
  -- the property is listed there too, if at another place
  refine ⟨⟨owner', p⟩, ?_, rfl, hrel⟩
  exact List.mem_flatMap.2 ⟨owner', List.mem_reverse.2 howner',
    List.mem_map.2 ⟨p, hrel.ownProperties.mem_iff.1 hp, rfl⟩⟩

/-- What refers to something still refers to it in another order. -/
theorem refersTo (h : g.Reordered g') {a a' b : Declaration} (ha : a.Reordered a')
    (hab : g.RefersTo a b) : ∃ b', g'.RefersTo a' b' ∧ b.Reordered b' := by
  refine h.alike.refersTo (fun m hm => ?_) hab
  obtain ⟨m', hm', hproperty, hdeclared⟩ := h.exists_mem_members ha hm
  refine ⟨m', hm', by rw [hproperty], ?_⟩
  rw [memberReferent, memberReferent, hproperty, ← hdeclared.owner]
  exact h.alike.referent _ _ _

end Graph.Reordered

end ModelForge
