/-
`InheritedMembers.lean` -- what a declaration inherits, and in which order.

There is one chain of supertypes that fits the description of a lineage, the one that the walk
yields (`Graph.IsLineage.eq_lineage`). So a chain is shown to be a lineage by its description, and
no walk is followed again: a declaration in front of the lineage of its supertype is one
(`Graph.IsLineage.cons`), which is why a subtype's members go on where those of its supertype end.
On a cyclic model the description says that the walk turns back only to an identity that it has
seen. Where identities are not shared, nothing that can be reached is left out then.
-/
import Mathlib.Data.List.Nodup
import Mathlib.Data.List.Perm.Subperm
import Mathlib.Logic.Relation
import ModelForge.Proofs.Lineages

set_option autoImplicit false

namespace ModelForge.Graph

variable {g : Graph} {d : Declaration} {chain : List Declaration}

/-! ## There is one lineage -/

/-- What the walk yields is what its description says. -/
theorem lineageFrom_eq {seen : List DeclId} {supers : List Declaration}
    (hparents : (d :: supers).IsChain fun child parent => g.parent? child = some parent)
    (hdistinct : (supers.map Declaration.id).Nodup) (hfresh : ∀ e ∈ supers, e.id ∉ seen)
    (hends : ∀ last parent, (d :: supers).getLast? = some last → g.parent? last = some parent →
      parent.id ∈ seen ∨ parent.id ∈ supers.map Declaration.id) :
    g.lineageFrom seen d = d :: supers := by
  induction supers generalizing seen d with
  | nil =>
      cases hparent : g.parent? d with
      | none => exact lineageFrom_of_none hparent
      | some p =>
          have hseen := (hends d p rfl hparent).resolve_right List.not_mem_nil
          rw [lineageFrom_of_some hparent, if_pos hseen]
  | cons p rest ih =>
      rw [List.isChain_cons_cons] at hparents
      obtain ⟨hparent, hrest⟩ := hparents
      rw [List.map_cons, List.nodup_cons] at hdistinct
      obtain ⟨hp, hdistinct⟩ := hdistinct
      rw [List.forall_mem_cons] at hfresh
      obtain ⟨hnew, hfresh⟩ := hfresh
      rw [lineageFrom_of_some hparent, if_neg hnew]
      refine congrArg _ (ih hrest hdistinct (fun e he => ?_) fun last parent hlast hnext => ?_)
      · rw [List.mem_cons, not_or]
        exact ⟨fun hid => hp (hid ▸ List.mem_map_of_mem he), hfresh e he⟩
      · have hmem := hends last parent (List.getLast?_cons_cons.trans hlast) hnext
        rw [List.map_cons, List.mem_cons] at hmem
        rwa [List.mem_cons, or_comm (a := parent.id = p.id), or_assoc]

/-! ## What is known of a lineage -/

/-- No two declarations share an identity, `d` among them. -/
def IdentitiesUnshared (g : Graph) (d : Declaration) : Prop :=
  ∀ e ∈ d :: g.declarations, ∀ other ∈ d :: g.declarations, e.id = other.id → e = other

namespace IsLineage

/-- A declaration has one lineage. -/
theorem eq_lineage (h : g.IsLineage d chain) : chain = g.lineage d := by
  obtain ⟨hhead, hparents, hdistinct, hends⟩ := h
  cases chain with
  | nil => exact absurd hhead (by simp)
  | cons first supers =>
      obtain rfl : first = d := Option.some.inj hhead
      rw [List.map_cons, List.nodup_cons] at hdistinct
      have hfresh : ∀ e ∈ supers, e.id ∉ [first.id] := by
        intro e he hid
        exact hdistinct.1 (List.mem_singleton.1 hid ▸ List.mem_map_of_mem he)
      refine (lineageFrom_eq hparents hdistinct.2 hfresh fun last parent hlast hnext => ?_).symm
      exact (List.mem_cons.1 (hends last parent hlast hnext)).imp_left List.mem_singleton.2

/-- In front of the lineage of its supertype a declaration makes a lineage, unless it is in there
already. -/
theorem cons {p : Declaration} (h : g.IsLineage p chain) (hparent : g.parent? d = some p)
    (hnew : d.id ∉ chain.map Declaration.id) : g.IsLineage d (d :: chain) := by
  obtain ⟨hhead, hparents, hdistinct, hends⟩ := h
  have hne : chain ≠ [] := by
    rintro rfl
    exact absurd hhead (by simp)
  refine ⟨rfl, List.isChain_cons.2 ⟨fun next hnext => ?_, hparents⟩,
    List.nodup_cons.2 ⟨hnew, hdistinct⟩, fun last parent hlast hnext => ?_⟩
  · rw [hhead, Option.mem_some_iff] at hnext
    rw [hparent, hnext]
  · rw [List.getLast?_cons_of_ne_nil hne] at hlast
    exact List.mem_cons_of_mem _ (hends last parent hlast hnext)

/-- The supertypes in a lineage are declarations of the graph. -/
theorem subset (h : g.IsLineage d chain) : chain ⊆ d :: g.declarations := by
  refine h.parents.induction _ _ (fun child parent hparent _ => ?_) fun hne => ?_
  · exact List.mem_cons_of_mem _ (mem_declarations_of_parent? hparent)
  · rw [(List.head_eq_iff_head?_eq_some hne).2 h.head]
    exact List.mem_cons_self

/-- The identity of a supertype is in the lineage with the declaration that it is the supertype
of. -/
theorem id_mem_of_parent? (h : g.IsLineage d chain) {e p : Declaration} (he : e ∈ chain)
    (hparent : g.parent? e = some p) : p.id ∈ chain.map Declaration.id := by
  obtain ⟨before, behind, rfl⟩ := List.append_of_mem he
  cases behind with
  | nil => exact h.ends e p List.getLast?_concat hparent
  | cons next behind =>
      have hnext := (List.isChain_append_cons_cons.1 h.parents).2.1
      obtain rfl : next = p := Option.some.inj (hnext.symm.trans hparent)
      exact List.mem_map_of_mem
        (List.mem_append_right _ (List.mem_cons_of_mem _ List.mem_cons_self))

/-- Where identities are not shared, a lineage holds everything that can be reached. -/
theorem mem_of_reached (h : g.IsLineage d chain) (hunshared : g.IdentitiesUnshared d)
    {e : Declaration}
    (hreached : Relation.ReflTransGen (fun child parent => g.parent? child = some parent) d e) :
    e ∈ chain := by
  induction hreached with
  | refl => exact List.mem_of_head? h.head
  | @tail e parent _ hparent he =>
      -- the identity of the supertype is in the lineage, and only the supertype has it
      obtain ⟨other, hother, hid⟩ := List.mem_map.1 (h.id_mem_of_parent? he hparent)
      have hsuper := List.mem_cons_of_mem d (mem_declarations_of_parent? hparent)
      rwa [← hunshared other (h.subset hother) parent hsuper hid]

end IsLineage

/-! ## What is inherited -/

/-- The members of `d`, told by its chain of supertypes. -/
structure InheritsAlong (g : Graph) (d : Declaration) (chain : List Declaration) : Prop where
  /-- The chain begins with `d`. It goes from a declaration to its supertype, which its reference
  refers to in its own namespace, and ends where there is none or where an identity would come
  twice. -/
  lineage : g.IsLineage d chain
  /-- There is no other chain like this. -/
  only : ∀ other, g.IsLineage d other → other = chain
  /-- It is no longer than there are declarations. -/
  bounded : chain.length ≤ g.declarations.length + 1
  /-- The members are the properties of the chain, each with the declaration that lists it, the
  farthest supertype first. -/
  members_eq : g.members d = chain.reverse.flatMap fun e => e.ownProperties.map (Member.mk e)
  /-- The members of a supertype come first and in its order, unless its chain leads back to `d`. -/
  inherited : ∀ p, g.parent? d = some p → d.id ∉ (g.lineage p).map Declaration.id →
    g.members d = g.members p ++ d.ownMembers
  /-- On a cycle the chain ends and leaves nothing out: what can be reached from `d` is in it
  once. -/
  visits_once : g.IdentitiesUnshared d →
    ∀ e, Relation.ReflTransGen (fun child parent => g.parent? child = some parent) d e →
      chain.count e = 1

/-- **The members of a declaration are those of its supertypes and its own**, in this order, on
every graph. -/
theorem members_follow_supertypes (g : Graph) (d : Declaration) :
    g.InheritsAlong d (g.lineage d) := by
  have hlineage := g.isLineage_lineage d
  have hnodup : (g.lineage d).Nodup := List.Nodup.of_map _ hlineage.distinct
  refine ⟨hlineage, fun other => IsLineage.eq_lineage, ?_, rfl, fun p hparent hnew => ?_,
    fun hunshared e hreached => ?_⟩
  · exact (List.subperm_of_subset hnodup hlineage.subset).length_le
  · have hcons : d :: g.lineage p = g.lineage d :=
      ((g.isLineage_lineage p).cons hparent hnew).eq_lineage
    rw [members, ← hcons, List.reverse_cons, List.flatMap_append, List.flatMap_singleton, members]
  · exact List.count_eq_one_of_mem hnodup (hlineage.mem_of_reached hunshared hreached)

end ModelForge.Graph
