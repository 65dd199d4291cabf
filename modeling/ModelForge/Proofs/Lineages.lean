/-
`Lineages.lean` -- what the lineage of a declaration is.

The lineage is computed by a walk that remembers the identities it has seen. Here it is described
without the walk (`Graph.IsLineage`): it begins with the declaration, each declaration in it has
the next one as its supertype, no identity comes twice, and it goes on for as long as this allows.
-/
import Mathlib.Data.List.Chain
import ModelForge.Model.Lineage

set_option autoImplicit false

namespace ModelForge.Graph

/-- The chain of a declaration and its supertypes. -/
structure IsLineage (g : Graph) (d : Declaration) (chain : List Declaration) : Prop where
  head : chain.head? = some d
  parents : chain.IsChain fun child parent => g.parent? child = some parent
  distinct : (chain.map Declaration.id).Nodup
  /-- The last supertype is missing, or its identity is in the chain already. -/
  ends : ∀ last parent, chain.getLast? = some last → g.parent? last = some parent →
    parent.id ∈ chain.map Declaration.id

/-- What the walk yields behind the identities in `seen`. -/
theorem exists_tail_lineageFrom (g : Graph) (seen : List DeclId) (d : Declaration) :
    ∃ supers, g.lineageFrom seen d = d :: supers
      ∧ (d :: supers).IsChain (fun child parent => g.parent? child = some parent)
      ∧ (supers.map Declaration.id).Nodup
      ∧ (∀ e ∈ supers, e.id ∉ seen)
      ∧ ∀ last parent, (d :: supers).getLast? = some last → g.parent? last = some parent →
        parent.id ∈ seen ∨ parent.id ∈ supers.map Declaration.id := by
  induction seen, d using Graph.lineageFrom.induct g with
  | case1 seen d hparent =>
      refine ⟨[], lineageFrom_of_none hparent, .singleton d, List.nodup_nil, by simp, ?_⟩
      intro last parent hlast hnext
      rw [List.getLast?_singleton, Option.some.injEq] at hlast
      rw [← hlast, hparent] at hnext
      exact absurd hnext (by simp)
  | case2 seen d p hparent hseen =>
      refine ⟨[], by rw [lineageFrom_of_some hparent, if_pos hseen], .singleton d, List.nodup_nil,
        by simp, ?_⟩
      intro last parent hlast hnext
      rw [List.getLast?_singleton, Option.some.injEq] at hlast
      rw [← hlast, hparent, Option.some.injEq] at hnext
      exact .inl (hnext ▸ hseen)
  | case3 seen d p hparent hnew ih =>
      obtain ⟨supers, hwalk, hchain, hnodup, hfresh, hends⟩ := ih
      have hp : p.id ∉ supers.map Declaration.id := by
        intro hmem
        obtain ⟨e, he, hid⟩ := List.mem_map.1 hmem
        exact hfresh e he (hid ▸ List.mem_cons_self)
      refine ⟨p :: supers, by rw [lineageFrom_of_some hparent, if_neg hnew, hwalk],
        .cons_cons hparent hchain, List.nodup_cons.2 ⟨hp, hnodup⟩, ?_, ?_⟩
      · rw [List.forall_mem_cons]
        exact ⟨hnew, fun e he hseen => hfresh e he (List.mem_cons_of_mem _ hseen)⟩
      · intro last parent hlast hnext
        rw [List.getLast?_cons_cons] at hlast
        -- an identity that the walk has seen was there before, or is the one of `p`
        rcases hends last parent hlast hnext with hseen | hsupers
        · rcases List.mem_cons.1 hseen with hid | hseen
          · exact .inr (hid ▸ List.mem_cons_self)
          · exact .inl hseen
        · exact .inr (List.mem_cons_of_mem _ hsupers)

/-- **The lineage is the chain of supertypes**, as far as it goes without a repetition. -/
theorem isLineage_lineage (g : Graph) (d : Declaration) : g.IsLineage d (g.lineage d) := by
  obtain ⟨supers, hwalk, hchain, hnodup, hfresh, hends⟩ := g.exists_tail_lineageFrom [d.id] d
  have hd : d.id ∉ supers.map Declaration.id := by
    intro hmem
    obtain ⟨e, he, hid⟩ := List.mem_map.1 hmem
    exact hfresh e he (hid ▸ List.mem_cons_self)
  rw [lineage, hwalk]
  refine ⟨rfl, hchain, List.nodup_cons.2 ⟨hd, hnodup⟩, fun last parent hlast hnext => ?_⟩
  rcases hends last parent hlast hnext with hseen | hsupers
  · exact (List.mem_singleton.1 hseen) ▸ List.mem_cons_self
  · exact List.mem_cons_of_mem _ hsupers

/-- The properties of the members are those of the lineage, the farthest supertype first. -/
theorem map_property_members (g : Graph) (d : Declaration) :
    (g.members d).map Member.property
      = (g.lineage d).reverse.flatMap Declaration.ownProperties := by
  have hown : ∀ e : Declaration, e.ownMembers.map Member.property = e.ownProperties := by
    intro e
    rw [Declaration.ownMembers, List.map_map]
    exact List.map_id _
  rw [members, List.map_flatMap]
  simp only [hown]

end ModelForge.Graph
