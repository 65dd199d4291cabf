/-
`Lineage.lean` -- supertypes, and the members that a declaration inherits.

The lineage of a declaration is the declaration itself, its supertype, the supertype of that, and
so on. It ends in front of a reference that refers to nothing and in front of an identity that is
in it already, so it is finite on cyclic models too. The members of a declaration are the
properties of its lineage, the farthest supertype first.
-/
import ModelForge.Model.Graph

set_option autoImplicit false

namespace ModelForge

/-- A property together with the declaration that lists it. The names in an inherited property are
meant in the namespace they were written in. -/
structure Member where
  declaredIn : Declaration
  property : Property
  deriving DecidableEq

namespace Declaration

/-- The properties that a declaration lists, as members. -/
def ownMembers (d : Declaration) : List Member := d.ownProperties.map fun p => ⟨d, p⟩

end Declaration

namespace Graph

/-- The declaration that the supertype reference of `d` refers to. -/
def parent? (g : Graph) (d : Declaration) : Option Declaration :=
  match d.superType? with
  | some r => g.resolve d.owner r
  | none => none

theorem mem_declarations_of_parent? {g : Graph} {d p : Declaration} (h : g.parent? d = some p) :
    p ∈ g.declarations := by
  unfold parent? at h
  split at h
  · exact mem_declarations_of_resolve h
  · exact absurd h (by simp)

/-- The lineage of `d`, cut in front of an identity in `seen`. -/
def lineageFrom (g : Graph) (seen : List DeclId) (d : Declaration) : List Declaration :=
  match _found : g.parent? d with
  | none => [d]
  | some p => if p.id ∈ seen then [d] else d :: g.lineageFrom (p.id :: seen) p
  termination_by g.unseen seen
  decreasing_by exact unseen_cons_lt (mem_declarations_of_parent? _found) ‹_›

theorem lineageFrom_of_none {g : Graph} {seen : List DeclId} {d : Declaration}
    (h : g.parent? d = none) : g.lineageFrom seen d = [d] := by
  rw [lineageFrom]
  split
  · rfl
  · rename_i found
    exact absurd (h.symm.trans found) (by simp)

theorem lineageFrom_of_some {g : Graph} {seen : List DeclId} {d p : Declaration}
    (h : g.parent? d = some p) :
    g.lineageFrom seen d = if p.id ∈ seen then [d] else d :: g.lineageFrom (p.id :: seen) p := by
  rw [lineageFrom]
  split
  · rename_i found
    exact absurd (h.symm.trans found) (by simp)
  · rename_i found
    rw [Option.some.inj (h.symm.trans found)]

/-- The lineage of `d`: itself, its supertype, and so on. -/
def lineage (g : Graph) (d : Declaration) : List Declaration := g.lineageFrom [d.id] d

/-- All members of `d`, inherited ones first. -/
def members (g : Graph) (d : Declaration) : List Member :=
  (g.lineage d).reverse.flatMap Declaration.ownMembers

end Graph

end ModelForge
