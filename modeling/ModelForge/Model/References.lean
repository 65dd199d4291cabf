/-
`References.lean` -- which classes a class refers to, and which classes lead back to themselves.

A record that contains itself, directly or through others, has no finite size unless a member on
the way is boxed. `isRecursive` and `leadsBack` answer by depth-first search. The search carries
the path it is on and the identities already shown not to lead to the origin; a node on either
list is not entered again. Each node that is entered goes onto the path, so the path can only grow
as long as there are declarations left, and this is why the search ends.
-/
import ModelForge.Model.Lineage

set_option autoImplicit false

namespace ModelForge

/-! ## What a member's type is -/

/-- What the type of a member refers to. -/
inductive Referent where
  | primitive (p : Primitive)
  /-- A class or an enum. -/
  | declaration (d : Declaration)
  /-- Nothing in the graph. -/
  | unresolved (name : String)
  deriving DecidableEq

namespace Referent

/-- The class that is referred to, if it is one. -/
def class? : Referent → Option Declaration
  | .declaration d => if d.isClass then some d else none
  | .primitive _ => none
  | .unresolved _ => none

end Referent

namespace Graph

/-- What a reference of a property of the given kind refers to among the declarations. A field sees
through a scalar to its primitive; to the other kinds a scalar is no type. -/
def declared (g : Graph) (fromNamespace : String) (kind : PropertyKind) (r : TypeRef) : Referent :=
  match g.resolve fromNamespace r with
  | none => .unresolved r.name
  | some d =>
      match d.body with
      | .scalar p _ => if kind = .field then .primitive p else .unresolved r.name
      | .record .. => .declaration d
      | .enumeration _ => .declaration d

/-- What a type reference of a property of the given kind, written in a namespace, refers to. A
field takes a primitive keyword at its word; a relationship means a declaration, whatever its
name. -/
def referent (g : Graph) (fromNamespace : String) (kind : PropertyKind) (r : TypeRef) : Referent :=
  if kind = .field then
    match r.primitive? with
    | some p => .primitive p
    | none => g.declared fromNamespace kind r
  else g.declared fromNamespace kind r

/-- What the type of a member refers to. -/
def memberReferent (g : Graph) (m : Member) : Referent :=
  g.referent m.declaredIn.owner m.property.kind m.property.typeRef

theorem mem_declarations_of_declared {g : Graph} {fromNamespace : String} {kind : PropertyKind}
    {r : TypeRef} {d : Declaration} (h : g.declared fromNamespace kind r = .declaration d) :
    d ∈ g.declarations := by
  unfold declared at h
  split at h
  · exact absurd h (by simp)
  · rename_i found
    split at h
    · split at h <;> exact absurd h (by simp)
    all_goals
      rw [Referent.declaration.injEq] at h
      exact mem_declarations_of_resolve (h ▸ found)

theorem mem_declarations_of_referent {g : Graph} {fromNamespace : String} {kind : PropertyKind}
    {r : TypeRef} {d : Declaration} (h : g.referent fromNamespace kind r = .declaration d) :
    d ∈ g.declarations := by
  unfold referent at h
  split at h
  · split at h
    · exact absurd h (by simp)
    · exact mem_declarations_of_declared h
  · exact mem_declarations_of_declared h

/-! ## References between classes -/

/-- A declaration that the graph holds. -/
abbrev Node (g : Graph) := { d : Declaration // d ∈ g.declarations }

/-- The class that a member refers to. -/
def memberClass? (g : Graph) (m : Member) : Option g.Node :=
  if m.property.kind = .enumValue then none
  else match h : g.memberReferent m with
    | .declaration d => if d.isClass then some ⟨d, mem_declarations_of_referent h⟩ else none
    | .primitive _ => none
    | .unresolved _ => none

/-- The classes that the members of `d` refer to, in the order of the members. -/
def classTargets (g : Graph) (d : Declaration) : List g.Node :=
  (g.members d).filterMap g.memberClass?

/-! ## The search -/

/-- Whether one of the nodes leads to `origin`, and the identities shown not to lead there. -/
def search (g : Graph) (origin : DeclId) (path : List DeclId) (explored : List DeclId) :
    List g.Node → Bool × List DeclId
  | [] => (false, explored)
  | node :: rest =>
      if node.1.id = origin then (true, explored)
      else if _seen : node.1.id ∈ path ∨ node.1.id ∈ explored then
        g.search origin path explored rest
      else
        match g.search origin (node.1.id :: path) explored (g.classTargets node.1) with
        | (true, explored) => (true, explored)
        | (false, explored) => g.search origin path (node.1.id :: explored) rest
  termination_by nodes => (g.unseen path, nodes.length)
  decreasing_by
    · exact Prod.Lex.right _ (Nat.lt_succ_self _)
    · exact Prod.Lex.left _ _ (unseen_cons_lt node.2 fun h => _seen (.inl h))
    · exact Prod.Lex.right _ (Nat.lt_succ_self _)

/-- Whether a class refers back to itself through one or more references. -/
def isRecursive (g : Graph) (d : Declaration) : Bool :=
  d.isClass && (g.search d.id [d.id] [] (g.classTargets d)).1

/-- Whether `start` leads to `origin` through any number of references, also none. -/
def leadsBack (g : Graph) (start origin : Declaration) : Bool :=
  decide (start.id = origin.id) || (g.search origin.id [start.id] [] (g.classTargets start)).1

end Graph

end ModelForge
