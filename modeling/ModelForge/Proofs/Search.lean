/-
`Search.lean` -- the pruned depth-first search decides reachability.

The search of `Model/References.lean` cuts a branch at every identity that is on its path or has
been left without success. An identity is left even when its own search was cut short by the path,
so "was left" does not mean "does not lead to the origin". What it does mean is `Graph.Settled`:
whatever an identity on the list refers to is on the list or on the path. When the search is back
at its start the path is down to the start itself, the list is closed under references but for the
start, and nothing on it is the origin.

A start is put onto the path by its identity. So the search cannot come back through another
declaration of that identity, and where one is hidden behind an earlier one of the same name the
answer is about paths that do not come back. For a declaration that its own identity stands for
there is no difference, since a path that comes back can be cut short.
-/
import Mathlib
import ModelForge.Proofs.References

set_option autoImplicit false

namespace ModelForge

open Relation (ReflTransGen TransGen)

namespace Graph

/-! ## Paths -/

/-- A path along references from a declaration to one of identity `origin`. Identities in `avoid`
may only stand at its end. -/
inductive Leads (g : Graph) (avoid : List DeclId) (origin : DeclId) : Declaration → Prop
  | arrive {d : Declaration} (hd : d.id = origin) : Leads g avoid origin d
  | step {d next : Declaration} (hd : d.id ∉ avoid) (href : g.RefersTo d next)
      (hnext : Leads g avoid origin next) : Leads g avoid origin d

/-- With less to avoid, a path is still a path. -/
theorem Leads.mono {g : Graph} {avoid avoid' : List DeclId} {origin : DeclId} {d : Declaration}
    (hsubset : avoid' ⊆ avoid) (h : g.Leads avoid origin d) : g.Leads avoid' origin d := by
  induction h with
  | arrive hd => exact .arrive hd
  | step hd href _ ih => exact .step (fun hmem => hd (hsubset hmem)) href ih

/-- With nothing to avoid, a path is a chain of references. -/
theorem leads_nil_iff {g : Graph} {origin : DeclId} {d : Declaration} :
    g.Leads [] origin d ↔ ∃ x, ReflTransGen g.RefersTo d x ∧ x.id = origin := by
  constructor
  · intro h
    induction h with
    | arrive hd => exact ⟨_, .refl, hd⟩
    | step _ href _ ih =>
        obtain ⟨x, hx, horigin⟩ := ih
        exact ⟨x, hx.head href, horigin⟩
  · rintro ⟨x, hx, horigin⟩
    induction hx using ReflTransGen.head_induction_on with
    | refl => exact .arrive horigin
    | head href _ ih => exact .step List.not_mem_nil href ih

/-- The origin itself need not be avoided, for a path ends there. -/
theorem leads_singleton_self_iff {g : Graph} {origin : DeclId} {d : Declaration} :
    g.Leads [origin] origin d ↔ g.Leads [] origin d := by
  refine ⟨Leads.mono (List.nil_subset _), fun h => ?_⟩
  induction h with
  | arrive hd => exact .arrive hd
  | @step d next _ href _ ih =>
      by_cases hd : d.id = origin
      · exact .arrive hd
      · exact .step (fun hmem => hd (List.mem_singleton.1 hmem)) href ih

/-- **A path that comes back can be cut short.** A path from where `start` leads goes on without
`start`, or some path from `start` does. -/
theorem Leads.avoiding_start {g : Graph} (hg : g.OwnersMatch) {start : Declaration}
    (hstart : g.declaration? start.id = some start) {origin : DeclId} {d : Declaration}
    (hd : g.declaration? d.id = some d) (h : g.Leads [] origin d) :
    g.Leads [start.id] origin d
      ∨ ∃ next, g.RefersTo start next ∧ g.Leads [start.id] origin next := by
  induction h with
  | arrive horigin => exact .inl (.arrive horigin)
  | @step d next _ href _ ih =>
      rcases ih (href.declaration?_id hg) with hnext | hback
      -- a path that comes by the start again may begin there
      · by_cases hsame : d.id = start.id
        · rw [hsame] at hd
          obtain rfl := Option.some.inj (hstart.symm.trans hd)
          exact .inr ⟨next, href, hnext⟩
        · exact .inl (.step (fun hmem => hsame (List.mem_singleton.1 hmem)) href hnext)
      · exact .inr hback

/-! ## What is found is there -/

/-- What the search finds has a path to it. -/
theorem leads_of_search {g : Graph} {origin : DeclId} {path explored : List DeclId}
    {nodes : List g.Node} (h : (g.search origin path explored nodes).1 = true) :
    ∃ node ∈ nodes, g.Leads path origin node.1 := by
  fun_induction Graph.search g origin path explored nodes with
  | case1 path explored => exact absurd h (by simp)
  | case2 path explored node rest horigin => exact ⟨node, List.mem_cons_self, .arrive horigin⟩
  | case3 path explored node rest horigin hseen ih =>
      obtain ⟨other, hmem, hleads⟩ := ih h
      exact ⟨other, List.mem_cons_of_mem _ hmem, hleads⟩
  | case4 path explored node rest horigin hseen explored' hfound ih =>
      -- below `node` the path avoids `node` as well, which is more than is asked for
      obtain ⟨next, hnext, hleads⟩ := ih (by rw [hfound])
      have hnode : node.1.id ∉ path := fun hmem => hseen (.inl hmem)
      exact ⟨node, List.mem_cons_self, .step hnode (mem_classTargets.1 hnext)
        (hleads.mono (List.subset_cons_self _ _))⟩
  | case5 path explored node rest horigin hseen explored' hfound ih₁ ih₂ =>
      obtain ⟨other, hmem, hleads⟩ := ih₂ h
      exact ⟨other, List.mem_cons_of_mem _ hmem, hleads⟩

/-! ## What is there is found -/

/-- What the identities in `explored` refer to is not the origin, and is in `explored` itself or
still on the path. -/
def Settled (g : Graph) (origin : DeclId) (path explored : List DeclId) : Prop :=
  ∀ d, g.declaration? d.id = some d → d.id ∈ explored →
    ∀ next, g.RefersTo d next → next.id ≠ origin ∧ (next.id ∈ explored ∨ next.id ∈ path)

theorem settled_nil (g : Graph) (origin : DeclId) (path : List DeclId) :
    g.Settled origin path [] :=
  fun _ _ hmem => absurd hmem List.not_mem_nil

/-- A longer path settles no less. -/
theorem Settled.cons_path {g : Graph} {origin : DeclId} {path explored : List DeclId}
    (h : g.Settled origin path explored) (id : DeclId) : g.Settled origin (id :: path) explored :=
  fun d hd hmem next href =>
    ⟨(h d hd hmem next href).1, (h d hd hmem next href).2.imp_right (List.mem_cons_of_mem _)⟩

/-- An identity that is left moves from the path to the list, once all it refers to is settled. -/
theorem Settled.leave {g : Graph} {origin : DeclId} {path explored : List DeclId}
    {node : Declaration} (hnode : g.declaration? node.id = some node)
    (h : g.Settled origin (node.id :: path) explored)
    (htargets : ∀ next, g.RefersTo node next →
      next.id ≠ origin ∧ (next.id ∈ explored ∨ next.id ∈ node.id :: path)) :
    g.Settled origin path (node.id :: explored) := by
  have hmove {id : DeclId} (hid : id ∈ explored ∨ id ∈ node.id :: path) :
      id ∈ node.id :: explored ∨ id ∈ path := by
    rcases hid with hid | hid
    · exact .inl (List.mem_cons_of_mem _ hid)
    · rcases List.mem_cons.1 hid with rfl | hid
      · exact .inl List.mem_cons_self
      · exact .inr hid
  intro d hd hmem next href
  rcases List.mem_cons.1 hmem with hsame | hmem
  · rw [hsame] at hd
    obtain rfl := Option.some.inj (hnode.symm.trans hd)
    exact ⟨(htargets next href).1, hmove (htargets next href).2⟩
  · exact ⟨(h d hd hmem next href).1, hmove (h d hd hmem next href).2⟩

/-- **What a search without success leaves behind.** The list is settled, has only grown, and with
the path covers every node that was looked at; none of them is the origin. -/
theorem settled_of_search {g : Graph} (hg : g.OwnersMatch) {origin : DeclId}
    {path explored explored' : List DeclId} {nodes : List g.Node}
    (hnodes : ∀ node ∈ nodes, g.declaration? node.1.id = some node.1)
    (hsettled : g.Settled origin path explored)
    (h : g.search origin path explored nodes = (false, explored')) :
    g.Settled origin path explored' ∧ explored ⊆ explored'
      ∧ ∀ node ∈ nodes, node.1.id ≠ origin ∧ (node.1.id ∈ explored' ∨ node.1.id ∈ path) := by
  fun_induction Graph.search g origin path explored nodes generalizing explored' with
  | case1 path explored =>
      obtain rfl := (Prod.mk.inj h).2
      exact ⟨hsettled, List.Subset.refl _, fun _ hmem => absurd hmem List.not_mem_nil⟩
  | case2 path explored node rest horigin => exact absurd h (by simp)
  | case3 path explored node rest horigin hseen ih =>
      obtain ⟨hsettled', hgrown, hrest⟩ :=
        ih (fun other hmem => hnodes other (List.mem_cons_of_mem _ hmem)) hsettled h
      refine ⟨hsettled', hgrown, fun other hmem => ?_⟩
      rcases List.mem_cons.1 hmem with rfl | hmem
      · exact ⟨horigin, hseen.symm.imp_left fun hmem => hgrown hmem⟩
      · exact hrest other hmem
  | case4 path explored node rest horigin hseen found hfound ih => exact absurd h (by simp)
  | case5 path explored node rest horigin hseen left hfound ih₁ ih₂ =>
      -- first the branch below `node`, which runs with `node` on the path
      obtain ⟨hbelow, hgrown₁, htargets⟩ :=
        ih₁ (declaration?_id_of_mem_classTargets hg node.1) (hsettled.cons_path node.1.id) hfound
      have hleft : g.Settled origin path (node.1.id :: left) :=
        hbelow.leave (hnodes node List.mem_cons_self) fun next href =>
          htargets ⟨next, href.mem_declarations⟩ (mem_classTargets.2 href)
      -- then the nodes after it, which find `node` on the list
      obtain ⟨hsettled', hgrown₂, hrest⟩ :=
        ih₂ (fun other hmem => hnodes other (List.mem_cons_of_mem _ hmem)) hleft h
      refine ⟨hsettled', fun id hid => hgrown₂ (List.mem_cons_of_mem _ (hgrown₁ hid)),
        fun other hmem => ?_⟩
      rcases List.mem_cons.1 hmem with rfl | hmem
      · exact ⟨horigin, .inl (hgrown₂ List.mem_cons_self)⟩
      · exact hrest other hmem

/-- From a settled list no path leads to the origin, unless it runs over the search's own path. -/
theorem Settled.not_leads {g : Graph} (hg : g.OwnersMatch) {origin : DeclId}
    {path explored : List DeclId} (hsettled : g.Settled origin path explored) {d : Declaration}
    (hd : g.declaration? d.id = some d) (hne : d.id ≠ origin)
    (hmem : d.id ∈ explored ∨ d.id ∈ path) : ¬ g.Leads path origin d := by
  intro h
  induction h with
  | arrive horigin => exact hne horigin
  | @step d next hpath href _ ih =>
      have hexplored : d.id ∈ explored := hmem.resolve_right hpath
      obtain ⟨hne', hmem'⟩ := hsettled d hd hexplored next href
      exact ih (href.declaration?_id hg) hne' hmem'

/-- **The search is exact**, about paths that do not run over the path it starts with. -/
theorem search_eq_true_iff {g : Graph} (hg : g.OwnersMatch) {origin : DeclId} {path : List DeclId}
    {nodes : List g.Node} (hnodes : ∀ node ∈ nodes, g.declaration? node.1.id = some node.1) :
    (g.search origin path [] nodes).1 = true ↔ ∃ node ∈ nodes, g.Leads path origin node.1 := by
  refine ⟨leads_of_search, ?_⟩
  rintro ⟨node, hmem, hleads⟩
  by_contra hfalse
  obtain ⟨hsettled, -, hall⟩ :=
    settled_of_search hg hnodes (g.settled_nil origin path)
      (Prod.ext (eq_false_of_ne_true hfalse) rfl)
  exact hsettled.not_leads hg (hnodes node hmem) (hall node hmem).1 (hall node hmem).2 hleads

/-! ## The two questions -/

/-- A class is recursive if something that it refers to leads back to it, not through itself. -/
theorem isRecursive_iff_leads {g : Graph} (hg : g.OwnersMatch) (d : Declaration) :
    g.isRecursive d = true
      ↔ d.isClass = true ∧ ∃ next, g.RefersTo d next ∧ g.Leads [d.id] d.id next := by
  rw [isRecursive, Bool.and_eq_true,
    search_eq_true_iff hg (declaration?_id_of_mem_classTargets hg d)]
  refine and_congr_right fun _ => ⟨?_, ?_⟩
  · rintro ⟨node, hnode, hleads⟩
    exact ⟨node.1, mem_classTargets.1 hnode, hleads⟩
  · rintro ⟨next, href, hleads⟩
    exact ⟨⟨next, href.mem_declarations⟩, mem_classTargets.2 href, hleads⟩

/-- A declaration leads back to another if it is that one, or if something that it refers to leads
there. -/
theorem leadsBack_iff_leads {g : Graph} (hg : g.OwnersMatch) (start origin : Declaration) :
    g.leadsBack start origin = true
      ↔ start.id = origin.id
        ∨ ∃ next, g.RefersTo start next ∧ g.Leads [start.id] origin.id next := by
  rw [leadsBack, Bool.or_eq_true, decide_eq_true_eq,
    search_eq_true_iff hg (declaration?_id_of_mem_classTargets hg start)]
  refine or_congr_right ⟨?_, ?_⟩
  · rintro ⟨node, hnode, hleads⟩
    exact ⟨node.1, mem_classTargets.1 hnode, hleads⟩
  · rintro ⟨next, href, hleads⟩
    exact ⟨⟨next, href.mem_declarations⟩, mem_classTargets.2 href, hleads⟩

/-- A class is recursive when one reference or more lead from it to its own identity. -/
theorem isRecursive_iff {g : Graph} (hg : g.OwnersMatch) (d : Declaration) :
    g.isRecursive d = true
      ↔ d.isClass = true ∧ ∃ x, TransGen g.RefersTo d x ∧ x.id = d.id := by
  rw [isRecursive_iff_leads hg]
  refine and_congr_right fun _ => ⟨?_, ?_⟩
  · rintro ⟨next, href, hleads⟩
    obtain ⟨x, hx, hid⟩ := leads_nil_iff.1 (leads_singleton_self_iff.1 hleads)
    exact ⟨x, .head' href hx, hid⟩
  · rintro ⟨x, hx, hid⟩
    obtain ⟨next, href, hx⟩ := TransGen.head'_iff.1 hx
    exact ⟨next, href, leads_singleton_self_iff.2 (leads_nil_iff.2 ⟨x, hx, hid⟩)⟩

/-- A reference to another identity than the given one. -/
def RefersAwayFrom (g : Graph) (id : DeclId) (a b : Declaration) : Prop :=
  g.RefersTo a b ∧ b.id ≠ id

/-- Any declaration leads back where a path does that never returns to its start. -/
theorem leadsBack_iff_away {g : Graph} (hg : g.OwnersMatch) (start origin : Declaration) :
    g.leadsBack start origin = true
      ↔ ∃ x, ReflTransGen (g.RefersAwayFrom start.id) start x ∧ x.id = origin.id := by
  rw [leadsBack_iff_leads hg]
  by_cases hsame : start.id = origin.id
  · exact ⟨fun _ => ⟨start, .refl, hsame⟩, fun _ => .inl hsame⟩
  rw [or_iff_right hsame]
  constructor
  · rintro ⟨next, href, hleads⟩
    have hpath : next.id ≠ start.id
        ∧ ∃ x, ReflTransGen (g.RefersAwayFrom start.id) next x ∧ x.id = origin.id := by
      clear href
      induction hleads with
      | @arrive d hd => exact ⟨fun h => hsame (h.symm.trans hd), d, .refl, hd⟩
      | @step d next hd href _ ih =>
          obtain ⟨hne, x, hx, horigin⟩ := ih
          exact ⟨fun h => hd (List.mem_singleton.2 h), x, hx.head ⟨href, hne⟩, horigin⟩
    obtain ⟨hne, x, hx, horigin⟩ := hpath
    exact ⟨x, hx.head ⟨href, hne⟩, horigin⟩
  · rintro ⟨x, hx, horigin⟩
    rcases ReflTransGen.cases_head hx with rfl | ⟨next, hnext, hx⟩
    · exact absurd horigin hsame
    obtain ⟨href, hne⟩ := hnext
    refine ⟨next, href, ?_⟩
    clear href
    induction hx using ReflTransGen.head_induction_on with
    | refl => exact .arrive horigin
    | head hstep _ ih =>
        exact .step (fun hmem => hne (List.mem_singleton.1 hmem)) hstep.1 (ih hstep.2)

/-- A declaration that its own identity stands for leads back where any path does. -/
theorem leadsBack_iff {g : Graph} (hg : g.OwnersMatch) {start : Declaration}
    (hstart : g.declaration? start.id = some start) (origin : Declaration) :
    g.leadsBack start origin = true
      ↔ ∃ x, ReflTransGen g.RefersTo start x ∧ x.id = origin.id := by
  rw [leadsBack_iff_leads hg, ← leads_nil_iff]
  constructor
  · rintro (hsame | ⟨next, href, hleads⟩)
    · exact .arrive hsame
    · exact .step List.not_mem_nil href (hleads.mono (List.nil_subset _))
  · intro hleads
    -- the search starts with the start on its path, so a path that comes back is cut first
    rcases hleads.avoiding_start hg hstart hstart with hstays | hback
    · cases hstays with
      | arrive hsame => exact .inl hsame
      | step hd => exact absurd List.mem_cons_self hd
    · exact .inr hback

/-! ## Corresponding graphs

Where every reference of one graph can be followed in the other one, every path can. -/

/-- What refers to something in `g` refers to what corresponds to it in `g'`. Declarations that
correspond have one outline. -/
structure Follows (r : Declaration → Declaration → Prop) (g g' : Graph) : Prop where
  outline : ∀ d d', r d d' → d.SameOutline d'
  refersTo : ∀ {a a' b}, r a a' → g.RefersTo a b → ∃ b', g'.RefersTo a' b' ∧ r b b'

namespace Follows

variable {r : Declaration → Declaration → Prop} {g g' : Graph}

/-- A path can be followed in the other graph. -/
theorem leads (h : Follows r g g') {avoid : List DeclId} {origin : DeclId} {d d' : Declaration}
    (hd : r d d') (hleads : g.Leads avoid origin d) : g'.Leads avoid origin d' := by
  induction hleads generalizing d' with
  | arrive horigin => exact .arrive ((h.outline _ _ hd).id ▸ horigin)
  | step havoid href _ ih =>
      obtain ⟨next', href', hnext⟩ := h.refersTo hd href
      exact .step ((h.outline _ _ hd).id ▸ havoid) href' (ih hnext)

section

variable (hg : g.OwnersMatch) (hg' : g'.OwnersMatch)

include hg hg'

/-- What is recursive is recursive in the other graph. -/
theorem isRecursive (h : Follows r g g') {d d' : Declaration} (hd : r d d')
    (hrecursive : g.isRecursive d = true) : g'.isRecursive d' = true := by
  have houtline := h.outline d d' hd
  obtain ⟨hclass, next, href, hleads⟩ := (isRecursive_iff_leads hg d).1 hrecursive
  obtain ⟨next', href', hnext⟩ := h.refersTo hd href
  refine (isRecursive_iff_leads hg' d').2 ⟨houtline.isClass ▸ hclass, next', href', ?_⟩
  rw [← houtline.id]
  exact h.leads hnext hleads

/-- What leads back leads back in the other graph. -/
theorem leadsBack (h : Follows r g g') {start start' origin origin' : Declaration}
    (hstart : r start start') (horigin : origin.id = origin'.id)
    (hback : g.leadsBack start origin = true) : g'.leadsBack start' origin' = true := by
  refine (leadsBack_iff_leads hg' start' origin').2 ?_
  rw [← (h.outline _ _ hstart).id, ← horigin]
  rcases (leadsBack_iff_leads hg start origin).1 hback with hsame | ⟨next, href, hleads⟩
  · exact .inl hsame
  · obtain ⟨next', href', hnext⟩ := h.refersTo hstart href
    exact .inr ⟨next', href', h.leads hnext hleads⟩

/-- Where references can be followed in both directions, the searches have the same answers. -/
theorem isRecursive_eq (h : Follows r g g') (hback : Follows (flip r) g' g) {d d' : Declaration}
    (hd : r d d') : g'.isRecursive d' = g.isRecursive d :=
  Bool.eq_iff_iff.2 ⟨hback.isRecursive hg' hg hd, h.isRecursive hg hg' hd⟩

/-- **If the graphs follow each other, the searches in them agree.** -/
theorem leadsBack_eq (h : Follows r g g') (hback : Follows (flip r) g' g)
    {start start' origin origin' : Declaration} (hstart : r start start')
    (horigin : origin.id = origin'.id) :
    g'.leadsBack start' origin' = g.leadsBack start origin :=
  Bool.eq_iff_iff.2
    ⟨hback.leadsBack hg' hg hstart horigin.symm, h.leadsBack hg hg' hstart horigin⟩

end

end Follows

namespace Reordered

variable {g g' : Graph}

/-- In another order the declarations have the same owners. -/
theorem ownersMatch (h : g.Reordered g') (hg : g.OwnersMatch) : g'.OwnersMatch :=
  h.alike.ownersMatch hg

/-- In another order the same references can be followed. -/
theorem follows (h : g.Reordered g') : Follows Declaration.Reordered g g' where
  outline _ _ hd := hd.sameOutline
  refersTo ha hab := h.refersTo ha hab

/-- What is recursive stays so in another order. -/
theorem isRecursive (h : g.Reordered g') (hg : g.OwnersMatch) {d d' : Declaration}
    (hd : d.Reordered d') (hrecursive : g.isRecursive d = true) : g'.isRecursive d' = true :=
  h.follows.isRecursive hg (h.ownersMatch hg) hd hrecursive

/-- What leads back stays so in another order. -/
theorem leadsBack (h : g.Reordered g') (hg : g.OwnersMatch)
    {start start' origin origin' : Declaration} (hstart : start.Reordered start')
    (horigin : origin.Reordered origin') (hback : g.leadsBack start origin = true) :
    g'.leadsBack start' origin' = true :=
  h.follows.leadsBack hg (h.ownersMatch hg) hstart horigin.sameOutline.id hback

end Reordered

/-! ## Exactness -/

/-- **The search answers exactly what it is asked.** A class is recursive when references lead
from it to its own identity. A declaration leads back to another one when references do that do
not return to its own identity on the way, and for a declaration that its identity stands for any
references will do. The order in which properties are listed has no influence on either answer. -/
theorem search_decides_reachability {g : Graph} (hg : g.OwnersMatch) :
    (∀ d, g.isRecursive d = true
        ↔ d.isClass = true ∧ ∃ x, TransGen g.RefersTo d x ∧ x.id = d.id)
      ∧ (∀ start origin, g.leadsBack start origin = true
        ↔ ∃ x, ReflTransGen (g.RefersAwayFrom start.id) start x ∧ x.id = origin.id)
      ∧ (∀ start origin, g.declaration? start.id = some start →
        (g.leadsBack start origin = true
          ↔ ∃ x, ReflTransGen g.RefersTo start x ∧ x.id = origin.id))
      ∧ ∀ g', g.Reordered g' →
        (∀ d d', d.Reordered d' → g'.isRecursive d' = g.isRecursive d)
          ∧ ∀ start start' origin origin', start.Reordered start' → origin.Reordered origin' →
            g'.leadsBack start' origin' = g.leadsBack start origin := by
  refine ⟨isRecursive_iff hg, leadsBack_iff_away hg,
    fun start origin hstart => leadsBack_iff hg hstart origin, fun g' h => ⟨?_, ?_⟩⟩
  · intro d d' hd
    exact Bool.eq_iff_iff.2
      ⟨h.symm.isRecursive (h.ownersMatch hg) hd.symm, h.isRecursive hg hd⟩
  · intro start start' origin origin' hstart horigin
    exact Bool.eq_iff_iff.2
      ⟨h.symm.leadsBack (h.ownersMatch hg) hstart.symm horigin.symm,
        h.leadsBack hg hstart horigin⟩

/-! ## A name that is declared twice

References to `A` mean the first class of that name. The second one leads to `Leaf` over the
first, and the search does not go there, because the identity of the first is on its path from the
start. -/

/-- The class that references to `A` mean. -/
def shownClass : Declaration := .concept "t" "A" none [.field "leaf" (.named "Leaf")]

/-- The class that stands behind it. -/
def hiddenClass : Declaration := .concept "t" "A" none [.field "hub" (.named "Hub")]

def hubClass : Declaration := .concept "t" "Hub" none [.field "a" (.named "A")]

def leafClass : Declaration := .concept "t" "Leaf" none []

/-- A namespace that declares a name twice. -/
def twiceDeclared : Graph :=
  .ofNamespaces [⟨"t", [], [shownClass, hiddenClass, hubClass, leafClass]⟩]

/-- Without the condition on the start, plain reachability is not what is decided. -/
theorem leadsBack_misses_path :
    twiceDeclared.OwnersMatch
      ∧ ¬ (twiceDeclared.leadsBack hiddenClass leafClass = true
        ↔ ∃ x, ReflTransGen twiceDeclared.RefersTo hiddenClass x ∧ x.id = leafClass.id) := by
  have hhub : twiceDeclared.RefersTo hiddenClass hubClass :=
    ⟨⟨hiddenClass, .field "hub" (.named "Hub")⟩, by decide +kernel, by decide, by decide +kernel,
      rfl⟩
  have hshown : twiceDeclared.RefersTo hubClass shownClass :=
    ⟨⟨hubClass, .field "a" (.named "A")⟩, by decide +kernel, by decide, by decide +kernel, rfl⟩
  have hleaf : twiceDeclared.RefersTo shownClass leafClass :=
    ⟨⟨shownClass, .field "leaf" (.named "Leaf")⟩, by decide +kernel, by decide, by decide +kernel,
      rfl⟩
  have hfalse : twiceDeclared.leadsBack hiddenClass leafClass = false := by cbv
  refine ⟨by decide, fun h => ?_⟩
  have htrue := h.2 ⟨leafClass, ((ReflTransGen.single hhub).tail hshown).tail hleaf, rfl⟩
  exact absurd (hfalse.symm.trans htrue) (by decide)

/-- `Hub` is not recursive there: it refers to the first class of the name `A`, which leads to
`Leaf` only. The second class is recursive, because it leads to its own identity over the first.
-/
theorem search_decides_reachability_twiceDeclared :
    twiceDeclared.OwnersMatch
      ∧ ¬ (∃ x, TransGen twiceDeclared.RefersTo hubClass x ∧ x.id = hubClass.id)
      ∧ (∃ x, TransGen twiceDeclared.RefersTo hiddenClass x ∧ x.id = hiddenClass.id)
      ∧ ∃ x, ReflTransGen twiceDeclared.RefersTo shownClass x ∧ x.id = leafClass.id := by
  have hg : twiceDeclared.OwnersMatch := by decide
  obtain ⟨hrecursive, -, hback, -⟩ := search_decides_reachability hg
  have hhub : twiceDeclared.isRecursive hubClass = false := by cbv
  have hhidden : twiceDeclared.isRecursive hiddenClass = true := by cbv
  have hshown : twiceDeclared.leadsBack shownClass leafClass = true := by cbv
  refine ⟨hg, fun h => ?_, ((hrecursive hiddenClass).1 hhidden).2, ?_⟩
  · exact absurd (hhub.symm.trans ((hrecursive hubClass).2 ⟨rfl, h⟩)) (by decide)
  · exact (hback shownClass leafClass (by decide +kernel)).1 hshown

end Graph

end ModelForge
