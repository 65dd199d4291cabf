/-
`WalkSteps.lean` -- the walks over a graph, step by step.

The lineage of a declaration and the search for an origin are recursive functions, and a function
says nothing about the way to its value. Here both walks are machines that know their next step
only, or that there is none. The machine of the search keeps what the function hands down and
back: a path that grows when a node is entered and shrinks when it is left, and a list of what has
been left without success. It also records whose targets it has computed.

A machine could go on forever. That it does not is proved along the recursion of the function that
it follows (`Graph.runs_lineageFrom`, `Graph.runs_search`), and so it ends with the function's
value on every graph. What holds on the way is an invariant of the steps (`SearchState.Sound`):
whatever has been expanded is on the path or on the list, and neither is entered again. Only
identities are compared here, so it makes no difference which declarations share one.
-/
import Mathlib.Data.List.Nodup
import Mathlib.Logic.Relation
import ModelForge.Model.References

set_option autoImplicit false

namespace ModelForge

open Relation (ReflTransGen)

/-! ## Machines -/

section

variable {σ : Type} (next? : σ → Option σ)

/-- One state comes some steps after the other. -/
def Runs : σ → σ → Prop := ReflTransGen fun s t => next? s = some t

/-- A machine comes to a state that has no next one. -/
def Ends (s t : σ) : Prop := Runs next? s t ∧ next? t = none

end

namespace Graph

/-! ## Up the supertypes -/

/-- A walk up the supertypes: where it is, the declarations that it came by, the last one first,
and their identities. -/
structure Climb where
  current : Declaration
  below : List Declaration
  seen : List DeclId

/-- The walk that begins at `d`. -/
def Climb.start (d : Declaration) : Climb := ⟨d, [], [d.id]⟩

/-- The properties of all declarations that were found, those of the last one first. -/
def Climb.members (c : Climb) : List Member := (c.current :: c.below).flatMap Declaration.ownMembers

/-- One supertype further up. The walk is over in front of a missing supertype and of an identity
that was seen. -/
def climb? (g : Graph) (c : Climb) : Option Climb :=
  match g.parent? c.current with
  | none => none
  | some p => if p.id ∈ c.seen then none else some ⟨p, c.current :: c.below, p.id :: c.seen⟩

/-- The walk ends, and has found the lineage. -/
theorem runs_lineageFrom (g : Graph) (seen : List DeclId) (d : Declaration)
    (below : List Declaration) :
    ∃ c, Ends g.climb? ⟨d, below, seen⟩ c
      ∧ c.current :: c.below = (g.lineageFrom seen d).reverse ++ below := by
  induction seen, d using Graph.lineageFrom.induct g generalizing below with
  | case1 seen d hparent =>
      refine ⟨_, ⟨.refl, ?_⟩, ?_⟩
      · rw [climb?, hparent]
      · rw [lineageFrom_of_none hparent]
        rfl
  | case2 seen d p hparent hseen =>
      refine ⟨_, ⟨.refl, ?_⟩, ?_⟩
      · rw [climb?, hparent]
        exact if_pos hseen
      · rw [lineageFrom_of_some hparent, if_pos hseen]
        rfl
  | case3 seen d p hparent hnew ih =>
      obtain ⟨c, ⟨hruns, hends⟩, hfound⟩ := ih (d :: below)
      have hstep : g.climb? ⟨d, below, seen⟩ = some ⟨p, d :: below, p.id :: seen⟩ := by
        rw [climb?, hparent]
        exact if_neg hnew
      refine ⟨c, ⟨.head hstep hruns, hends⟩, ?_⟩
      rw [hfound, lineageFrom_of_some hparent, if_neg hnew, List.reverse_cons, List.append_assoc]
      rfl

/-- **The walk up the supertypes ends**, and what it has found are the members. -/
theorem exists_ends_climb (g : Graph) (d : Declaration) :
    ∃ c, Ends g.climb? (Climb.start d) c ∧ c.members = g.members d := by
  obtain ⟨c, hends, hfound⟩ := g.runs_lineageFrom [d.id] d []
  rw [List.append_nil] at hfound
  exact ⟨c, hends, by rw [Climb.members, hfound, members, lineage]⟩

/-! ## The search -/

/-- What a search does next. -/
inductive SearchControl where
  /-- It looks at a node. -/
  | enter (node : Declaration)
  /-- It goes on with the nodes that are left, if the origin was not found so far. -/
  | resume (found : Bool)
  deriving DecidableEq

/-- A node that has been entered and not been left. -/
structure SearchCall where
  node : Declaration
  /-- The nodes that come after it where it was entered. -/
  waiting : List Declaration

/-- A search under way. -/
structure SearchState where
  control : SearchControl
  /-- The nodes that are left where the search is. -/
  todo : List Declaration
  /-- The nodes that have been entered, the last one first. -/
  calls : List SearchCall
  /-- The identities on the path, the last one first. -/
  path : List DeclId
  explored : List DeclId
  /-- The declarations whose targets have been computed, the last one first. -/
  expanded : List Declaration

namespace SearchState

/-- A node is put onto the path, and its targets are next. -/
def push (g : Graph) (s : SearchState) (node : Declaration) : SearchState where
  control := .resume false
  todo := (g.classTargets node).map Subtype.val
  calls := ⟨node, s.todo⟩ :: s.calls
  path := node.id :: s.path
  explored := s.explored
  expanded := node :: s.expanded

/-- The last identity is taken off the path. It has been explored, if the origin was not found. -/
def pop (s : SearchState) (found : Bool) (waiting : List Declaration) (calls : List SearchCall) :
    SearchState where
  control := .resume found
  todo := waiting
  calls := calls
  path := s.path.tail
  explored := if found then s.explored else s.path.head?.toList ++ s.explored
  expanded := s.expanded

end SearchState

/-- One step of the search for `origin`. It is over when the first call is, or has no node left. -/
def search? (g : Graph) (origin : DeclId) (s : SearchState) : Option SearchState :=
  match s.control with
  | .enter node =>
      if node.id = origin then some { s with control := .resume true }
      else if node.id ∈ s.path ∨ node.id ∈ s.explored then some { s with control := .resume false }
      else some (s.push g node)
  | .resume found =>
      match found, s.todo, s.calls with
      | false, node :: rest, _ => some { s with control := .enter node, todo := rest }
      | _, _, call :: calls => some (s.pop found call.waiting calls)
      | _, _, [] => none

/-! ### What a step does -/

section

variable {g : Graph} {origin : DeclId}

/-- The origin ends the search. -/
theorem search?_found (s : SearchState) {node : Declaration} (hcontrol : s.control = .enter node)
    (horigin : node.id = origin) :
    g.search? origin s = some { s with control := .resume true } := by
  rw [search?, hcontrol]
  exact if_pos horigin

/-- What is on the path or has been explored is not entered again. -/
theorem search?_refused (s : SearchState) {node : Declaration} (hcontrol : s.control = .enter node)
    (horigin : node.id ≠ origin) (hseen : node.id ∈ s.path ∨ node.id ∈ s.explored) :
    g.search? origin s = some { s with control := .resume false } := by
  rw [search?, hcontrol]
  dsimp only
  rw [if_neg horigin, if_pos hseen]

/-- What is new is entered, and its references are looked at. -/
theorem search?_push (s : SearchState) {node : Declaration} (hcontrol : s.control = .enter node)
    (horigin : node.id ≠ origin) (hnew : ¬ (node.id ∈ s.path ∨ node.id ∈ s.explored)) :
    g.search? origin s = some (s.push g node) := by
  rw [search?, hcontrol]
  dsimp only
  rw [if_neg horigin, if_neg hnew]

/-- If nothing was found, the next reference is looked at. -/
theorem search?_next (s : SearchState) {node : Declaration} {rest : List Declaration}
    (hcontrol : s.control = .resume false) (htodo : s.todo = node :: rest) :
    g.search? origin s = some { s with control := .enter node, todo := rest } := by
  rw [search?, hcontrol, htodo]

/-- Nodes behind the origin are not looked at. -/
theorem search?_leave (s : SearchState) {found : Bool} {call : SearchCall} {calls : List SearchCall}
    (hcontrol : s.control = .resume found) (hdone : found = false → s.todo = [])
    (hcalls : s.calls = call :: calls) :
    g.search? origin s = some (s.pop found call.waiting calls) := by
  rw [search?, hcontrol, hcalls]
  cases found with
  | true => rfl
  | false => rw [hdone rfl]

/-- Without a call to return to, the search is over. -/
theorem search?_over (s : SearchState) {found : Bool} (hcontrol : s.control = .resume found)
    (hdone : found = false → s.todo = []) (hcalls : s.calls = []) : g.search? origin s = none := by
  rw [search?, hcontrol, hcalls]
  cases found with
  | true => rfl
  | false => rw [hdone rfl]

/-- A step enters a node, refuses it or finds it to be the origin; or it goes on to the next node;
or it leaves a node that is done with. -/
theorem search?_cases {s t : SearchState} (h : g.search? origin s = some t) :
    (∃ node, s.control = .enter node
        ∧ ((∃ found, t = { s with control := .resume found })
          ∨ node.id ∉ s.path ∧ node.id ∉ s.explored ∧ t = s.push g node))
      ∨ s.control = .resume false
        ∧ (∃ node rest, t = { s with control := .enter node, todo := rest })
      ∨ ∃ found call calls, s.control = .resume found ∧ s.calls = call :: calls
        ∧ t = s.pop found call.waiting calls := by
  unfold search? at h
  split at h
  · rename_i node hcontrol
    refine .inl ⟨node, hcontrol, ?_⟩
    split at h
    · exact .inl ⟨true, (Option.some.inj h).symm⟩
    split at h
    · exact .inl ⟨false, (Option.some.inj h).symm⟩
    · rename_i hnew
      exact .inr ⟨fun hpath => hnew (.inl hpath), fun hexplored => hnew (.inr hexplored),
        (Option.some.inj h).symm⟩
  · rename_i found hcontrol
    split at h
    · rename_i node rest _
      exact .inr (.inl ⟨hcontrol, node, rest, (Option.some.inj h).symm⟩)
    · rename_i call calls hcalls _
      exact .inr (.inr ⟨_, call, calls, hcontrol, hcalls, (Option.some.inj h).symm⟩)
    · exact absurd h (by simp)

/-! ### Where a search ends -/

/-- A run of the search during which no fewer than `depth` calls are open. -/
def RunsInside (g : Graph) (origin : DeclId) (depth : Nat) : SearchState → SearchState → Prop :=
  ReflTransGen fun s t => g.search? origin s = some t ∧ depth ≤ t.calls.length

theorem RunsInside.runs {depth : Nat} {s t : SearchState} (h : RunsInside g origin depth s t) :
    Runs (g.search? origin) s t :=
  ReflTransGen.mono (fun _ _ hstep => hstep.1) _ _ h

/-- What stays below some calls stays below fewer of them. -/
theorem RunsInside.mono {depth depth' : Nat} (hdepth : depth' ≤ depth) {s t : SearchState}
    (h : RunsInside g origin depth s t) : RunsInside g origin depth' s t :=
  ReflTransGen.mono (fun _ _ hstep => ⟨hstep.1, Nat.le_trans hdepth hstep.2⟩) _ _ h

/-- The node that `s` looks at has been dealt with at `t`, and not before: in between there are
more calls. -/
structure Returns (g : Graph) (origin : DeclId) (s t : SearchState) : Prop where
  answered : ∃ found, t.control = .resume found
  todo : t.todo = s.todo
  calls : t.calls = s.calls
  runs : ReflTransGen (fun u v => g.search? origin u = some v
    ∧ (s.calls.length < v.calls.length ∨ v = t)) s t

/-- A search that returns has not touched the calls around it. -/
theorem Returns.runsInside {s t : SearchState} (h : g.Returns origin s t) :
    RunsInside g origin s.calls.length s t := by
  refine ReflTransGen.mono (fun u v hstep => ⟨hstep.1, ?_⟩) _ _ h.runs
  rcases hstep.2 with hdeeper | rfl
  · exact Nat.le_of_lt hdeeper
  · exact Nat.le_of_eq (by rw [h.calls])

/-- A node that is entered is dealt with once its targets have been looked at. Then the path is
what it was. -/
theorem returns_of_runsInside {s : SearchState} {node : Declaration}
    (hcontrol : s.control = .enter node) (horigin : node.id ≠ origin)
    (hnew : ¬ (node.id ∈ s.path ∨ node.id ∈ s.explored)) {found : Bool} {todo : List Declaration}
    {explored : List DeclId} {expanded : List Declaration} (hdone : found = false → todo = [])
    (hbelow : RunsInside g origin (s.calls.length + 1) (s.push g node)
      ⟨.resume found, todo, ⟨node, s.todo⟩ :: s.calls, node.id :: s.path, explored, expanded⟩) :
    g.Returns origin s
      ⟨.resume found, s.todo, s.calls, s.path,
        if found then explored else node.id :: explored, expanded⟩ := by
  have henter := search?_push (g := g) s hcontrol horigin hnew
  have hleave : g.search? origin
      ⟨.resume found, todo, ⟨node, s.todo⟩ :: s.calls, node.id :: s.path, explored, expanded⟩
        = some _ :=
    search?_leave _ rfl hdone rfl
  refine ⟨⟨found, rfl⟩, rfl, rfl,
    .head ⟨henter, .inl (Nat.lt_succ_self _)⟩ (.tail ?_ ⟨hleave, .inr rfl⟩)⟩
  exact ReflTransGen.mono (fun _ _ hstep => ⟨hstep.1, .inl hstep.2⟩) _ _ hbelow

end

/-- **The machine follows the recursion.** It looks at the nodes that are left as the function
does and comes to the same answer and the same list, in the calls and on the path that it started
with. -/
theorem runs_search (g : Graph) (origin : DeclId) (path explored : List DeclId)
    (nodes : List g.Node) (calls : List SearchCall) (expanded : List Declaration) :
    ∃ todo expanded', ((g.search origin path explored nodes).1 = false → todo = [])
      ∧ RunsInside g origin calls.length
        ⟨.resume false, nodes.map Subtype.val, calls, path, explored, expanded⟩
        ⟨.resume (g.search origin path explored nodes).1, todo, calls, path,
          (g.search origin path explored nodes).2, expanded'⟩ := by
  -- the first step goes on to the first node, wherever the search is
  have hnext (node : g.Node) (rest : List g.Node) (explored : List DeclId) (path : List DeclId)
      (calls : List SearchCall) (expanded : List Declaration) :
      g.search? origin ⟨.resume false, (node :: rest).map Subtype.val, calls,
        path, explored, expanded⟩
        = some ⟨.enter node.1, rest.map Subtype.val, calls, path, explored, expanded⟩ :=
          search?_next _ rfl rfl
  fun_induction Graph.search g origin path explored nodes generalizing calls expanded with
  | case1 path explored => exact ⟨[], expanded, fun _ => rfl, .refl⟩
  | case2 path explored node rest horigin =>
      have hfound := search?_found (g := g)
        ⟨.enter node.1, rest.map Subtype.val, calls, path, explored, expanded⟩ rfl horigin
      exact ⟨rest.map Subtype.val, expanded, fun h => absurd h (by simp),
        .head ⟨hnext .., Nat.le_refl _⟩ (.single ⟨hfound, Nat.le_refl _⟩)⟩
  | case3 path explored node rest horigin hseen ih =>
      have hrefused := search?_refused (g := g)
        ⟨.enter node.1, rest.map Subtype.val, calls, path, explored, expanded⟩ rfl horigin hseen
      obtain ⟨todo, expanded', hdone, hruns⟩ := ih calls expanded
      exact ⟨todo, expanded', hdone,
        .head ⟨hnext .., Nat.le_refl _⟩ (.head ⟨hrefused, Nat.le_refl _⟩ hruns)⟩
  | case4 path explored node rest horigin hseen explored' hfound ih =>
      obtain ⟨todo, expanded', -, hruns⟩ :=
        ih (⟨node.1, rest.map Subtype.val⟩ :: calls) (node.1 :: expanded)
      rw [hfound] at hruns
      have hcall := returns_of_runsInside
        (s := ⟨.enter node.1, rest.map Subtype.val, calls, path, explored, expanded⟩)
        rfl horigin hseen (fun h => absurd h (by simp)) hruns
      exact ⟨rest.map Subtype.val, expanded', fun h => absurd h (by simp),
        .head ⟨hnext .., Nat.le_refl _⟩ hcall.runsInside⟩
  | case5 path explored node rest horigin hseen explored' hfound ih₁ ih₂ =>
      obtain ⟨todo, expanded', hdone, hruns⟩ :=
        ih₁ (⟨node.1, rest.map Subtype.val⟩ :: calls) (node.1 :: expanded)
      rw [hfound] at hruns hdone
      have hcall := returns_of_runsInside
        (s := ⟨.enter node.1, rest.map Subtype.val, calls, path, explored, expanded⟩)
        rfl horigin hseen hdone hruns
      obtain ⟨todo', expanded'', hdone', hrest⟩ := ih₂ calls expanded'
      exact ⟨todo', expanded'', hdone',
        .head ⟨hnext .., Nat.le_refl _⟩ (hcall.runsInside.trans hrest)⟩

/-! ### The two questions -/

/-- The search that asks whether `d` is recursive. It begins with the targets of `d`, which is on
the path. -/
def recursionQuery (g : Graph) (d : Declaration) : SearchState where
  control := .resume false
  todo := (g.classTargets d).map Subtype.val
  calls := []
  path := [d.id]
  explored := []
  expanded := [d]

/-- The search that asks whether `start` leads to an origin. It begins with `start` and an empty
path. -/
def leadsBackQuery (start : Declaration) : SearchState where
  control := .enter start
  todo := []
  calls := []
  path := []
  explored := []
  expanded := []

/-- A search for an origin that one of the two questions starts. -/
inductive Asks (g : Graph) : DeclId → SearchState → Prop where
  | recursive {d : Declaration} (hclass : d.isClass = true) : Asks g d.id (g.recursionQuery d)
  | leadsBack (start origin : Declaration) : Asks g origin.id (leadsBackQuery start)

/-- The search for a recursion ends with the answer to it. -/
theorem exists_ends_recursionQuery (g : Graph) {d : Declaration} (hclass : d.isClass = true) :
    ∃ s, Ends (g.search? d.id) (g.recursionQuery d) s ∧ s.control = .resume (g.isRecursive d) := by
  obtain ⟨todo, expanded, hdone, hruns⟩ := g.runs_search d.id [d.id] [] (g.classTargets d) [] [d]
  refine ⟨_, ⟨hruns.runs, search?_over _ rfl hdone rfl⟩, ?_⟩
  rw [isRecursive, hclass, Bool.true_and]

/-- The search for a way back ends with its answer as well. -/
theorem exists_ends_leadsBackQuery (g : Graph) (start origin : Declaration) :
    ∃ s, Ends (g.search? origin.id) (leadsBackQuery start) s
      ∧ s.control = .resume (g.leadsBack start origin) := by
  rw [leadsBack]
  by_cases hsame : start.id = origin.id
  · have hfound := search?_found (g := g) (leadsBackQuery start) rfl hsame
    refine ⟨_, ⟨.single hfound, search?_over _ rfl (fun h => absurd h (by simp)) rfl⟩, ?_⟩
    rw [decide_eq_true hsame, Bool.true_or]
  · obtain ⟨todo, expanded, hdone, hruns⟩ :=
      g.runs_search origin.id [start.id] [] (g.classTargets start) [⟨start, []⟩] [start]
    have hcall :=
      returns_of_runsInside (s := leadsBackQuery start) rfl hsame (by simp [leadsBackQuery])
      hdone hruns
    refine ⟨_, ⟨hcall.runsInside.runs, search?_over _ rfl (fun _ => rfl) rfl⟩, ?_⟩
    rw [decide_eq_false hsame, Bool.false_or]

/-! ### What holds on the way -/

/-- What every state of a search satisfies that began with `base` on its path. -/
structure SearchState.Sound (base : List DeclId) (s : SearchState) : Prop where
  /-- The path consists of the nodes that have been entered. -/
  path_eq : s.path = s.calls.map (fun call => call.node.id) ++ base
  pathDistinct : s.path.Nodup
  expandedDistinct : (s.expanded.map Declaration.id).Nodup
  /-- Until the origin is found, whatever has been expanded is on the path or has been left. -/
  accounted : s.control = .resume true ∨ ∀ d ∈ s.expanded, d.id ∈ s.path ∨ d.id ∈ s.explored

section

variable {g : Graph} {origin : DeclId} {base : List DeclId} {s t : SearchState}

namespace SearchState.Sound

/-- As long as nodes are left to look at, all that was expanded is accounted for. -/
theorem accounted_of_ne (h : s.Sound base) (hcontrol : s.control ≠ .resume true) :
    ∀ d ∈ s.expanded, d.id ∈ s.path ∨ d.id ∈ s.explored :=
  h.accounted.resolve_left hcontrol

/-- A node that is neither on the path nor on the list has not been expanded. -/
theorem push (h : s.Sound base) {node : Declaration} (hcontrol : s.control = .enter node)
    (hpath : node.id ∉ s.path) (hexplored : node.id ∉ s.explored) : (s.push g node).Sound base := by
  have haccounted := h.accounted_of_ne (by simp [hcontrol])
  refine ⟨?_, List.nodup_cons.2 ⟨hpath, h.pathDistinct⟩, ?_, .inr ?_⟩
  · rw [SearchState.push, h.path_eq]
    rfl
  · refine List.nodup_cons.2 ⟨fun hmem => ?_, h.expandedDistinct⟩
    obtain ⟨d, hd, hid⟩ := List.mem_map.1 hmem
    rcases haccounted d hd with hd | hd
    · exact hpath (hid ▸ hd)
    · exact hexplored (hid ▸ hd)
  · rw [SearchState.push, List.forall_mem_cons]
    exact ⟨.inl List.mem_cons_self, fun d hd => (haccounted d hd).imp_left (List.mem_cons_of_mem _)⟩

/-- What is taken off the path goes onto the list, unless the search is over anyway. -/
theorem pop (h : s.Sound base) {found : Bool} {call : SearchCall} {calls : List SearchCall}
    (hcontrol : s.control = .resume found) (hcalls : s.calls = call :: calls) :
    (s.pop found call.waiting calls).Sound base := by
  have hpath : s.path = call.node.id :: (calls.map (fun call => call.node.id) ++ base) := by
    rw [h.path_eq, hcalls]
    rfl
  refine ⟨?_, h.pathDistinct.tail, h.expandedDistinct, ?_⟩
  · rw [SearchState.pop, hpath]
    rfl
  · cases found with
    | true => exact .inl rfl
    | false =>
        refine .inr fun d hd => ?_
        have haccounted := h.accounted_of_ne (by simp [hcontrol]) d hd
        rw [SearchState.pop, hpath]
        rw [hpath, List.mem_cons] at haccounted
        rcases haccounted with (hlast | hd) | hd
        · exact .inr (hlast ▸ List.mem_cons_self)
        · exact .inl hd
        · exact .inr (List.mem_cons_of_mem _ hd)

/-- **Every step keeps the path and the record free of repetitions.** -/
theorem step (h : s.Sound base) (hstep : g.search? origin s = some t) : t.Sound base := by
  rcases search?_cases hstep with
    ⟨node, hcontrol, ⟨found, rfl⟩ | ⟨hpath, hexplored, rfl⟩⟩ | ⟨hcontrol, node, rest, rfl⟩
      | ⟨found, call, calls, hcontrol, hcalls, rfl⟩
  · exact ⟨h.path_eq, h.pathDistinct, h.expandedDistinct,
      .inr (h.accounted_of_ne (by simp [hcontrol]))⟩
  · exact h.push hcontrol hpath hexplored
  · exact ⟨h.path_eq, h.pathDistinct, h.expandedDistinct,
      .inr (h.accounted_of_ne (by simp [hcontrol]))⟩
  · exact h.pop hcontrol hcalls

/-- **Whatever state a search reaches is sound.** -/
theorem run (h : s.Sound base) (hruns : Runs (g.search? origin) s t) : t.Sound base := by
  induction hruns with
  | refl => exact h
  | tail _ hstep ih => exact ih.step hstep

end SearchState.Sound

/-- A search begins in a sound state. -/
theorem Asks.sound (h : g.Asks origin s) : s.Sound s.path := by
  cases h with
  | recursive hclass =>
      refine ⟨rfl, List.nodup_singleton _, List.nodup_singleton _, .inr fun e he => .inl ?_⟩
      rw [List.mem_singleton.1 he]
      exact List.mem_cons_self
  | leadsBack start origin =>
      exact ⟨rfl, List.nodup_nil, List.nodup_nil, .inr fun e he => absurd he List.not_mem_nil⟩

end

/-! ### Calls -/

/-- **Every node is dealt with**, wherever a search is, and then the path is what it was. -/
theorem exists_returns (g : Graph) (origin : DeclId) {s : SearchState} {node : Declaration}
    (hcontrol : s.control = .enter node) : ∃ t, g.Returns origin s t ∧ t.path = s.path := by
  by_cases horigin : node.id = origin
  · exact ⟨{ s with control := .resume true },
      ⟨⟨true, rfl⟩, rfl, rfl, .single ⟨search?_found s hcontrol horigin, .inr rfl⟩⟩, rfl⟩
  by_cases hseen : node.id ∈ s.path ∨ node.id ∈ s.explored
  · exact ⟨{ s with control := .resume false },
      ⟨⟨false, rfl⟩, rfl, rfl, .single ⟨search?_refused s hcontrol horigin hseen, .inr rfl⟩⟩, rfl⟩
  · obtain ⟨todo, expanded, hdone, hbelow⟩ := g.runs_search origin (node.id :: s.path) s.explored
      (g.classTargets node) (⟨node, s.todo⟩ :: s.calls) (node :: s.expanded)
    exact ⟨_, returns_of_runsInside hcontrol horigin hseen hdone hbelow, rfl⟩

/-! ## All walks -/

/-- What the walks over a graph do. -/
structure WalksEnd (g : Graph) : Prop where
  /-- The walk up the supertypes ends with the members. -/
  members : ∀ d, ∃ c, Ends g.climb? (.start d) c ∧ c.members = g.members d
  /-- Both questions are answered. The first one needs no search for what is no class. -/
  isRecursive : ∀ d, d.isClass = true →
    ∃ s, Ends (g.search? d.id) (g.recursionQuery d) s ∧ s.control = .resume (g.isRecursive d)
  isRecursive_other : ∀ d, d.isClass = false → g.isRecursive d = false
  leadsBack : ∀ start origin,
    ∃ s, Ends (g.search? origin.id) (leadsBackQuery start) s
      ∧ s.control = .resume (g.leadsBack start origin)
  /-- No identity is on the path twice. -/
  pathDistinct : ∀ origin query, g.Asks origin query →
    ∀ s, Runs (g.search? origin) query s → s.path.Nodup
  /-- No identity is expanded twice, the one of the start included. -/
  expandedDistinct : ∀ origin query, g.Asks origin query → ∀ s, Runs (g.search? origin) query s →
    (s.expanded.map Declaration.id).Nodup
  /-- A call leaves the path as it was. -/
  restored : ∀ origin query, g.Asks origin query → ∀ s node, Runs (g.search? origin) query s →
    s.control = .enter node → ∃ t, g.Returns origin s t ∧ t.path = s.path

/-- **Walks end on every graph and expand each declaration once**: whatever refers to what, and
whatever the declarations say about where they belong. -/
theorem walks_end_and_expand_once (g : Graph) : g.WalksEnd where
  members := g.exists_ends_climb
  isRecursive _ hclass := g.exists_ends_recursionQuery hclass
  isRecursive_other d hclass := by rw [Graph.isRecursive, hclass, Bool.false_and]
  leadsBack := g.exists_ends_leadsBackQuery
  pathDistinct _ _ hasks _ hruns := (hasks.sound.run hruns).pathDistinct
  expandedDistinct _ _ hasks _ hruns := (hasks.sound.run hruns).expandedDistinct
  restored origin _ _ _ _ _ hcontrol := g.exists_returns origin hcontrol

end Graph

end ModelForge
