/-
`Clashes.lean` -- which clash is reported, and when there is none.

Both scans for clashes, of members (`firstClash?`) and of modules (`moduleFault?`), go over a list
once and keep what they have passed. So what they report splits the list: in front of the fault
there is none, and the name that holds the identifier stands there, alone. A scan that reports
nothing has gone over the whole list.
-/
import Mathlib.Data.List.Nodup
import ModelForge.Generate.Run
import ModelForge.Proofs.Resolution

set_option autoImplicit false

namespace ModelForge

/-- Where a key stands once, it picks out what it is the key of. -/
theorem filter_key_eq_singleton {α β : Type} [DecidableEq β] {key : α → β} {xs : List α} {a : α}
    (hdistinct : (xs.map key).Nodup) (ha : a ∈ xs) : (xs.filter fun x => key x = key a) = [a] := by
  induction xs with
  | nil => exact absurd ha List.not_mem_nil
  | cons x rest ih =>
      rw [List.map_cons, List.nodup_cons] at hdistinct
      rw [List.filter_cons]
      rcases List.mem_cons.1 ha with rfl | hrest
      -- the element itself: what follows has other keys
      · have hothers : (rest.filter fun y => key y = key a) = [] := by
          rw [List.filter_eq_nil_iff]
          intro y hy hkey
          rw [decide_eq_true_eq] at hkey
          exact hdistinct.1 (hkey ▸ List.mem_map_of_mem hy)
        rw [if_pos (decide_eq_true rfl), hothers]
      · have hne : ¬ key x = key a := fun hkey =>
          hdistinct.1 (hkey ▸ List.mem_map_of_mem hrest)
        rw [if_neg (by rwa [decide_eq_true_eq]), ih hdistinct.2 hrest]

/-- Where a key stands once, looking for it finds what it is the key of. -/
theorem find?_key_of_mem {α β : Type} [DecidableEq β] (key : α → β) {xs : List α} {a : α}
    (hdistinct : (xs.map key).Nodup) (ha : a ∈ xs) :
    (xs.find? fun x => key x = key a) = some a := by
  rw [← List.head?_filter, filter_key_eq_singleton hdistinct ha]
  rfl

/-! ## Members -/

/-- There is no clash if the names are distinct and none is taken. -/
theorem firstClash?_eq_none_iff {taken entries : List (String × String)} :
    firstClash? taken entries = none
      ↔ (entries.map Prod.fst).Nodup ∧ ∀ entry ∈ entries, entry.1 ∉ taken.map Prod.fst := by
  induction entries generalizing taken with
  | nil => simp [firstClash?]
  | cons entry rest ih =>
      obtain ⟨identifier, name⟩ := entry
      rw [firstClash?, List.map_cons, List.nodup_cons, List.forall_mem_cons]
      cases hlookup : taken.lookup identifier with
      | some first =>
          have hmem : identifier ∈ taken.map Prod.fst :=
            List.mem_map_of_mem (f := Prod.fst) (mem_of_lookup hlookup)
          refine iff_of_false (by simp) ?_
          rintro ⟨-, hnew, -⟩
          exact hnew hmem
      | none =>
          have hnew := lookup_eq_none_iff_not_mem.1 hlookup
          -- the identifier is taken from now on, which is the same as not to come again
          simp only [ih, List.map_cons, List.mem_cons, not_or]
          constructor
          · rintro ⟨hnodup, hrest⟩
            refine ⟨⟨?_, hnodup⟩, hnew, fun e he => (hrest e he).2⟩
            intro hmem
            obtain ⟨e, he, heq⟩ := List.mem_map.1 hmem
            exact (hrest e he).1 heq
          · rintro ⟨⟨hfirst, hnodup⟩, -, hrest⟩
            refine ⟨hnodup, fun e he => ⟨?_, hrest e he⟩⟩
            rintro rfl
            exact hfirst (List.mem_map_of_mem he)

/-- What was passed is on the list in reverse order, in front of what was taken at the start. -/
theorem split_of_firstClash?_eq_some {taken entries : List (String × String)} {clash : Clash}
    (h : firstClash? taken entries = some clash) :
    ∃ before after, entries = before ++ (clash.identifier, clash.second) :: after
      ∧ firstClash? taken before = none
      ∧ (before.reverse ++ taken).lookup clash.identifier = some clash.first := by
  induction entries generalizing taken with
  | nil => exact absurd h (by simp [firstClash?])
  | cons entry rest ih =>
      obtain ⟨identifier, name⟩ := entry
      rw [firstClash?] at h
      cases hlookup : taken.lookup identifier with
      | some first =>
          -- the scan ends here, in front of everything
          rw [hlookup] at h
          obtain rfl := Option.some.inj h
          exact ⟨[], rest, rfl, rfl, hlookup⟩
      | none =>
          rw [hlookup] at h
          obtain ⟨before, after, hsplit, hbefore, hfirst⟩ := ih h
          refine ⟨(identifier, name) :: before, after, ?_, ?_, ?_⟩
          · rw [hsplit, List.cons_append]
          · rw [firstClash?, hlookup]
            exact hbefore
          · rw [List.reverse_cons, List.append_assoc]
            exact hfirst

/-- With nothing taken, there is no clash if the names are distinct. -/
theorem firstClash?_nil_eq_none_iff {entries : List (String × String)} :
    firstClash? [] entries = none ↔ (entries.map Prod.fst).Nodup := by
  rw [firstClash?_eq_none_iff]
  exact and_iff_left fun entry _ => List.not_mem_nil

/-- **The first clash.** The later name is the first one whose identifier is taken, and of those
before it exactly one has the identifier. -/
theorem split_of_firstClash?_nil_eq_some {entries : List (String × String)} {clash : Clash}
    (h : firstClash? [] entries = some clash) :
    ∃ before after, entries = before ++ (clash.identifier, clash.second) :: after
      ∧ (before.map Prod.fst).Nodup
      ∧ (before.filter fun entry => entry.1 = clash.identifier)
          = [(clash.identifier, clash.first)] := by
  obtain ⟨before, after, hsplit, hbefore, hfirst⟩ := split_of_firstClash?_eq_some h
  rw [List.append_nil] at hfirst
  have hnodup := firstClash?_nil_eq_none_iff.1 hbefore
  have hmem := List.mem_reverse.1 (mem_of_lookup hfirst)
  exact ⟨before, after, hsplit, hnodup, filter_key_eq_singleton hnodup hmem⟩

/-! ## Modules -/

/-- Whether a module may have the name. -/
def Options.Allows (options : Options) (module : String) : Prop :=
  module ∉ ownModules ∧ module ∉ options.reserved

instance (options : Options) (module : String) : Decidable (options.Allows module) := by
  unfold Options.Allows; infer_instance

/-- A module is refused if it is one of the generator's own or a reserved word. -/
theorem Options.not_allows_iff {options : Options} {module : String} :
    ¬ options.Allows module ↔ module ∈ ownModules ∨ module ∈ options.reserved := by
  rw [Options.Allows, not_and_or, not_not, not_not]

section

variable {options : Options} {taken : List (String × String)} {ns : Namespace}
  {rest : List Namespace}

/-- A refused module is reported with its namespace. -/
theorem moduleFault?_of_not_allows (h : ¬ options.Allows (moduleName ns.name)) :
    moduleFault? options taken (ns :: rest)
      = some (.reservedModule ns.name (moduleName ns.name)) := by
  rw [moduleFault?]
  exact if_pos (Options.not_allows_iff.1 h)

/-- A module that is taken is reported with both its namespaces. -/
theorem moduleFault?_of_taken (h : options.Allows (moduleName ns.name)) {first : String}
    (htaken : taken.lookup (moduleName ns.name) = some first) :
    moduleFault? options taken (ns :: rest)
      = some (.moduleCollision (moduleName ns.name) first ns.name) := by
  have hfree := mt Options.not_allows_iff.2 (not_not.2 h)
  rw [moduleFault?]
  simp only [if_neg hfree, htaken]

/-- Otherwise it is taken, and the next one is looked at. -/
theorem moduleFault?_of_free (h : options.Allows (moduleName ns.name))
    (hnew : taken.lookup (moduleName ns.name) = none) :
    moduleFault? options taken (ns :: rest)
      = moduleFault? options ((moduleName ns.name, ns.name) :: taken) rest := by
  have hfree := mt Options.not_allows_iff.2 (not_not.2 h)
  rw [moduleFault?]
  simp only [if_neg hfree, hnew]

end

/-- Modules are judged by the names of the namespaces alone. -/
theorem moduleFault?_eq_of_map_name {options : Options} {taken : List (String × String)}
    {namespaces namespaces' : List Namespace}
    (h : namespaces'.map Namespace.name = namespaces.map Namespace.name) :
    moduleFault? options taken namespaces' = moduleFault? options taken namespaces := by
  induction namespaces generalizing taken namespaces' with
  | nil => rw [List.map_eq_nil_iff.1 h]
  | cons ns rest ih =>
      cases namespaces' with
      | nil => exact absurd h (by simp)
      | cons ns' rest' =>
          rw [List.map_cons, List.map_cons, List.cons.injEq] at h
          rw [moduleFault?, moduleFault?, h.1]
          simp only [ih h.2]

/-- No module is at fault if all are allowed and none is taken, from outside or by another. -/
theorem moduleFault?_eq_none_iff {options : Options} {taken : List (String × String)}
    {namespaces : List Namespace} :
    moduleFault? options taken namespaces = none
      ↔ (∀ ns ∈ namespaces, options.Allows (moduleName ns.name))
        ∧ (namespaces.map fun ns => moduleName ns.name).Nodup
        ∧ ∀ ns ∈ namespaces, moduleName ns.name ∉ taken.map Prod.fst := by
  induction namespaces generalizing taken with
  | nil => simp [moduleFault?]
  | cons ns rest ih =>
      rw [List.map_cons, List.nodup_cons, List.forall_mem_cons, List.forall_mem_cons]
      by_cases hallowed : options.Allows (moduleName ns.name)
      · cases hlookup : taken.lookup (moduleName ns.name) with
        | some first =>
            have hmem : moduleName ns.name ∈ taken.map Prod.fst :=
              List.mem_map_of_mem (f := Prod.fst) (mem_of_lookup hlookup)
            rw [moduleFault?_of_taken hallowed hlookup]
            refine iff_of_false (by simp) ?_
            rintro ⟨-, -, hnew, -⟩
            exact hnew hmem
        | none =>
            have hnew := lookup_eq_none_iff_not_mem.1 hlookup
            rw [moduleFault?_of_free hallowed hlookup, ih]
            simp only [List.map_cons, List.mem_cons, not_or]
            constructor
            · rintro ⟨hrest, hnodup, hothers⟩
              refine ⟨⟨hallowed, hrest⟩, ⟨?_, hnodup⟩, hnew, fun other h => (hothers other h).2⟩
              intro hmem
              obtain ⟨other, hother, heq⟩ := List.mem_map.1 hmem
              exact (hothers other hother).1 heq
            · rintro ⟨⟨-, hrest⟩, ⟨hfirst, hnodup⟩, -, hothers⟩
              refine ⟨hrest, hnodup, fun other h => ⟨?_, hothers other h⟩⟩
              exact fun heq => hfirst (List.mem_map.2 ⟨other, h, heq⟩)
      · rw [moduleFault?_of_not_allows hallowed]
        exact iff_of_false (by simp) fun h => hallowed h.1.1

/-- What is wrong with a namespace, when the modules of those before it are all right. -/
def ModuleFault (options : Options) (before : List Namespace) (ns : Namespace)
    (error : GenerationError) : Prop :=
  ¬ options.Allows (moduleName ns.name) ∧ error = .reservedModule ns.name (moduleName ns.name)
    ∨ options.Allows (moduleName ns.name) ∧ ∃ owner,
      (before.filter fun other => moduleName other.name = moduleName ns.name) = [owner]
        ∧ error = .moduleCollision (moduleName ns.name) owner.name ns.name

/-- **What is reported is the first fault**: a namespace behind others that have none. -/
theorem split_of_moduleFault?_eq_some {options : Options} {taken : List (String × String)}
    {namespaces : List Namespace} {error : GenerationError}
    (h : moduleFault? options taken namespaces = some error) :
    ∃ before ns after, namespaces = before ++ ns :: after
      ∧ moduleFault? options taken before = none
      ∧ (¬ options.Allows (moduleName ns.name)
          ∧ error = .reservedModule ns.name (moduleName ns.name)
        ∨ options.Allows (moduleName ns.name) ∧ ∃ first,
          ((before.map fun other => (moduleName other.name, other.name)).reverse ++ taken).lookup
              (moduleName ns.name) = some first
            ∧ error = .moduleCollision (moduleName ns.name) first ns.name) := by
  induction namespaces generalizing taken with
  | nil => exact absurd h (by simp [moduleFault?])
  | cons ns rest ih =>
      by_cases hallowed : options.Allows (moduleName ns.name)
      · cases hlookup : taken.lookup (moduleName ns.name) with
        | some first =>
            rw [moduleFault?_of_taken hallowed hlookup] at h
            exact ⟨[], ns, rest, rfl, rfl,
              .inr ⟨hallowed, first, hlookup, (Option.some.inj h).symm⟩⟩
        | none =>
            rw [moduleFault?_of_free hallowed hlookup] at h
            obtain ⟨before, other, after, hsplit, hbefore, hfault⟩ := ih h
            refine ⟨ns :: before, other, after, ?_, ?_, ?_⟩
            · rw [hsplit, List.cons_append]
            · rw [moduleFault?_of_free hallowed hlookup, hbefore]
            · rw [List.map_cons, List.reverse_cons, List.append_assoc]
              exact hfault
      · rw [moduleFault?_of_not_allows hallowed] at h
        exact ⟨[], ns, rest, rfl, rfl, .inl ⟨hallowed, (Option.some.inj h).symm⟩⟩

/-- The modules of a list of namespaces are all allowed, and no two are the same. -/
def ModulesAllowed (options : Options) (namespaces : List Namespace) : Prop :=
  (∀ ns ∈ namespaces, options.Allows (moduleName ns.name))
    ∧ (namespaces.map fun ns => moduleName ns.name).Nodup

instance (options : Options) (namespaces : List Namespace) :
    Decidable (ModulesAllowed options namespaces) := by
  unfold ModulesAllowed; infer_instance

/-- With nothing taken, no module is at fault if all are allowed and distinct. -/
theorem moduleFault?_nil_eq_none_iff {options : Options} {namespaces : List Namespace} :
    moduleFault? options [] namespaces = none ↔ ModulesAllowed options namespaces := by
  rw [moduleFault?_eq_none_iff]
  refine and_congr_right fun _ => and_iff_left fun ns _ => List.not_mem_nil

/-- **The first fault of the modules.** The modules before it are all right, and of the namespaces
there exactly one has the module that is taken. -/
theorem split_of_moduleFault?_nil_eq_some {options : Options} {namespaces : List Namespace}
    {error : GenerationError} (h : moduleFault? options [] namespaces = some error) :
    ∃ before ns after, namespaces = before ++ ns :: after ∧ ModulesAllowed options before
      ∧ ModuleFault options before ns error := by
  obtain ⟨before, ns, after, hsplit, hbefore, hfault⟩ := split_of_moduleFault?_eq_some h
  have hallowed := moduleFault?_nil_eq_none_iff.1 hbefore
  refine ⟨before, ns, after, hsplit, hallowed, ?_⟩
  rcases hfault with hreserved | ⟨hfree, first, hfirst, herror⟩
  · exact .inl hreserved
  · rw [List.append_nil] at hfirst
    -- the name that was kept is that of a namespace which was passed
    obtain ⟨owner, howner, heq⟩ := List.mem_map.1 (List.mem_reverse.1 (mem_of_lookup hfirst))
    obtain ⟨hmodule, rfl⟩ := Prod.mk.inj heq
    refine .inr ⟨hfree, owner, ?_, herror⟩
    rw [← hmodule]
    exact filter_key_eq_singleton hallowed.2 howner

end ModelForge
