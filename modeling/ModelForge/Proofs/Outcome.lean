/-
`Outcome.lean` -- when a generation run fails, and with what.

A run into memory can fail in two ways. The modules of the namespaces are judged before anything
is written, and there the first fault decides (`ModuleFault`). After that only a declaration can
fail the run, when two of its members would become one (`Graph.MembersDistinct`): all other source
is written without a condition. The declarations are met in the order of the namespaces, so the
units of the namespaces before the failing one are sealed by then, behind the manifest and the
date-time hooks, and the unit that was open is dropped.

The scans that find the fault are described in `Clashes.lean`, and what writing does to the sink in
`MemoryRun.lean`. What is left to show here is which fragments give up.
-/
import ModelForge.Proofs.Clashes
import ModelForge.Proofs.MemoryRun

set_option autoImplicit false

namespace ModelForge

/-! ## Fragments that never give up -/

/-- Documentation is without a fault. -/
theorem fault?_decoratorDocs (decorators : List Decorator) :
    (decoratorDocs decorators).fault? = none := by
  unfold decoratorDocs
  split
  · apply Fragment.fault?_all_map
    intro text _
    rfl
  · rfl

/-- Fields are without a fault. -/
theorem fault?_fieldFragment (field : Field) : (fieldFragment field).fault? = none := by
  simp only [fieldFragment, Fragment.fault?_append, fault?_decoratorDocs, Fragment.fault?_lines,
    Fragment.fault?, Option.or_none]

/-- Variants are without a fault. -/
theorem fault?_variantFragment (options : Options) (value : Property) :
    (variantFragment options value).fault? = none := by
  -- with or without the attribute that keeps the spelling of the model
  have hrename : ∀ p : Prop, [Decidable p] → ∀ body : String,
      (if p then Fragment.nothing else .attr body).fault? = none := by
    intro p _ body
    split <;> rfl
  simp only [variantFragment, Fragment.fault?_append, fault?_decoratorDocs,
    hrename, Fragment.fault?, Option.or_none]

/-- The head of a unit is without a fault. -/
theorem fault?_unitHeader (ns : Namespace) : (unitHeader ns).fault? = none := by
  have huses : (Fragment.all
      (ns.importSources.map fun source => .use (wholeModule (moduleName source)))).fault?
        = none := by
    apply Fragment.fault?_all_map
    intro source _
    rfl
  have huse : ∀ path, (Fragment.use path).fault? = none := fun _ => rfl
  simp only [unitHeader, Fragment.fault?_append, huses, huse, Fragment.blank, Fragment.fault?,
    Option.or_none]

theorem fault?_manifestPlan (g : Graph) : (manifestPlan g).content.fault? = none :=
  Fragment.fault?_lines _

theorem fault?_dateTimePlan (options : Options) : (dateTimePlan options).content.fault? = none := by
  rw [dateTimePlan, dateTimeFragment]
  -- what the lines are plays no part, and the text they are cut from is long
  generalize splitLines (dateTimeSource options.dateTimeFormat).toList = lines
  apply Fragment.fault?_all_map
  intro text _
  rfl

/-! ## Declarations -/

namespace Graph

/-- The identifiers that the members of a declaration become, each with the name it comes from. The
discriminator of a record comes first. -/
def spellings (options : Options) (naming : String → String) (g : Graph) (d : Declaration) :
    List (String × String) :=
  match d.body with
  | .record .. =>
      (discriminatorField, discriminatorKey)
        :: (g.dataMembers d).map fun m => (naming m.property.name, m.property.name)
  | .enumeration values =>
      values.map fun value => (typeName options.reserved value.name, value.name)
  | .scalar .. => []

/-- No two members of a declaration become one: the fields of a record, with its discriminator, and
the variants of an enum. -/
def MembersDistinct (options : Options) (g : Graph) (d : Declaration) : Prop :=
  (d.isClass = true →
      (discriminatorField
        :: (g.dataMembers d).map fun m => memberName options.reserved m.property.name).Nodup)
    ∧ ∀ values, d.body = .enumeration values →
      (values.map fun value => typeName options.reserved value.name).Nodup

end Graph

/-- The error for a clash among the members of a declaration. -/
def memberFault (d : Declaration) (clash : Clash) : GenerationError :=
  .memberCollision d.qualifiedName clash.identifier clash.first clash.second

/-- **The fault of a record is its first clash of members**, if there is one. -/
theorem fault?_recordFragment (options : Options) (naming : String → String) (g : Graph)
    (d : Declaration) :
    (recordFragment options naming g d).fault? = (recordClash? naming g d).map (memberFault d) := by
  have hfields :
      (Fragment.all ((recordFields options naming g d).map fieldFragment)).fault? = none := by
    apply Fragment.fault?_all_map
    intro field _
    exact fault?_fieldFragment field
  rw [recordFragment]
  cases recordClash? naming g d with
  | some clash => rfl
  | none =>
      have hderive : (Fragment.derive derivedTraits).fault? = none := rfl
      simp only [Fragment.fault?_append, fault?_decoratorDocs, hderive, hfields, Fragment.blank,
        Fragment.fault?, Option.or_none, Option.map_none]

/-- The fault of an enum is the first clash of its variants. -/
theorem fault?_enumFragment (options : Options) (d : Declaration) (values : List Property) :
    (enumFragment options d values).fault? = (enumClash? options values).map (memberFault d) := by
  have hvariants : (Fragment.all (values.map (variantFragment options))).fault? = none := by
    apply Fragment.fault?_all_map
    intro value _
    exact fault?_variantFragment options value
  rw [enumFragment]
  cases enumClash? options values with
  | some clash => rfl
  | none =>
      have hderive : (Fragment.derive derivedTraits).fault? = none := rfl
      simp only [Fragment.fault?_append, fault?_decoratorDocs, hderive, hvariants, Fragment.blank,
        Fragment.attr, Fragment.fault?, Option.or_none, Option.map_none]

/-- **A declaration gives up with its first clash**, and with nothing else. -/
theorem fault?_declarationFragment (options : Options) (naming : String → String) (g : Graph)
    (d : Declaration) :
    (declarationFragment options naming g d).fault?
      = (firstClash? [] (g.spellings options naming d)).map (memberFault d) := by
  unfold declarationFragment Graph.spellings
  cases d.body with
  | record flavor isAbstract superType properties =>
      dsimp only
      rw [fault?_recordFragment]
      rfl
  | enumeration values =>
      dsimp only
      rw [fault?_enumFragment]
      rfl
  | scalar primitive default => rfl

/-- Members are distinct if no two of them are spelled the same. -/
theorem Graph.membersDistinct_iff {options : Options} {g : Graph} {d : Declaration} :
    g.MembersDistinct options d
      ↔ ((g.spellings options (memberName options.reserved) d).map Prod.fst).Nodup := by
  unfold Graph.spellings Graph.MembersDistinct Declaration.isClass
  cases d.body with
  | record flavor isAbstract superType properties => simp [Function.comp_def]
  | enumeration values => simp [Function.comp_def]
  | scalar primitive default => simp

instance (options : Options) (g : Graph) (d : Declaration) :
    Decidable (g.MembersDistinct options d) :=
  decidable_of_iff _ Graph.membersDistinct_iff.symm

/-- A declaration gives up exactly when members of it would become one. -/
theorem fault?_declarationFragment_eq_none_iff {options : Options} {g : Graph} {d : Declaration} :
    (declarationFragment options (memberName options.reserved) g d).fault? = none
      ↔ g.MembersDistinct options d := by
  rw [fault?_declarationFragment, Option.map_eq_none_iff, firstClash?_nil_eq_none_iff,
    Graph.membersDistinct_iff]

/-- The fault of a namespace is that of its first declaration that has one. -/
theorem fault?_namespaceFragment (options : Options) (naming : String → String) (g : Graph)
    (ns : Namespace) :
    (namespaceFragment options naming g ns).fault?
      = ns.declarations.findSome? fun d => (declarationFragment options naming g d).fault? := by
  rw [namespaceFragment, Fragment.fault?_append, fault?_unitHeader, Option.none_or,
    Fragment.fault?_all, List.findSome?_map]
  rfl

/-- A namespace is without a fault if the members of all its declarations are distinct. -/
theorem fault?_namespaceFragment_eq_none_iff {options : Options} {g : Graph} {ns : Namespace} :
    (namespaceFragment options (memberName options.reserved) g ns).fault? = none
      ↔ ∀ d ∈ ns.declarations, g.MembersDistinct options d := by
  rw [fault?_namespaceFragment, List.findSome?_eq_none_iff]
  exact forall₂_congr fun d _ => fault?_declarationFragment_eq_none_iff

/-! ## Runs -/

section

variable (options : Options) (g : Graph) (units : List SourceUnit)

/-- What a run writes up to the units of the given namespaces: the manifest and the date-time hooks
come first. -/
def plansUpTo (namespaces : List Namespace) : List UnitPlan :=
  manifestPlan g :: dateTimePlan options
    :: namespaces.map (namespacePlan options (memberName options.reserved) g)

/-- Without a clash in the namespaces, all units up to them are without a fault. -/
theorem fault?_plansUpTo {namespaces : List Namespace}
    (h : ∀ ns ∈ namespaces, ∀ d ∈ ns.declarations, g.MembersDistinct options d) :
    ∀ unit ∈ plansUpTo options g namespaces, unit.content.fault? = none := by
  rw [plansUpTo, List.forall_mem_cons, List.forall_mem_cons]
  refine ⟨fault?_manifestPlan g, fault?_dateTimePlan options, fun unit hunit => ?_⟩
  obtain ⟨ns, hns, rfl⟩ := List.mem_map.1 hunit
  exact fault?_namespaceFragment_eq_none_iff.2 (h ns hns)

/-- A run on a sink without an open unit. -/
def runFrom : Except GenerationError Unit × MemorySink :=
  MemorySink.run ⟨.empty, units⟩ (generate options g)

/-- A module that is at fault ends the run, and no unit is sealed. -/
theorem runFrom_of_moduleFault {error : GenerationError}
    (h : moduleFault? options [] g.namespaces = some error) :
    runFrom options g units = (.error error, ⟨.empty, units⟩) := by
  rw [runFrom, generate, plan, h]
  rfl

/-- **With modules that are allowed, a run writes its units in turn.** -/
theorem runFrom_of_allowed (h : ModulesAllowed options g.namespaces) :
    runFrom options g units
      = MemorySink.run ⟨.empty, units⟩ (writeUnits (plansUpTo options g g.namespaces)) := by
  rw [runFrom, generate, plan, moduleFault?_nil_eq_none_iff.2 h]
  rfl

/-- Nothing stops a run whose modules are allowed and whose members stay distinct. -/
theorem runFrom_of_clean (hmodules : ModulesAllowed options g.namespaces)
    (hmembers : ∀ d ∈ g.declarations, g.MembersDistinct options d) :
    runFrom options g units
      = (.ok (), ⟨.empty, units ++ (plansUpTo options g g.namespaces).map UnitPlan.sealed⟩) := by
  rw [runFrom_of_allowed options g units hmodules]
  refine MemorySink.run_writeUnits_of_clean units _ (fault?_plansUpTo options g ?_)
  exact fun ns hns d hd => hmembers d (List.mem_flatMap.2 ⟨ns, hns, hd⟩)

/-- The fault of a module, the first one, ends a run before it has written anything. -/
theorem runFrom_of_not_allowed (hmodules : ¬ ModulesAllowed options g.namespaces) :
    ∃ before ns after error, g.namespaces = before ++ ns :: after ∧ ModulesAllowed options before
      ∧ ModuleFault options before ns error
      ∧ runFrom options g units = (.error error, ⟨.empty, units⟩) := by
  cases hfault : moduleFault? options [] g.namespaces with
  | none => exact absurd (moduleFault?_nil_eq_none_iff.1 hfault) hmodules
  | some error =>
      obtain ⟨before, ns, after, hsplit, hbefore, hns⟩ := split_of_moduleFault?_nil_eq_some hfault
      have hrun := runFrom_of_moduleFault options g units hfault
      exact ⟨before, ns, after, error, hsplit, hbefore, hns, hrun⟩

/-- What a run answers that stops at the declaration `d`: the first clash among its members. -/
def StopsAt (d : Declaration) (outcome : Except GenerationError Unit) : Prop :=
  ∃ before identifier first second after,
    g.spellings options (memberName options.reserved) d = before ++ (identifier, second) :: after
      ∧ (before.map Prod.fst).Nodup
      ∧ (before.filter fun entry => entry.1 = identifier) = [(identifier, first)]
      ∧ outcome = .error (.memberCollision d.qualifiedName identifier first second)

/-- A namespace gives up at the first of its declarations that has a clash. -/
theorem stopsAt_of_fault?_namespaceFragment {ns : Namespace} {error : GenerationError}
    (h : (namespaceFragment options (memberName options.reserved) g ns).fault? = some error) :
    ∃ before d after, ns.declarations = before ++ d :: after
      ∧ (∀ e ∈ before, g.MembersDistinct options e) ∧ StopsAt options g d (.error error) := by
  rw [fault?_namespaceFragment] at h
  obtain ⟨before, d, after, hsplit, hfault, hbefore⟩ := List.findSome?_eq_some_iff.1 h
  rw [fault?_declarationFragment, Option.map_eq_some_iff] at hfault
  obtain ⟨clash, hclash, rfl⟩ := hfault
  obtain ⟨p, q, hentries, hnodup, hholder⟩ := split_of_firstClash?_nil_eq_some hclash
  refine ⟨before, d, after, hsplit, fun e he => ?_, ?_⟩
  · exact fault?_declarationFragment_eq_none_iff.1 (hbefore e he)
  · exact ⟨p, clash.identifier, clash.first, clash.second, q, hentries, hnodup, hholder, rfl⟩

/-- The first clash of the first declaration that has one ends a run in the unit of its namespace.
-/
theorem runFrom_of_clash (hmodules : ModulesAllowed options g.namespaces)
    (hmembers : ¬ ∀ d ∈ g.declarations, g.MembersDistinct options d) :
    ∃ nsBefore ns nsAfter before d after, g.namespaces = nsBefore ++ ns :: nsAfter
      ∧ ns.declarations = before ++ d :: after
      ∧ (∀ other ∈ nsBefore, ∀ e ∈ other.declarations, g.MembersDistinct options e)
      ∧ (∀ e ∈ before, g.MembersDistinct options e)
      ∧ StopsAt options g d (runFrom options g units).1
      ∧ (runFrom options g units).2
          = ⟨.empty, units ++ (plansUpTo options g nsBefore).map UnitPlan.sealed⟩ := by
  have hwrite := runFrom_of_allowed options g units hmodules
  cases hfirst : g.namespaces.findSome? fun ns =>
      (namespaceFragment options (memberName options.reserved) g ns).fault? with
  | none =>
      rw [List.findSome?_eq_none_iff] at hfirst
      refine absurd (fun d hd => ?_) hmembers
      obtain ⟨ns, hns, hd⟩ := List.mem_flatMap.1 hd
      exact fault?_namespaceFragment_eq_none_iff.1 (hfirst ns hns) d hd
  | some error =>
      obtain ⟨nsBefore, ns, nsAfter, hsplit, herror, hnsBefore⟩ :=
        List.findSome?_eq_some_iff.1 hfirst
      have hearlier : ∀ other ∈ nsBefore, ∀ e ∈ other.declarations, g.MembersDistinct options e :=
        fun other hother => fault?_namespaceFragment_eq_none_iff.1 (hnsBefore other hother)
      -- the unit of `ns` is the first one with an error
      have hplans : plansUpTo options g g.namespaces
          = plansUpTo options g nsBefore
            ++ namespacePlan options (memberName options.reserved) g ns
              :: nsAfter.map (namespacePlan options (memberName options.reserved) g) := by
        rw [plansUpTo, plansUpTo, hsplit, List.map_append, List.map_cons]
        rfl
      rw [hplans, MemorySink.run_writeUnits_of_fault units _ _ _
        (fault?_plansUpTo options g hearlier) herror] at hwrite
      obtain ⟨before, d, after, hdsplit, hdbefore, hstop⟩ :=
        stopsAt_of_fault?_namespaceFragment options g herror
      refine ⟨nsBefore, ns, nsAfter, before, d, after, hsplit, hdsplit, hearlier, hdbefore, ?_, ?_⟩
      · rw [hwrite]
        exact hstop
      · rw [hwrite]

/-- A run that succeeds had no reason to fail. -/
theorem runFrom_eq_ok_iff :
    (runFrom options g units).1 = .ok ()
      ↔ ModulesAllowed options g.namespaces
        ∧ ∀ d ∈ g.declarations, g.MembersDistinct options d := by
  constructor
  · intro hok
    by_cases hmodules : ModulesAllowed options g.namespaces
    · refine ⟨hmodules, ?_⟩
      -- a clash would have been answered
      by_contra hmembers
      obtain ⟨_, _, _, _, d, _, -, -, -, -, ⟨_, _, _, _, _, -, -, -, herror⟩, -⟩ :=
        runFrom_of_clash options g units hmodules hmembers
      exact absurd (hok.symm.trans herror) (by simp)
    · obtain ⟨before, ns, after, error, -, -, -, hrun⟩ :=
        runFrom_of_not_allowed options g units hmodules
      rw [hrun] at hok
      exact absurd hok (by simp)
  · rintro ⟨hmodules, hmembers⟩
    rw [runFrom_of_clean options g units hmodules hmembers]

/-- No run into memory fails with the sink. -/
theorem runFrom_ne_sink (e : SinkError) : (runFrom options g units).1 ≠ .error (.sink e) := by
  intro hsink
  by_cases hmodules : ModulesAllowed options g.namespaces
  · by_cases hmembers : ∀ d ∈ g.declarations, g.MembersDistinct options d
    · rw [runFrom_of_clean options g units hmodules hmembers] at hsink
      exact absurd hsink (by simp)
    · obtain ⟨_, _, _, _, d, _, -, -, -, -, ⟨_, _, _, _, _, -, -, -, herror⟩, -⟩ :=
        runFrom_of_clash options g units hmodules hmembers
      exact absurd (hsink.symm.trans herror) (by simp)
  · obtain ⟨before, ns, after, error, -, -, hns, hrun⟩ :=
      runFrom_of_not_allowed options g units hmodules
    rw [hrun] at hsink
    rcases hns with ⟨-, rfl⟩ | ⟨-, owner, -, rfl⟩ <;> exact absurd hsink (by simp)

/-- **A run fails exactly when it must, and names the first offender.** On a sink without an open
unit it succeeds when every module is allowed and none stands for two namespaces, and no two
members of a declaration become one. Then all units are sealed. It never fails with the sink. If
the modules are at fault, the error is about the first one that is, and nothing is written; if
only members are, it is about the first clash in the first declaration that has one, and the units
of the namespaces before it are sealed behind the manifest and the date-time hooks, and no others.
-/
theorem run_fails_exactly_when_it_must :
    ((runFrom options g units).1 = .ok ()
        ↔ ModulesAllowed options g.namespaces ∧ ∀ d ∈ g.declarations, g.MembersDistinct options d)
      ∧ ((runFrom options g units).1 = .ok () → (runFrom options g units).2
        = ⟨.empty, units ++ (plansUpTo options g g.namespaces).map UnitPlan.sealed⟩)
      ∧ (∀ e, (runFrom options g units).1 ≠ .error (.sink e))
      ∧ (¬ ModulesAllowed options g.namespaces →
        ∃ before ns after error, g.namespaces = before ++ ns :: after
          ∧ ModulesAllowed options before ∧ ModuleFault options before ns error
          ∧ runFrom options g units = (.error error, ⟨.empty, units⟩))
      ∧ (ModulesAllowed options g.namespaces →
        ¬ (∀ d ∈ g.declarations, g.MembersDistinct options d) →
        ∃ nsBefore ns nsAfter before d after, g.namespaces = nsBefore ++ ns :: nsAfter
          ∧ ns.declarations = before ++ d :: after
          ∧ (∀ other ∈ nsBefore, ∀ e ∈ other.declarations, g.MembersDistinct options e)
          ∧ (∀ e ∈ before, g.MembersDistinct options e)
          ∧ StopsAt options g d (runFrom options g units).1
          ∧ (runFrom options g units).2
              = ⟨.empty, units ++ (plansUpTo options g nsBefore).map UnitPlan.sealed⟩) := by
  refine ⟨runFrom_eq_ok_iff options g units, fun hok => ?_, runFrom_ne_sink options g units,
    runFrom_of_not_allowed options g units, runFrom_of_clash options g units⟩
  obtain ⟨hmodules, hmembers⟩ := (runFrom_eq_ok_iff options g units).1 hok
  rw [runFrom_of_clean options g units hmodules hmembers]

/-- What a run that succeeds has found, and what it leaves. -/
theorem of_runFrom_eq_ok {sink : MemorySink} (hrun : runFrom options g units = (.ok (), sink)) :
    ModulesAllowed options g.namespaces
      ∧ (∀ ns ∈ g.namespaces, ∀ d ∈ ns.declarations, g.MembersDistinct options d)
      ∧ sink = ⟨.empty, units ++ (plansUpTo options g g.namespaces).map UnitPlan.sealed⟩ := by
  have hok : (runFrom options g units).1 = .ok () := by rw [hrun]
  obtain ⟨hmodules, hmembers⟩ := (runFrom_eq_ok_iff options g units).1 hok
  rw [runFrom_of_clean options g units hmodules hmembers] at hrun
  exact ⟨hmodules, fun ns hns d hd => hmembers d (List.mem_flatMap.2 ⟨ns, hns, hd⟩),
    (Prod.mk.inj hrun).2.symm⟩

end

/-- The units of the namespaces stand in the order of the namespaces. -/
theorem forall₂_namespacePlans {options : Options} {g : Graph} {p : Namespace → SourceUnit → Prop}
    (h : ∀ ns ∈ g.namespaces,
      p ns (namespacePlan options (memberName options.reserved) g ns).sealed) :
    List.Forall₂ p g.namespaces ((g.namespaces.map
      (namespacePlan options (memberName options.reserved) g)).map UnitPlan.sealed) := by
  rw [List.map_map, List.forall₂_map_right_iff, List.forall₂_same]
  exact h

end ModelForge
