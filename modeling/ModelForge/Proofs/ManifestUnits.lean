/-
`ManifestUnits.lean` -- the manifest and the units that it announces.

A module is not an injective spelling of its namespace, so nothing but the scan in front of a run
keeps two units apart, and a namespace's unit from the manifest and the hooks. What the scan
guarantees is that the names of the units are distinct (`nodup_names_plansUpTo`), and everything
else follows: lines of the manifest and names of units are both spelled from modules, and both
spellings are injective. So a line announces one unit and a unit is announced by one line
(`manifest_matches_units`).
-/
import ModelForge.Proofs.IntroducedNames

set_option autoImplicit false

namespace ModelForge

/-! ## Lines and units of a module -/

/-- Modules are told apart by their lines in the manifest. -/
theorem manifestLine_injective {module other : String}
    (h : manifestLine module = manifestLine other) :
    module = other := by
  unfold manifestLine at h
  rwa [String.append_left_inj, String.append_right_inj] at h

/-- A line of the manifest announces the unit of the module that it names. -/
def Announces (line : String) (unit : SourceUnit) : Prop :=
  ∃ module, line = manifestLine module ∧ unit.name = unitName module

/-- The line of a module announces its unit and no other. -/
theorem announces_manifestLine_iff {module : String} {unit : SourceUnit} :
    Announces (manifestLine module) unit ↔ unit.name = unitName module := by
  constructor
  · rintro ⟨other, hline, hname⟩
    rw [hname, manifestLine_injective hline]
  · exact fun hname => ⟨module, rfl, hname⟩

/-- The modules that the manifest lists. -/
def Graph.modules (g : Graph) : List String :=
  (g.namespaces.map fun ns => moduleName ns.name) ++ [utilityModule]

theorem map_manifestLine_modules (g : Graph) : g.modules.map manifestLine = manifestTexts g := by
  rw [Graph.modules, List.map_append, List.map_map]
  rfl

/-- The names of the units of a run, in order. -/
def Graph.unitNames (g : Graph) : List String :=
  manifestUnit :: unitName utilityModule :: g.namespaces.map fun ns => unitName (moduleName ns.name)

/-- The units are sealed under the names that the graph gives them, in order. -/
theorem map_name_plansUpTo (options : Options) (g : Graph) :
    ((plansUpTo options g g.namespaces).map UnitPlan.sealed).map SourceUnit.name = g.unitNames := by
  rw [plansUpTo, List.map_cons, List.map_cons, List.map_cons, List.map_cons,
    List.map_map, List.map_map]
  rfl

/-- Besides the manifest, the units are those of the listed modules. -/
theorem mem_unitNames_iff {g : Graph} {name : String} :
    name ∈ g.unitNames ↔ name = manifestUnit ∨ ∃ module ∈ g.modules, name = unitName module := by
  rw [Graph.unitNames, List.mem_cons, List.mem_cons, List.mem_map]
  refine or_congr_right ?_
  rw [Graph.modules]
  constructor
  · rintro (rfl | ⟨ns, hns, rfl⟩)
    · exact ⟨utilityModule, List.mem_append_right _ (List.mem_singleton_self _), rfl⟩
    · exact ⟨moduleName ns.name, List.mem_append_left _ (List.mem_map_of_mem hns), rfl⟩
  · rintro ⟨module, hmodule, rfl⟩
    rcases List.mem_append.1 hmodule with hmodule | hmodule
    · obtain ⟨ns, hns, rfl⟩ := List.mem_map.1 hmodule
      exact .inr ⟨ns, hns, rfl⟩
    · exact .inl (congrArg unitName (List.mem_singleton.1 hmodule))

section

variable {options : Options} {g : Graph}

/-- The modules that are listed are distinct if those of the namespaces are allowed. -/
theorem nodup_modules (hmodules : ModulesAllowed options g.namespaces) : g.modules.Nodup := by
  rw [Graph.modules, List.nodup_append]
  refine ⟨hmodules.2, List.nodup_singleton _, fun module hmodule other hother => ?_⟩
  obtain ⟨ns, hns, rfl⟩ := List.mem_map.1 hmodule
  rw [List.mem_singleton.1 hother]
  exact fun hutility => (hmodules.1 ns hns).1 (hutility ▸ List.mem_cons_self)

/-- No module has the unit of the manifest for its own. -/
theorem unitName_ne_manifestUnit (hmodules : ModulesAllowed options g.namespaces) {module : String}
    (hmodule : module ∈ g.modules) : unitName module ≠ manifestUnit := by
  have hmanifest : manifestUnit = unitName "mod" := by decide
  rw [hmanifest]
  intro hname
  rw [unitName_injective hname, Graph.modules, List.mem_append] at hmodule
  rcases hmodule with hmodule | hmodule
  · obtain ⟨ns, hns, hreserved⟩ := List.mem_map.1 hmodule
    refine (hmodules.1 ns hns).1 ?_
    rw [hreserved]
    decide
  · exact absurd (List.mem_singleton.1 hmodule) (by decide)

end

/-! ## Runs -/

/-- A unit holds the declarations of a namespace: its lines are the head of the unit and then the
lines of the declarations, in order, and both readers find in it what these declarations stand for
and no more. -/
structure HoldsDeclarations (options : Options) (g : Graph) (ns : Namespace) (unit : SourceUnit) :
    Prop where
  name : unit.name = unitName (moduleName ns.name)
  lines : unit.lines = headerTexts ns ++ ns.declarations.flatMap (declarationTexts options g)
  names : namesIn unit.lines = ns.declarations.flatMap (g.introducedNames options)
  items : itemsIn unit.lines
    = ns.declarations.flatMap fun d => wireItems options d.owner (g.lineage d) d

/-- The manifest and the units of a run match. -/
structure ManifestMatches (g : Graph) (manifest : SourceUnit) (units : List SourceUnit) : Prop where
  lines : manifest.lines
    = (g.namespaces.map fun ns => manifestLine (moduleName ns.name)) ++ [manifestLine utilityModule]
  linesDistinct : manifest.lines.Nodup
  order : units.map SourceUnit.name
    = manifestUnit :: unitName utilityModule
      :: g.namespaces.map fun ns => unitName (moduleName ns.name)
  namesDistinct : (units.map SourceUnit.name).Nodup
  /-- Each line announces one unit, and it is not the manifest. -/
  unitOfLine : ∀ line ∈ manifest.lines,
    (∃! unit, unit ∈ units ∧ Announces line unit) ∧ ¬ Announces line manifest
  /-- Each unit but the manifest is announced by one line. -/
  lineOfUnit : ∀ unit ∈ units, unit.name ≠ manifestUnit →
    ∃! line, line ∈ manifest.lines ∧ Announces line unit

section

variable {options : Options} {g : Graph} {units : List SourceUnit}

/-- Every module of the manifest has exactly one unit. -/
theorem existsUnique_unit_of_module (hnames : units.map SourceUnit.name = g.unitNames)
    (hdistinct : (units.map SourceUnit.name).Nodup) {module : String}
    (hmodule : module ∈ g.modules) :
    ∃! unit, unit ∈ units ∧ Announces (manifestLine module) unit := by
  have hname : unitName module ∈ units.map SourceUnit.name := by
    rw [hnames, mem_unitNames_iff]
    exact .inr ⟨module, hmodule, rfl⟩
  obtain ⟨unit, hunit, hunitName⟩ := List.mem_map.1 hname
  refine ⟨unit, ⟨hunit, announces_manifestLine_iff.2 hunitName⟩,
    fun other ⟨hother, hannounced⟩ => ?_⟩
  refine List.inj_on_of_nodup_map hdistinct hother hunit ?_
  rw [announces_manifestLine_iff.1 hannounced, hunitName]

/-- Every unit but the manifest itself has exactly one line. -/
theorem existsUnique_line_of_unit (hnames : units.map SourceUnit.name = g.unitNames)
    {unit : SourceUnit} (hunit : unit ∈ units) (hmanifest : unit.name ≠ manifestUnit) :
    ∃! line, line ∈ manifestTexts g ∧ Announces line unit := by
  have hname : unit.name ∈ g.unitNames := hnames ▸ List.mem_map_of_mem hunit
  obtain ⟨module, hmodule, hmoduleName⟩ := (mem_unitNames_iff.1 hname).resolve_left hmanifest
  rw [← map_manifestLine_modules]
  refine ⟨manifestLine module,
    ⟨List.mem_map_of_mem hmodule, announces_manifestLine_iff.2 hmoduleName⟩, ?_⟩
  rintro line ⟨-, other, rfl, hother⟩
  rw [unitName_injective (hother.symm.trans hmoduleName)]

/-- **Manifest and units match**, where all modules are allowed. -/
theorem manifestMatches_sealed (hmodules : ModulesAllowed options g.namespaces) :
    ManifestMatches g (manifestPlan g).sealed
      ((plansUpTo options g g.namespaces).map UnitPlan.sealed) := by
  have hnames := map_name_plansUpTo options g
  have hdistinct := nodup_names_plansUpTo hmodules
  have hlines : (manifestPlan g).sealed.lines = manifestTexts g := by rw [sealed_manifestPlan]
  refine ⟨hlines, ?_, hnames, hdistinct, fun line hline => ?_, fun unit hunit hmanifest => ?_⟩
  · rw [hlines, ← map_manifestLine_modules]
    exact (nodup_modules hmodules).map fun _ _ => manifestLine_injective
  · rw [hlines, ← map_manifestLine_modules] at hline
    obtain ⟨module, hmodule, rfl⟩ := List.mem_map.1 hline
    refine ⟨existsUnique_unit_of_module hnames hdistinct hmodule, fun hannounced => ?_⟩
    have hname := announces_manifestLine_iff.1 hannounced
    exact unitName_ne_manifestUnit hmodules hmodule hname.symm
  · rw [hlines]
    exact existsUnique_line_of_unit hnames hunit hmanifest

/-- A sealed namespace holds its own declarations and no more. -/
theorem holdsDeclarations_sealed {ns : Namespace}
    (hmembers : ∀ d ∈ ns.declarations, g.MembersDistinct options d) :
    HoldsDeclarations options g ns
      (namespacePlan options (memberName options.reserved) g ns).sealed := by
  refine ⟨rfl, ?_, namesIn_namespacePlan hmembers, ?_⟩
  · rw [sealed_namespacePlan options g hmembers]
  · rw [sealed_namespacePlan options g hmembers, itemsIn_unit]
    simp only [itemsIn_declarationTexts]

/-- **Manifest and units match one to one.** A run into an empty sink that succeeds leaves no unit
open and seals the manifest, the hooks and one unit for each namespace, in this order and under
distinct names. The lines of the manifest are those of the modules of the namespaces, in order,
and that of the hooks; each of them announces exactly one unit, and each unit but the manifest is
announced by exactly one of them. Every unit is found by its name, so none is hidden by another.
The unit of a namespace holds the declarations of that namespace and no others; the manifest lists
modules only, and the hooks declare nothing. -/
theorem manifest_matches_units {sink : MemorySink} (hrun : runFrom options g [] = (.ok (), sink)) :
    ∃ manifest hooks sealed, sink = ⟨.empty, manifest :: hooks :: sealed⟩
      ∧ ManifestMatches g manifest sink.units
      ∧ (∀ unit ∈ sink.units, sink.unit? unit.name = some unit)
      ∧ List.Forall₂ (HoldsDeclarations options g) g.namespaces sealed
      ∧ (∀ introduced ∈ namesIn manifest.lines, introduced.role = .module)
      ∧ namesIn hooks.lines = [] := by
  obtain ⟨hmodules, hmembers, rfl⟩ := of_runFrom_eq_ok options g [] hrun
  rw [List.nil_append]
  refine ⟨(manifestPlan g).sealed, (dateTimePlan options).sealed, _, rfl,
    manifestMatches_sealed hmodules, fun unit hunit => ?_,
    forall₂_namespacePlans fun ns hns => holdsDeclarations_sealed (hmembers ns hns),
    fun introduced hintroduced => ?_, namesIn_dateTimePlan options⟩
  · exact find?_key_of_mem SourceUnit.name (nodup_names_plansUpTo hmodules) hunit
  · rw [namesIn_manifestPlan, List.mem_append] at hintroduced
    rcases hintroduced with hmodule | hutility
    · obtain ⟨ns, -, rfl⟩ := List.mem_map.1 hmodule
      rfl
    · rw [List.mem_singleton.1 hutility]

end

/-- Three namespaces have five units, and four lines announce them. -/
theorem manifest_matches_units_three :
    ∃ sink, runFrom .default threeNamespaces [] = (.ok (), sink)
      ∧ sink.units.map SourceUnit.name = ["mod.rs", "utils.rs", "a.rs", "b.rs", "c.rs"]
      ∧ ∃ manifest ∈ sink.units,
        manifest.lines = ["pub mod a;", "pub mod b;", "pub mod c;", "pub mod utils;"]
        ∧ ∃! unit, unit ∈ sink.units ∧ Announces "pub mod b;" unit := by
  obtain ⟨manifest, hooks, sealed, hsink, hmatches, -⟩ :=
    manifest_matches_units runFrom_threeNamespaces
  have hlines : manifest.lines = ["pub mod a;", "pub mod b;", "pub mod c;", "pub mod utils;"] := by
    rw [hmatches.lines]
    decide +kernel
  refine ⟨_, runFrom_threeNamespaces, ?_, manifest, ?_, hlines, ?_⟩
  · rw [hmatches.order]
    decide +kernel
  · rw [hsink]
    exact List.mem_cons_self
  · refine (hmatches.unitOfLine "pub mod b;" ?_).1
    rw [hlines]
    decide

end ModelForge
