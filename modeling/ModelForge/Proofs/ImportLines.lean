/-
`ImportLines.lean` -- the `use` lines for imports, one by one.

`Imports.lean` says which modules a unit brings into scope. Here it is said in which order, and
that no line is there twice. A clause names a namespace, a line names a module, and two namespaces
may have one module. So clauses that differ could still make equal lines, or bring a unit into its
own scope. It does not happen when the clauses name namespaces of the graph: the scan in front of
a run keeps the modules of these apart (`moduleName_inj`), from one another and from the module of
the hooks.

The order is that in which the clauses first name the sources (`Namespace.FirstSeen`). This leaves
no choice (`Namespace.FirstSeen.unique`), so the lines are determined one by one
(`import_lines_exact`).
-/
import ModelForge.Proofs.ManifestUnits

set_option autoImplicit false

namespace ModelForge

/-! ## First occurrences -/

section

variable {α : Type} [DecidableEq α]

/-- Of one more element only the first occurrence is kept. -/
theorem eraseDups_concat (xs : List α) (x : α) :
    (xs ++ [x]).eraseDups = if x ∈ xs then xs.eraseDups else xs.eraseDups ++ [x] := by
  rw [List.eraseDups_append]
  by_cases hx : x ∈ xs
  · rw [if_pos hx]
    simp [List.removeAll, hx]
  · rw [if_neg hx]
    simp [List.removeAll, List.eraseDups_cons, hx]

/-- The elements that are kept stand in the order of their first occurrences, also among the
elements that were left out before. -/
theorem pairwise_idxOf_eraseDups_filter (p : α → Bool) (xs : List α) :
    (xs.filter p).eraseDups.Pairwise fun a b => xs.idxOf a < xs.idxOf b := by
  induction xs using List.reverseRecOn with
  | nil => exact .nil
  | append_singleton xs x ih =>
      have hmem : ∀ a ∈ (xs.filter p).eraseDups, a ∈ xs := fun a ha =>
        (List.mem_filter.1 (List.mem_eraseDups.1 ha)).1
      -- what is there already keeps its place
      have hkept : (xs.filter p).eraseDups.Pairwise fun a b =>
          (xs ++ [x]).idxOf a < (xs ++ [x]).idxOf b := by
        refine ih.imp_of_mem fun ha hb hlt => ?_
        rwa [List.idxOf_append_of_mem (hmem _ ha), List.idxOf_append_of_mem (hmem _ hb)]
      rw [List.filter_append]
      by_cases hp : p x = true
      · rw [List.filter_cons_of_pos hp, List.filter_nil, eraseDups_concat]
        by_cases hx : x ∈ xs.filter p
        · rwa [if_pos hx]
        · have hnew : x ∉ xs := fun h => hx (List.mem_filter.2 ⟨h, hp⟩)
          rw [if_neg hx, List.pairwise_append]
          refine ⟨hkept, List.pairwise_singleton _ _, fun a ha b hb => ?_⟩
          rw [List.mem_singleton.1 hb, List.idxOf_append_of_mem (hmem a ha),
            List.idxOf_append_of_notMem hnew]
          have hlt : xs.idxOf a < xs.length := List.idxOf_lt_length_iff.2 (hmem a ha)
          omega
      · rwa [List.filter_cons_of_neg hp, List.filter_nil, List.append_nil]

end

namespace Namespace

/-- The namespaces that the clauses of a namespace name, its own left out, each of them once, and
in the order in which they are first named. -/
structure FirstSeen (ns : Namespace) (sources : List String) : Prop where
  mem_iff : ∀ source, source ∈ sources
    ↔ (∃ clause ∈ ns.imports, clause.source = source) ∧ source ≠ ns.name
  ordered : sources.Pairwise fun a b =>
    (ns.imports.map Import.source).idxOf a < (ns.imports.map Import.source).idxOf b

variable {ns : Namespace} {sources sources' : List String}

theorem FirstSeen.nodup (h : ns.FirstSeen sources) : sources.Nodup :=
  h.ordered.imp fun hlt heq => absurd (heq ▸ hlt) (Nat.lt_irrefl _)

/-- There is only one such list. -/
theorem FirstSeen.unique (h : ns.FirstSeen sources) (h' : ns.FirstSeen sources') :
    sources = sources' := by
  have hperm : sources.Perm sources' := by
    rw [List.perm_ext_iff_of_nodup h.nodup h'.nodup]
    intro source
    rw [h.mem_iff, h'.mem_iff]
  refine hperm.eq_of_pairwise (fun a b _ _ hlt hgt => ?_) h.ordered h'.ordered
  exact absurd (hlt.trans hgt) (Nat.lt_irrefl _)

theorem firstSeen_importSources (ns : Namespace) : ns.FirstSeen ns.importSources := by
  refine ⟨fun source => ?_, pairwise_idxOf_eraseDups_filter _ _⟩
  rw [mem_importSources]
  constructor
  · rintro ⟨clause, hclause, hsource, hne⟩
    exact ⟨⟨clause, hclause, hsource⟩, hne⟩
  · rintro ⟨⟨clause, hclause, hsource⟩, hne⟩
    exact ⟨clause, hclause, hsource, hne⟩

end Namespace

/-! ## Lines -/

/-- The lines that every unit of a namespace begins with. -/
def unitHead : List String :=
  ["#![allow(unused_imports)]", "use serde::\x7b Deserialize, Serialize \x7d;",
    "use chrono::\x7b DateTime, TimeZone, Utc \x7d;", ""]

/-- The lines that bring the modules of some namespaces into scope, and that of the hooks. -/
def importLines (sources : List String) : List String :=
  sources.map (fun source => useLine (moduleName source)) ++ [useLine utilityModule]

/-- The lines are those of the listed modules. -/
theorem importLines_eq (sources : List String) :
    importLines sources = (sources.map moduleName ++ [utilityModule]).map useLine := by
  rw [importLines, List.map_append, List.map_map]
  rfl

theorem headerTexts_eq (ns : Namespace) :
    headerTexts ns = unitHead ++ importLines ns.importSources := by
  rw [headerTexts, importLines, List.append_assoc]
  rfl

/-- No stored line of a declaration reads like a `use` declaration. -/
theorem notUse_of_mem_declarationTexts {options : Options} {g : Graph} {d : Declaration}
    (hmembers : g.MembersDistinct options d) {text : String}
    (htext : text ∈ declarationTexts options g d) :
    NotUse text := by
  obtain ⟨line, hline, rfl⟩ := List.mem_map.1 htext
  have hemit := emit_declarationFragment options (memberName options.reserved) g
    (fault?_declarationFragment_eq_none_iff.2 hmembers)
  have hwritten :
      line ∈ ((declarationFragment options (memberName options.reserved) g d).emit 0).lines := by
    rwa [hemit]
  intro huse
  exact Fragment.text_of_mem_emit
    (writes_declarationFragment options (memberName options.reserved) g d)
    hwritten (isUse_of_render huse)

/-! ## Modules of a graph -/

/-- Every namespace that a clause names is in the graph. -/
def Graph.ImportsPresent (g : Graph) : Prop :=
  ∀ ns ∈ g.namespaces, ∀ clause ∈ ns.imports, ∃ source ∈ g.namespaces, source.name = clause.source

instance (g : Graph) : Decidable g.ImportsPresent :=
  inferInstanceAs (Decidable (∀ ns ∈ g.namespaces, ∀ clause ∈ ns.imports, _))

section

variable {options : Options} {g : Graph}

/-- Among the namespaces of a graph, modules that are allowed tell names apart. -/
theorem moduleName_inj (hmodules : ModulesAllowed options g.namespaces) {ns other : Namespace}
    (hns : ns ∈ g.namespaces) (hother : other ∈ g.namespaces)
    (hsame : moduleName ns.name = moduleName other.name) : ns = other :=
  List.inj_on_of_nodup_map hmodules.2 hns hother hsame

/-- The hooks have a module of their own. -/
theorem moduleName_ne_utilityModule
    (hmodules : ModulesAllowed options g.namespaces) {ns : Namespace} (hns : ns ∈ g.namespaces) :
    moduleName ns.name ≠ utilityModule := by
  intro hutility
  exact (hmodules.1 ns hns).1 (hutility ▸ List.mem_cons_self)

end

/-! ## Runs -/

/-- The unit of a namespace brings what is imported into scope, line by line, and nothing twice. -/
structure HoldsImports (options : Options) (g : Graph) (manifest : SourceUnit) (ns : Namespace)
    (unit : SourceUnit) (sources : List String) : Prop where
  name : unit.name = unitName (moduleName ns.name)
  firstSeen : ns.FirstSeen sources
  /-- The lines stand between the head of the unit and its declarations. -/
  lines : unit.lines
    = unitHead ++ importLines sources ++ ns.declarations.flatMap (declarationTexts options g)
  /-- Nothing behind them brings anything into scope. -/
  behind : ∀ text ∈ ns.declarations.flatMap (declarationTexts options g), NotUse text
  distinct : (importLines sources).Nodup
  foreign : useLine (moduleName ns.name) ∉ importLines sources
  listed : ∀ line ∈ importLines sources,
    ∃ module, line = useLine module ∧ manifestLine module ∈ manifest.lines

/-- A sealed namespace has its imports behind its head. -/
theorem holdsImports_sealed {options : Options} {g : Graph} (himports : g.ImportsPresent)
    (hmodules : ModulesAllowed options g.namespaces) {ns : Namespace} (hns : ns ∈ g.namespaces)
    (hmembers : ∀ d ∈ ns.declarations, g.MembersDistinct options d) :
    HoldsImports options g (manifestPlan g).sealed ns
      (namespacePlan options (memberName options.reserved) g ns).sealed ns.importSources := by
  have hsources : ∀ source ∈ ns.importSources,
      ∃ home ∈ g.namespaces, home.name = source ∧ home.name ≠ ns.name := by
    intro source hsource
    obtain ⟨clause, hclause, rfl, hne⟩ := mem_importSources.1 hsource
    obtain ⟨home, hhome, hname⟩ := himports ns hns clause hclause
    exact ⟨home, hhome, hname, hname ▸ hne⟩
  have hdistinct : (ns.importSources.map moduleName ++ [utilityModule]).Nodup := by
    rw [List.nodup_append]
    refine ⟨?_, List.nodup_singleton _, fun module hmodule other hother => ?_⟩
    · refine List.Nodup.map_on ?_ ns.firstSeen_importSources.nodup
      intro a ha b hb hsame
      obtain ⟨first, hfirst, rfl, -⟩ := hsources a ha
      obtain ⟨second, hsecond, rfl, -⟩ := hsources b hb
      rw [moduleName_inj hmodules hfirst hsecond hsame]
    · obtain ⟨source, hsource, rfl⟩ := List.mem_map.1 hmodule
      obtain ⟨home, hhome, rfl, -⟩ := hsources source hsource
      rw [List.mem_singleton.1 hother]
      exact moduleName_ne_utilityModule hmodules hhome
  refine ⟨rfl, ns.firstSeen_importSources, ?_, fun text htext => ?_, ?_, fun hline => ?_,
    fun line hline => ?_⟩
  · rw [sealed_namespacePlan options g hmembers, headerTexts_eq]
  · obtain ⟨d, hd, htext⟩ := List.mem_flatMap.1 htext
    exact notUse_of_mem_declarationTexts (hmembers d hd) htext
  · rw [importLines_eq]
    exact hdistinct.map fun _ _ => useLine_injective
  · rw [importLines_eq, List.mem_map] at hline
    obtain ⟨module, hmodule, hsame⟩ := hline
    rw [useLine_injective hsame] at hmodule
    rcases List.mem_append.1 hmodule with hmodule | hutility
    · obtain ⟨source, hsource, hsame⟩ := List.mem_map.1 hmodule
      obtain ⟨home, hhome, rfl, hne⟩ := hsources source hsource
      exact hne (congrArg Namespace.name (moduleName_inj hmodules hhome hns hsame))
    · exact moduleName_ne_utilityModule hmodules hns (List.mem_singleton.1 hutility)
  · rw [importLines_eq] at hline
    obtain ⟨module, hmodule, rfl⟩ := List.mem_map.1 hline
    refine ⟨module, rfl, ?_⟩
    rw [sealed_manifestPlan, ← map_manifestLine_modules]
    refine List.mem_map_of_mem ?_
    rcases List.mem_append.1 hmodule with hmodule | hutility
    · obtain ⟨source, hsource, rfl⟩ := List.mem_map.1 hmodule
      obtain ⟨home, hhome, rfl, -⟩ := hsources source hsource
      exact List.mem_append_left _ (List.mem_map_of_mem hhome)
    · exact List.mem_append_right _ hutility

/-- **The import lines of a unit are exact.** If the clauses name namespaces of the graph, then
behind a run that succeeds the unit of every namespace has, between its head and its declarations,
one line for each namespace that is imported, in the order in which the clauses first name them,
and then the line for the hooks. No line is there twice, none names the module of the unit itself,
and the manifest lists the modules of all of them. -/
theorem import_lines_exact {options : Options} {g : Graph} {units : List SourceUnit}
    {sink : MemorySink} (himports : g.ImportsPresent)
    (hrun : runFrom options g units = (.ok (), sink)) :
    ∃ manifest hooks sealed, sink.units = units ++ manifest :: hooks :: sealed
      ∧ manifest.name = manifestUnit
      ∧ List.Forall₂ (fun ns unit => ∃ sources, HoldsImports options g manifest ns unit sources)
        g.namespaces sealed := by
  obtain ⟨hmodules, hmembers, rfl⟩ := of_runFrom_eq_ok options g units hrun
  refine ⟨(manifestPlan g).sealed, (dateTimePlan options).sealed, _, rfl, rfl,
    forall₂_namespacePlans fun ns hns => ?_⟩
  exact ⟨_, holdsImports_sealed himports hmodules hns (hmembers ns hns)⟩

/-! Accounts import from two namespaces, from one of them in two clauses, and from themselves. -/

def paymentClass : Declaration :=
  .concept "accounts" "Payment" none [.field "amount" (.named "Amount")]

def accountsNamespace : Namespace :=
  ⟨"accounts",
    [.one "money@2.0.0" "Amount", .all "accounts", .all "base",
      .several "money@2.0.0" ["Currency"]],
    [paymentClass]⟩

def importingAccounts : Graph :=
  .ofNamespaces
    [⟨"base", [], []⟩, accountsNamespace,
      ⟨"money@2.0.0", [], [.concept "money@2.0.0" "Amount" none []]⟩]

/-- Accounts import two namespaces, one of them in a version, and then the hooks. -/
theorem import_lines_exact_accounts :
    importingAccounts.ImportsPresent
      ∧ ∃ sink, runFrom .default importingAccounts [] = (.ok (), sink)
        ∧ ∃ unit ∈ sink.units, unit.name = "accounts.rs"
          ∧ unit.lines.take 8
            = ["#![allow(unused_imports)]", "use serde::\x7b Deserialize, Serialize \x7d;",
              "use chrono::\x7b DateTime, TimeZone, Utc \x7d;", "",
              "use crate::money_2_0_0::*;", "use crate::base::*;", "use crate::utils::*;", ""] := by
  have himports : importingAccounts.ImportsPresent := by decide
  have hrun :=
    runFrom_of_clean .default importingAccounts [] (by decide +kernel) (by decide +kernel)
  obtain ⟨manifest, hooks, sealed, hunits, -, hsealed⟩ := import_lines_exact himports hrun
  obtain ⟨unit, hunit, sources, hholds⟩ : ∃ unit ∈ sealed, ∃ sources,
      HoldsImports .default importingAccounts manifest accountsNamespace unit sources := by
    cases hsealed with
    | cons _ hrest =>
        cases hrest with
        | cons hunit _ => exact ⟨_, List.mem_cons_of_mem _ List.mem_cons_self, hunit⟩
  have hsources : sources = ["money@2.0.0", "base"] :=
    hholds.firstSeen.unique accountsNamespace.firstSeen_importSources
  refine ⟨himports, _, hrun, unit, ?_, ?_, ?_⟩
  · rw [hunits]
    exact List.mem_cons_of_mem _ (List.mem_cons_of_mem _ hunit)
  · rw [hholds.name]
    decide +kernel
  · rw [hholds.lines, hsources]
    decide +kernel

end ModelForge
