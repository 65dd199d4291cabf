/-
`Scope.lean` -- which type names of a unit mean what they were resolved to.

A type name is resolved in the namespace of the declaration that lists the member, and written as
a bare name into the unit of the record. The unit brings into scope what its own namespace
imports, and a name that the unit declares itself stands in front of everything imported. So a
name means its declaration exactly when the declaration belongs to the unit's namespace, or comes
from a module that the namespace imports and is not hidden by a local one (`member_inScope_iff`).

A member that the namespace itself declares, and that names its type without a qualifier, has been
resolved by the same clauses, so its module is always imported. An inherited member need not be so
lucky: the supertype's namespace may import what the record's namespace does not, and then the
name in the record means nothing (`inherited_type_not_inScope`).
-/
import ModelForge.Metamodel.Writer
import ModelForge.Proofs.Imports
import ModelForge.Proofs.Loading
import ModelForge.Proofs.Outcome

set_option autoImplicit false

namespace ModelForge

/-! ## The unit of a namespace -/

theorem unitName_injective {module other : String} (h : unitName module = unitName other) :
    module = other := by
  unfold unitName at h
  rwa [String.append_left_inj] at h

/-- The units of a run have distinct names. -/
theorem nodup_names_plansUpTo {options : Options} {g : Graph}
    (hmodules : ModulesAllowed options g.namespaces) :
    (((plansUpTo options g g.namespaces).map UnitPlan.sealed).map SourceUnit.name).Nodup := by
  have hnames : ((plansUpTo options g g.namespaces).map UnitPlan.sealed).map SourceUnit.name
      = ("mod" :: utilityModule :: g.namespaces.map fun ns => moduleName ns.name).map unitName := by
    simp only [plansUpTo, List.map_cons, List.map_map]
    refine congrArg (_ :: ·) (congrArg (_ :: ·) ?_)
    rfl
  -- no namespace has the module of the manifest or of the hooks
  have hown : ∀ module ∈ ownModules, module ∉ g.namespaces.map fun ns => moduleName ns.name := by
    intro module hmodule hmem
    obtain ⟨ns, hns, rfl⟩ := List.mem_map.1 hmem
    exact (hmodules.1 ns hns).1 hmodule
  rw [hnames]
  refine List.Nodup.map (fun _ _ => unitName_injective) ?_
  rw [List.nodup_cons, List.nodup_cons, List.mem_cons, not_or]
  refine ⟨⟨by decide, hown "mod" (by decide)⟩, hown utilityModule (by decide), hmodules.2⟩

/-- Behind a run that succeeded every namespace has its unit. -/
theorem unit?_of_allowed {options : Options} {g : Graph} {ns : Namespace}
    (hmodules : ModulesAllowed options g.namespaces) (hns : ns ∈ g.namespaces) :
    MemorySink.unit? ⟨.empty, (plansUpTo options g g.namespaces).map UnitPlan.sealed⟩
        (unitName (moduleName ns.name))
      = some (namespacePlan options (memberName options.reserved) g ns).sealed := by
  have hplan : namespacePlan options (memberName options.reserved) g ns
      ∈ plansUpTo options g g.namespaces := by
    rw [plansUpTo]
    exact List.mem_cons_of_mem _ (List.mem_cons_of_mem _ (List.mem_map_of_mem hns))
  exact find?_key_of_mem SourceUnit.name (nodup_names_plansUpTo hmodules)
    (List.mem_map_of_mem hplan)

/-! ## Scope -/

/-- A declaration leaves an item of its own in the source: it is a class or an enum. -/
def Declaration.IsEmitted (d : Declaration) : Prop := ∀ p default, d.body ≠ .scalar p default

section

variable (options : Options) (sink : MemorySink) (ns : Namespace) (target : Declaration)

/-- An item of the namespace has the identifier of `target`, and hides it from a unit that imports
it. -/
def Shadowed : Prop :=
  ∃ e ∈ ns.declarations, e.IsEmitted
    ∧ typeName options.reserved e.name = typeName options.reserved target.name

/-- In the unit of the namespace the name of `target` means `target`. -/
def InScope : Prop :=
  target.owner = ns.name
    ∨ (∃ unit, sink.unit? (unitName (moduleName ns.name)) = some unit
        ∧ useLine (moduleName target.owner) ∈ unit.lines)
      ∧ ¬ Shadowed options ns target

/-- A clause of the namespace imports from the module of `target`. -/
def ImportsModule : Prop :=
  ∃ clause ∈ ns.imports, clause.source ≠ ns.name
    ∧ moduleName clause.source = moduleName target.owner

end

/-- The lines of the unit say what the clauses of the namespace say. -/
theorem inScope_iff_importsModule {options : Options} {g : Graph} (hg : g.OwnersMatch)
    (hmodules : ModulesAllowed options g.namespaces) {ns : Namespace} (hns : ns ∈ g.namespaces)
    {target : Declaration} (htarget : target ∈ g.declarations) :
    InScope options ⟨.empty, (plansUpTo options g g.namespaces).map UnitPlan.sealed⟩ ns target
      ↔ target.owner = ns.name ∨ ImportsModule ns target ∧ ¬ Shadowed options ns target := by
  obtain ⟨home, hhome, htarget⟩ := List.mem_flatMap.1 htarget
  have hutility : moduleName target.owner ≠ utilityModule := by
    rw [hg home hhome target htarget]
    exact fun h => (hmodules.1 home hhome).1 (h ▸ List.mem_cons_self)
  have hline : (∃ unit, MemorySink.unit?
        ⟨.empty, (plansUpTo options g g.namespaces).map UnitPlan.sealed⟩
          (unitName (moduleName ns.name)) = some unit
        ∧ useLine (moduleName target.owner) ∈ unit.lines) ↔ ImportsModule ns target := by
    rw [unit?_of_allowed hmodules hns, ImportsModule, ← useLine_mem_rendered_iff hutility]
    constructor
    · rintro ⟨unit, hunit, hmem⟩
      rw [← Option.some.inj hunit] at hmem
      exact hmem
    · exact fun hmem => ⟨_, rfl, hmem⟩
  rw [InScope, hline]

/-! ## Names that are resolved where they are written -/

namespace Graph

theorem namespace?_of_mem {g : Graph} (hdistinct : (g.namespaces.map Namespace.name).Nodup)
    {ns : Namespace} (hns : ns ∈ g.namespaces) : g.namespace? ns.name = some ns :=
  find?_key_of_mem Namespace.name hdistinct hns

/-- A namespace that supplies a type is the source of a clause. -/
theorem exists_clause_of_importOwner? {g : Graph}
    (hdistinct : (g.namespaces.map Namespace.name).Nodup) {ns : Namespace} (hns : ns ∈ g.namespaces)
    {name owner : String} (h : g.importOwner? ns.name name = some owner) :
    ∃ clause ∈ ns.imports, clause.source = owner := by
  rw [importOwner?, namespace?_of_mem hdistinct hns] at h
  obtain ⟨clause, hclause, hsource⟩ := List.mem_map.1 (List.mem_of_find?_eq_some h)
  exact ⟨clause, (List.mem_filter.1 hclause).1, hsource⟩

/-- A name that the namespace declares is found there, whatever stands in front of it. -/
theorem exists_declaration?_of_mem {g : Graph} {ns : Namespace} (hns : ns ∈ g.namespaces)
    {e : Declaration} (he : e ∈ ns.declarations) :
    ∃ d, g.declaration? ⟨ns.name, e.name⟩ = some d := by
  rw [declaration?_eq_lookup]
  cases hlookup : (listing g.namespaces).lookup ⟨ns.name, e.name⟩ with
  | some d => exact ⟨d, rfl⟩
  | none =>
      rw [lookup_eq_none_iff_not_mem] at hlookup
      have hentry : ((⟨ns.name, e.name⟩ : DeclId), e) ∈ listing g.namespaces :=
        mem_listing.2 ⟨ns, hns, he, rfl⟩
      exact absurd (List.mem_map_of_mem (f := Prod.fst) hentry) hlookup

/-- An unqualified name comes from the namespace itself or from a clause, and from the namespace
whenever that declares the name. -/
theorem home_of_resolve_named {g : Graph} (hg : g.OwnersMatch)
    (hdistinct : (g.namespaces.map Namespace.name).Nodup) {ns : Namespace} (hns : ns ∈ g.namespaces)
    {name : String} {d : Declaration} (h : g.resolve ns.name (.named name) = some d) :
    (d.owner = ns.name ∨ ImportsModule ns d)
      ∧ ∀ e ∈ ns.declarations, e.name = d.name → d.owner = ns.name := by
  have hlocal : ∀ {found}, g.declaration? ⟨ns.name, name⟩ = some found → d.owner = ns.name := by
    intro found hfound
    rw [resolve_named_of_declaration? hfound] at h
    by_cases hkeyword : (Primitive.ofKeyword? name).isSome = true
    · rw [if_pos hkeyword] at h
      exact absurd h (by simp)
    · rw [if_neg hkeyword] at h
      rw [← Option.some.inj h]
      exact owner_of_declaration? hg hfound
  have hname : d.name = name := by
    obtain ⟨owner, howner⟩ := declaration?_of_resolve_named h
    exact name_of_declaration? hg howner
  constructor
  -- a clause may name the namespace itself, and then the declaration is at home after all
  · cases hfound : g.declaration? ⟨ns.name, name⟩ with
    | some found => exact .inl (hlocal hfound)
    | none =>
        obtain ⟨owner, howner, hd⟩ := importOwner?_of_resolve_named hfound h
        obtain ⟨clause, hclause, rfl⟩ := exists_clause_of_importOwner? hdistinct hns howner
        have hsource : d.owner = clause.source := owner_of_declaration? hg hd
        by_cases hself : clause.source = ns.name
        · exact .inl (hsource.trans hself)
        · exact .inr ⟨clause, hclause, hself, by rw [hsource]⟩
  · intro e he hsame
    obtain ⟨found, hfound⟩ := exists_declaration?_of_mem hns he
    rw [hsame, hname] at hfound
    exact hlocal hfound

end Graph

/-! ## All members of all records -/

/-- A run that succeeds leaves the units of all namespaces, and its modules were allowed. -/
theorem allowed_of_runFrom_eq_ok {options : Options} {g : Graph} {sink : MemorySink}
    (h : runFrom options g [] = (.ok (), sink)) :
    ModulesAllowed options g.namespaces
      ∧ sink = ⟨.empty, (plansUpTo options g g.namespaces).map UnitPlan.sealed⟩ := by
  obtain ⟨hmodules, -, hsink⟩ := of_runFrom_eq_ok options g [] h
  rw [List.nil_append] at hsink
  exact ⟨hmodules, hsink⟩

/-- **When the type name of a member means what it was resolved to.** The type belongs to the
namespace of the unit, or to a module that the namespace imports and no item of the namespace
hides. Where a member is listed in the namespace itself, with an unqualified type, that module is
imported, and an item that hides the type has another name in the model that is spelled alike. -/
theorem member_inScope_iff {text : String} {g : Graph} {options : Options} {sink : MemorySink}
    (hload : loadText text = .ok g) (hrun : runFrom options g [] = (.ok (), sink)) :
    ∀ ns ∈ g.namespaces, ∀ d ∈ ns.declarations, d.isClass = true → ∀ m ∈ g.members d,
      ∀ target, g.memberReferent m = .declaration target →
        (InScope options sink ns target
          ↔ target.owner = ns.name ∨ ImportsModule ns target ∧ ¬ Shadowed options ns target)
        ∧ (m.declaredIn.owner = ns.name → m.property.typeRef.qualifier = none →
          (target.owner = ns.name ∨ ImportsModule ns target)
            ∧ ∀ e ∈ ns.declarations, e.name = target.name → target.owner = ns.name) := by
  have hg := Graph.loaded_of_loadText hload
  obtain ⟨hmodules, rfl⟩ := allowed_of_runFrom_eq_ok hrun
  intro ns hns d _ _ m _ target href
  refine ⟨inScope_iff_importsModule hg.ownersMatch hmodules hns
    (Graph.mem_declarations_of_referent href), fun howner hunqualified => ?_⟩
  have hresolve := Graph.resolve_of_referent href
  -- the reference is resolved in `ns`, like the ones that the theorem above is about
  have hnamed : m.property.typeRef = .named m.property.typeRef.name := by
    rw [TypeRef.named, ← hunqualified]
  rw [howner, hnamed] at hresolve
  exact Graph.home_of_resolve_named hg.ownersMatch hg.namespacesDistinct hns hresolve

/-! Three namespaces, each of which imports from the one before it. The class of the second one
has a member whose type is declared in the first, and the class of the third one inherits that
member. -/

def partClass : Declaration := .concept "a" "Part" none []

def wholeClass : Declaration := .concept "b" "Whole" none [.field "part" (.named "Part")]

def extendedClass : Declaration := .concept "c" "Extended" (some (.named "Whole")) []

/-- The member, as it is listed in the second namespace. -/
def partMember : Member := ⟨wholeClass, .field "part" (.named "Part")⟩

def middleNamespace : Namespace := ⟨"b", [.one "a" "Part"], [wholeClass]⟩

def lastNamespace : Namespace := ⟨"c", [.one "b" "Whole"], [extendedClass]⟩

def threeNamespaces : Graph :=
  .ofNamespaces [⟨"a", [], [partClass]⟩, middleNamespace, lastNamespace]

/-- The namespaces as a document. -/
def threeNamespacesDocument : Json := Metamodel.writeDocument threeNamespaces.namespaces

theorem loadText_threeNamespaces : loadText threeNamespacesDocument.render = .ok threeNamespaces :=
  loadText_render (by decide +kernel) rfl (by decide)

/-- The modules are `a`, `b` and `c`, and every record has at most one field. -/
theorem runFrom_threeNamespaces :
    runFrom .default threeNamespaces []
      = (.ok (), ⟨.empty, (plansUpTo .default threeNamespaces threeNamespaces.namespaces).map
          UnitPlan.sealed⟩) :=
  runFrom_of_clean .default threeNamespaces [] (by decide +kernel) (by decide +kernel)

/-- In the second namespace the type of the member is in scope. -/
theorem member_inScope_iff_listed :
    loadText threeNamespacesDocument.render = .ok threeNamespaces
      ∧ (∃ sink, runFrom .default threeNamespaces [] = (.ok (), sink)
        ∧ InScope .default sink middleNamespace partClass)
      ∧ (partClass.owner = middleNamespace.name ∨ ImportsModule middleNamespace partClass) := by
  obtain ⟨hiff, himports⟩ :=
    member_inScope_iff loadText_threeNamespaces runFrom_threeNamespaces middleNamespace (by decide)
      wholeClass (by decide) rfl partMember (by decide +kernel) partClass (by decide +kernel)
  have himported := (himports rfl rfl).1
  refine ⟨loadText_threeNamespaces, ⟨_, runFrom_threeNamespaces, hiff.2 ?_⟩, himported⟩
  refine himported.imp_right fun h => ⟨h, ?_⟩
  rintro ⟨e, he, -, hname⟩
  rw [List.mem_singleton.1 he] at hname
  exact absurd hname (by decide +kernel)

/-- In the third namespace, which inherits the member, it is not: the namespace has no clause for
the module of the type. -/
theorem inherited_type_not_inScope :
    loadText threeNamespacesDocument.render = .ok threeNamespaces
      ∧ (runFrom .default threeNamespaces []).1 = .ok ()
      ∧ lastNamespace ∈ threeNamespaces.namespaces
      ∧ extendedClass ∈ lastNamespace.declarations
      ∧ extendedClass.isClass = true
      ∧ partMember ∈ threeNamespaces.members extendedClass
      ∧ threeNamespaces.memberReferent partMember = .declaration partClass
      ∧ ¬ InScope .default (runFrom .default threeNamespaces []).2 lastNamespace partClass := by
  have hg := Graph.loaded_of_loadText loadText_threeNamespaces
  refine ⟨loadText_threeNamespaces, by rw [runFrom_threeNamespaces], by decide, by decide, rfl,
    by decide +kernel, by decide +kernel, ?_⟩
  rw [runFrom_threeNamespaces, inScope_iff_importsModule hg.ownersMatch (by decide +kernel)
    (by decide) (by decide)]
  rintro (hlocal | ⟨⟨clause, hclause, -, hmodule⟩, -⟩)
  · exact absurd hlocal (by decide)
  · rw [List.mem_singleton.1 hclause] at hmodule
    exact absurd hmodule (by decide +kernel)

end ModelForge
