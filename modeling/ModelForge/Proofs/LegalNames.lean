/-
`LegalNames.lean` -- which of the introduced names are legal.

The name of a type, a variant or a field is spelled character by character, begins as an
identifier does and is escaped until it is not reserved. Two names are written as they are: that
of the discriminator and that of the module of the hooks. A module is neither spelled nor escaped:
a reserved one is refused, and else it is as legal as its namespace. `names_legal` says all this
of what is read from the units of a run.
-/
import ModelForge.Proofs.IntroducedNames

set_option autoImplicit false

namespace ModelForge

/-! ## Legal names -/

/-- A name that is not empty, does not begin with a digit and has only letters, digits and
underscores among its ASCII characters. -/
def LegalIdentifier (name : String) : Prop :=
  (∃ c ∈ name.toList.head?, c.isDigit = false)
    ∧ ∀ c ∈ name.toList, c.toNat < 128 → isIdentChar c = true

/-- The same of a namespace, whose name may have dots and at signs besides. -/
def LegalNamespace (name : String) : Prop :=
  (∃ c ∈ name.toList.head?, c.isDigit = false)
    ∧ ∀ c ∈ name.toList, c.toNat < 128 → isIdentChar c = true ∨ c = '@' ∨ c = '.'

instance : DecidablePred LegalIdentifier := fun name =>
  @instDecidableAnd _ _ (Option.decidableExistsMem name.toList.head?)
    (List.decidableBAll (fun c => c.toNat < 128 → isIdentChar c = true) name.toList)

instance : DecidablePred LegalNamespace := fun name =>
  @instDecidableAnd _ _ (Option.decidableExistsMem name.toList.head?)
    (List.decidableBAll (fun c => c.toNat < 128 → isIdentChar c = true ∨ c = '@'
      ∨ c = '.') name.toList)

/-- What is put in front makes a legal start. -/
theorem exists_head_withLegalStart (cs : List Char) :
    ∃ c rest, withLegalStart cs = c :: rest ∧ isIdentStart c = true := by
  cases cs with
  | nil => exact ⟨'_', [], rfl, rfl⟩
  | cons c rest =>
      rw [withLegalStart]
      by_cases hstart : isIdentStart c = true
      · exact ⟨c, rest, if_pos hstart, hstart⟩
      · exact ⟨'_', c :: rest, if_neg hstart, rfl⟩

/-- Legal characters behind a legal start stay a legal identifier when the name is escaped. -/
theorem legalIdentifier_escapeReserved (reserved : WordSet) {cs : List Char}
    (hcs : ∀ c ∈ cs, isIdentChar c = true) :
    LegalIdentifier (escapeReserved reserved (String.ofList (withLegalStart cs))) := by
  obtain ⟨c, rest, hstart, hlegal⟩ := exists_head_withLegalStart cs
  obtain ⟨k, hescaped⟩ := escapeReserved_eq_append reserved (String.ofList (withLegalStart cs))
  refine ⟨⟨c, ?_, isDigit_of_isIdentStart hlegal⟩, fun d hd _ => isIdentChar_of_mem_escaped hcs hd⟩
  rw [hescaped, String.toList_ofList, hstart]
  rfl

theorem legalIdentifier_typeName (reserved : WordSet) (raw : String) :
    LegalIdentifier (typeName reserved raw) :=
  legalIdentifier_escapeReserved reserved fun _ => isIdentChar_of_mem_map_legalize

theorem legalIdentifier_memberName (reserved : WordSet) (raw : String) :
    LegalIdentifier (memberName reserved raw) :=
  legalIdentifier_escapeReserved reserved fun _ =>
    isIdentChar_of_mem_snakeCase fun _ => isIdentChar_of_mem_map_legalize

/-- **A module is as legal as its namespace.** -/
theorem legalIdentifier_moduleName_iff {raw : String} :
    LegalIdentifier (moduleName raw) ↔ LegalNamespace raw := by
  unfold LegalIdentifier LegalNamespace
  rw [toList_moduleName]
  refine and_congr ?_ ?_
  · -- neither what is replaced nor the underscore is a digit
    cases raw.toList with
    | nil => rfl
    | cons c rest =>
        simp only [List.map_cons, List.head?_cons, Option.mem_some_iff, exists_eq_left']
        split
        · rename_i hreplaced
          rcases hreplaced with rfl | rfl <;> decide
        · rfl
  · rw [List.forall_mem_map]
    refine forall₂_congr fun c _ => ?_
    by_cases hreplaced : c = '@' ∨ c = '.'
    · rw [if_pos hreplaced]
      exact iff_of_true (fun _ => rfl) fun _ => .inr hreplaced
    · rw [if_neg hreplaced, or_iff_left hreplaced]

/-! ## Runs -/

/-- What is known of the names that the units of a run introduce. -/
structure NamesLegal (options : Options) (g : Graph) (manifest hooks : SourceUnit)
    (sealed : List SourceUnit) : Prop where
  /-- The manifest is a list of modules and nothing else. -/
  manifestLines : manifest.lines = manifestTexts g
  modules : namesIn manifest.lines
    = (g.namespaces.map fun ns => ⟨.module, moduleName ns.name⟩) ++ [⟨.module, utilityModule⟩]
  hooks : namesIn hooks.lines = []
  /-- The units of the namespaces introduce the declarations with their members. -/
  declarations : List.Forall₂ (fun ns unit =>
    namesIn unit.lines = ns.declarations.flatMap (g.introducedNames options)) g.namespaces sealed
  /-- No module of a namespace is reserved or taken. -/
  modulesFree : ∀ ns ∈ g.namespaces,
    moduleName ns.name ∉ options.reserved ∧ moduleName ns.name ∉ ownModules
  modulesLegal : ∀ ns ∈ g.namespaces, LegalIdentifier (moduleName ns.name) ↔ LegalNamespace ns.name
  utilityLegal : LegalIdentifier utilityModule
  /-- The names of types, variants and fields are legal. -/
  membersLegal : ∀ unit ∈ sealed, ∀ introduced ∈ namesIn unit.lines, LegalIdentifier introduced.name
  /-- They are not reserved either, but for the discriminator, whose name is fixed. -/
  membersFree : ∀ unit ∈ sealed, ∀ introduced ∈ namesIn unit.lines,
    introduced ≠ ⟨.field, discriminatorField⟩ → introduced.name ∉ options.reserved

/-- Every name that a declaration introduces is legal, and only the discriminator may be reserved.
-/
theorem legal_of_mem_introducedNames {options : Options} {g : Graph} {d : Declaration}
    {introduced : IntroducedName} (h : introduced ∈ g.introducedNames options d) :
    LegalIdentifier introduced.name
      ∧ (introduced ≠ ⟨.field, discriminatorField⟩ → introduced.name ∉ options.reserved) := by
  have htype (raw : String) := legalIdentifier_typeName options.reserved raw
  have htypeFree (raw : String) : typeName options.reserved raw ∉ options.reserved :=
    escapeReserved_not_mem _ _
  have hdiscriminator : LegalIdentifier discriminatorField := by decide
  unfold Graph.introducedNames at h
  split at h
  · rw [List.mem_cons, List.mem_cons, List.mem_map] at h
    rcases h with rfl | rfl | ⟨m, -, rfl⟩
    · exact ⟨htype _, fun _ => htypeFree _⟩
    · -- not escaped, so that it may well be reserved
      exact ⟨hdiscriminator, fun h => absurd rfl h⟩
    · exact ⟨legalIdentifier_memberName _ _, fun _ => escapeReserved_not_mem _ _⟩
  · rw [List.mem_cons, List.mem_map] at h
    rcases h with rfl | ⟨value, -, rfl⟩
    · exact ⟨htype _, fun _ => htypeFree _⟩
    · exact ⟨htype _, fun _ => htypeFree _⟩
  · exact absurd h List.not_mem_nil

/-- **What a run introduces is legal, if the namespaces are.** The names of types, variants and
fields are legal identifiers and not reserved, whatever the model calls them, except that the
discriminator's name is fixed. The modules are those of the namespaces, none of them reserved or
taken, and the one of the hooks; a module is a legal identifier exactly if its namespace has a
legal name. -/
theorem names_legal {options : Options} {g : Graph} {units : List SourceUnit} {sink : MemorySink}
    (hrun : runFrom options g units = (.ok (), sink)) :
    ∃ manifest hooks sealed, sink.units = units ++ manifest :: hooks :: sealed
      ∧ NamesLegal options g manifest hooks sealed := by
  have hok : (runFrom options g units).1 = .ok () := by rw [hrun]
  obtain ⟨hmodules, hmembers⟩ := (runFrom_eq_ok_iff options g units).1 hok
  rw [runFrom_of_clean options g units hmodules hmembers] at hrun
  have hnames : ∀ ns ∈ g.namespaces,
      namesIn (namespacePlan options (memberName options.reserved) g ns).sealed.lines
        = ns.declarations.flatMap (g.introducedNames options) :=
    fun ns hns => namesIn_namespacePlan fun d hd => hmembers d (List.mem_flatMap.2 ⟨ns, hns, hd⟩)
  have hlegal :
      ∀ unit ∈ (g.namespaces.map (namespacePlan options (memberName options.reserved) g)).map
      UnitPlan.sealed, ∀ introduced ∈ namesIn unit.lines, LegalIdentifier introduced.name
        ∧ (introduced ≠ ⟨.field, discriminatorField⟩ → introduced.name ∉ options.reserved) := by
    intro unit hunit introduced hintroduced
    obtain ⟨plan, hplan, rfl⟩ := List.mem_map.1 hunit
    obtain ⟨ns, hns, rfl⟩ := List.mem_map.1 hplan
    rw [hnames ns hns, List.mem_flatMap] at hintroduced
    obtain ⟨d, -, hintroduced⟩ := hintroduced
    exact legal_of_mem_introducedNames hintroduced
  refine ⟨(manifestPlan g).sealed, (dateTimePlan options).sealed,
    (g.namespaces.map (namespacePlan options (memberName options.reserved) g)).map UnitPlan.sealed,
    ?_, ?_⟩
  · rw [← (Prod.mk.inj hrun).2]
    rfl
  · refine ⟨by rw [sealed_manifestPlan], namesIn_manifestPlan g, namesIn_dateTimePlan options, ?_,
      fun ns hns => (hmodules.1 ns hns).symm, fun _ _ => legalIdentifier_moduleName_iff, by decide,
      fun unit hunit introduced hintroduced => (hlegal unit hunit introduced hintroduced).1,
      fun unit hunit introduced hintroduced => (hlegal unit hunit introduced hintroduced).2⟩
    rw [List.map_map, List.forall₂_map_right_iff, List.forall₂_same]
    exact hnames

/-! The names of the shop, and those of a namespace with a dash in its name. -/

/-- The names in the units of the shop are legal: those of modules, types, fields and variants. -/
theorem names_legal_shop :
    ∃ sink, runFrom .default shop [] = (.ok (), sink)
      ∧ ∃ manifest hooks unit, sink.units = [manifest, hooks, unit]
        ∧ NamesLegal .default shop manifest hooks [unit]
        ∧ (namesIn manifest.lines).map IntroducedName.name = ["shop", "utils"]
        ∧ (namesIn unit.lines).map IntroducedName.name
          = ["Book", "_class", "unit_price", "type_", "Item", "_class",
            "unit_price", "Binding", "Hard", "box_"] := by
  obtain ⟨manifest, hooks, sealed, hunits, hlegal⟩ := names_legal runFrom_shop
  obtain ⟨unit, rfl, hunit⟩ : ∃ unit, sealed = [unit] ∧ namesIn unit.lines
      = [bookClass, itemClass, bindingEnum, priceScalar].flatMap
        (shop.introducedNames .default) := by
    have hdeclarations := hlegal.declarations
    cases hdeclarations with
    | cons hunit hnone =>
        cases hnone
        exact ⟨_, rfl, hunit⟩
  refine ⟨_, runFrom_shop, manifest, hooks, unit, hunits, hlegal, ?_, ?_⟩
  · rw [hlegal.modules]
    decide +kernel
  · rw [hunit]
    decide +kernel

def dashed : Graph := .ofNamespaces [⟨"a-b", [], [.concept "a-b" "Part" none []]⟩]

/-- The graph as a document. -/
def dashedDocument : Json := Metamodel.writeDocument dashed.namespaces

/-- Options that reserve the two names that are written as they are. -/
def fixedNamesReserved : Options :=
  (Options.default.reserve discriminatorField).reserve utilityModule

/-- A namespace with a dash becomes a module that is no identifier; and reserving the two fixed
names does not keep a run from writing them. -/
theorem names_not_all_legal :
    loadText dashedDocument.render = .ok dashed
      ∧ (runFrom .default dashed []).1 = .ok ()
      ∧ (∃ unit ∈ (runFrom .default dashed []).2.units, unit.name = manifestUnit
        ∧ "pub mod a-b;" ∈ unit.lines ∧ ¬ LegalIdentifier "a-b")
      ∧ (runFrom fixedNamesReserved dashed []).1 = .ok ()
      ∧ (∃ unit ∈ (runFrom fixedNamesReserved dashed []).2.units, unit.name = manifestUnit
        ∧ "pub mod utils;" ∈ unit.lines ∧ "utils" ∈ fixedNamesReserved.reserved)
      ∧ ∃ unit ∈ (runFrom fixedNamesReserved dashed []).2.units, unit.name = "a-b.rs"
        ∧ ⟨.field, "_class"⟩ ∈ namesIn unit.lines ∧ "_class" ∈ fixedNamesReserved.reserved := by
  have hload : loadText dashedDocument.render = .ok dashed :=
    loadText_render (by decide +kernel) rfl (by decide)
  have hrun : runFrom .default dashed [] = (.ok (), ⟨.empty, (plansUpTo .default dashed
      dashed.namespaces).map UnitPlan.sealed⟩) :=
    runFrom_of_clean .default dashed [] (by decide +kernel) (by decide +kernel)
  have hmembers : ∀ d ∈ dashed.declarations, dashed.MembersDistinct fixedNamesReserved d := by
    decide +kernel
  have hreserved : runFrom fixedNamesReserved dashed [] = (.ok (), ⟨.empty, (plansUpTo
      fixedNamesReserved dashed dashed.namespaces).map UnitPlan.sealed⟩) :=
    runFrom_of_clean fixedNamesReserved dashed [] (by decide +kernel) hmembers
  rw [hrun, hreserved]
  have hmanifest : (manifestPlan dashed).sealed.lines = ["pub mod a-b;", "pub mod utils;"] := by
    rw [sealed_manifestPlan]
    decide +kernel
  refine ⟨hload, rfl, ⟨(manifestPlan dashed).sealed, ?_, rfl, ?_, by decide⟩, rfl,
    ⟨(manifestPlan dashed).sealed, ?_, rfl, ?_, by decide +kernel⟩, ?_⟩
  · exact List.mem_map_of_mem List.mem_cons_self
  · rw [hmanifest]
    decide
  · exact List.mem_map_of_mem List.mem_cons_self
  · rw [hmanifest]
    decide
  · refine ⟨(namespacePlan fixedNamesReserved (memberName fixedNamesReserved.reserved) dashed
      ⟨"a-b", [], [.concept "a-b" "Part" none []]⟩).sealed, ?_, by decide, ?_, by decide +kernel⟩
    · exact List.mem_map_of_mem (List.mem_cons_of_mem _ (List.mem_cons_of_mem _ List.mem_cons_self))
    · rw [namesIn_namespacePlan
        fun d hd => hmembers d (List.mem_flatMap.2 ⟨_, List.mem_cons_self, hd⟩)]
      decide +kernel

end ModelForge
