/-
`Independence.lean` -- a unit says nothing about namespaces that its own does not need.

What is written for a declaration is put together from answers that depend on the needed
namespaces only (`Graph.AgreeAround`). So a unit is the same in two graphs that have these in
common, wherever they stand in the graphs and whatever stands around them. A generator writes all
units of a graph with one cache of names, and this makes no difference either
(`unit_depends_on_needs`).
-/
import ModelForge.Proofs.Dependencies
import ModelForge.Proofs.RunsInTurn
import ModelForge.Proofs.Scope

set_option autoImplicit false

namespace ModelForge

/-! ## What is written for a declaration -/

namespace Graph.AgreeAround

variable {start : String} {g g' : Graph} {d : Declaration}
variable (options : Options) (naming : String → String)

/-- Around the namespace, both graphs have the same members. -/
theorem dataMembers (h : AgreeAround start g g') (hd : g.Within start d) :
    g.dataMembers d = g'.dataMembers d := by
  rw [Graph.dataMembers, Graph.dataMembers, h.members hd]

/-- They have the same types. -/
theorem memberType (h : AgreeAround start g g') (hd : g.Within start d) {m : Member}
    (hm : m ∈ g.members d) :
    ModelForge.memberType options g d (g.isRecursive d) m
      = ModelForge.memberType options g' d (g'.isRecursive d) m := by
  unfold ModelForge.memberType
  rw [← h.memberReferent hd hm]
  cases href : g.memberReferent m with
  | primitive p => rfl
  | unresolved name => rfl
  | declaration target =>
      -- the type of a class or an enum is boxed or not, and boxing asks for references only
      have htarget : g.Within start target := h.within_of_memberReferent hd hm href
      have hboxes : g.boxes d (g.isRecursive d) m target
          = g'.boxes d (g'.isRecursive d) m target := by
        rw [boxes, boxes, h.isRecursive hd, h.leadsBack htarget]
      dsimp only
      rw [hboxes]

/-- So the records have the same fields. -/
theorem recordFields (h : AgreeAround start g g') (hd : g.Within start d) :
    ModelForge.recordFields options naming g d = ModelForge.recordFields options naming g' d := by
  unfold ModelForge.recordFields
  dsimp only
  rw [← h.dataMembers hd]
  refine congrArg (_ :: ·) (List.map_congr_left fun m hm => ?_)
  have hmember : m ∈ g.members d := (List.mem_filter.1 hm).1
  unfold memberField
  rw [h.memberType options hd hmember]

/-- So the declarations have the same text. -/
theorem declarationFragment (h : AgreeAround start g g') (hd : g.Within start d) :
    ModelForge.declarationFragment options naming g d
      = ModelForge.declarationFragment options naming g' d := by
  have hclash : recordClash? naming g d = recordClash? naming g' d := by
    rw [recordClash?, recordClash?, h.dataMembers hd]
  unfold ModelForge.declarationFragment recordFragment
  rw [hclash, h.recordFields options naming hd]

/-- The unit of the namespace is planned alike in both graphs. -/
theorem namespacePlan (h : AgreeAround start g g') {ns : Namespace}
    (hns : g.namespace? start = some ns) :
    ModelForge.namespacePlan options naming g ns
      = ModelForge.namespacePlan options naming g' ns := by
  have hmem : ns ∈ g.namespaces := List.mem_of_find?_eq_some hns
  have hname : ns.name = start := by simpa using List.find?_some hns
  have hwithin : ∀ d ∈ ns.declarations, g.Within start d := by
    intro d hd
    have howner : d.owner = start := (h.owners ns hmem d hd).trans hname
    exact ⟨ns, by rw [howner, hns], hd, howner ▸ .start⟩
  unfold ModelForge.namespacePlan namespaceFragment
  rw [List.map_congr_left fun d hd => h.declarationFragment options naming (hwithin d hd)]

end Graph.AgreeAround

/-! ## Runs -/

/-- What a generator that has not run before answers, and the sink that it leaves. -/
def freshRun (options : Options) (g : Graph) : Except GenerationError Unit × MemorySink :=
  let result := MemorySink.run .empty (Generator.fresh options g).run
  (result.1.1, result.2)

/-- Remembering names makes no difference to a run. -/
theorem freshRun_eq (options : Options) (g : Graph) :
    freshRun options g = runFrom options g [] := by
  have hrun : MemorySink.run .empty (Prod.fst <$> (Generator.fresh options g).run)
      = runFrom options g [] := by
    rw [Generator.fst_map_run]
    rfl
  rw [← hrun]
  rfl

/-- **A unit depends on what its namespace needs.** In two graphs that have the needed namespaces
in common, successful runs with the same options leave the same unit for the namespace. The order
of the namespaces, and what else there is in the graphs, does not matter. -/
theorem unit_depends_on_needs {options : Options} {start : String} {g g' : Graph}
    {sink sink' : MemorySink} (hagree : g.AgreeAround start g')
    (hrun : freshRun options g = (.ok (), sink)) (hrun' : freshRun options g' = (.ok (), sink')) :
    ∀ ns, g.namespace? start = some ns → ∃ unit,
      sink.unit? (unitName (moduleName start)) = some unit
        ∧ sink'.unit? (unitName (moduleName start)) = some unit := by
  intro ns hns
  rw [freshRun_eq] at hrun hrun'
  obtain ⟨hmodules, rfl⟩ := allowed_of_runFrom_eq_ok hrun
  obtain ⟨hmodules', rfl⟩ := allowed_of_runFrom_eq_ok hrun'
  have hns' : g'.namespace? start = some ns := by
    rw [← hagree.same start .start, hns]
  have hname : ns.name = start := by simpa using List.find?_some hns
  rw [← hname, unit?_of_allowed hmodules (List.mem_of_find?_eq_some hns),
    unit?_of_allowed hmodules' (List.mem_of_find?_eq_some hns'),
    hagree.namespacePlan options (memberName options.reserved) hns]
  exact ⟨_, rfl, rfl⟩

/-! Orders need the goods that they are about. Staff needs orders, and no order needs staff. -/

def goodsNamespace : Namespace :=
  ⟨"goods", [], [.concept "goods" "Item" none [.field "unitPrice" (.named "Double")]]⟩

def ordersNamespace : Namespace :=
  ⟨"orders", [.one "goods" "Item"],
    [.concept "orders" "Order" (some (.named "Item")) [.field "previous" (.named "Order")]]⟩

def staffNamespace : Namespace :=
  ⟨"staff", [.all "orders"],
    [.concept "staff" "Clerk" none [.field "lastOrder" (.named "Order")]]⟩

def ordersAndGoods : Graph := .ofNamespaces [goodsNamespace, ordersNamespace]

/-- With the staff, and in another order. -/
def ordersWithStaff : Graph := .ofNamespaces [staffNamespace, ordersNamespace, goodsNamespace]

/-- Around the orders, the two graphs agree. -/
theorem agreeAround_orders : ordersAndGoods.AgreeAround "orders" ordersWithStaff where
  owners := by decide
  owners' := by decide
  distinct := by decide
  distinct' := by decide
  same name hname := by
    have hclosed : ordersAndGoods.ClosedUnderNeeds ["orders", "goods"] := by decide
    have hmem := Graph.mem_of_needs hclosed List.mem_cons_self hname
    rw [List.mem_cons, List.mem_singleton] at hmem
    rcases hmem with rfl | rfl <;> decide

/-- Where no name clashes, a generator that has not run before seals all units that were planned.
-/
theorem freshRun_of_clean (options : Options) (g : Graph)
    (hmodules : ModulesAllowed options g.namespaces)
    (hmembers : ∀ d ∈ g.declarations, g.MembersDistinct options d) :
    freshRun options g
      = (.ok (), ⟨.empty, (plansUpTo options g g.namespaces).map UnitPlan.sealed⟩) := by
  rw [freshRun_eq, runFrom_of_clean options g [] hmodules hmembers, List.nil_append]

/-- Both graphs have a unit for orders. -/
theorem unit_depends_on_needs_orders :
    ordersAndGoods.AgreeAround "orders" ordersWithStaff
      ∧ ∃ sink sink' unit, freshRun .default ordersAndGoods = (.ok (), sink)
        ∧ freshRun .default ordersWithStaff = (.ok (), sink')
        ∧ sink.unit? "orders.rs" = some unit ∧ sink'.unit? "orders.rs" = some unit := by
  have hrun := freshRun_of_clean .default ordersAndGoods (by decide +kernel) (by decide +kernel)
  have hrun' := freshRun_of_clean .default ordersWithStaff (by decide +kernel) (by decide +kernel)
  obtain ⟨unit, hunit, hunit'⟩ :=
    unit_depends_on_needs agreeAround_orders hrun hrun' ordersNamespace (by decide)
  exact ⟨agreeAround_orders, _, _, unit, hrun, hrun', hunit, hunit'⟩

end ModelForge
