/-
`WireShape.lean` -- what the sealed source says about the wire.

The items of a unit are read back from its stored lines (`itemsIn`) and compared with the model. A
record has the discriminator and then the members of the class, each under its own name on the
wire, and an enum has one variant for each value. Nothing is lost, doubled or moved between the
model and the text (`wire_shape`).
-/
import ModelForge.Proofs.Lineages
import ModelForge.Proofs.Scope
import ModelForge.Proofs.SourceItems

set_option autoImplicit false

namespace ModelForge

/-! ## The items of a declaration -/

/-- The properties of a chain of supertypes that become members, the farthest supertype first. -/
def wireProperties (chain : List Declaration) : List Property :=
  (chain.reverse.flatMap Declaration.ownProperties).filter fun p => p.name ≠ identifierMember

/-- The items that a declaration stands for when it is declared in the namespace `home` and its
lineage is `chain`. -/
def wireItems (options : Options) (home : String) (chain : List Declaration) (d : Declaration) :
    List Item :=
  let name := typeName options.reserved d.name
  match d.body with
  | .record .. =>
      [⟨.record, name, ⟨discriminatorField, some discriminatorKey⟩
          :: (wireProperties chain).map fun p => ⟨memberName options.reserved p.name, some p.name⟩⟩,
        ⟨.constants, name, [⟨"CLASS", some (home ++ "." ++ d.name)⟩]⟩]
  | .enumeration values => [⟨.enumeration, name, values.map (variantMember options)⟩]
  | .scalar .. => []

/-- The members that have data come from the lineage, the farthest supertype first. -/
theorem map_property_dataMembers (g : Graph) (d : Declaration) :
    (g.dataMembers d).map Member.property = wireProperties (g.lineage d) := by
  rw [wireProperties, ← g.map_property_members d, List.filter_map]
  rfl

/-- The fields of a record are the discriminator and the properties of its lineage. -/
theorem map_recordFields (options : Options) (naming : String → String) (g : Graph)
    (d : Declaration) :
    (recordFields options naming g d).map fieldMember
      = ⟨discriminatorField, some discriminatorKey⟩
        :: (wireProperties (g.lineage d)).map fun p => ⟨naming p.name, some p.name⟩ := by
  rw [recordFields, List.map_cons, List.map_map, ← map_property_dataMembers, List.map_map]
  rfl

section

variable (options : Options) (g : Graph)

/-- The lines of a declaration are read as its items, whatever was read before. -/
theorem ItemReader.run_declarationLines (found : List Item) (d : Declaration) :
    run ⟨found, none, none⟩ (declarationLines options (memberName options.reserved) g d)
      = ⟨found ++ wireItems options d.owner (g.lineage d) d, none, none⟩ := by
  unfold declarationLines wireItems
  cases d.body with
  | record flavor isAbstract superType properties =>
      dsimp only
      rw [run_recordLines options (fun raw c => isIdentChar_of_mem_memberName) g d,
        map_recordFields, List.append_assoc]
      rfl
  | enumeration values => exact run_enumLines options d values
  | scalar primitive default =>
      dsimp only
      rw [List.append_nil]
      rfl

/-- Those of several declarations are read one after the other. -/
theorem ItemReader.run_declarations (found : List Item) (declarations : List Declaration) :
    run ⟨found, none, none⟩
        (declarations.flatMap (declarationLines options (memberName options.reserved) g))
      = ⟨found ++ declarations.flatMap fun d => wireItems options d.owner (g.lineage d) d,
        none, none⟩ := by
  induction declarations generalizing found with
  | nil => simp [run]
  | cons d rest ih =>
      rw [List.flatMap_cons, run_append, run_declarationLines, ih, List.flatMap_cons,
        List.append_assoc]

/-! ## Stored units -/

/-- The stored lines of a declaration. -/
def declarationTexts (d : Declaration) : List String :=
  (declarationLines options (memberName options.reserved) g d).map Line.render

/-- The stored lines of a declaration give its items. -/
theorem itemsIn_declarationTexts (d : Declaration) :
    itemsIn (declarationTexts options g d) = wireItems options d.owner (g.lineage d) d := by
  have hrun := ItemReader.run_declarationLines options g [] d
  rw [itemsIn, declarationTexts, map_storedLine_render (isPlain_declarationLines options _ g d),
    ItemReader.start, hrun, List.nil_append]

/-- The head of a unit is stored as it is. -/
theorem map_render_unitLines (ns : Namespace) :
    (unitLines options (memberName options.reserved) g ns).map Line.render
      = headerTexts ns ++ ns.declarations.flatMap (declarationTexts options g) := by
  rw [unitLines, List.map_append, map_render_zero, List.map_flatMap]
  rfl

/-- A namespace is sealed as its head and then its declarations. -/
theorem sealed_namespacePlan {ns : Namespace}
    (h : ∀ d ∈ ns.declarations, g.MembersDistinct options d) :
    (namespacePlan options (memberName options.reserved) g ns).sealed
      = ⟨unitName (moduleName ns.name),
        headerTexts ns ++ ns.declarations.flatMap (declarationTexts options g)⟩ := by
  have hfaults : ∀ d ∈ ns.declarations,
      (declarationFragment options (memberName options.reserved) g d).fault? = none :=
    fun d hd => fault?_declarationFragment_eq_none_iff.2 (h d hd)
  rw [UnitPlan.sealed, namespacePlan, Fragment.rendered,
    emit_namespaceFragment options (memberName options.reserved) g hfaults,
    map_render_unitLines options g ns]

/-- The items of a unit are those of its declarations, one by one. -/
theorem itemsIn_unit (ns : Namespace) :
    itemsIn (headerTexts ns ++ ns.declarations.flatMap (declarationTexts options g))
      = ns.declarations.flatMap fun d => itemsIn (declarationTexts options g d) := by
  have hplain : ∀ line ∈ unitLines options (memberName options.reserved) g ns, line.IsPlain := by
    rw [unitLines, List.forall_mem_append, List.forall_mem_flatMap]
    exact ⟨isPlain_headerTexts ns, fun d _ => isPlain_declarationLines options _ g d⟩
  have hrun := ItemReader.run_declarations options g [] ns.declarations
  simp only [itemsIn_declarationTexts]
  rw [← map_render_unitLines, itemsIn, map_storedLine_render hplain, unitLines,
    ItemReader.run_append, ItemReader.run_headerTexts, ItemReader.start, hrun, List.nil_append]

end

/-! ## Names on the wire -/

/-- The discriminator's own spelling is what a member of its name would get. -/
theorem memberName_discriminatorKey {reserved : WordSet} (h : discriminatorField ∉ reserved) :
    memberName reserved discriminatorKey = discriminatorField := by
  have hbase : memberBase discriminatorKey = discriminatorField := by decide
  rw [memberName, hbase, escapeReserved, if_neg h]

/-- Variants are called like the values. -/
theorem map_wireName_of_enumeration {options : Options} {home : String} {chain : List Declaration}
    {d : Declaration} {values : List Property} (hbody : d.body = .enumeration values) {item : Item}
    (hitem : item ∈ wireItems options home chain d) :
    item.members.map ItemMember.wireName = values.map Property.name := by
  unfold wireItems at hitem
  rw [hbody] at hitem
  rw [List.mem_singleton.1 hitem, List.map_map]
  exact List.map_congr_left fun value _ => wireName_variantMember options value

/-- Members that are spelled apart have different names on the wire. -/
theorem nodup_wireName_of_mem_wireItems {options : Options} {g : Graph} {home : String}
    {d : Declaration} (hreserved : discriminatorField ∉ options.reserved)
    (hd : g.MembersDistinct options d) {item : Item}
    (hitem : item ∈ wireItems options home (g.lineage d) d) :
    (item.members.map ItemMember.wireName).Nodup := by
  obtain ⟨hrecord, henumeration⟩ := hd
  cases hbody : d.body with
  | record flavor isAbstract superType properties =>
      have hclass : d.isClass = true := by
        rw [Declaration.isClass, hbody]
      -- the spellings are those of the names, and the discriminator's is no exception
      have hspelled : ((discriminatorKey :: (wireProperties (g.lineage d)).map Property.name).map
          (memberName options.reserved)).Nodup := by
        have h := hrecord hclass
        rw [← memberName_discriminatorKey hreserved] at h
        rw [← map_property_dataMembers, List.map_cons, List.map_map, List.map_map]
        exact h
      unfold wireItems at hitem
      rw [hbody] at hitem
      rcases List.mem_cons.1 hitem with rfl | hconstants
      · rw [List.map_cons, List.map_map]
        exact List.Nodup.of_map _ hspelled
      · rw [List.mem_singleton.1 hconstants]
        exact List.nodup_singleton _
  | enumeration values =>
      have hspelled : ((values.map Property.name).map (typeName options.reserved)).Nodup := by
        rw [List.map_map]
        exact henumeration values hbody
      rw [map_wireName_of_enumeration hbody hitem]
      exact List.Nodup.of_map _ hspelled
  | scalar primitive default =>
      unfold wireItems at hitem
      rw [hbody] at hitem
      exact absurd hitem List.not_mem_nil

/-! ## Runs -/

/-- What the unit of a namespace says about the wire. -/
structure WireShape (options : Options) (g : Graph) (ns : Namespace) (unit : SourceUnit) :
    Prop where
  name : unit.name = unitName (moduleName ns.name)
  /-- The declarations follow the head in the order of the model. -/
  lines : unit.lines = headerTexts ns ++ ns.declarations.flatMap (declarationTexts options g)
  /-- Scalars have no lines. -/
  scalars : ∀ d ∈ ns.declarations, ∀ p default, d.body = .scalar p default →
    declarationTexts options g d = []
  /-- What is read from the lines of a declaration is what the declaration stands for. -/
  items : ∀ d ∈ ns.declarations, ∃ chain, g.IsLineage d chain
    ∧ itemsIn (declarationTexts options g d) = wireItems options ns.name chain d
  /-- Whether or not an attribute says so, the variants of an enum are called like its values. -/
  variants : ∀ d ∈ ns.declarations, ∀ values, d.body = .enumeration values →
    ∀ item ∈ itemsIn (declarationTexts options g d),
      item.members.map ItemMember.wireName = values.map Property.name
  /-- What is read from the unit is what is read from its declarations. -/
  together : itemsIn unit.lines
    = ns.declarations.flatMap fun d => itemsIn (declarationTexts options g d)
  /-- No two members of an item have one name on the wire. -/
  distinct : discriminatorField ∉ options.reserved →
    ∀ item ∈ itemsIn unit.lines, (item.members.map ItemMember.wireName).Nodup

/-- The unit of a namespace says what is on the wire. -/
theorem wireShape_sealed {options : Options} {g : Graph} (hg : g.OwnersMatch) {ns : Namespace}
    (hns : ns ∈ g.namespaces) (hmembers : ∀ d ∈ ns.declarations, g.MembersDistinct options d) :
    WireShape options g ns (namespacePlan options (memberName options.reserved) g ns).sealed := by
  rw [sealed_namespacePlan options g hmembers]
  have hitems : ∀ d ∈ ns.declarations,
      itemsIn (declarationTexts options g d) = wireItems options ns.name (g.lineage d) d := by
    intro d hd
    rw [itemsIn_declarationTexts, hg ns hns d hd]
  refine ⟨rfl, rfl, fun d _ p default hbody => ?_, fun d hd => ?_,
    fun d hd values hbody item hitem => ?_, itemsIn_unit options g ns,
    fun hreserved item hitem => ?_⟩
  · rw [declarationTexts, declarationLines, hbody]
    rfl
  · exact ⟨g.lineage d, g.isLineage_lineage d, hitems d hd⟩
  · rw [hitems d hd] at hitem
    exact map_wireName_of_enumeration hbody hitem
  · rw [itemsIn_unit, List.mem_flatMap] at hitem
    obtain ⟨d, hd, hitem⟩ := hitem
    rw [hitems d hd] at hitem
    exact nodup_wireName_of_mem_wireItems hreserved (hmembers d hd) hitem

/-- **A run that succeeds writes every declaration as it is on the wire.** Behind the manifest and
the date-time hooks it seals one unit for each namespace. From the lines of such a unit one reads,
in the order of the model, one record and one constant for each class, one enum for each enum, and
nothing for a scalar. The members of a record are the discriminator and then the properties of the
whole chain of supertypes, each of them once and under its own name, but for the ones that never
become fields. -/
theorem wire_shape {options : Options} {g : Graph} {units : List SourceUnit} {sink : MemorySink}
    (hg : g.OwnersMatch) (hrun : runFrom options g units = (.ok (), sink)) :
    ∃ sealed, sink.units
        = units ++ (manifestPlan g).sealed :: (dateTimePlan options).sealed :: sealed
      ∧ List.Forall₂ (WireShape options g) g.namespaces sealed := by
  have hok : (runFrom options g units).1 = .ok () := by rw [hrun]
  obtain ⟨hmodules, hmembers⟩ := (runFrom_eq_ok_iff options g units).1 hok
  rw [runFrom_of_clean options g units hmodules hmembers] at hrun
  refine ⟨(g.namespaces.map (namespacePlan options (memberName options.reserved) g)).map
    UnitPlan.sealed, ?_, ?_⟩
  · rw [← (Prod.mk.inj hrun).2]
    rfl
  · rw [List.map_map, List.forall₂_map_right_iff, List.forall₂_same]
    intro ns hns
    exact wireShape_sealed hg hns fun d hd => hmembers d (List.mem_flatMap.2 ⟨ns, hns, hd⟩)

/-! A class that inherits, with a member that never becomes a field and one whose name is a keyword;
an enum with a value that is a keyword; and a scalar. -/

def itemClass : Declaration :=
  .concept "shop" "Item" none
    [.field "identifier" (.named "String"), .field "unitPrice" (.named "Price")]

def bookClass : Declaration :=
  .concept "shop" "Book" (some (.named "Item")) [.field "type" (.named "Binding")]

def bindingEnum : Declaration where
  name := "Binding"
  owner := "shop"
  decorators := []
  body := .enumeration [.enumValue "Hard" "Binding" [], .enumValue "box" "Binding" []]

def priceScalar : Declaration where
  name := "Price"
  owner := "shop"
  decorators := []
  body := .scalar .double none

def shop : Graph := .ofNamespaces [⟨"shop", [], [bookClass, itemClass, bindingEnum, priceScalar]⟩]

/-- The shop is generated without a fault. -/
theorem runFrom_shop :
    runFrom .default shop [] = (.ok (), ⟨.empty, (plansUpTo .default shop shop.namespaces).map
      UnitPlan.sealed⟩) :=
  runFrom_of_clean .default shop [] (by decide +kernel) (by decide +kernel)

/-- The unit of the shop has two records with their constants, and an enum. -/
theorem wire_shape_shop :
    shop.OwnersMatch
      ∧ ∃ sink, runFrom .default shop [] = (.ok (), sink)
        ∧ ∃ unit, sink.units = [(manifestPlan shop).sealed, (dateTimePlan .default).sealed, unit]
          ∧ itemsIn unit.lines
            = [⟨.record, "Book", [⟨"_class", some "$class"⟩, ⟨"unit_price", some "unitPrice"⟩,
                ⟨"type_", some "type"⟩]⟩,
              ⟨.constants, "Book", [⟨"CLASS", some "shop.Book"⟩]⟩,
              ⟨.record, "Item", [⟨"_class", some "$class"⟩, ⟨"unit_price", some "unitPrice"⟩]⟩,
              ⟨.constants, "Item", [⟨"CLASS", some "shop.Item"⟩]⟩,
              ⟨.enumeration, "Binding", [⟨"Hard", none⟩, ⟨"box_", some "box"⟩]⟩] := by
  have howners : shop.OwnersMatch := by decide
  obtain ⟨sealed, hunits, hshape⟩ := wire_shape howners runFrom_shop
  obtain ⟨unit, rfl, hunit⟩ : ∃ unit, sealed = [unit] ∧ WireShape .default shop _ unit := by
    cases hshape with
    | cons hunit hnone =>
        cases hnone
        exact ⟨_, rfl, hunit⟩
  refine ⟨howners, _, runFrom_shop, unit, hunits, ?_⟩
  rw [hunit.together]
  simp only [itemsIn_declarationTexts]
  decide +kernel

end ModelForge
