/-
`BalancedUnits.lean` -- the units of a run are written nested.

A field indents its attribute and takes that back, records and enums are blocks, and everything
else is lines. So whatever is written for a declaration is balanced, unless members of it clash
and nothing is written (`balanced_declarationFragment`). In a run that succeeds there are no
clashes. An emitter that writes a unit is therefore at the first level when it comes to a
declaration, and there again when it has written it.
-/
import ModelForge.Proofs.Nesting
import ModelForge.Proofs.WireShape

set_option autoImplicit false

namespace ModelForge

/-! ## Declarations -/

open Fragment

/-- Documentation is balanced. -/
theorem balanced_decoratorDocs (decorators : List Decorator) :
    (decoratorDocs decorators).Balanced := by
  unfold decoratorDocs
  split
  · exact balanced_all_map fun text _ => .line _ 0
  · exact .nothing 0

/-- A field is balanced. -/
theorem balanced_fieldFragment (field : Field) : (fieldFragment field).Balanced := by
  have hopening :=
    ((balanced_decoratorDocs field.decorators).append (.line "#[serde(" 0)).append (.indent 0)
  have hattribute :=
    (hopening.append ((balanced_lines (fieldAttributes field)).deeper 1)).append (.dedent 0)
  exact (hattribute.append (.line ")]" 0)).append (.line _ 0)

/-- An attribute may be left out. -/
theorem balanced_attr_unless (p : Prop) [Decidable p] (body : String) :
    (if p then nothing else attr body).Balanced := by
  split
  · exact .nothing 0
  · exact .line _ 0

theorem balanced_variantFragment (options : Options) (value : Property) :
    (variantFragment options value).Balanced :=
  ((balanced_decoratorDocs value.decorators).append (balanced_attr_unless _ _)).append (.line _ 0)

/-- A record whose members do not clash is balanced. -/
theorem balanced_recordFragment {options : Options} {naming : String → String} {g : Graph}
    {d : Declaration} (h : recordClash? naming g d = none) :
    (recordFragment options naming g d).Balanced := by
  have hhead := ((Matches.blank 0).append (balanced_decoratorDocs d.decorators)).append
    (balanced_derive derivedTraits)
  have hfields : (all ((recordFields options naming g d).map fieldFragment)).Balanced :=
    balanced_all_map fun field _ => balanced_fieldFragment field
  have hrecord :=
    (hhead.append (.block ("pub struct " ++ typeName options.reserved d.name) hfields 0)).append
    (.blank 0)
  rw [recordFragment, h]
  exact hrecord.append (.block _ (.line _ 0) 0)

/-- An enum whose variants do not clash is balanced. -/
theorem balanced_enumFragment {options : Options} {d : Declaration} {values : List Property}
    (h : enumClash? options values = none) : (enumFragment options d values).Balanced := by
  have hhead := (((Matches.blank 0).append (balanced_decoratorDocs d.decorators)).append
    (balanced_derive derivedTraits)).append (.line "#[allow(non_camel_case_types)]" 0)
  have hvariants : (all (values.map (variantFragment options))).Balanced :=
    balanced_all_map fun value _ => balanced_variantFragment options value
  rw [enumFragment, h]
  exact hhead.append (.block _ hvariants 0)

/-- What is written for a declaration without a clash is balanced. -/
theorem balanced_declarationFragment {options : Options} {naming : String → String} {g : Graph}
    {d : Declaration} (h : (declarationFragment options naming g d).fault? = none) :
    (declarationFragment options naming g d).Balanced := by
  unfold declarationFragment at h ⊢
  cases hbody : d.body with
  | record flavor isAbstract superType properties =>
      rw [hbody] at h
      dsimp only at h ⊢
      rw [fault?_recordFragment, Option.map_eq_none_iff] at h
      exact balanced_recordFragment h
  | enumeration values =>
      rw [hbody] at h
      dsimp only at h ⊢
      rw [fault?_enumFragment, Option.map_eq_none_iff] at h
      exact balanced_enumFragment h
  | scalar primitive default => exact .nothing 0

/-- The head of a unit is balanced. -/
theorem balanced_unitHeader (ns : Namespace) : (unitHeader ns).Balanced := by
  have huses :
      (all (ns.importSources.map fun source => use (wholeModule (moduleName source)))).Balanced :=
    balanced_all_map fun source _ => .line _ 0
  have hhead := (((Matches.line "#![allow(unused_imports)]" 0).append
    (holdsPrograms_balanced.use "serde::\x7b Deserialize, Serialize \x7d")).append
    (holdsPrograms_balanced.use "chrono::\x7b DateTime, TimeZone, Utc \x7d")).append (.blank 0)
  exact (hhead.append huses).append (.line _ 0)

/-! ## Units -/

/-- The unit is written by an emitter that comes to the part when it has written the front, and to
the rest when it has written the part. It is at the first level each time. -/
structure UnitPlan.WritesAtFirstLevel (unit : UnitPlan) (front part rest : Fragment) : Prop where
  inTurn : ∀ (m : Type → Type) [Monad m] [LawfulMonad m] [Sink m],
    (unit.content.writeUnit unit.name : m _) = Sink.withUnit unit.name .seal
      (EmitterT.answerFrom 0 (do
        front.exec
        part.exec
        rest.exec : EmitterT m Unit))
  front : front.WritesNested 0
  part : part.WritesNested 0

/-- The unit of a namespace without clashes is written from the first level, declaration by
declaration. -/
theorem writesAtFirstLevel_namespacePlan {options : Options} {naming : String → String} {g : Graph}
    {ns : Namespace} {before after : List Declaration} {d : Declaration}
    (hsplit : ns.declarations = before ++ d :: after)
    (hclean : ∀ e ∈ ns.declarations, (declarationFragment options naming g e).fault? = none) :
    (namespacePlan options naming g ns).WritesAtFirstLevel
      (unitHeader ns ++ .all (before.map (declarationFragment options naming g)))
      (declarationFragment options naming g d)
      (.all (after.map (declarationFragment options naming g))) := by
  rw [hsplit, List.forall_mem_append, List.forall_mem_cons] at hclean
  obtain ⟨hbefore, hd, -⟩ := hclean
  have hfront := (balanced_unitHeader ns).append
    (balanced_all_map fun e he => balanced_declarationFragment (hbefore e he))
  refine ⟨fun m _ _ _ => ?_, Balanced.writesNested hfront 0,
    (balanced_declarationFragment hd).writesNested 0⟩
  have hcontent : ((namespaceFragment options naming g ns).exec : EmitterT m Unit)
      = (unitHeader ns).exec >>= fun _ =>
        (all ((before ++ d :: after).map (declarationFragment options naming g))).exec := by
    rw [← hsplit]
    rfl
  rw [writeUnit, ← answerFrom_exec]
  dsimp only [namespacePlan]
  rw [hcontent, List.map_append, exec_all_append, ← bind_assoc]
  rfl

/-- **Blocks are balanced at every depth.** What is put together from lines, indentations that are
taken back, and blocks is balanced. What is balanced is written nested, from whatever level:
unless a line is refused, the level behind it is the one in front of it; nothing follows a refused
line; and the header and the brace of a block enclose what stands deeper. In a run that succeeds
every declaration is such a program, and the emitter of its unit starts and ends it at the first
level. -/
theorem blocks_are_balanced :
    HoldsPrograms Balanced
      ∧ (∀ program : Fragment, program.Balanced → ∀ level, program.WritesNested level)
      ∧ ∀ (options : Options) (g : Graph) (units : List SourceUnit),
        (runFrom options g units).1 = .ok () → ∀ ns ∈ g.namespaces, ∀ before d after,
          ns.declarations = before ++ d :: after →
            let fragment := declarationFragment options (memberName options.reserved) g
            (namespacePlan options (memberName options.reserved) g ns).WritesAtFirstLevel
              (unitHeader ns ++ .all (before.map fragment)) (fragment d)
                (.all (after.map fragment)) := by
  refine ⟨holdsPrograms_balanced, fun program h level => h.writesNested level,
    fun options g units hrun ns hns before d after hsplit => ?_⟩
  obtain ⟨-, hmembers⟩ := (runFrom_eq_ok_iff options g units).1 hrun
  refine writesAtFirstLevel_namespacePlan hsplit fun e he => ?_
  exact fault?_declarationFragment_eq_none_iff.2 (hmembers e (List.mem_flatMap.2 ⟨ns, hns, he⟩))

/-! A module with a function in it. The line in front of the function stands deeper than the
function does. -/

def innerBody : Fragment := .line "work();"

def nestedBlocks : Fragment :=
  .block "pub mod outer"
    (.blank ++ .indent ++ .doc "deeper" ++ .dedent ++ .block "pub fn inner()" innerBody)

theorem nestedBlocks_balanced : nestedBlocks.Balanced := by
  have hdeeper :=
    (((Matches.blank 0).append (.indent 0)).append (.line "/// deeper" 1)).append (.dedent 0)
  exact .block "pub mod outer" (hdeeper.append (.block "pub fn inner()" (.line "work();" 0) 0)) 0

def shopNamespace : Namespace := ⟨"shop", [], [bookClass, itemClass, bindingEnum, priceScalar]⟩

/-- What stands in the unit of the shop in front of the enum: the head and two records. -/
def beforeBinding : Fragment :=
  unitHeader shopNamespace ++ .all ([bookClass, itemClass].map
    (declarationFragment .default (memberName Options.default.reserved) shop))

/-- A block in a block, from level two on; and the unit of the shop, up to its enum. -/
theorem blocks_are_balanced_nested :
    nestedBlocks.Balanced ∧ Opens "pub fn inner()" innerBody 3 nestedBlocks 2
      ∧ (∃ front inside rest, (nestedBlocks.emit 2).lines
          = front ++ ⟨3, "pub fn inner() \x7b"⟩ :: inside ++ ⟨3, "\x7d"⟩ :: rest
        ∧ inside = [⟨4, "work();"⟩])
      ∧ (runFrom .default shop []).1 = .ok ()
      ∧ shopNamespace ∈ shop.namespaces
      ∧ (MemorySink.run ⟨⟨some ⟨"shop.rs", #[]⟩⟩, []⟩
          (EmitterT.answerFrom 0 (beforeBinding.exec >>= fun _ => EmitterT.level))).1 = .ok 0 := by
  have hopens : Opens "pub fn inner()" innerBody 3 nestedBlocks 2 := .inside _ (.second _ .here)
  obtain ⟨front, inside, rest, hlines, hinside, -⟩ :=
    (blocks_are_balanced.2.1 nestedBlocks nestedBlocks_balanced 2).blocks _ _ _ hopens
  have hrun : (runFrom .default shop []).1 = .ok () := congrArg Prod.fst runFrom_shop
  have hshop : shopNamespace ∈ shop.namespaces := List.mem_cons_self
  have hlevel := (blocks_are_balanced.2.2 .default shop [] hrun shopNamespace hshop
    [bookClass, itemClass] bindingEnum [priceScalar] rfl).front.answered (StateM MemorySink)
  refine ⟨nestedBlocks_balanced, hopens, ⟨front, inside, rest, hlines, hinside⟩, hrun, hshop, ?_⟩
  rw [beforeBinding, hlevel, MemorySink.run_bind, MemorySink.run_performAll_writeLine]
  rfl

end ModelForge
