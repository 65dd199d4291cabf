/-
`UntouchedSinks.lean` -- what a run leaves alone.

A run may meet a sink that has units already, and even one with a unit that somebody else has left
open. What is wrong with the modules is found before the first call, so no sink can tell that
there was a run at all. The first call asks for the manifest. If another unit is open it is
refused, and nothing has to be cleaned up, because only `Sink.withUnit` abandons and it does so
behind an opening that was answered (`MemorySink.run_withUnit_of_open`). Otherwise a run does no
more than to seal units behind those that are there (`MemorySink.AppendsOnly`), however it ends.

None of this depends on how names are spelled. So it is also true of a generator that has run
before.
-/
import ModelForge.Proofs.Outcome
import ModelForge.Proofs.RunsInTurn

set_option autoImplicit false

namespace ModelForge

/-! ## Units -/

namespace MemorySink

/-- A unit that is open already stays as it is, whatever was to be written. -/
theorem run_withUnit_of_open {α : Type} (unit : OpenUnit) (units : List SourceUnit) (name : String)
    (closing : Sink.Closing) (body : StateM MemorySink (Except GenerationError α)) :
    run ⟨⟨some unit⟩, units⟩ (Sink.withUnit name closing body)
      = (.error (.sink (.unitAlreadyOpen unit.name name)), ⟨⟨some unit⟩, units⟩) := rfl

/-- On a sink without an open unit the effect seals some units behind those that are there, and
leaves no unit open. Neither the answer nor the new units depend on what was there. -/
def AppendsOnly {α : Type} (effect : StateM MemorySink α) : Prop :=
  ∃ answer published, ∀ units, run ⟨.empty, units⟩ effect = (answer, ⟨.empty, units ++ published⟩)

theorem appendsOnly_pure {α : Type} (a : α) : AppendsOnly (pure a) :=
  ⟨a, [], fun units => by rw [run_pure, List.append_nil]⟩

theorem AppendsOnly.bind {α β : Type} {effect : StateM MemorySink α}
    {next : α → StateM MemorySink β} (heffect : AppendsOnly effect)
    (hnext : ∀ a, AppendsOnly (next a)) :
    AppendsOnly (effect >>= next) := by
  obtain ⟨a, published, hrun⟩ := heffect
  obtain ⟨b, more, hmore⟩ := hnext a
  refine ⟨b, published ++ more, fun units => ?_⟩
  rw [run_bind, hrun]
  dsimp only
  rw [hmore, List.append_assoc]

theorem appendsOnly_writeUnit (unit : UnitPlan) :
    AppendsOnly (unit.content.writeUnit unit.name) := by
  cases hfault : unit.content.fault? with
  | some e =>
      refine ⟨.error e, [], fun units => ?_⟩
      rw [run_writeUnit, hfault, List.append_nil]
  | none =>
      refine ⟨.ok (), [unit.sealed], fun units => ?_⟩
      rw [run_writeUnit, hfault]

theorem appendsOnly_writeUnits (plans : List UnitPlan) : AppendsOnly (writeUnits plans) := by
  induction plans with
  | nil => exact appendsOnly_pure _
  | cons unit rest ih =>
      refine (appendsOnly_writeUnit unit).bind fun outcome => ?_
      cases outcome with
      | ok _ => exact ih
      | error e => exact appendsOnly_pure _

end MemorySink

/-! ## Runs -/

/-- A generation of the graph that leaves its sink alone when it fails early, and else only adds
to it. -/
structure SparesSinks (options : Options) (g : Graph)
    (generation : (m : Type → Type) → [Monad m] → [LawfulMonad m] → [Sink m] →
      m (Except GenerationError Unit)) : Prop where
  /-- Where modules are not allowed, the first fault is the answer. No sink is called, whether or
  not a unit is open. -/
  rejected : ¬ ModulesAllowed options g.namespaces →
    ∃ before ns after error, g.namespaces = before ++ ns :: after ∧ ModulesAllowed options before
      ∧ ModuleFault options before ns error
      ∧ (∀ (m : Type → Type) [Monad m] [LawfulMonad m] [Sink m], generation m = pure (.error error))
      ∧ ∀ sink : MemorySink, sink.run (generation _) = (.error error, sink)
  /-- Else a unit that is open already is in the way of the manifest. It stays open, with its
  lines. -/
  refused : ModulesAllowed options g.namespaces → ∀ (unit : OpenUnit) (units : List SourceUnit),
    MemorySink.run ⟨⟨some unit⟩, units⟩ (generation _)
      = (.error (.sink (.unitAlreadyOpen unit.name manifestUnit)), ⟨⟨some unit⟩, units⟩)
  /-- Units that were sealed before stay in front of the new ones, whatever the answer is. -/
  appended : MemorySink.AppendsOnly (generation _)

/-- To write a plan spares sinks, however the names in it are spelled. -/
theorem sparesSinks_writePlan (options : Options) (naming : String → String) (g : Graph) :
    SparesSinks options g fun _ => writePlan (plan options naming g) := by
  by_cases hmodules : ModulesAllowed options g.namespaces
  · have hplan : plan options naming g = .ok (manifestPlan g :: dateTimePlan options
        :: g.namespaces.map (namespacePlan options naming g)) := by
      rw [plan, moduleFault?_nil_eq_none_iff.2 hmodules]
    rw [hplan]
    refine ⟨fun h => absurd hmodules h, fun _ unit units => ?_, MemorySink.appendsOnly_writeUnits _⟩
    rw [writePlan, writeUnits, MemorySink.run_bind, Fragment.writeUnit,
      MemorySink.run_withUnit_of_open]
    rfl
  · cases hfault : moduleFault? options [] g.namespaces with
    | none => exact absurd (moduleFault?_nil_eq_none_iff.1 hfault) hmodules
    | some error =>
        have hplan : plan options naming g = .error error := by rw [plan, hfault]
        obtain ⟨before, ns, after, hsplit, hbefore, hns⟩ := split_of_moduleFault?_nil_eq_some hfault
        rw [hplan]
        exact ⟨fun _ => ⟨before, ns, after, error, hsplit, hbefore, hns,
          fun _ => rfl, fun _ => rfl⟩,
          fun h => absurd h hmodules, MemorySink.appendsOnly_pure _⟩

/-- **A run that fails early leaves its sink exactly as it was.** A fault of the modules is
answered without a call. A unit that is open already is named in the answer, and it is not
abandoned. On a sink without an open unit all that a run does, however it ends, is to seal new
units behind those of before. It makes no difference whether the generator has run before. -/
theorem early_failures_spare_sink (options : Options) (g : Graph) :
    SparesSinks options g (fun _ => generate options g)
      ∧ ∀ names : NameCache,
        SparesSinks options g fun _ => Prod.fst <$> Generator.run ⟨g, options, names⟩ := by
  refine ⟨sparesSinks_writePlan options _ g, fun names => ?_⟩
  simp only [Generator.fst_map_run]
  exact sparesSinks_writePlan options _ g

/-- A unit that somebody else has left open is not closed by the run that it stops. -/
example :
    MemorySink.run ⟨⟨some ⟨"kept.rs", #["kept"]⟩⟩, []⟩ (generate .default (.ofNamespaces []))
      = (.error (.sink (.unitAlreadyOpen "kept.rs" "mod.rs")),
        ⟨⟨some ⟨"kept.rs", #["kept"]⟩⟩, []⟩) := by
  rfl

end ModelForge
