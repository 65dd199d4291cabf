/-
`MemoryRun.lean` -- what writing does to a sink in memory.

A sink in memory refuses a call only out of turn, and units are written in turn. So a unit that is
written to a sink without an open unit comes out whole, or not at all (`run_writeUnit`): the lines
that a fragment had sent when it gave up are dropped with the open unit. What decides is whether
the fragment gives up anywhere, and that can be read off the fragment without emitting it
(`Fragment.fault?`).
-/
import ModelForge.Generate.Run
import ModelForge.Proofs.Fragments

set_option autoImplicit false

namespace ModelForge

/-! ## Sealed units -/

/-- The lines of a fragment as they are stored. -/
def Fragment.rendered (fragment : Fragment) : List String :=
  (fragment.emit 0).lines.map Line.render

/-- The unit that comes out when it is written to its end. -/
def UnitPlan.sealed (unit : UnitPlan) : SourceUnit := ⟨unit.name, unit.content.rendered⟩

/-! ## Runs on sinks in memory -/

namespace MemorySink

/-- What an effect answers on a sink, and the sink it leaves. -/
def run {α : Type} (sink : MemorySink) (effect : StateM MemorySink α) : α × MemorySink :=
  Id.run (StateT.run effect sink)

theorem run_pure {α : Type} (sink : MemorySink) (a : α) : sink.run (pure a) = (a, sink) := rfl

theorem run_bind {α β : Type} (sink : MemorySink) (effect : StateM MemorySink α)
    (next : α → StateM MemorySink β) :
    sink.run (effect >>= next) = (sink.run effect).2.run (next (sink.run effect).1) := rfl

/-- A call changes the sink as `step` says, or leaves it alone. -/
theorem run_perform_of_ok {sink sink' : MemorySink} {call : SinkCall}
    (h : sink.step call = .ok sink') :
    sink.run (Sink.perform call) = (.ok (), sink') := by
  simp only [run, StateT.run, Sink.perform, h]
  rfl

variable (units : List SourceUnit)

/-- Lines go to the end of the open unit. -/
theorem run_performAll_writeLine (name : String) (written : Array String) (lines : List Line) :
    run ⟨⟨some ⟨name, written⟩⟩, units⟩ (Sink.performAll (lines.map .writeLine))
      = (.ok (), ⟨⟨some ⟨name, written ++ (lines.map Line.render).toArray⟩⟩, units⟩) := by
  induction lines generalizing written with
  | nil =>
      rw [List.map_nil, Sink.performAll, run_pure]
      simp
  | cons line rest ih =>
      rw [List.map_cons, Sink.performAll, run_bind, run_perform_of_ok rfl]
      dsimp only
      rw [ih]
      simp

/-- A fragment that is written goes to the end of the open unit, and is answered with its error. -/
theorem run_write (name : String) (fragment : Fragment) :
    run ⟨⟨some ⟨name, #[]⟩⟩, units⟩ (fragment.write 0)
      = (match fragment.fault? with
          | some e => .error e
          | none => .ok (),
        ⟨⟨some ⟨name, fragment.rendered.toArray⟩⟩, units⟩) := by
  have hwritten : #[] ++ ((fragment.emit 0).lines.map Line.render).toArray
      = fragment.rendered.toArray := by
    rw [Fragment.rendered, Array.empty_append]
  rw [Fragment.write, run_bind, run_performAll_writeLine, hwritten, Fragment.error?_emit]
  cases fragment.fault? <;> rfl

/-- A unit that is written comes out if it is sealed. Nothing is left of a fragment that gives up.
-/
theorem run_withUnit (unit : UnitPlan) (closing : Sink.Closing) :
    run ⟨.empty, units⟩ (Sink.withUnit unit.name closing (unit.content.write 0))
      = match unit.content.fault? with
        | some e => (.error e, ⟨.empty, units⟩)
        | none => (.ok (), ⟨.empty, units ++ if closing = .seal then [unit.sealed] else []⟩) := by
  rw [Sink.withUnit, run_bind, run_perform_of_ok rfl]
  dsimp only
  rw [run_bind, run_write]
  -- the body has run: its unit is abandoned or sealed
  cases unit.content.fault? with
  | some e => rfl
  | none =>
      rcases closing with _ | _
      · dsimp only
        rw [run_bind, run_perform_of_ok rfl]
        rfl
      · rw [if_neg (by simp), List.append_nil]
        rfl

/-- **A unit is written whole or not at all.** -/
theorem run_writeUnit (unit : UnitPlan) :
    run ⟨.empty, units⟩ (unit.content.writeUnit unit.name)
      = match unit.content.fault? with
        | some e => (.error e, ⟨.empty, units⟩)
        | none => (.ok (), ⟨.empty, units ++ [unit.sealed]⟩) := by
  rw [Fragment.writeUnit, run_withUnit]
  rfl

/-- Units without errors are all sealed, in order. -/
theorem run_writeUnits_of_clean (plans : List UnitPlan)
    (hclean : ∀ unit ∈ plans, unit.content.fault? = none) :
    run ⟨.empty, units⟩ (writeUnits plans)
      = (.ok (), ⟨.empty, units ++ plans.map UnitPlan.sealed⟩) := by
  induction plans generalizing units with
  | nil =>
      rw [writeUnits, run_pure, List.map_nil, List.append_nil]
  | cons unit rest ih =>
      rw [List.forall_mem_cons] at hclean
      rw [writeUnits, run_bind, run_writeUnit, hclean.1]
      dsimp only
      rw [ih _ hclean.2, List.append_assoc, List.map_cons]
      rfl

/-- **Writing ends at the first unit with an error.** The units before it stay sealed. -/
theorem run_writeUnits_of_fault (before : List UnitPlan) (unit : UnitPlan) (after : List UnitPlan)
    {error : GenerationError} (hclean : ∀ unit ∈ before, unit.content.fault? = none)
    (hfault : unit.content.fault? = some error) :
    run ⟨.empty, units⟩ (writeUnits (before ++ unit :: after))
      = (.error error, ⟨.empty, units ++ before.map UnitPlan.sealed⟩) := by
  induction before generalizing units with
  | nil =>
      rw [List.nil_append, writeUnits, run_bind, run_writeUnit, hfault, List.map_nil,
        List.append_nil]
      rfl
  | cons first rest ih =>
      rw [List.forall_mem_cons] at hclean
      rw [List.cons_append, writeUnits, run_bind, run_writeUnit, hclean.1]
      dsimp only
      rw [ih _ hclean.2, List.append_assoc, List.map_cons]
      rfl

end MemorySink

end ModelForge
