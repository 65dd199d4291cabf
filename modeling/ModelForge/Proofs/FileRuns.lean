/-
`FileRuns.lean` -- what a run does to a file system.

A sink on a directory keeps its open unit to itself, so a unit that is written leaves the file
system alone until it is sealed, and then it is stored (`run_writeUnit`). What storing a unit
keeps true of the paths written so far and of the file system, a run keeps true
(`exists_of_runGenerate`). Storing makes two requests, to create the directory and to write a file
in it, so that is all there is to look at (`KeptByStoring.of_requests`).
-/
import ModelForge.Files.Sink
import ModelForge.Proofs.Outcome

set_option autoImplicit false

namespace ModelForge

namespace FileSink

variable {σ : Type}

/-- What an effect answers on a sink and a file system, with what it leaves of the two. -/
def run {α : Type} (sink : FileSink) (state : σ) (effect : StateT FileSink (StateM σ) α) :
    (α × FileSink) × σ :=
  (effect.run sink).run state

theorem run_pure {α : Type} (sink : FileSink) (state : σ) (a : α) :
    run sink state (pure a) = ((a, sink), state) := rfl

theorem run_bind {α β : Type} (sink : FileSink) (state : σ) (effect : StateT FileSink (StateM σ) α)
    (next : α → StateT FileSink (StateM σ) β) :
    run sink state (effect >>= next)
      = run (run sink state effect).1.2 (run sink state effect).2
        (next (run sink state effect).1.1) :=
  rfl

/-! ## One unit -/

variable [FileSystem (StateM σ)]

variable (directory : String) (written : List String) (state : σ)

/-- A unit is opened without a look at the files. -/
theorem run_perform_openUnit (name : String) :
    run ⟨directory, .empty, written⟩ state (Sink.perform (.openUnit name))
      = ((.ok (), ⟨directory, ⟨some ⟨name, #[]⟩⟩, written⟩), state) := rfl

/-- Lines go to the end of the open unit, and nowhere else. -/
theorem run_performAll_writeLine (name : String) (stored : Array String) (lines : List Line) :
    run ⟨directory, ⟨some ⟨name, stored⟩⟩, written⟩ state (Sink.performAll (lines.map .writeLine))
      = ((.ok (), ⟨directory, ⟨some ⟨name, stored ++ (lines.map Line.render).toArray⟩⟩, written⟩),
          state) := by
  induction lines generalizing stored with
  | nil =>
      rw [List.map_nil, Sink.performAll, run_pure]
      simp
  | cons line rest ih =>
      have hwrite : run ⟨directory, ⟨some ⟨name, stored⟩⟩, written⟩ state
          (Sink.perform (.writeLine line))
          = ((.ok (), ⟨directory, ⟨some ⟨name, stored.push line.render⟩⟩, written⟩), state) := rfl
      rw [List.map_cons, Sink.performAll, run_bind, hwrite]
      dsimp only
      rw [ih]
      simp

/-- What is written stays in memory until the unit is closed. -/
theorem run_write (name : String) (fragment : Fragment) :
    run ⟨directory, ⟨some ⟨name, #[]⟩⟩, written⟩ state (fragment.write 0)
      = ((match fragment.fault? with
          | some e => .error e
          | none => .ok (),
        ⟨directory, ⟨some ⟨name, fragment.rendered.toArray⟩⟩, written⟩), state) := by
  have hrendered : #[] ++ ((fragment.emit 0).lines.map Line.render).toArray
      = fragment.rendered.toArray := by
    rw [Fragment.rendered, Array.empty_append]
  rw [Fragment.write, run_bind, run_performAll_writeLine, hrendered, Fragment.error?_emit]
  cases fragment.fault? <;> rfl

/-- Storing a unit is creating the directory and writing a file in it. -/
theorem run_store (unit : SourceUnit) :
    (store directory unit : StateM σ _).run state
      = (let created := (FileSystem.createDirectories directory : StateM σ _).run state
        match created.1 with
        | .error _ => (.error (.io unit.name), created.2)
        | .ok _ =>
            let answer :=
              (FileSystem.writeText (Path.join directory unit.name) unit.text : StateM σ _).run
                created.2
            match answer.1 with
            | .error _ => (.error (.io unit.name), answer.2)
            | .ok _ => (.ok (Path.join directory unit.name), answer.2)) := by
  have hstore : (store directory unit : StateM σ _).run state
      = StateT.run (m := Id)
        (match ((FileSystem.createDirectories directory : StateM σ _).run state).1 with
          | .error _ => pure (.error (.io unit.name))
          | .ok _ =>
              FileSystem.writeText (Path.join directory unit.name) unit.text >>= fun answer =>
                match answer with
                | .error _ => pure (.error (.io unit.name))
                | .ok _ => pure (.ok (Path.join directory unit.name)))
        ((FileSystem.createDirectories directory : StateM σ _).run state).2 := rfl
  rw [hstore]
  generalize (FileSystem.createDirectories directory : StateM σ _).run state = created
  dsimp only
  cases created.1 with
  | error fault => rfl
  | ok _ =>
      have hwrite : ∀ answer : Except FileFault Unit × σ,
          StateT.run (m := Id)
            (match answer.1 with
              | .error _ => pure (Except.error (SinkError.io unit.name))
              | .ok _ => pure (.ok (Path.join directory unit.name))) answer.2
          = match answer.1 with
            | .error _ => (.error (.io unit.name), answer.2)
            | .ok _ => (.ok (Path.join directory unit.name), answer.2) := by
        rintro ⟨answer, state'⟩
        cases answer <;> rfl
      exact hwrite _

/-- The file system behind a unit that was stored, with what is known of the sink. -/
def afterStoring (unit : SourceUnit) : (Except GenerationError Unit × FileSink) × σ :=
  let stored := (store directory unit : StateM σ _).run state
  match stored.1 with
  | .ok path => ((.ok (), ⟨directory, .empty, written ++ [path]⟩), stored.2)
  | .error e => ((.error (.sink e), ⟨directory, .empty, written⟩), stored.2)

/-- Closing a unit stores it. -/
theorem run_perform_closeUnit (unit : OpenUnit) :
    run ⟨directory, ⟨some unit⟩, written⟩ state (Sink.perform .closeUnit >>= fun closed =>
        match closed with
        | .ok _ => pure (.ok ())
        | .error e => pure (.error (.sink e)))
      = afterStoring directory written state unit.sealed := by
  rw [run_bind, afterStoring]
  -- the call that seals the unit stores it, and goes on from the answer
  have hclose : run ⟨directory, ⟨some unit⟩, written⟩ state (Sink.perform .closeUnit)
      = StateT.run (m := Id) (match ((store directory unit.sealed : StateM σ _).run state).1 with
          | .ok path => pure (Except.ok (), ⟨directory, .empty, written ++ [path]⟩)
          | .error e => pure (Except.error e, ⟨directory, .empty, written⟩))
        ((store directory unit.sealed : StateM σ _).run state).2 := rfl
  rw [hclose]
  cases ((store directory unit.sealed : StateM σ _).run state).1 <;> rfl

/-- **Only sealing a unit has to do with files.** -/
theorem run_writeUnit (unit : UnitPlan) :
    run ⟨directory, .empty, written⟩ state (unit.content.writeUnit unit.name)
      = match unit.content.fault? with
        | some e => ((.error e, ⟨directory, .empty, written⟩), state)
        | none => afterStoring directory written state unit.sealed := by
  rw [Fragment.writeUnit, Sink.withUnit, run_bind, run_perform_openUnit]
  dsimp only
  rw [run_bind, run_write]
  cases unit.content.fault? with
  | some e => rfl
  | none =>
      exact run_perform_closeUnit directory written state ⟨unit.name, unit.content.rendered.toArray⟩

/-! ## Runs -/

/-- Behind a unit that has been stored the next one is written. -/
theorem run_writeUnits_cons_of_clean {unit : UnitPlan} {rest : List UnitPlan}
    (hclean : unit.content.fault? = none) :
    run ⟨directory, .empty, written⟩ state (writeUnits (unit :: rest))
      = (let stored := (store directory unit.sealed : StateM σ _).run state
        match stored.1 with
        | .ok path => run ⟨directory, .empty, written ++ [path]⟩ stored.2 (writeUnits rest)
        | .error e => ((.error (.sink e), ⟨directory, .empty, written⟩), stored.2)) := by
  rw [writeUnits, run_bind, run_writeUnit, hclean, afterStoring]
  dsimp only
  cases ((store directory unit.sealed : StateM σ _).run state).1 <;> rfl

/-- With a unit that is stored, the others are written after it. -/
theorem run_writeUnits_cons_of_stored {unit : UnitPlan} {rest : List UnitPlan} {path : String}
    {state' : σ} (hclean : unit.content.fault? = none)
    (hstored : (store directory unit.sealed : StateM σ _).run state = (.ok path, state')) :
    run ⟨directory, .empty, written⟩ state (writeUnits (unit :: rest))
      = run ⟨directory, .empty, written ++ [path]⟩ state' (writeUnits rest) := by
  rw [run_writeUnits_cons_of_clean _ _ _ hclean, hstored]

/-- With one that has a fault, nothing more is written, and that unit is abandoned. -/
theorem run_writeUnits_cons_of_fault {unit : UnitPlan} {rest : List UnitPlan}
    {error : GenerationError} (hfault : unit.content.fault? = some error) :
    run ⟨directory, .empty, written⟩ state (writeUnits (unit :: rest))
      = ((.error error, ⟨directory, .empty, written⟩), state) := by
  rw [writeUnits, run_bind, run_writeUnit, hfault]
  rfl

/-- What is true of the paths written so far and of the file system stays true when a unit is
stored. -/
def KeptByStoring (P : List String → σ → Prop) (unit : SourceUnit) : Prop :=
  ∀ written state, P written state →
    let stored := (store directory unit : StateM σ _).run state
    match stored.1 with
    | .ok path => P (written ++ [path]) stored.2
    | .error _ => P written stored.2

variable {directory written state} {P : List String → σ → Prop}

/-- The two requests are all that has to keep it true. -/
theorem KeptByStoring.of_requests {unit : SourceUnit}
    (hcreate : ∀ written state, P written state →
      P written ((FileSystem.createDirectories directory : StateM σ _).run state).2)
    (hwrite : ∀ written state, P written state →
      let answer :=
        (FileSystem.writeText (Path.join directory unit.name) unit.text : StateM σ _).run state
      match answer.1 with
      | .ok _ => P (written ++ [Path.join directory unit.name]) answer.2
      | .error _ => P written answer.2) :
    KeptByStoring directory P unit := by
  intro written state h
  have hcreated := hcreate written state h
  have hwritten := hwrite written _ hcreated
  rw [run_store]
  dsimp only at hwritten ⊢
  cases ((FileSystem.createDirectories directory : StateM σ _).run state).1 with
  | error fault => exact hcreated
  | ok _ =>
      dsimp only
      cases hanswer : ((FileSystem.writeText (Path.join directory unit.name) unit.text :
          StateM σ _).run ((FileSystem.createDirectories directory : StateM σ _).run state).2).1
            with
      | error fault =>
          rw [hanswer] at hwritten
          exact hwritten
      | ok _ =>
          rw [hanswer] at hwritten
          exact hwritten

/-- **What storing a unit keeps, writing units keeps.** No unit is open behind them. -/
theorem exists_of_run_writeUnits {plans : List UnitPlan}
    (hkept : ∀ unit ∈ plans, KeptByStoring directory P unit.sealed) (h : P written state) :
    ∃ outcome written' state',
      run ⟨directory, .empty, written⟩ state (writeUnits plans)
          = ((outcome, ⟨directory, .empty, written'⟩), state')
        ∧ P written' state' := by
  induction plans generalizing written state with
  | nil => exact ⟨_, _, _, run_pure _ _ _, h⟩
  | cons unit rest ih =>
      rw [List.forall_mem_cons] at hkept
      cases hfault : unit.content.fault? with
      | some e => exact ⟨_, _, _, run_writeUnits_cons_of_fault _ _ _ hfault, h⟩
      | none =>
          -- the unit is stored, and what is kept decides nothing about the answer
          rw [run_writeUnits_cons_of_clean _ _ _ hfault]
          have hstored := hkept.1 written state h
          dsimp only at hstored ⊢
          cases hanswer : ((store directory unit.sealed : StateM σ _).run state).1 with
          | ok path =>
              rw [hanswer] at hstored
              exact ih hkept.2 hstored
          | error e =>
              rw [hanswer] at hstored
              exact ⟨_, _, _, rfl, hstored⟩

/-- **What storing a unit keeps, a run keeps.** -/
theorem exists_of_run_generate (options : Options) (g : Graph)
    (hkept : ∀ unit ∈ plansUpTo options g g.namespaces, KeptByStoring directory P unit.sealed)
    (h : P written state) :
    ∃ outcome written' state',
      run ⟨directory, .empty, written⟩ state (generate options g)
          = ((outcome, ⟨directory, .empty, written'⟩), state')
        ∧ P written' state' := by
  unfold generate plan
  cases moduleFault? options [] g.namespaces with
  | some e => exact ⟨_, _, _, run_pure _ _ _, h⟩
  | none => exact exists_of_run_writeUnits hkept h

end FileSink

end ModelForge
