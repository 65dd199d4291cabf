/-
`Refusals.lean` -- what becomes of a run whose sink refuses a call.

The sink of this module keeps units in memory and is wrapped so that one chosen call is refused
and never reaches it (`Output/Fault.lean`). A run on it is followed along its script: the calls in
front of the chosen one are answered as ever (`FaultState.run_followCalls_passed`), and behind it
there is at most the clean-up of the unit (`FaultState.run_followCalls_refused`). So no refusal is
swallowed and nothing follows it (`refused_call_ends_run`).
-/
import ModelForge.Output.Fault
import ModelForge.Proofs.Outcome
import ModelForge.Proofs.Scripts

set_option autoImplicit false

namespace ModelForge

/-! ## Scripts are in turn -/

namespace MemorySink

/-- Lines are added to the open unit. -/
theorem replay_writeLine (name : String) (written : Array String) (units : List SourceUnit)
    (lines : List Line) :
    replay ⟨⟨some ⟨name, written⟩⟩, units⟩ (lines.map .writeLine)
      = .ok ⟨⟨some ⟨name, written ++ (lines.map Line.render).toArray⟩⟩, units⟩ := by
  induction lines generalizing written with
  | nil =>
      rw [List.map_nil, List.map_nil, Array.append_empty]
      rfl
  | cons line rest ih =>
      have hstep : step ⟨⟨some ⟨name, written⟩⟩, units⟩ (.writeLine line)
          = .ok ⟨⟨some ⟨name, written.push line.render⟩⟩, units⟩ := rfl
      rw [List.map_cons, replay_cons, hstep, Except.bind, ih]
      simp

/-- The lines of a unit, and the opening in front of them. -/
theorem replay_unit (units : List SourceUnit) (unit : UnitPlan) :
    replay ⟨.empty, units⟩ (.openUnit unit.name :: (unit.content.emit 0).lines.map .writeLine)
      = .ok ⟨⟨some ⟨unit.name, unit.content.rendered.toArray⟩⟩, units⟩ := by
  have hstep : step ⟨.empty, units⟩ (.openUnit unit.name)
      = .ok ⟨⟨some ⟨unit.name, #[]⟩⟩, units⟩ := rfl
  rw [replay_cons, hstep, Except.bind, replay_writeLine, Array.empty_append]
  rfl

/-- On a sink without an open unit a script is in turn from its first call to its last, and the
unit that is still open behind it is the one that the script abandons. -/
theorem replay_ofUnits (units : List SourceUnit) (plans : List UnitPlan) :
    ∃ last, replay ⟨.empty, units⟩ (Script.ofUnits plans).calls = .ok last
      ∧ last.isOpen = (Script.ofUnits plans).abandons := by
  induction plans generalizing units with
  | nil => exact ⟨⟨.empty, units⟩, rfl, rfl⟩
  | cons unit rest ih =>
      cases h : unit.content.fault? with
      | some e =>
          rw [Script.calls_ofUnits_of_fault h]
          exact ⟨_, replay_unit units unit, rfl⟩
      | none =>
          obtain ⟨last, hlast, hopen⟩ := ih (units ++ [unit.sealed])
          rw [Script.calls_ofUnits_of_clean h]
          refine ⟨last, ?_, hopen⟩
          rw [replay_append, replay_unit, Except.bind, replay_cons]
          exact hlast

/-- A sink in memory takes the calls of a run, and is left open only where the run abandons its
unit. -/
theorem replay_runScript (options : Options) (g : Graph) (units : List SourceUnit) :
    ∃ last, replay ⟨.empty, units⟩ (runScript options g).calls = .ok last
      ∧ last.isOpen = (runScript options g).abandons := by
  rw [runScript]
  cases plan options (memberName options.reserved) g with
  | error e => exact ⟨⟨.empty, units⟩, rfl, rfl⟩
  | ok plans => exact replay_ofUnits units plans

/-! ## Calls only add units -/

/-- A call in turn is answered from a sink that fits it. -/
theorem units_prefix_of_step {sink sink' : MemorySink} {call : SinkCall}
    (h : sink.step call = .ok sink') : sink.units <+: sink'.units := by
  obtain ⟨⟨current⟩, units⟩ := sink
  cases call with
  | openUnit name =>
      cases current with
      | none =>
          obtain rfl := Except.ok.inj h
          exact List.prefix_rfl
      | some unit => exact absurd h (by simp [step, UnitBuffer.start, Except.map])
  | writeLine line =>
      cases current with
      | none => exact absurd h (by simp [step, UnitBuffer.write, Except.map])
      | some unit =>
          obtain rfl := Except.ok.inj h
          exact List.prefix_rfl
  | closeUnit =>
      cases current with
      | none => exact absurd h (by simp [step, UnitBuffer.take, Except.map])
      | some unit =>
          obtain rfl := Except.ok.inj h
          exact List.prefix_append _ _

/-- A call in front of others has been answered, and they are replayed behind it. -/
theorem step_of_replay_cons {sink last : MemorySink} {call : SinkCall} {rest : List SinkCall}
    (h : sink.replay (call :: rest) = .ok last) :
    ∃ next, sink.step call = .ok next ∧ next.replay rest = .ok last := by
  rw [replay_cons] at h
  cases hnext : sink.step call with
  | error e => exact absurd h (by simp [hnext, Except.bind])
  | ok next =>
      rw [hnext, Except.bind] at h
      exact ⟨next, rfl, h⟩

/-- What is replayed in front of a call has been answered too, and the call is answered behind it.
-/
theorem replay_split {sink last : MemorySink} {before after : List SinkCall} {call : SinkCall}
    (h : sink.replay (before ++ call :: after) = .ok last) :
    ∃ middle next, sink.replay before = .ok middle ∧ middle.step call = .ok next
      ∧ next.replay after = .ok last := by
  rw [replay_append] at h
  cases hmiddle : sink.replay before with
  | error e => exact absurd h (by simp [hmiddle, Except.bind])
  | ok middle =>
      rw [hmiddle, Except.bind] at h
      obtain ⟨next, hnext, hrest⟩ := step_of_replay_cons h
      exact ⟨middle, next, rfl, hnext, hrest⟩

/-- Units that have been sealed stay, whatever is called. -/
theorem units_prefix_of_replay {sink sink' : MemorySink} {calls : List SinkCall}
    (h : sink.replay calls = .ok sink') : sink.units <+: sink'.units := by
  induction calls generalizing sink with
  | nil =>
      obtain rfl := Except.ok.inj h
      exact List.prefix_rfl
  | cons call rest ih =>
      obtain ⟨next, hnext, hrest⟩ := step_of_replay_cons h
      exact (units_prefix_of_step hnext).trans (ih hrest)

/-- The sink behind the clean-up of a call that was refused. -/
def cleanedUp (sink : MemorySink) : SinkCall → MemorySink
  | .openUnit _ => sink
  | .writeLine _ => sink.abandoned
  | .closeUnit => sink

/-- Only behind a seal that was refused is a unit open: it was open in front of it. -/
theorem isOpen_cleanedUp {sink next : MemorySink} {call : SinkCall}
    (h : sink.step call = .ok next) :
    (sink.cleanedUp call).isOpen = true ↔ call = .closeUnit := by
  obtain ⟨⟨current⟩, units⟩ := sink
  cases call with
  | openUnit name =>
      refine iff_of_false (fun hopen => ?_) (by simp)
      cases current with
      | none => exact absurd hopen (by simp [cleanedUp, isOpen, UnitBuffer.isOpen])
      | some unit => exact absurd h (by simp [step, UnitBuffer.start, Except.map])
  | writeLine line =>
      exact iff_of_false (by simp [cleanedUp, abandoned, isOpen,
        UnitBuffer.isOpen, UnitBuffer.empty])
        (by simp)
  | closeUnit =>
      refine iff_of_true ?_ rfl
      cases current with
      | none => exact absurd h (by simp [step, UnitBuffer.take, Except.map])
      | some unit => rfl

/-- No clean-up undoes what was sealed. -/
theorem units_cleanedUp (sink : MemorySink) (call : SinkCall) :
    (sink.cleanedUp call).units = sink.units := by
  cases call <;> rfl

/-- Calls in turn are all answered, and then comes the end. -/
theorem run_followCalls {sink sink' : MemorySink} {calls : List SinkCall}
    (hcalls : sink.replay calls = .ok sink')
    (ending : StateM MemorySink (Except GenerationError Unit)) :
    sink.run (followCalls ending calls) = sink'.run ending := by
  induction calls generalizing sink with
  | nil =>
      obtain rfl := Except.ok.inj hcalls
      rfl
  | cons call rest ih =>
      obtain ⟨next, hnext, hrest⟩ := step_of_replay_cons hcalls
      rw [followCalls, run_bind, run_perform_of_ok hnext]
      exact ih hrest

end MemorySink

/-! ## The wrapped sink -/

namespace FaultState

/-- What an effect answers on a wrapped sink in memory, and the two states that it leaves. -/
def run {α : Type} (state : FaultState) (sink : MemorySink)
    (effect : StateT FaultState (StateM MemorySink) α) : (α × FaultState) × MemorySink :=
  sink.run (StateT.run effect state)

/-- The next call is the one that is refused. -/
def RefusesNext (state : FaultState) : Prop := state.calls + 1 = state.failAt

/-- The state behind calls that were passed on. -/
def passed (state : FaultState) (calls : List SinkCall) : FaultState :=
  { state with
    calls := state.calls + calls.length
    events := (calls.map .call).reverse ++ state.events }

/-- The state behind the call that was refused. -/
def refused (state : FaultState) : FaultState :=
  { state with calls := state.calls + 1, events := .fault :: state.events }

/-- The state behind the abandoning of a unit. -/
def abandoned (state : FaultState) : FaultState := { state with events := .abandon :: state.events }

/-- The state behind the clean-up of a call that was refused. -/
def cleanedUp (state : FaultState) : SinkCall → FaultState
  | .openUnit _ => state
  | .writeLine _ => state.abandoned
  | .closeUnit => state

theorem passed_append (state : FaultState) (before after : List SinkCall) :
    state.passed (before ++ after) = (state.passed before).passed after := by
  simp only [passed, List.length_append, List.map_append, List.reverse_append, List.append_assoc,
    Nat.add_assoc]

/-- An effect leaves both states to what comes behind it. -/
theorem run_bind {α β : Type} (state : FaultState) (sink : MemorySink)
    (effect : StateT FaultState (StateM MemorySink) α)
    (next : α → StateT FaultState (StateM MemorySink) β) :
    state.run sink (effect >>= next)
      = (state.run sink effect).1.2.run (state.run sink effect).2
          (next (state.run sink effect).1.1) := rfl

/-- A clean-up is done by both, the wrapper and the sink in it. -/
theorem run_cleanUp (state : FaultState) (sink : MemorySink) (call : SinkCall) :
    state.run sink (Sink.cleanUp call) = (((), state.cleanedUp call), sink.cleanedUp call) := by
  cases call <;> rfl

/-- The chosen call is refused, and the sink does not see it. -/
theorem run_perform_of_refusesNext {state : FaultState} (h : state.RefusesNext) (sink : MemorySink)
    (call : SinkCall) :
    state.run sink (Sink.perform call) = ((.error state.error, state.refused), sink) := by
  unfold RefusesNext at h
  simp only [run, StateT.run, Sink.perform, refused, h]
  rfl

/-- Any other call is passed on. -/
theorem run_perform_of_not_refusesNext {state : FaultState} (h : ¬ state.RefusesNext)
    (sink : MemorySink) (call : SinkCall) :
    state.run sink (Sink.perform call)
      = (((sink.run (Sink.perform call)).1, state.passed [call]),
        (sink.run (Sink.perform call)).2) := by
  unfold RefusesNext at h
  simp only [run, StateT.run, Sink.perform, if_neg h]
  rfl

/-- Calls in front of the chosen one are answered as on the sink itself. -/
theorem run_followCalls_passed {state : FaultState} {sink sink' : MemorySink}
    {calls : List SinkCall} (hcalls : sink.replay calls = .ok sink')
    (hfree : state.failAt ≤ state.calls ∨ state.calls + calls.length < state.failAt)
    (ending : StateT FaultState (StateM MemorySink) (Except GenerationError Unit)) :
    state.run sink (followCalls ending calls) = (state.passed calls).run sink' ending := by
  induction calls generalizing state sink with
  | nil =>
      obtain rfl := Except.ok.inj hcalls
      rfl
  | cons call rest ih =>
      obtain ⟨next, hnext, hrest⟩ := MemorySink.step_of_replay_cons hcalls
      rw [List.length_cons] at hfree
      have hpassed : ¬ state.RefusesNext := by
        unfold RefusesNext
        omega
      have hfree' : (state.passed [call]).failAt ≤ (state.passed [call]).calls
          ∨ (state.passed [call]).calls + rest.length < (state.passed [call]).failAt := by
        simp only [passed, List.length_singleton]
        omega
      rw [followCalls, run_bind, run_perform_of_not_refusesNext hpassed,
        MemorySink.run_perform_of_ok hnext]
      dsimp only
      rw [ih hrest hfree', ← passed_append]
      rfl

/-- **The chosen call is the last one.** What follows its refusal is the clean-up. -/
theorem run_followCalls_refused {state : FaultState} {sink middle : MemorySink}
    {before after : List SinkCall} {call : SinkCall} (hbefore : sink.replay before = .ok middle)
    (hchosen : state.calls + before.length + 1 = state.failAt)
    (ending : StateT FaultState (StateM MemorySink) (Except GenerationError Unit)) :
    state.run sink (followCalls ending (before ++ call :: after))
      = ((.error (.sink state.error), ((state.passed before).refused).cleanedUp call),
          middle.cleanedUp call) := by
  have hfree : state.failAt ≤ state.calls ∨ state.calls + before.length < state.failAt := by omega
  have hnext : (state.passed before).RefusesNext := hchosen
  rw [followCalls_append, run_followCalls_passed hbefore hfree, followCalls, run_bind,
    run_perform_of_refusesNext hnext]
  dsimp only
  rw [run_bind, run_cleanUp]
  rfl

/-! ## What was recorded -/

/-- The calls that were passed on, in order. -/
def madeCalls (state : FaultState) : List SinkCall :=
  state.events.reverse.filterMap fun event =>
    match event with
    | .call call => some call
    | .abandon => none
    | .fault => none

/-- An abandoned unit counts for no call. -/
theorem madeCalls_abandoned (state : FaultState) : state.abandoned.madeCalls = state.madeCalls := by
  rw [madeCalls, abandoned, List.reverse_cons, List.filterMap_append]
  exact List.append_nil _

/-- What was passed on is recorded in order. -/
theorem events_passed_fresh (failAt : Nat) (error : SinkError) (calls : List SinkCall) :
    ((fresh failAt error).passed calls).events.reverse = calls.map .call := by
  rw [passed, fresh, List.append_nil, List.reverse_reverse]

/-- So the recorded calls are the ones that were passed on. -/
theorem madeCalls_passed_fresh (failAt : Nat) (error : SinkError) (calls : List SinkCall) :
    ((fresh failAt error).passed calls).madeCalls = calls := by
  rw [madeCalls, events_passed_fresh, List.filterMap_map]
  exact List.filterMap_some

end FaultState

/-! ## Runs -/

namespace Script

/-- A script ends in memory with its outcome, and a unit that is left open is abandoned. -/
theorem run_finish_memory (script : Script) (sink : MemorySink) :
    sink.run script.finish
      = (script.outcome, if script.abandons then sink.abandoned else sink) := by
  rw [finish]
  cases script.abandons <;> rfl

/-- It ends behind a wrapper in the same way, and the wrapper takes note. -/
theorem run_finish (script : Script) (state : FaultState) (sink : MemorySink) :
    state.run sink script.finish
      = ((script.outcome, if script.abandons then state.abandoned else state),
          if script.abandons then sink.abandoned else sink) := by
  rw [finish]
  cases script.abandons <;> rfl

end Script

section

variable (options : Options) (g : Graph) (units : List SourceUnit)

/-- A run on a sink without an open unit that refuses the given call with the given error. With
zero it refuses none. -/
def faultyRun (failAt : Nat) (error : SinkError) :
    (Except GenerationError Unit × FaultState) × MemorySink :=
  (FaultState.fresh failAt error).run ⟨.empty, units⟩ (generate options g)

/-- The calls of a run that is refused nothing. -/
def recordedCalls : List SinkCall := (faultyRun options g units 0 .noOpenUnit).1.2.madeCalls

/-- A run that no refusal meets is the run on the sink itself, with its calls on record. -/
theorem faultyRun_of_free {n : Nat} (error : SinkError)
    (h : n = 0 ∨ (runScript options g).calls.length < n) :
    ((faultyRun options g units n error).1.1, (faultyRun options g units n error).2)
      = runFrom options g units
      ∧ (faultyRun options g units n error).1.2.madeCalls = (runScript options g).calls
      ∧ (faultyRun options g units n error).1.2.calls = (runScript options g).calls.length := by
  obtain ⟨last, hlast, -⟩ := MemorySink.replay_runScript options g units
  have hfree : (FaultState.fresh n error).failAt ≤ (FaultState.fresh n error).calls
      ∨ (FaultState.fresh n error).calls + (runScript options g).calls.length
        < (FaultState.fresh n error).failAt := by
    simp only [FaultState.fresh]
    omega
  rw [faultyRun, runFrom, generate_eq_follow, generate_eq_follow, Script.follow, Script.follow,
    FaultState.run_followCalls_passed hlast hfree, MemorySink.run_followCalls hlast,
    Script.run_finish, Script.run_finish_memory]
  refine ⟨rfl, ?_, ?_⟩
  · cases (runScript options g).abandons with
    | false => exact FaultState.madeCalls_passed_fresh n error _
    | true =>
        exact (FaultState.madeCalls_abandoned _).trans (FaultState.madeCalls_passed_fresh n error _)
  · have hcount : ((FaultState.fresh n error).passed (runScript options g).calls).calls
        = (runScript options g).calls.length := Nat.zero_add _
    cases (runScript options g).abandons <;> exact hcount

/-- What is recorded of a run that is refused nothing are the calls of its script. -/
theorem recordedCalls_eq : recordedCalls options g units = (runScript options g).calls :=
  (faultyRun_of_free options g units _ (.inl rfl)).2.1

/-- A run that meets its refusal is over with it. -/
theorem faultyRun_of_chosen (error : SinkError) {before after : List SinkCall} {call : SinkCall}
    (hsplit : (runScript options g).calls = before ++ call :: after) :
    ∃ middle next, MemorySink.replay ⟨.empty, units⟩ before = .ok middle
      ∧ middle.step call = .ok next
      ∧ middle.units <+: (runFrom options g units).2.units
      ∧ faultyRun options g units (before.length + 1) error
        = ((.error (.sink error),
            (((FaultState.fresh (before.length + 1) error).passed before).refused).cleanedUp call),
          middle.cleanedUp call) := by
  obtain ⟨last, hlast, -⟩ := MemorySink.replay_runScript options g units
  have hreplay := hlast
  rw [hsplit] at hreplay
  obtain ⟨middle, next, hmiddle, hnext, hrest⟩ := MemorySink.replay_split hreplay
  refine ⟨middle, next, hmiddle, hnext, ?_, ?_⟩
  · have hgrown := (MemorySink.units_prefix_of_step hnext).trans
      (MemorySink.units_prefix_of_replay hrest)
    rw [runFrom, generate_eq_follow, Script.follow, MemorySink.run_followCalls hlast,
      Script.run_finish_memory]
    cases (runScript options g).abandons <;> exact hgrown
  · have hchosen : (FaultState.fresh (before.length + 1) error).calls + before.length + 1
        = (FaultState.fresh (before.length + 1) error).failAt := by
      simp only [FaultState.fresh, Nat.zero_add]
    rw [faultyRun, generate_eq_follow, Script.follow, hsplit,
      FaultState.run_followCalls_refused hmiddle hchosen]
    rfl

/-- The call of a number splits the list in front of it. -/
theorem exists_split_at {α : Type} {xs : List α} {n : Nat} (hpositive : 0 < n) (h : n ≤ xs.length) :
    ∃ x rest, xs[n - 1]? = some x ∧ xs = xs.take (n - 1) ++ x :: rest
      ∧ (xs.take (n - 1)).length + 1 = n := by
  have hindex : n - 1 < xs.length := by omega
  refine ⟨xs[n - 1], xs.drop (n - 1 + 1), List.getElem?_eq_getElem hindex, ?_, ?_⟩
  · rw [← List.drop_eq_getElem_cons hindex, List.take_append_drop]
  · rw [List.length_take_of_le (Nat.le_of_lt hindex)]
    omega

/-- **No refusal is swallowed, and nothing follows it.** A run whose sink refuses no call that the
run makes is the run on the sink itself. If the call of number `n` is refused, with whatever
error, the error is the answer, and it was the last call: the ones in front of it are the first of
the run without refusals, behind it at most the open unit is abandoned, and the sealed units are
those that the calls in front had sealed, which are the first ones of the run without refusals. -/
theorem refused_call_ends_run (error : SinkError) :
    (∀ n, n = 0 ∨ (recordedCalls options g units).length < n →
        ((faultyRun options g units n error).1.1, (faultyRun options g units n error).2)
          = runFrom options g units
          ∧ (faultyRun options g units n error).1.2.madeCalls = recordedCalls options g units
          ∧ (faultyRun options g units n error).1.2.calls = (recordedCalls options g units).length)
      ∧ ∀ n, 0 < n → n ≤ (recordedCalls options g units).length →
        (faultyRun options g units n error).1.1 = .error (.sink error)
          ∧ (faultyRun options g units n error).1.2.calls = n
          ∧ (∃ cleanUp ∈ [[], [SinkEvent.abandon]],
            (faultyRun options g units n error).1.2.events.reverse
              = ((recordedCalls options g units).take (n - 1)).map .call ++ .fault :: cleanUp)
          ∧ ∃ before,
            MemorySink.replay ⟨.empty, units⟩ ((recordedCalls options g units).take (n - 1))
              = .ok before
            ∧ (faultyRun options g units n error).2.units = before.units
            ∧ before.units <+: (runFrom options g units).2.units := by
  rw [recordedCalls_eq]
  refine ⟨fun n h => faultyRun_of_free options g units error h, fun n hpositive h => ?_⟩
  obtain ⟨call, rest, -, hsplit, hnumber⟩ := exists_split_at hpositive h
  obtain ⟨middle, next, hmiddle, -, hgrown, hrun⟩ :=
    faultyRun_of_chosen options g units error hsplit
  rw [hnumber] at hrun
  rw [hrun]
  refine ⟨rfl, ?_, ?_, middle, hmiddle, middle.units_cleanedUp call, hgrown⟩
  · -- cleaning up is no call
    have hcount : (((FaultState.fresh n error).passed
        ((runScript options g).calls.take (n - 1))).refused).calls = n := by
      simp only [FaultState.refused, FaultState.passed, FaultState.fresh, Nat.zero_add]
      exact hnumber
    cases call <;> exact hcount
  · have hevents : (((FaultState.fresh n error).passed
        ((runScript options g).calls.take (n - 1))).refused).events.reverse
          = ((runScript options g).calls.take (n - 1)).map .call ++ [.fault] := by
      rw [FaultState.refused, List.reverse_cons, FaultState.events_passed_fresh]
    cases call with
    | openUnit name => exact ⟨[], by simp, hevents⟩
    | closeUnit => exact ⟨[], by simp, hevents⟩
    | writeLine line =>
        refine ⟨[.abandon], by simp, ?_⟩
        rw [FaultState.cleanedUp, FaultState.abandoned, List.reverse_cons, hevents]
        simp

end

end ModelForge
