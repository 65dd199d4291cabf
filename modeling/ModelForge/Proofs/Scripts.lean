/-
`Scripts.lean` -- a run as a list of calls.

What a run asks of its sink does not depend on the answers, for as long as no call is refused. The
calls and the end behind them are fixed by the plan of the run (`Script`), and a refused call ends
the run: the refusal is the answer, and a unit whose line was refused is abandoned. So a run
follows its script, in every effect that has a sink (`generate_eq_follow`). Whatever is to be
shown about runs on a sink can be shown about the list of calls, by induction.
-/
import ModelForge.Generate.Run
import ModelForge.Proofs.Fragments

set_option autoImplicit false

namespace ModelForge

/-! ## Following calls -/

section

variable {m : Type → Type} [Monad m] [Sink m]

/-- What is done about a call that was refused. Only a line leaves a unit behind that has to be
abandoned: no unit is open behind an opening that was refused, and a seal that was refused is left
to the sink. -/
def Sink.cleanUp : SinkCall → m Unit
  | .openUnit _ => pure ()
  | .writeLine _ => Sink.abandon
  | .closeUnit => pure ()

/-- Makes calls one after the other, and then ends. The first refusal is the answer instead. -/
def followCalls (ending : m (Except GenerationError Unit)) :
    List SinkCall → m (Except GenerationError Unit)
  | [] => ending
  | call :: rest => do
      match ← Sink.perform call with
      | .ok _ => followCalls ending rest
      | .error e =>
          Sink.cleanUp call
          pure (.error (.sink e))

/-- Calls in a row are followed one after the other. -/
theorem followCalls_append (ending : m (Except GenerationError Unit))
    (before after : List SinkCall) :
    followCalls ending (before ++ after) = followCalls (followCalls ending after) before := by
  induction before with
  | nil => rfl
  | cons call rest ih => rw [List.cons_append, followCalls, followCalls, ih]

end

/-! ## Scripts -/

/-- The calls that a run makes for as long as none is refused, and how it ends behind the last
one. -/
structure Script where
  calls : List SinkCall
  outcome : Except GenerationError Unit
  /-- Whether a unit is still open behind the last call, which the run then abandons. -/
  abandons : Bool

namespace Script

/-- The end of a script. -/
def finish {m : Type → Type} [Monad m] [Sink m] (script : Script) :
    m (Except GenerationError Unit) :=
  if script.abandons then do
    Sink.abandon
    pure script.outcome
  else pure script.outcome

/-- Makes the calls of a script. -/
def follow {m : Type → Type} [Monad m] [Sink m] (script : Script) :
    m (Except GenerationError Unit) :=
  followCalls script.finish script.calls

/-- The script of the units in a list, which ends in the first unit whose content gives up. -/
def ofUnits : List UnitPlan → Script
  | [] => ⟨[], .ok (), false⟩
  | unit :: rest =>
      let writing := .openUnit unit.name :: (unit.content.emit 0).lines.map .writeLine
      match unit.content.fault? with
      | some e => ⟨writing, .error e, true⟩
      | none => ⟨writing ++ .closeUnit :: (ofUnits rest).calls, (ofUnits rest).outcome,
          (ofUnits rest).abandons⟩

/-- The script of a plan. Where there is no plan, there is nothing to call for. -/
def ofPlan : Except GenerationError (List UnitPlan) → Script
  | .ok units => ofUnits units
  | .error e => ⟨[], .error e, false⟩

/-- A unit without a fault is opened, written and closed, and the others follow. -/
theorem calls_ofUnits_of_clean {unit : UnitPlan} {rest : List UnitPlan}
    (h : unit.content.fault? = none) :
    ofUnits (unit :: rest)
      = ⟨.openUnit unit.name :: (unit.content.emit 0).lines.map .writeLine
            ++ .closeUnit :: (ofUnits rest).calls,
          (ofUnits rest).outcome, (ofUnits rest).abandons⟩ := by
  simp only [ofUnits, h]

/-- A unit with a fault is opened and written up to it, and is then abandoned. -/
theorem calls_ofUnits_of_fault {unit : UnitPlan} {rest : List UnitPlan} {error : GenerationError}
    (h : unit.content.fault? = some error) :
    ofUnits (unit :: rest)
      = ⟨.openUnit unit.name :: (unit.content.emit 0).lines.map .writeLine,
        .error error, true⟩ := by
  simp only [ofUnits, h]

end Script

/-- The script of a run. -/
def runScript (options : Options) (g : Graph) : Script :=
  .ofPlan (plan options (memberName options.reserved) g)

/-! ## Runs follow their scripts -/

section

variable {m : Type → Type} [Monad m] [LawfulMonad m] [Sink m]

/-- Lines are written in the body of a unit, and the unit is abandoned outside of it. Seen from the
calls that is one thing. -/
theorem performAll_bind_eq_followCalls
    {next : Except SinkError Unit → m (Except GenerationError Unit)}
    (hrefused : ∀ e, next (.error e) = do
      Sink.abandon
      pure (.error (.sink e)))
    (lines : List Line) :
    Sink.performAll (lines.map .writeLine) >>= next
      = followCalls (next (.ok ())) (lines.map .writeLine) := by
  induction lines with
  | nil => rw [List.map_nil, Sink.performAll, pure_bind, followCalls]
  | cons line rest ih =>
      rw [List.map_cons, Sink.performAll, followCalls, bind_assoc]
      refine bind_congr fun answer => ?_
      cases answer with
      | ok _ => exact ih
      | error e =>
          dsimp only
          rw [pure_bind, hrefused]
          rfl

/-- A unit is opened, written and sealed, or given up when its content does. -/
theorem writeUnit_bind_eq_followCalls (unit : UnitPlan)
    {next : Except GenerationError Unit → m (Except GenerationError Unit)}
    (hfailed : ∀ e, next (.error e) = pure (.error e)) :
    unit.content.writeUnit unit.name >>= next
      = followCalls
          (match unit.content.fault? with
            | some e => do
                Sink.abandon
                pure (.error e)
            | none => followCalls (next (.ok ())) [.closeUnit])
          (.openUnit unit.name :: (unit.content.emit 0).lines.map .writeLine) := by
  rw [Fragment.writeUnit, Sink.withUnit, followCalls, bind_assoc]
  refine bind_congr fun opened => ?_
  cases opened with
  | error e =>
      dsimp only
      rw [pure_bind, hfailed, Sink.cleanUp, pure_bind]
  | ok _ =>
      dsimp only
      rw [Fragment.write, bind_assoc, bind_assoc, performAll_bind_eq_followCalls,
        Fragment.error?_emit]
      · -- behind the lines: the content has given up, or the unit is sealed
        congr 1
        cases unit.content.fault? with
        | some e => simp only [pure_bind, bind_assoc, hfailed]
        | none =>
            simp only [pure_bind, followCalls, bind_assoc]
            refine bind_congr fun closed => ?_
            cases closed with
            | ok _ => simp only [pure_bind]
            | error e => simp only [pure_bind, hfailed, Sink.cleanUp]
      · intro e
        simp only [pure_bind, bind_assoc, hfailed]

/-- **To write units is to follow their script**, in any sink. -/
theorem writeUnits_eq_follow (units : List UnitPlan) :
    (writeUnits units : m _) = (Script.ofUnits units).follow := by
  induction units with
  | nil => rfl
  | cons unit rest ih =>
      rw [writeUnits, writeUnit_bind_eq_followCalls]
      · cases h : unit.content.fault? with
        | some e =>
            rw [Script.calls_ofUnits_of_fault h]
            rfl
        | none =>
            rw [Script.calls_ofUnits_of_clean h, Script.follow, followCalls_append]
            dsimp only
            rw [ih]
            rfl
      · intro e
        rfl

/-- **A run follows its script.** -/
theorem generate_eq_follow (options : Options) (g : Graph) :
    (generate options g : m _) = (runScript options g).follow := by
  rw [generate, runScript]
  cases plan options (memberName options.reserved) g with
  | error e => rfl
  | ok units => exact writeUnits_eq_follow units

end

/-! ## Scripts in memory -/

namespace MemorySink

/-- The sink behind calls that it answers one after the other. -/
def replay (sink : MemorySink) (calls : List SinkCall) : Except SinkError MemorySink :=
  calls.foldlM step sink

theorem replay_cons (sink : MemorySink) (call : SinkCall) (rest : List SinkCall) :
    sink.replay (call :: rest) = (sink.step call).bind fun next => next.replay rest := rfl

/-- Calls in a row are replayed one after the other. -/
theorem replay_append (sink : MemorySink) (before after : List SinkCall) :
    sink.replay (before ++ after) = (sink.replay before).bind fun next => next.replay after := by
  rw [replay, List.foldlM_append]
  rfl

end MemorySink

end ModelForge
