/-
`SinkSimulation.lean` -- a sink on a directory follows a sink in memory.

Both sinks keep the open unit in the same kind of buffer, and differ in what becomes of a unit
that is sealed. So a sink in memory says what the sink on a directory looks like
(`MemorySink.onFiles`), and what is done to the one is done to the other: any action that seals no
unit leaves the files alone, and sealing a unit writes its file. If the file cannot be written the
unit is lost, as if it had been abandoned. So a sequence of actions, in turn or not, is answered
on a directory as in memory, up to the units that are lost (`exists_run_actAll`).
-/
import ModelForge.Proofs.FileRuns

set_option autoImplicit false

namespace ModelForge

/-! ## Actions -/

/-- What can be done to a sink. -/
inductive SinkAction where
  | call (call : SinkCall)
  | abandon
  deriving DecidableEq, Repr

/-- The names of the units that some actions ask for. -/
def openedNames (actions : List SinkAction) : List String :=
  actions.filterMap fun action =>
    match action with
    | .call (.openUnit name) => some name
    | .call (.writeLine _) => none
    | .call .closeUnit => none
    | .abandon => none

theorem openedNames_cons (action : SinkAction) (rest : List SinkAction) :
    openedNames (action :: rest) = openedNames [action] ++ openedNames rest := by
  rw [← List.singleton_append, openedNames, List.filterMap_append]
  rfl

namespace SinkAction

/-- No unit is open behind the action, whatever was before. -/
def endsUnit : SinkAction → Bool
  | .call .closeUnit => true
  | .abandon => true
  | .call (.openUnit _) => false
  | .call (.writeLine _) => false

/-- The line that an action adds to the open unit, as it is stored. -/
def written? : SinkAction → Option String
  | .call (.writeLine line) => some line.render
  | .call (.openUnit _) => none
  | .call .closeUnit => none
  | .abandon => none

theorem filterMap_written?_concat (actions : List SinkAction) (action : SinkAction) :
    (actions ++ [action]).filterMap written?
      = actions.filterMap written? ++ action.written?.toList := by
  rw [List.filterMap_append]
  cases hwritten : action.written? <;> simp [hwritten]

/-- The unit that an action opens, if none is open. -/
def opened? : SinkAction → Option SourceUnit
  | .call (.openUnit name) => some ⟨name, []⟩
  | .call (.writeLine _) => none
  | .call .closeUnit => none
  | .abandon => none

/-- A unit is opened by its name, and without lines. -/
theorem opened?_eq_some {action : SinkAction} {unit : SourceUnit} :
    action.opened? = some unit ↔ action = .call (.openUnit unit.name) ∧ unit.lines = [] := by
  obtain ⟨name, lines⟩ := unit
  cases action with
  | abandon => simp [opened?]
  | call call => cases call <;> simp [opened?, eq_comm]

/-- What ends a unit opens none. -/
theorem opened?_of_endsUnit {action : SinkAction} (h : action.endsUnit = true) :
    action.opened? = none := by
  cases action with
  | abandon => rfl
  | call call =>
      cases call with
      | openUnit name => exact absurd h Bool.false_ne_true
      | writeLine line => rfl
      | closeUnit => rfl

end SinkAction

/-- The unit behind an action that does not end it. -/
def SourceUnit.extended (unit : SourceUnit) (action : SinkAction) : SourceUnit :=
  ⟨unit.name, unit.lines ++ action.written?.toList⟩

namespace Sink

variable {m : Type → Type} [Monad m] [Sink m]

/-- Does something to a sink. Abandoning always succeeds. -/
def act : SinkAction → m (Except SinkError Unit)
  | .call call => perform call
  | .abandon => do
      abandon
      pure (.ok ())

/-- Does one thing after the other, whatever the answers are; all the answers. -/
def actAll : List SinkAction → m (List (Except SinkError Unit))
  | [] => pure []
  | action :: rest => do
      let answer ← act action
      let answers ← actAll rest
      pure (answer :: answers)

/-- Actions behind others are answered behind their answers. -/
theorem actAll_append [LawfulMonad m] (first second : List SinkAction) :
    actAll (m := m) (first ++ second)
      = (do let answers ← actAll first
            let others ← actAll second
            pure (answers ++ others)) := by
  induction first with
  | nil => simp only [List.nil_append, actAll, pure_bind, bind_pure]
  | cons action rest ih => simp only [List.cons_append, actAll, ih, bind_assoc, pure_bind]

end Sink

/-! ## Lost units -/

/-- An answer that says that the file of a unit could not be written. -/
def IsLoss (answer : Except SinkError Unit) : Prop := ∃ name, answer = .error (.io name)

instance (answer : Except SinkError Unit) : Decidable (IsLoss answer) :=
  match answer with
  | .error (.io name) => isTrue ⟨name, rfl⟩
  | .error (.unitAlreadyOpen ..) => isFalse (by rintro ⟨name, h⟩; cases h)
  | .error .noOpenUnit => isFalse (by rintro ⟨name, h⟩; cases h)
  | .ok _ => isFalse (by rintro ⟨name, h⟩; cases h)

/-- The action that would have left the same sink without losing the unit to a fault. -/
def withoutLoss (action : SinkAction) (answer : Except SinkError Unit) : SinkAction :=
  if IsLoss answer then .abandon else action

/-- The actions, with the units abandoned whose files could not be written. -/
def withoutLosses (actions : List SinkAction) (answers : List (Except SinkError Unit)) :
    List SinkAction := List.zipWith withoutLoss actions answers

/-- Without its loss, an action opens no unit that it did not open with it. -/
theorem mem_openedNames_withoutLoss {action : SinkAction} {answer : Except SinkError Unit}
    {name : String} (h : name ∈ openedNames [withoutLoss action answer]) :
    name ∈ openedNames [action] := by
  rw [withoutLoss] at h
  split at h
  · exact absurd h List.not_mem_nil
  · exact h

/-- The answer to an action without the loss. -/
def settled (answer : Except SinkError Unit) : Except SinkError Unit :=
  if IsLoss answer then .ok () else answer

/-- Where nothing is lost there is nothing to do without. -/
theorem withoutLosses_eq_self {actions : List SinkAction} {answers : List (Except SinkError Unit)}
    (hlength : answers.length = actions.length) (h : ∀ answer ∈ answers, ¬ IsLoss answer) :
    withoutLosses actions answers = actions ∧ answers.map settled = answers := by
  induction answers generalizing actions with
  | nil =>
      obtain rfl := List.length_eq_zero_iff.1 hlength.symm
      exact ⟨rfl, rfl⟩
  | cons answer rest ih =>
      obtain ⟨action, actions, rfl⟩ := List.exists_cons_of_length_eq_add_one hlength.symm
      rw [List.forall_mem_cons] at h
      obtain ⟨hactions, hanswers⟩ := ih (Nat.succ.inj hlength) h.2
      have haction : withoutLoss action answer = action := if_neg h.1
      have hanswer : settled answer = answer := if_neg h.1
      refine ⟨?_, ?_⟩
      · rw [withoutLosses, List.zipWith_cons_cons, ← withoutLosses, hactions, haction]
      · rw [List.map_cons, hanswers, hanswer]

/-! ## Sinks in memory -/

namespace MemorySink

/-- The sink on a directory that has been told the same. -/
def onFiles (out : String) (sink : MemorySink) : FileSink :=
  ⟨out, sink.buffer, sink.units.map fun unit => Path.join out unit.name⟩

/-- The unit that an action seals. -/
def sealed? (sink : MemorySink) (action : SinkAction) : Option SourceUnit :=
  match action with
  | .call .closeUnit => sink.buffer.current.map OpenUnit.sealed
  | .call (.openUnit _) => none
  | .call (.writeLine _) => none
  | .abandon => none

/-- Only a seal seals, and only a unit that is open. -/
theorem sealed?_eq_some {sink : MemorySink} {action : SinkAction} {unit : SourceUnit}
    (h : sink.sealed? action = some unit) :
    action = .call .closeUnit
      ∧ ∃ current units, sink = ⟨⟨some current⟩, units⟩ ∧ current.sealed = unit := by
  obtain ⟨⟨current⟩, units⟩ := sink
  cases action with
  | abandon => exact absurd h (by simp [sealed?])
  | call call =>
      cases call with
      | openUnit name => exact absurd h (by simp [sealed?])
      | writeLine line => exact absurd h (by simp [sealed?])
      | closeUnit =>
          obtain ⟨current, rfl, hsealed⟩ := Option.map_eq_some_iff.1 h
          exact ⟨rfl, current, units, rfl, hsealed⟩

/-- The unit that an action seals is added to the units, and nothing is open behind it. -/
theorem run_act_of_sealed? {sink : MemorySink} {action : SinkAction} {unit : SourceUnit}
    (h : sink.sealed? action = some unit) :
    sink.run (Sink.act action) = (.ok (), ⟨.empty, sink.units ++ [unit]⟩) := by
  obtain ⟨rfl, current, units, rfl, rfl⟩ := sealed?_eq_some h
  rfl

/-- What the sink keeps grows by the unit that is sealed, if there is one. -/
theorem units_run_act (sink : MemorySink) (action : SinkAction) :
    (sink.run (Sink.act action)).2.units = sink.units ++ (sink.sealed? action).toList := by
  cases h : sink.sealed? action with
  | some unit =>
      rw [run_act_of_sealed? h]
      rfl
  | none =>
      rw [Option.toList_none, List.append_nil]
      obtain ⟨⟨current⟩, units⟩ := sink
      cases action with
      | abandon => rfl
      | call call =>
          cases call with
          | openUnit name => cases current <;> rfl
          | writeLine line => cases current <;> rfl
          | closeUnit =>
              cases current with
              | none => rfl
              | some unit => cases h

/-- The open unit, as it would be sealed. -/
def current? (sink : MemorySink) : Option SourceUnit := sink.buffer.current.map OpenUnit.sealed

/-- Without an open unit, a sink is its sealed units. -/
theorem eq_of_current?_eq_none {sink : MemorySink} (h : sink.current? = none) :
    sink = ⟨.empty, sink.units⟩ := by
  obtain ⟨⟨current⟩, units⟩ := sink
  obtain rfl : current = none := Option.map_eq_none_iff.1 h
  rfl

/-- What a seal would seal is the open unit. -/
theorem sealed?_closeUnit (sink : MemorySink) :
    sink.sealed? (.call .closeUnit) = sink.current? := rfl

/-- The unit that is open behind an action. -/
theorem current?_run_act (sink : MemorySink) (action : SinkAction) :
    (sink.run (Sink.act action)).2.current?
      = if action.endsUnit then none
        else (sink.current?.map (SourceUnit.extended · action)).or action.opened? := by
  obtain ⟨⟨current⟩, units⟩ := sink
  cases action with
  | abandon => rfl
  | call call =>
      cases call with
      | closeUnit => cases current <;> rfl
      | openUnit name =>
          cases current with
          | none => rfl
          | some current =>
              exact congrArg some (congrArg (SourceUnit.mk _) (List.append_nil _).symm)
      | writeLine line =>
          cases current with
          | none => rfl
          | some current => exact congrArg some (congrArg (SourceUnit.mk _) Array.toList_push)

/-- It was open before, or it has just been opened. -/
theorem current?_run_act_eq_some {sink : MemorySink} {action : SinkAction} {unit : SourceUnit} :
    (sink.run (Sink.act action)).2.current? = some unit
      ↔ (action.endsUnit = false ∧ ∃ old, sink.current? = some old ∧ unit = old.extended action)
        ∨ sink.current? = none ∧ action = .call (.openUnit unit.name) ∧ unit.lines = [] := by
  rw [current?_run_act, ← SinkAction.opened?_eq_some]
  cases hends : action.endsUnit with
  | true =>
      have hopened : action.opened? = none := SinkAction.opened?_of_endsUnit hends
      simp [hopened]
  | false => cases sink.current? <;> simp [eq_comm]

/-- The name of an open unit was that of the unit open before, or has just been asked for. -/
theorem current_of_run_act {Q : String → Prop} {sink : MemorySink} {action : SinkAction}
    (hcurrent : ∀ current ∈ sink.buffer.current, Q current.name)
    (haction : ∀ name ∈ openedNames [action], Q name) :
    ∀ current ∈ (sink.run (Sink.act action)).2.buffer.current, Q current.name := by
  intro current hbehind
  have hsealed : (sink.run (Sink.act action)).2.current? = some current.sealed :=
    Option.map_eq_some_iff.2 ⟨current, hbehind, rfl⟩
  rcases current?_run_act_eq_some.1 hsealed with ⟨-, old, hold, hextended⟩ | ⟨-, hopened, -⟩
  · obtain ⟨before, hbefore, rfl⟩ := Option.map_eq_some_iff.1 hold
    have hname : current.name = before.name := congrArg SourceUnit.name hextended
    rw [hname]
    exact hcurrent before hbefore
  · rw [hopened] at haction
    exact haction current.name (List.mem_singleton_self _)

end MemorySink

/-! ## One action on a directory -/

namespace FileSink

variable {σ : Type} [FileSystem (StateM σ)]

variable (out : String) (sink : MemorySink) (state : σ)

/-- What seals no unit has nothing to do with files, and is answered as in memory. -/
theorem run_act_of_unsealed {action : SinkAction} (h : sink.sealed? action = none) :
    run (sink.onFiles out) state (Sink.act action)
        = (((sink.run (Sink.act action)).1, (sink.run (Sink.act action)).2.onFiles out), state)
      ∧ ¬ IsLoss (sink.run (Sink.act action)).1 := by
  obtain ⟨⟨current⟩, units⟩ := sink
  cases action with
  | abandon => exact ⟨rfl, by rintro ⟨name, hloss⟩; cases hloss⟩
  | call call =>
      cases call <;> cases current <;>
        first
        | exact ⟨rfl, by rintro ⟨name, hloss⟩; cases hloss⟩
        | exact absurd h (by simp [MemorySink.sealed?])

/-- Sealing the open unit stores it. Whatever comes of that, no unit is open behind it. -/
theorem run_act_closeUnit (current : OpenUnit) (written : List String) :
    run ⟨out, ⟨some current⟩, written⟩ state (Sink.act (.call .closeUnit))
      = StateT.run (m := Id)
          (match ((store out current.sealed : StateM σ _).run state).1 with
            | .ok path => pure (Except.ok (), (⟨out, .empty, written ++ [path]⟩ : FileSink))
            | .error e => pure (Except.error e, ⟨out, .empty, written⟩))
          ((store out current.sealed : StateM σ _).run state).2 := rfl

/-- The directory cannot be created, or the file of a unit cannot be written in it. -/
def CannotWrite (unit : SourceUnit) : Prop :=
  let created := (FileSystem.createDirectories out : StateM σ _).run state
  (∃ fault, created.1 = .error fault)
    ∨ ∃ fault, ((FileSystem.writeText (Path.join out unit.name) unit.text : StateM σ _).run
        created.2).1 = .error fault

/-- What cannot be written is lost, and the answer names the unit. -/
theorem exists_store_of_cannotWrite {unit : SourceUnit} (h : CannotWrite out state unit) :
    ∃ state', (store out unit : StateM σ _).run state = (.error (.io unit.name), state') := by
  rw [run_store]
  unfold CannotWrite at h
  dsimp only at h ⊢
  rcases h with ⟨fault, hfault⟩ | ⟨fault, hfault⟩
  · rw [hfault]
    exact ⟨_, rfl⟩
  · rw [hfault]
    cases ((FileSystem.createDirectories out : StateM σ _).run state).1 <;> exact ⟨_, rfl⟩

/-- What can be written is stored at its path. -/
theorem exists_store_of_not_cannotWrite {unit : SourceUnit} (h : ¬ CannotWrite out state unit) :
    ∃ state', (store out unit : StateM σ _).run state
      = (.ok (Path.join out unit.name), state') := by
  rw [CannotWrite, not_or] at h
  obtain ⟨hcreated, hwritten⟩ := h
  rw [run_store]
  dsimp only at hcreated hwritten ⊢
  cases hcreate : ((FileSystem.createDirectories out : StateM σ _).run state).1 with
  | error fault => exact absurd ⟨fault, hcreate⟩ hcreated
  | ok _ =>
      dsimp only
      cases hwrite : ((FileSystem.writeText (Path.join out unit.name) unit.text : StateM σ _).run
          ((FileSystem.createDirectories out : StateM σ _).run state).2).1 with
      | error fault => exact absurd ⟨fault, hwrite⟩ hwritten
      | ok _ => exact ⟨_, rfl⟩

variable {out sink state} {action : SinkAction} {unit : SourceUnit} {state' : σ}

/-- A unit whose file is written is sealed as in memory. -/
theorem run_act_of_stored (h : sink.sealed? action = some unit)
    (hstored : (store out unit : StateM σ _).run state = (.ok (Path.join out unit.name), state')) :
    run (sink.onFiles out) state (Sink.act action)
      = (((sink.run (Sink.act action)).1, (sink.run (Sink.act action)).2.onFiles out), state') := by
  rw [MemorySink.run_act_of_sealed? h]
  obtain ⟨rfl, current, units, rfl, rfl⟩ := MemorySink.sealed?_eq_some h
  rw [MemorySink.onFiles, run_act_closeUnit, hstored, MemorySink.onFiles, List.map_append]
  rfl

/-- A unit whose file cannot be written is lost, and no unit is open. -/
theorem run_act_of_lost (h : sink.sealed? action = some unit)
    (hlost : (store out unit : StateM σ _).run state = (.error (.io unit.name), state')) :
    run (sink.onFiles out) state (Sink.act action)
      = ((.error (.io unit.name), sink.abandoned.onFiles out), state') := by
  obtain ⟨rfl, current, units, rfl, rfl⟩ := MemorySink.sealed?_eq_some h
  rw [MemorySink.onFiles, run_act_closeUnit, hlost]
  rfl

/-- What is true of the units sealed so far and of the file system stays true when a unit is
sealed, whether or not its file can be written. -/
def KeptBySealing (out : String) (P : List SourceUnit → σ → Prop) (unit : SourceUnit) : Prop :=
  ∀ units state state', P units state →
    ((store out unit : StateM σ _).run state = (.ok (Path.join out unit.name), state') →
        P (units ++ [unit]) state')
      ∧ ((store out unit : StateM σ _).run state = (.error (.io unit.name), state') →
        P units state')

variable {P : List SourceUnit → σ → Prop}

/-- **One action, on a directory and in memory.** Without the loss that it may end in, the action
has the same answer in memory, and the sinks stay alike. -/
theorem exists_run_act (hkept : ∀ unit, sink.sealed? action = some unit → KeptBySealing out P unit)
    (h : P sink.units state) :
    ∃ answer sink' state', run (sink.onFiles out) state (Sink.act action)
        = ((answer, sink'.onFiles out), state')
      ∧ sink.run (Sink.act (withoutLoss action answer)) = (settled answer, sink')
      ∧ P sink'.units state' := by
  have hunits := sink.units_run_act action
  cases hsealed : sink.sealed? action with
  | none =>
      obtain ⟨hrun, hloss⟩ := run_act_of_unsealed out sink state hsealed
      rw [hsealed, Option.toList_none, List.append_nil] at hunits
      refine ⟨_, _, state, hrun, ?_, ?_⟩
      · rw [withoutLoss, if_neg hloss, settled, if_neg hloss]
      · rw [hunits]
        exact h
  | some unit =>
      by_cases hwrite : CannotWrite out state unit
      · obtain ⟨state', hlost⟩ := exists_store_of_cannotWrite out state hwrite
        have hloss : IsLoss (.error (.io unit.name)) := ⟨unit.name, rfl⟩
        refine ⟨_, _, state', run_act_of_lost hsealed hlost, ?_,
          (hkept unit hsealed _ _ _ h).2 hlost⟩
        rw [withoutLoss, if_pos hloss, settled, if_pos hloss]
        rfl
      · obtain ⟨state', hstored⟩ := exists_store_of_not_cannotWrite out state hwrite
        have hloss : ¬ IsLoss (sink.run (Sink.act action)).1 := by
          rw [MemorySink.run_act_of_sealed? hsealed]
          rintro ⟨name, hname⟩
          cases hname
        refine ⟨_, _, state', run_act_of_stored hsealed hstored, ?_, ?_⟩
        · rw [withoutLoss, if_neg hloss, settled, if_neg hloss]
        · rw [hunits, hsealed]
          exact (hkept unit hsealed _ _ _ h).1 hstored

/-! ## Any number of actions -/

variable (sink) in
/-- **Sequences of actions, on a directory and in memory.** Without the losses, they have the same
answers in memory, and leave sinks that are alike. -/
theorem exists_run_actAll {Q : String → Prop}
    (hkept : ∀ unit, Q unit.name → KeptBySealing out P unit) (actions : List SinkAction)
    (hnames : ∀ name ∈ openedNames actions, Q name)
    (hcurrent : ∀ current ∈ sink.buffer.current, Q current.name) (h : P sink.units state) :
    ∃ answers sink' state', run (sink.onFiles out) state (Sink.actAll actions)
        = ((answers, sink'.onFiles out), state')
      ∧ answers.length = actions.length
      ∧ sink.run (Sink.actAll (withoutLosses actions answers)) = (answers.map settled, sink')
      ∧ P sink'.units state' := by
  induction actions generalizing sink state with
  | nil => exact ⟨[], sink, state, rfl, rfl, rfl, h⟩
  | cons action rest ih =>
      rw [openedNames_cons, List.forall_mem_append] at hnames
      have hsealed : ∀ unit, sink.sealed? action = some unit → KeptBySealing out P unit := by
        intro unit hunit
        obtain ⟨rfl, current, units, rfl, rfl⟩ := MemorySink.sealed?_eq_some hunit
        exact hkept _ (hcurrent current rfl)
      obtain ⟨answer, next, state', hrun, hmemory, hnext⟩ := exists_run_act hsealed h
      have hopen : ∀ current ∈ next.buffer.current, Q current.name := by
        have hopened : ∀ name ∈ openedNames [withoutLoss action answer], Q name :=
          fun name hname => hnames.1 name (mem_openedNames_withoutLoss hname)
        have hbehind := MemorySink.current_of_run_act hcurrent hopened
        rwa [hmemory] at hbehind
      obtain ⟨answers, sink', state'', hruns, hlength, hmemories, hends⟩ :=
        ih next hnames.2 hopen hnext
      refine ⟨answer :: answers, sink', state'', ?_, congrArg (· + 1) hlength, ?_, hends⟩
      · rw [Sink.actAll, run_bind, hrun]
        dsimp only
        rw [run_bind, hruns, run_pure]
      · rw [withoutLosses, List.zipWith_cons_cons, Sink.actAll, MemorySink.run_bind, hmemory]
        dsimp only
        rw [MemorySink.run_bind, ← withoutLosses, hmemories, MemorySink.run_pure, List.map_cons]

/-- The answers to some actions are those to the first of them, and then the others. -/
theorem answers_actAll_append (files : FileSink) (state : σ) (first second : List SinkAction) :
    ∃ answers, (run files state (Sink.actAll (first ++ second))).1.1
      = (run files state (Sink.actAll first)).1.1 ++ answers := by
  rw [Sink.actAll_append, run_bind, run_bind, run_pure]
  exact ⟨_, rfl⟩

end FileSink

/-! ## Fresh sinks -/

/-- What is answered to some actions on a fresh sink in memory, and the sink that they leave. -/
def memoryRun (actions : List SinkAction) : List (Except SinkError Unit) × MemorySink :=
  MemorySink.empty.run (Sink.actAll actions)

section

variable {σ : Type} [FileSystem (StateM σ)]

/-- The same on a fresh sink on a directory, with the file system that they leave. -/
def fileRun (out : String) (actions : List SinkAction) (state : σ) :
    (List (Except SinkError Unit) × FileSink) × σ :=
  FileSink.run (.fresh out) state (Sink.actAll actions)

/-- All files could be written. -/
def NothingLost (out : String) (actions : List SinkAction) (state : σ) : Prop :=
  ∀ answer ∈ (fileRun out actions state).1.1, ¬ IsLoss answer

instance (out : String) (actions : List SinkAction) (state : σ) :
    Decidable (NothingLost out actions state) :=
  inferInstanceAs (Decidable (∀ answer ∈ (fileRun out actions state).1.1, ¬ IsLoss answer))

variable {out : String} {actions : List SinkAction} {state : σ}

/-- **As long as all files can be written, a sink on a directory does as a sink in memory.** What
is kept by sealing holds of the units in memory and of the file system. -/
theorem fileRun_eq_memoryRun {P : List SourceUnit → σ → Prop} {Q : String → Prop}
    (hkept : ∀ unit, Q unit.name → FileSink.KeptBySealing out P unit)
    (hnames : ∀ name ∈ openedNames actions, Q name) (h : P [] state)
    (hlost : NothingLost out actions state) :
    (fileRun out actions state).1 = ((memoryRun actions).1, (memoryRun actions).2.onFiles out)
      ∧ P (memoryRun actions).2.units (fileRun out actions state).2 := by
  obtain ⟨answers, sink, state', hrun, hlength, hmemory, hends⟩ :=
    FileSink.exists_run_actAll MemorySink.empty hkept actions hnames
      (fun current hnone => absurd hnone (Option.not_mem_none current)) h
  have hfiles : fileRun out actions state = ((answers, sink.onFiles out), state') := hrun
  rw [NothingLost, hfiles] at hlost
  obtain ⟨hactions, hanswers⟩ := withoutLosses_eq_self hlength hlost
  rw [hactions, hanswers] at hmemory
  rw [hfiles, memoryRun, hmemory]
  exact ⟨rfl, hends⟩

/-- **Without a loss, both sinks answer the same**, and the one on a directory has written what
the other has sealed. -/
theorem fst_fileRun (hlost : NothingLost out actions state) :
    (fileRun out actions state).1 = ((memoryRun actions).1, (memoryRun actions).2.onFiles out) :=
  (fileRun_eq_memoryRun (P := fun _ _ => True) (Q := fun _ => True)
    (fun _ _ _ _ _ _ => ⟨fun _ => trivial, fun _ => trivial⟩) (fun _ _ => trivial) trivial hlost).1

/-- Where nothing is lost, nothing is lost early. -/
theorem NothingLost.of_prefix (h : NothingLost out actions state) {taken : List SinkAction}
    (htaken : taken <+: actions) : NothingLost out taken state := by
  obtain ⟨rest, rfl⟩ := htaken
  obtain ⟨answers, hanswers⟩ := FileSink.answers_actAll_append (.fresh out) state taken rest
  intro answer hanswer
  refine h answer ?_
  rw [fileRun, hanswers]
  exact List.mem_append_left _ hanswer

end

end ModelForge
