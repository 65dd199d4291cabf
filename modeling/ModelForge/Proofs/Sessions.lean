/-
`Sessions.lean` -- which units a sink in memory publishes.

A unit is published if it is opened, sealed later, and not abandoned in between. Here this is said
of actions that come in any order. A history (`SinkHistory`) is such a sequence with the answers
to it, and it is read by positions: an opening that succeeded starts a session, which runs until
the next seal or abandonment (`SinkHistory.Running`), and a session that ends in a seal is one
published unit (`SinkHistory.Publishes`). The sink itself keeps no positions, only the open unit.
So the proofs add one action at the end of a history (`SinkHistory.snoc`), and the invariant that
carries them is that the open unit of the sink is that of the running session
(`SinkHistory.current?_eq_some_iff`).

Units that are written through `Sink.withUnit` are such sessions with the closing built in
(`UnitRound`): the calls of some rounds leave what the rounds leave.
-/
import Mathlib.Data.List.Induction
import ModelForge.Proofs.SinkSimulation

set_option autoImplicit false

namespace ModelForge

/-! ## Actions in turn -/

namespace MemorySink

/-- What is wrong with an action that is out of turn: no unit is opened while another one is open,
and none is written or sealed while none is. -/
def refusal? (sink : MemorySink) : SinkAction → Option SinkError
  | .call (.openUnit name) => sink.current?.map fun unit => .unitAlreadyOpen unit.name name
  | .call (.writeLine _) => if sink.current?.isSome then none else some .noOpenUnit
  | .call .closeUnit => if sink.current?.isSome then none else some .noOpenUnit
  | .abandon => none

/-- **Only what is out of turn is refused.** A refusal changes nothing. -/
theorem run_act_eq (sink : MemorySink) (action : SinkAction) :
    (∃ e, sink.refusal? action = some e ∧ sink.run (Sink.act action) = (.error e, sink))
      ∨ sink.refusal? action = none ∧ (sink.run (Sink.act action)).1 = .ok () := by
  obtain ⟨⟨current⟩, units⟩ := sink
  cases action with
  | abandon => exact .inr ⟨rfl, rfl⟩
  | call call =>
      cases current with
      | none =>
          cases call with
          | openUnit name => exact .inr ⟨rfl, rfl⟩
          | writeLine line => exact .inl ⟨_, rfl, rfl⟩
          | closeUnit => exact .inl ⟨_, rfl, rfl⟩
      | some unit =>
          cases call with
          | openUnit name => exact .inl ⟨_, rfl, rfl⟩
          | writeLine line => exact .inr ⟨rfl, rfl⟩
          | closeUnit => exact .inr ⟨rfl, rfl⟩

/-- A unit can be opened exactly if none is open. -/
theorem run_act_openUnit_eq_ok {sink : MemorySink} {name : String} :
    (sink.run (Sink.act (.call (.openUnit name)))).1 = .ok () ↔ sink.current? = none := by
  obtain ⟨⟨current⟩, units⟩ := sink
  cases current with
  | none => exact iff_of_true rfl rfl
  | some current => exact iff_of_false nofun nofun

/-- Lines go to the end of the open unit, one by one. -/
theorem run_actAll_writeLine (name : String) (written : Array String) (units : List SourceUnit)
    (lines : List Line) :
    (run ⟨⟨some ⟨name, written⟩⟩, units⟩
        (Sink.actAll (lines.map fun line => .call (.writeLine line)))).2
      = ⟨⟨some ⟨name, written ++ (lines.map Line.render).toArray⟩⟩, units⟩ := by
  induction lines generalizing written with
  | nil => simp [Sink.actAll, run_pure]
  | cons line rest ih =>
      have hline : run ⟨⟨some ⟨name, written⟩⟩, units⟩ (Sink.act (.call (.writeLine line)))
          = (.ok (), ⟨⟨some ⟨name, written.push line.render⟩⟩, units⟩) := rfl
      rw [List.map_cons, Sink.actAll, run_bind, hline]
      dsimp only
      rw [run_bind, run_pure]
      dsimp only
      rw [ih]
      simp

end MemorySink

/-! ## Histories -/

/-- Actions on a sink that is closed at the start and keeps some units already. -/
structure SinkHistory where
  units : List SourceUnit
  actions : List SinkAction

namespace SinkHistory

/-- All the answers, and the sink at the end. -/
def ran (past : SinkHistory) : List (Except SinkError Unit) × MemorySink :=
  MemorySink.run ⟨.empty, past.units⟩ (Sink.actAll past.actions)

def answers (past : SinkHistory) : List (Except SinkError Unit) := past.ran.1

def sink (past : SinkHistory) : MemorySink := past.ran.2

/-- The first actions. -/
def upTo (past : SinkHistory) (n : Nat) : SinkHistory := ⟨past.units, past.actions.take n⟩

/-- One more action. -/
def snoc (past : SinkHistory) (action : SinkAction) : SinkHistory :=
  ⟨past.units, past.actions ++ [action]⟩

/-- A unit is open that was opened by the action at position `i`. It has the lines written since. -/
structure Running (past : SinkHistory) (i : Nat) (unit : SourceUnit) : Prop where
  opened : past.actions[i]? = some (.call (.openUnit unit.name))
  answered : past.answers[i]? = some (.ok ())
  unended : ∀ action ∈ past.actions.drop (i + 1), action.endsUnit = false
  lines : unit.lines = (past.actions.drop (i + 1)).filterMap SinkAction.written?

end SinkHistory

/-- Where a unit is opened and sealed. -/
structure Session where
  start : Nat
  stop : Nat
  unit : SourceUnit

namespace SinkHistory

/-- The unit is opened and sealed there. -/
structure Publishes (past : SinkHistory) (session : Session) : Prop where
  running : (past.upTo session.stop).Running session.start session.unit
  closed : past.actions[session.stop]? = some (.call .closeUnit)

variable (past : SinkHistory) (action : SinkAction)

/-! ## One action more -/

/-- A property of all histories holds of the empty ones and is kept by every action. -/
theorem snoc_induction {motive : SinkHistory → Prop} (nil : ∀ units, motive ⟨units, []⟩)
    (snoc : ∀ (past : SinkHistory) (action : SinkAction), motive past → motive (past.snoc action))
    (past : SinkHistory) : motive past := by
  obtain ⟨units, actions⟩ := past
  induction actions using List.reverseRecOn with
  | nil => exact nil units
  | append_singleton rest action ih => exact snoc ⟨units, rest⟩ action ih

/-- An action is made on the sink that the actions before it have left. -/
theorem ran_snoc :
    (past.snoc action).ran
      = (past.answers ++ [(past.sink.run (Sink.act action)).1],
        (past.sink.run (Sink.act action)).2) := by
  rw [ran, snoc, Sink.actAll_append, MemorySink.run_bind, MemorySink.run_bind, MemorySink.run_pure]
  rfl

theorem answers_snoc :
    (past.snoc action).answers = past.answers ++ [(past.sink.run (Sink.act action)).1] :=
  congrArg Prod.fst (past.ran_snoc action)

theorem sink_snoc : (past.snoc action).sink = (past.sink.run (Sink.act action)).2 :=
  congrArg Prod.snd (past.ran_snoc action)

theorem length_snoc :
    (past.snoc action).actions.length = past.actions.length + 1 := List.length_append

/-- Every action has one answer. -/
theorem length_answers : past.answers.length = past.actions.length := by
  induction past using snoc_induction with
  | nil units => rfl
  | snoc past action ih =>
      rw [answers_snoc, length_snoc, List.length_append, ih]
      rfl

/-- What has happened so far is not changed by a later action. -/
theorem upTo_snoc {n : Nat} (hn : n ≤ past.actions.length) :
    (past.snoc action).upTo n = past.upTo n := by
  unfold upTo snoc
  rw [List.take_append_of_le_length hn]

theorem upTo_of_length_le {n : Nat} (hn : past.actions.length ≤ n) : past.upTo n = past := by
  unfold upTo
  rw [List.take_of_length_le hn]

theorem upTo_upTo {n m : Nat} (hn : n ≤ m) : (past.upTo m).upTo n = past.upTo n := by
  unfold upTo
  rw [List.take_take, Nat.min_eq_left hn]

/-- The first answers are those to the first actions. -/
theorem answers_upTo (n : Nat) : (past.upTo n).answers = past.answers.take n := by
  induction past using snoc_induction with
  | nil units =>
      rw [upTo_of_length_le _ (Nat.zero_le n)]
      exact List.take_nil.symm
  | snoc past action ih =>
      rcases Nat.lt_or_ge past.actions.length n with hlong | hshort
      · have hlength : (past.snoc action).actions.length ≤ n := by rwa [length_snoc]
        rw [upTo_of_length_le _ hlength, List.take_of_length_le]
        rwa [length_answers]
      · rw [upTo_snoc past action hshort, ih, answers_snoc, List.take_append_of_le_length]
        rwa [length_answers]

variable {past action}

/-- An action of a history is one more behind those before it. -/
theorem upTo_succ {i : Nat} (hi : past.actions[i]? = some action) :
    past.upTo (i + 1) = (past.upTo i).snoc action := by
  unfold upTo snoc
  rw [List.take_add_one, hi]
  rfl

/-- Each answer is what the sink gave at its time. -/
theorem getElem?_answers {i : Nat} (hi : past.actions[i]? = some action) :
    past.answers[i]? = some ((past.upTo i).sink.run (Sink.act action)).1 := by
  have hlt : i < past.actions.length := (List.getElem?_eq_some_iff.1 hi).1
  have hlength : (past.upTo i).answers.length = i := by
    rw [length_answers, upTo, List.length_take, Nat.min_eq_left (Nat.le_of_lt hlt)]
  have hlast : (past.upTo (i + 1)).answers[i]?
      = some ((past.upTo i).sink.run (Sink.act action)).1 := by
    rw [upTo_succ hi, answers_snoc, List.getElem?_append_right (Nat.le_of_eq hlength),
      hlength, Nat.sub_self]
    rfl
  rwa [answers_upTo, List.getElem?_take_of_succ] at hlast

/-! ## Running sessions -/

variable {i : Nat} {unit : SourceUnit}

/-- A unit that is being written was opened by an action of the history. -/
theorem Running.lt_length (hrunning : past.Running i unit) : i < past.actions.length :=
  (List.getElem?_eq_some_iff.1 hrunning.opened).1

/-- A session goes on with the actions that do not end it. -/
theorem running_snoc_of_lt (hi : i < past.actions.length) :
    (past.snoc action).Running i unit
      ↔ action.endsUnit = false ∧ ∃ old, past.Running i old ∧ unit = old.extended action := by
  have haction : (past.snoc action).actions[i]? = past.actions[i]? := List.getElem?_append_left hi
  have hanswer : (past.snoc action).answers[i]? = past.answers[i]? := by
    rw [answers_snoc, List.getElem?_append_left (by rwa [length_answers])]
  have hdrop : (past.snoc action).actions.drop (i + 1) = past.actions.drop (i + 1) ++ [action] :=
    List.drop_append_of_le_length hi
  constructor
  · rintro ⟨hopened, hanswered, hunended, hlines⟩
    rw [haction] at hopened
    rw [hanswer] at hanswered
    rw [hdrop, List.forall_mem_append] at hunended
    rw [hdrop, SinkAction.filterMap_written?_concat] at hlines
    refine ⟨hunended.2 action (List.mem_singleton_self action),
      ⟨unit.name, (past.actions.drop (i + 1)).filterMap SinkAction.written?⟩,
      ⟨hopened, hanswered, hunended.1, rfl⟩, ?_⟩
    exact congrArg (SourceUnit.mk unit.name) hlines
  · rintro ⟨hends, old, ⟨hopened, hanswered, hunended, hlines⟩, rfl⟩
    refine ⟨haction.trans hopened, hanswer.trans hanswered, ?_, ?_⟩
    · rw [hdrop, List.forall_mem_append]
      exact ⟨hunended, List.forall_mem_singleton.2 hends⟩
    · rw [hdrop, SinkAction.filterMap_written?_concat, ← hlines, SourceUnit.extended]

/-- A session starts with an opening while no unit is open. -/
theorem running_snoc_length :
    (past.snoc action).Running past.actions.length unit
      ↔ past.sink.current? = none ∧ action = .call (.openUnit unit.name) ∧ unit.lines = [] := by
  have haction : (past.snoc action).actions[past.actions.length]? = some action :=
    List.getElem?_concat_length
  have hanswer : (past.snoc action).answers[past.actions.length]?
      = some (past.sink.run (Sink.act action)).1 := by
    rw [answers_snoc, ← length_answers, List.getElem?_concat_length]
  have hdrop : (past.snoc action).actions.drop (past.actions.length + 1) = [] :=
    List.drop_eq_nil_of_le (Nat.le_of_eq (past.length_snoc action))
  constructor
  · rintro ⟨hopened, hanswered, -, hlines⟩
    rw [haction] at hopened
    obtain rfl := Option.some.inj hopened
    rw [hanswer, Option.some.injEq] at hanswered
    rw [hdrop] at hlines
    exact ⟨MemorySink.run_act_openUnit_eq_ok.1 hanswered, rfl, hlines⟩
  · rintro ⟨hclosed, rfl, hlines⟩
    refine ⟨haction, ?_, ?_, ?_⟩
    · rw [hanswer, MemorySink.run_act_openUnit_eq_ok.2 hclosed]
    · rw [hdrop]
      exact fun action hnone => absurd hnone List.not_mem_nil
    · rw [hdrop, hlines]
      rfl

/-- **A unit is being written behind an action** if it was before and the action has not ended it,
or if the action has opened it. -/
theorem running_snoc :
    (past.snoc action).Running i unit
      ↔ (action.endsUnit = false ∧ ∃ old, past.Running i old ∧ unit = old.extended action)
        ∨ i = past.actions.length ∧ past.sink.current? = none ∧ action = .call (.openUnit unit.name)
          ∧ unit.lines = [] := by
  constructor
  · intro hrunning
    have hle : i < past.actions.length + 1 := by
      rw [← length_snoc past action]
      exact hrunning.lt_length
    rcases Nat.lt_succ_iff_lt_or_eq.1 hle with hlt | rfl
    · exact .inl ((running_snoc_of_lt hlt).1 hrunning)
    · exact .inr ⟨rfl, running_snoc_length.1 hrunning⟩
  · rintro (⟨hends, old, hold, rfl⟩ | ⟨rfl, hstart⟩)
    · exact (running_snoc_of_lt hold.lt_length).2 ⟨hends, old, hold, rfl⟩
    · exact running_snoc_length.2 hstart

/-- **The open unit is that of the running session.** -/
theorem current?_eq_some_iff : past.sink.current? = some unit ↔ ∃ i, past.Running i unit := by
  induction past using snoc_induction generalizing unit with
  | nil units =>
      refine iff_of_false nofun ?_
      rintro ⟨i, hrunning⟩
      exact absurd hrunning.lt_length (Nat.not_lt_zero i)
  | snoc past action ih =>
      rw [sink_snoc, MemorySink.current?_run_act_eq_some]
      constructor
      · rintro (⟨hends, old, hold, rfl⟩ | hstart)
        · obtain ⟨i, hrunning⟩ := ih.1 hold
          exact ⟨i, running_snoc.2 (.inl ⟨hends, old, hrunning, rfl⟩)⟩
        · exact ⟨past.actions.length, running_snoc.2 (.inr ⟨rfl, hstart⟩)⟩
      · rintro ⟨i, hrunning⟩
        rcases running_snoc.1 hrunning with ⟨hends, old, hold, rfl⟩ | ⟨-, hstart⟩
        · exact .inl ⟨hends, old, ih.2 ⟨i, hold⟩, rfl⟩
        · exact .inr hstart

/-- What is being written is what the sink has open. -/
theorem Running.current? (hrunning : past.Running i unit) : past.sink.current? = some unit :=
  current?_eq_some_iff.2 ⟨i, hrunning⟩

/-- At most one session is running. -/
theorem Running.unique {j : Nat} {other : SourceUnit} (hi : past.Running i unit)
    (hj : past.Running j other) :
    i = j := by
  induction past using snoc_induction generalizing unit other with
  | nil units => exact absurd hi.lt_length (Nat.not_lt_zero i)
  | snoc past action ih =>
      -- while a session runs no other one starts
      have hfree : ∀ {k unit}, past.Running k unit → past.sink.current? ≠ none := fun hk => by
        rw [hk.current?]
        exact Option.some_ne_none _
      rcases running_snoc.1 hi with ⟨-, old, hold, -⟩ | ⟨rfl, hclosed, -⟩
      · rcases running_snoc.1 hj with ⟨-, old', hold', -⟩ | ⟨-, hclosed, -⟩
        · exact ih hold hold'
        · exact absurd hclosed (hfree hold)
      · rcases running_snoc.1 hj with ⟨-, old', hold', -⟩ | ⟨rfl, -⟩
        · exact absurd hclosed (hfree hold')
        · rfl

/-! ## Published sessions -/

variable {session : Session}

theorem Publishes.stop_lt (hsession : past.Publishes session) :
    session.stop < past.actions.length :=
  (List.getElem?_eq_some_iff.1 hsession.closed).1

/-- A session is published by the seal that ends it. -/
theorem publishes_snoc :
    (past.snoc action).Publishes session
      ↔ past.Publishes session
        ∨ session.stop = past.actions.length ∧ action = .call .closeUnit
          ∧ past.Running session.start session.unit := by
  constructor
  · intro hsession
    have hle : session.stop < past.actions.length + 1 := by
      rw [← length_snoc past action]
      exact hsession.stop_lt
    obtain ⟨hrunning, hclosed⟩ := hsession
    rw [upTo_snoc past action (Nat.le_of_lt_succ hle)] at hrunning
    rcases Nat.lt_succ_iff_lt_or_eq.1 hle with hlt | heq
    · exact .inl ⟨hrunning, (List.getElem?_append_left hlt).symm.trans hclosed⟩
    · rw [heq, snoc, List.getElem?_concat_length] at hclosed
      rw [heq, upTo_of_length_le past (Nat.le_refl _)] at hrunning
      exact .inr ⟨heq, Option.some.inj hclosed, hrunning⟩
  · rintro (hsession | ⟨hstop, rfl, hrunning⟩)
    · refine ⟨?_, (List.getElem?_append_left hsession.stop_lt).trans hsession.closed⟩
      rw [upTo_snoc past action (Nat.le_of_lt hsession.stop_lt)]
      exact hsession.running
    · refine ⟨?_, ?_⟩
      · rwa [hstop, upTo_snoc past _ (Nat.le_refl _), upTo_of_length_le past (Nat.le_refl _)]
      · rw [hstop, snoc, List.getElem?_concat_length]

/-- A running session started behind the end of every published one. -/
theorem Publishes.stop_lt_of_running (hsession : past.Publishes session)
    (hrunning : past.Running i unit) :
    session.stop < i := by
  by_contra hle
  have hne : session.stop ≠ i := by
    rintro heq
    have hopened := hrunning.opened
    rw [← heq, hsession.closed] at hopened
    exact absurd hopened (by simp)
  have hlt : i + 1 ≤ session.stop := by omega
  have hmem : SinkAction.call .closeUnit ∈ past.actions.drop (i + 1) := by
    refine List.mem_of_getElem? (i := session.stop - (i + 1)) ?_
    rw [List.getElem?_drop, Nat.add_sub_cancel' hlt, hsession.closed]
  exact absurd (hrunning.unended _ hmem) (by simp [SinkAction.endsUnit])

/-- **What is published is what was opened and sealed**, in order, behind what the sink kept
before. -/
theorem exists_sessions (past : SinkHistory) :
    ∃ sessions : List Session, sessions.Pairwise (fun s t => s.stop < t.start)
      ∧ (∀ session, session ∈ sessions ↔ past.Publishes session)
      ∧ past.sink.units = past.units ++ sessions.map Session.unit := by
  induction past using snoc_induction with
  | nil units =>
      refine ⟨[], .nil, fun session => iff_of_false List.not_mem_nil ?_,
        (List.append_nil units).symm⟩
      exact fun hsession => absurd hsession.stop_lt (Nat.not_lt_zero _)
  | snoc past action ih =>
      obtain ⟨sessions, hordered, hmem, hunits⟩ := ih
      have hnow : (past.snoc action).sink.units
          = past.units ++ sessions.map Session.unit ++ (past.sink.sealed? action).toList := by
        rw [sink_snoc, MemorySink.units_run_act, hunits]
      cases hsealed : past.sink.sealed? action with
      | none =>
          refine ⟨sessions, hordered, fun session => ?_, ?_⟩
          · rw [hmem, publishes_snoc, or_iff_left]
            rintro ⟨-, rfl, hrunning⟩
            rw [MemorySink.sealed?_closeUnit, hrunning.current?] at hsealed
            exact absurd hsealed (Option.some_ne_none _)
          · rw [hnow, hsealed]
            exact List.append_nil _
      | some unit =>
          obtain ⟨rfl, -⟩ := MemorySink.sealed?_eq_some hsealed
          obtain ⟨i, hrunning⟩ := current?_eq_some_iff.1 hsealed
          refine ⟨sessions ++ [⟨i, past.actions.length, unit⟩], ?_, fun session => ?_, ?_⟩
          · rw [List.pairwise_append]
            refine ⟨hordered, List.pairwise_singleton _ _, fun s hs t ht => ?_⟩
            rw [List.mem_singleton.1 ht]
            exact ((hmem s).1 hs).stop_lt_of_running hrunning
          · rw [List.mem_append, hmem, publishes_snoc, List.mem_singleton]
            refine or_congr_right ⟨?_, ?_⟩
            · rintro rfl
              exact ⟨rfl, rfl, hrunning⟩
            · obtain ⟨start, stop, other⟩ := session
              rintro ⟨rfl, -, hother⟩
              obtain rfl : start = i := hother.unique hrunning
              obtain rfl : other = unit :=
                Option.some.inj (hother.current?.symm.trans hrunning.current?)
              rfl
          · rw [hnow, hsealed, List.map_append, List.append_assoc]
            rfl

/-! ## What stays as it was -/

/-- What is published stays, in front of what is published later. -/
theorem units_upTo_prefix (past : SinkHistory) (n : Nat) :
    (past.upTo n).sink.units <+: past.sink.units := by
  induction past using snoc_induction with
  | nil units => exact ⟨[], by rw [upTo_of_length_le _ (Nat.zero_le n), List.append_nil]⟩
  | snoc past action ih =>
      rcases Nat.lt_or_ge past.actions.length n with hlong | hshort
      · have hlength : (past.snoc action).actions.length ≤ n := by rwa [length_snoc]
        exact ⟨[], by rw [upTo_of_length_le _ hlength, List.append_nil]⟩
      · rw [upTo_snoc past action hshort, sink_snoc, MemorySink.units_run_act]
        exact ih.trans (List.prefix_append _ _)

/-- A running session has changed nothing but the open unit. -/
theorem Running.sink_upTo (hrunning : past.Running i unit) :
    (past.upTo i).sink = ⟨.empty, past.sink.units⟩ := by
  induction past using snoc_induction generalizing unit with
  | nil units => exact absurd hrunning.lt_length (Nat.not_lt_zero i)
  | snoc past action ih =>
      rw [sink_snoc, MemorySink.units_run_act]
      rcases running_snoc.1 hrunning with ⟨hends, old, hold, -⟩ | ⟨rfl, hclosed, rfl, -⟩
      · have hunsealed : past.sink.sealed? action = none := by
          refine Option.eq_none_iff_forall_ne_some.2 fun unit hsealed => ?_
          rw [(MemorySink.sealed?_eq_some hsealed).1] at hends
          exact absurd hends (by simp [SinkAction.endsUnit])
        rw [upTo_snoc past action (Nat.le_of_lt hold.lt_length), ih hold,
          hunsealed, Option.toList_none, List.append_nil]
      · rw [upTo_snoc past _ (Nat.le_refl _), upTo_of_length_le past (Nat.le_refl _),
          MemorySink.eq_of_current?_eq_none hclosed]
        exact congrArg (MemorySink.mk _) (List.append_nil _).symm

/-- The sink behind an action of the history. -/
theorem sink_upTo_succ (hi : past.actions[i]? = some action) :
    (past.upTo (i + 1)).sink = ((past.upTo i).sink.run (Sink.act action)).2 := by
  rw [upTo_succ hi, sink_snoc]

/-- **An abandoned session leaves no trace.** -/
theorem sink_upTo_succ_of_abandon {j : Nat} (hrunning : (past.upTo j).Running i unit)
    (hj : past.actions[j]? = some .abandon) : (past.upTo (j + 1)).sink = (past.upTo i).sink := by
  have hle : i ≤ j := by
    have hlt := hrunning.lt_length
    rw [upTo, List.length_take] at hlt
    omega
  rw [← upTo_upTo past hle, hrunning.sink_upTo, sink_upTo_succ hj]
  rfl

/-- Behind an abandonment a unit can be opened. -/
theorem getElem?_answers_of_abandon {j : Nat} {name : String}
    (hj : past.actions[j]? = some .abandon)
    (hnext : past.actions[j + 1]? = some (.call (.openUnit name))) :
    past.answers[j + 1]? = some (.ok ()) := by
  have hclosed : (past.upTo (j + 1)).sink.current? = none := by
    rw [sink_upTo_succ hj]
    rfl
  rw [getElem?_answers hnext, MemorySink.run_act_openUnit_eq_ok.2 hclosed]

/-! ## All of it -/

/-- Exactly the closed sessions of a history are published. -/
structure PublishesSessions (past : SinkHistory) : Prop where
  /-- At every point the open unit of the sink is that of the running session. -/
  current : ∀ n unit, (past.upTo n).sink.current? = some unit ↔ ∃ i, (past.upTo n).Running i unit
  /-- At every point at most one session is running. -/
  alone : ∀ n i j unit other, (past.upTo n).Running i unit → (past.upTo n).Running j other → i = j
  /-- What is out of turn is answered with the error that says so, and changes nothing. All else
  succeeds. -/
  answered : ∀ i action, past.actions[i]? = some action →
    (∃ e, (past.upTo i).sink.refusal? action = some e ∧ past.answers[i]? = some (.error e)
        ∧ (past.upTo (i + 1)).sink = (past.upTo i).sink)
      ∨ (past.upTo i).sink.refusal? action = none ∧ past.answers[i]? = some (.ok ())
  /-- The units are those of the sessions that ended in a seal, in order, behind what was there
  before. -/
  published : ∃ sessions : List Session, sessions.Pairwise (fun s t => s.stop < t.start)
    ∧ (∀ session, session ∈ sessions ↔ past.Publishes session)
    ∧ past.sink.units = past.units ++ sessions.map Session.unit
  /-- The units of every point are still there at the end, in front of the later ones. -/
  kept : ∀ n, (past.upTo n).sink.units <+: past.sink.units
  /-- Behind a session that is abandoned, the sink is what it was before the session. -/
  untraced : ∀ i j unit, (past.upTo j).Running i unit → past.actions[j]? = some .abandon →
    (past.upTo (j + 1)).sink = (past.upTo i).sink
  /-- Behind every abandonment a unit can be opened. -/
  reopened : ∀ j name, past.actions[j]? = some .abandon →
    past.actions[j + 1]? = some (.call (.openUnit name)) → past.answers[j + 1]? = some (.ok ())

/-- What a sink publishes are the sessions that were closed, in the order of their ends. -/
theorem publishesSessions (past : SinkHistory) : past.PublishesSessions where
  current _ _ := current?_eq_some_iff
  alone _ _ _ _ _ := Running.unique
  answered i action hi := by
    rw [getElem?_answers hi, sink_upTo_succ hi]
    rcases (past.upTo i).sink.run_act_eq action with ⟨e, hrefused, hrun⟩ | ⟨hfree, hok⟩
    · exact .inl ⟨e, hrefused, by rw [hrun], by rw [hrun]⟩
    · exact .inr ⟨hfree, by rw [hok]⟩
  published := past.exists_sessions
  kept := past.units_upTo_prefix
  untraced _ _ _ := sink_upTo_succ_of_abandon
  reopened _ _ := getElem?_answers_of_abandon

end SinkHistory

/-! ## Rounds -/

/-- A unit that is written under a guard, and what becomes of the guard when the writing has
succeeded. -/
structure UnitRound extends UnitPlan where
  closing : Sink.Closing

namespace UnitRound

/-- The round of some lines. -/
def ofLines (name : String) (lines : List Line) (closing : Sink.Closing) : UnitRound where
  name := name
  content := .all (lines.map fun line => .lineAt line.indent line.text)
  closing := closing

/-- The guard is sealed. It is dropped where it is to be dropped, and where the writing gives up. -/
def IsSealed (round : UnitRound) : Prop := round.closing = .seal ∧ round.content.fault? = none

instance (round : UnitRound) : Decidable round.IsSealed := inferInstanceAs (Decidable (_ ∧ _))

/-- The answer to the round. -/
def outcome (round : UnitRound) : Except GenerationError Unit :=
  match round.content.fault? with
  | some e => .error e
  | none => .ok ()

/-- What the round publishes. -/
def published (round : UnitRound) : List SourceUnit :=
  if round.IsSealed then [round.toUnitPlan.sealed] else []

/-- The round call by call. A guard that is not sealed abandons its unit. -/
def actions (round : UnitRound) : List SinkAction :=
  .call (.openUnit round.name)
    :: (round.content.emit 0).lines.map (fun line => .call (.writeLine line))
    ++ [if round.IsSealed then .call .closeUnit else .abandon]

section

variable {m : Type → Type} [Monad m] [Sink m]

def play (round : UnitRound) : m (Except GenerationError Unit) :=
  Sink.withUnit round.name round.closing (round.content.write 0)

/-- Plays one round after the other, whatever comes of them; all the outcomes. -/
def playAll : List UnitRound → m (List (Except GenerationError Unit))
  | [] => pure []
  | round :: rest => do
      let outcome ← round.play
      let outcomes ← playAll rest
      pure (outcome :: outcomes)

end

variable (units : List SourceUnit)

/-- **A round leaves the sink closed, with one unit more exactly if its guard was sealed.** -/
theorem run_play (round : UnitRound) :
    MemorySink.run ⟨.empty, units⟩ round.play
      = (round.outcome, ⟨.empty, units ++ round.published⟩) := by
  have hrun := MemorySink.run_withUnit units round.toUnitPlan round.closing
  rw [play, hrun, outcome, published]
  cases hfault : round.content.fault? with
  | some e =>
      have hunsealed : ¬ round.IsSealed := fun h => absurd (hfault.symm.trans h.2) (by simp)
      rw [if_neg hunsealed, List.append_nil]
  | none =>
      have hsealed : round.IsSealed ↔ round.closing = .seal := and_iff_left hfault
      rw [if_congr hsealed rfl rfl]

/-- Lines that are written under a guard are published when it is sealed. -/
theorem published_ofLines (name : String) (lines : List Line) (closing : Sink.Closing) :
    (ofLines name lines closing).published
      = if closing = .seal then [⟨name, lines.map Line.render⟩] else [] := by
  have hclean : (ofLines name lines closing).content.fault? = none :=
    Fragment.fault?_all_map fun line _ => rfl
  have hsealed : (ofLines name lines closing).IsSealed ↔ closing = .seal := and_iff_left hclean
  have hemit : (ofLines name lines closing).content.emit 0
      = ⟨lines.flatMap fun line => [line], 0, none⟩ :=
    Fragment.emit_all_map fun line _ => rfl
  have hunit : (ofLines name lines closing).toUnitPlan.sealed = ⟨name, lines.map Line.render⟩ := by
    rw [UnitPlan.sealed, Fragment.rendered, hemit, List.flatMap_singleton']
    rfl
  rw [published, hunit]
  exact if_congr hsealed rfl rfl

/-- Rounds under guards leave the sink without an open unit, each with its answer and its unit. -/
theorem run_playAll (rounds : List UnitRound) :
    MemorySink.run ⟨.empty, units⟩ (playAll rounds)
      = (rounds.map outcome, ⟨.empty, units ++ rounds.flatMap published⟩) := by
  induction rounds generalizing units with
  | nil => rw [playAll, MemorySink.run_pure, List.flatMap_nil, List.append_nil, List.map_nil]
  | cons round rest ih =>
      rw [playAll, MemorySink.run_bind, run_play]
      dsimp only
      rw [MemorySink.run_bind, ih, MemorySink.run_pure, List.append_assoc]
      rfl

/-- The calls of a round leave what the round leaves. -/
theorem run_actions (round : UnitRound) :
    (MemorySink.run ⟨.empty, units⟩ (Sink.actAll round.actions)).2
      = ⟨.empty, units ++ round.published⟩ := by
  have hopened : MemorySink.run ⟨.empty, units⟩ (Sink.act (.call (.openUnit round.name)))
      = (.ok (), ⟨⟨some ⟨round.name, #[]⟩⟩, units⟩) := rfl
  have hwritten : (MemorySink.run ⟨.empty, units⟩ (Sink.actAll (.call (.openUnit round.name)
        :: (round.content.emit 0).lines.map fun line => .call (.writeLine line)))).2
      = ⟨⟨some ⟨round.name, round.content.rendered.toArray⟩⟩, units⟩ := by
    rw [Sink.actAll, MemorySink.run_bind, hopened, MemorySink.run_bind, MemorySink.run_pure]
    dsimp only
    rw [MemorySink.run_actAll_writeLine, Array.empty_append]
    rfl
  rw [actions, Sink.actAll_append, MemorySink.run_bind, MemorySink.run_bind,
    MemorySink.run_pure, hwritten, published]
  by_cases hsealed : round.IsSealed
  · rw [if_pos hsealed, if_pos hsealed]
    rfl
  · rw [if_neg hsealed, if_neg hsealed, List.append_nil]
    rfl

/-- **Rounds are a history.** -/
theorem sink_flatMap_actions (rounds : List UnitRound) :
    (SinkHistory.mk units (rounds.flatMap actions)).sink
      = ⟨.empty, units ++ rounds.flatMap published⟩ := by
  unfold SinkHistory.sink SinkHistory.ran
  dsimp only
  induction rounds generalizing units with
  | nil => exact congrArg (MemorySink.mk _) (List.append_nil units).symm
  | cons round rest ih =>
      rw [List.flatMap_cons, Sink.actAll_append, MemorySink.run_bind, MemorySink.run_bind,
        MemorySink.run_pure, run_actions, ih, List.append_assoc]
      rfl

end UnitRound

/-- **A sink in memory publishes exactly the closed sessions**, whatever is asked of it in which
order. Units that are written under guards come from such sessions: behind every round the sink is
what the calls of the rounds leave, so that it is closed, with one unit more for each guard that
was sealed. -/
theorem sink_publishes_closed_sessions :
    (∀ past : SinkHistory, past.PublishesSessions)
      ∧ (∀ (units : List SourceUnit) (rounds : List UnitRound) (n : Nat),
        MemorySink.run ⟨.empty, units⟩ (UnitRound.playAll (rounds.take n))
            = ((rounds.take n).map UnitRound.outcome,
              ⟨.empty, units ++ (rounds.take n).flatMap UnitRound.published⟩)
          ∧ (SinkHistory.mk units ((rounds.take n).flatMap UnitRound.actions)).sink
            = ⟨.empty, units ++ (rounds.take n).flatMap UnitRound.published⟩)
      ∧ ∀ (name : String) (lines : List Line) (closing : Sink.Closing),
        (UnitRound.ofLines name lines closing).published
          = if closing = .seal then [⟨name, lines.map Line.render⟩] else [] :=
  ⟨SinkHistory.publishesSessions,
    fun units rounds n => ⟨UnitRound.run_playAll units (rounds.take n),
      UnitRound.sink_flatMap_actions units (rounds.take n)⟩,
    UnitRound.published_ofLines⟩

/-- Of three units one is published: the second is refused, and the third is abandoned. -/
example :
    (SinkHistory.mk []
      [.call (.openUnit "first.rs"), .call (.openUnit "second.rs"), .call (.writeLine ⟨1, "x"⟩),
        .call .closeUnit, .call (.openUnit "third.rs"), .call (.writeLine ⟨0, "y"⟩), .abandon,
        .call .closeUnit]).sink.units = [⟨"first.rs", ["    x"]⟩] := by
  decide

end ModelForge
