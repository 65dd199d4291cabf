/-
`OpenUnits.lean` -- whether a unit is open when everything is over.

A unit is written through `Sink.withUnit`, which opens it, runs a body, and seals or drops the
unit. On a sink that refuses calls three things can go wrong. A refused opening leaves no unit,
and a body that fails, be it over a refused line, has its unit abandoned. A refused seal is
different: the unit counts as sealed from the moment when sealing is tried, so nothing is
abandoned, and a sink that did not close the unit by itself keeps it open. That is the only way in
which a unit can stay open (`open_iff_seal_refused`), for runs and for every single unit, whatever
its body makes of refusals. It does happen (`refused_seal_leaves_unit_open`).
-/
import ModelForge.Proofs.Refusals

set_option autoImplicit false

namespace ModelForge

/-! ## Bodies -/

section

variable {m : Type → Type} [Monad m] [Sink m]

/-- An effect that asks nothing of its sink but to take lines. It may go on behind a line that was
refused, and what it writes next may depend on the answer. -/
inductive WritesOnly : {α : Type} → m α → Prop
  | done {α : Type} (a : α) : WritesOnly (pure a : m α)
  | write {α : Type} (line : Line) {next : Except SinkError Unit → m α}
      (hnext : ∀ answer, WritesOnly (next answer)) :
      WritesOnly (Sink.perform (.writeLine line) >>= next)

variable [LawfulMonad m]

theorem WritesOnly.bind {α β : Type} {effect : m α} {next : α → m β} (h : WritesOnly effect)
    (hnext : ∀ a, WritesOnly (next a)) : WritesOnly (effect >>= next) := by
  induction h with
  | done a =>
      rw [pure_bind]
      exact hnext a
  | write line _ ih =>
      rw [bind_assoc]
      exact .write line fun answer => ih answer

theorem WritesOnly.map {α β : Type} {effect : m α} (f : α → β) (h : WritesOnly effect) :
    WritesOnly (f <$> effect) := by
  rw [← bind_pure_comp]
  exact h.bind fun a => .done (f a)

omit [LawfulMonad m] in
theorem writesOnly_performAll (lines : List Line) :
    WritesOnly (Sink.performAll (lines.map .writeLine) : m _) := by
  induction lines with
  | nil => exact .done _
  | cons line rest ih =>
      refine .write line fun answer => ?_
      cases answer with
      | ok _ => exact ih
      | error e => exact .done _

/-- A fragment is written line by line. -/
theorem writesOnly_write (fragment : Fragment) (level : Nat) :
    WritesOnly (fragment.write level : m _) := by
  refine (writesOnly_performAll _).bind fun answer => ?_
  cases answer with
  | error e => exact .done _
  | ok _ =>
      cases h : (fragment.emit level).error? with
      | some e => exact .done _
      | none => exact .done _

/-- So are fragments one after the other, also behind one that failed. -/
theorem writesOnly_writeEach (level : Nat) (fragments : List Fragment) :
    WritesOnly (Fragment.writeEach level fragments : m _) := by
  induction fragments generalizing level with
  | nil => exact .done _
  | cons fragment rest ih =>
      refine (writesOnly_write fragment level).bind fun outcome => ?_
      exact (ih _).bind fun outcomes => .done _

end

/-! ## One unit -/

namespace FaultState

/-- A body does not close its unit, whatever is refused to it. -/
theorem run_of_writesOnly {α : Type} {body : StateT FaultState (StateM MemorySink) α}
    (h : WritesOnly body) (state : FaultState) (name : String) (written : Array String)
    (units : List SourceUnit) :
    ∃ written', (state.run ⟨⟨some ⟨name, written⟩⟩, units⟩ body).2
      = ⟨⟨some ⟨name, written'⟩⟩, units⟩ := by
  induction h generalizing state written with
  | done a => exact ⟨written, rfl⟩
  | write line _ ih =>
      rw [run_bind]
      by_cases hrefuses : state.RefusesNext
      · rw [run_perform_of_refusesNext hrefuses]
        exact ih _ _ _
      · rw [run_perform_of_not_refusesNext hrefuses, MemorySink.run_perform_of_ok rfl]
        exact ih _ _ _

variable (state : FaultState) (units : List SourceUnit) (name : String) (closing : Sink.Closing)
  {α : Type} (body : StateT FaultState (StateM MemorySink) (Except GenerationError α))

/-- A body that is run in its unit, on a sink that had no open unit before. -/
def runBody : (Except GenerationError α × FaultState) × MemorySink :=
  (state.passed [.openUnit name]).run ⟨⟨some ⟨name, #[]⟩⟩, units⟩ body

/-- The unit was opened and its body succeeded, and then the call that would have sealed it was the
chosen one. -/
def SealRefused : Prop :=
  closing = .seal ∧ ¬ state.RefusesNext
    ∧ (∃ a, (state.runBody units name body).1.1 = .ok a)
    ∧ (state.runBody units name body).1.2.RefusesNext

variable {state units name closing body}

/-- **A unit stays open exactly if its seal is refused.** -/
theorem isOpen_withUnit_iff (hbody : WritesOnly body) :
    (state.run ⟨.empty, units⟩ (Sink.withUnit name closing body)).2.isOpen = true
      ↔ state.SealRefused units name closing body := by
  by_cases hopening : state.RefusesNext
  · -- the opening is refused, and no unit was ever open
    rw [Sink.withUnit, run_bind, run_perform_of_refusesNext hopening]
    exact iff_of_false Bool.false_ne_true fun h => h.2.1 hopening
  obtain ⟨written, hwritten⟩ :=
    run_of_writesOnly hbody (state.passed [.openUnit name]) name #[] units
  have hbodyRun : (state.passed [.openUnit name]).run ⟨⟨some ⟨name, #[]⟩⟩, units⟩ body
      = ((state.runBody units name body).1, ⟨⟨some ⟨name, written⟩⟩, units⟩) :=
    Prod.ext rfl hwritten
  rw [Sink.withUnit, run_bind, run_perform_of_not_refusesNext hopening,
    MemorySink.run_perform_of_ok rfl]
  dsimp only
  rw [run_bind, hbodyRun, SealRefused]
  dsimp only
  cases hanswer : (state.runBody units name body).1.1 with
  | error e =>
      refine iff_of_false Bool.false_ne_true ?_
      rintro ⟨-, -, ⟨a, ha⟩, -⟩
      exact absurd ha (by simp)
  | ok a =>
      rcases closing with _ | _
      · -- sealed: the seal is the last call
        dsimp only
        rw [run_bind]
        by_cases hsealing : (state.runBody units name body).1.2.RefusesNext
        · rw [run_perform_of_refusesNext hsealing]
          exact iff_of_true rfl ⟨rfl, hopening, ⟨a, rfl⟩, hsealing⟩
        · rw [run_perform_of_not_refusesNext hsealing, MemorySink.run_perform_of_ok rfl]
          exact iff_of_false Bool.false_ne_true fun h => hsealing h.2.2.2
      · -- dropped
        refine iff_of_false Bool.false_ne_true ?_
        rintro ⟨hseal, -⟩
        exact absurd hseal (by simp)

end FaultState

/-! ## Runs -/

/-- A run that is refused nothing leaves no unit open. -/
theorem isOpen_runFrom (options : Options) (g : Graph) (units : List SourceUnit) :
    (runFrom options g units).2.isOpen = false := by
  obtain ⟨last, hlast, hopen⟩ := MemorySink.replay_runScript options g units
  rw [runFrom, generate_eq_follow, Script.follow, MemorySink.run_followCalls hlast,
    Script.run_finish_memory]
  cases habandons : (runScript options g).abandons with
  | true => rfl
  | false => exact hopen.trans habandons

/-- A run leaves a unit open exactly if the call that it was refused was to close one. -/
theorem isOpen_faultyRun_iff (options : Options) (g : Graph) (units : List SourceUnit) (n : Nat)
    (error : SinkError) :
    (faultyRun options g units n error).2.isOpen = true
      ↔ 0 < n ∧ (recordedCalls options g units)[n - 1]? = some .closeUnit := by
  rw [recordedCalls_eq]
  by_cases hchosen : 0 < n ∧ n ≤ (runScript options g).calls.length
  · obtain ⟨hpositive, hn⟩ := hchosen
    obtain ⟨call, rest, hcall, hsplit, hnumber⟩ := exists_split_at hpositive hn
    obtain ⟨middle, next, -, hnext, -, hrun⟩ := faultyRun_of_chosen options g units error hsplit
    rw [hnumber] at hrun
    rw [hrun, hcall, MemorySink.isOpen_cleanedUp hnext, Option.some.injEq]
    exact (and_iff_right hpositive).symm
  · have hfree : n = 0 ∨ (runScript options g).calls.length < n := by omega
    have hclosed : (faultyRun options g units n error).2.isOpen = false := by
      rw [← isOpen_runFrom options g units, ← (faultyRun_of_free options g units error hfree).1]
    rw [hclosed]
    refine iff_of_false Bool.false_ne_true ?_
    rintro ⟨hpositive, hcall⟩
    obtain ⟨hlt, -⟩ := List.getElem?_eq_some_iff.1 hcall
    exact hchosen ⟨hpositive, by omega⟩

/-- **A unit stays open exactly if its seal is refused.** So it is for runs on a sink that refuses
the call of number `n`, and for every single unit whose body does nothing but write lines.
Fragments are such bodies. -/
theorem open_iff_seal_refused (options : Options) (g : Graph) (units : List SourceUnit) :
    (∀ n error, (faultyRun options g units n error).2.isOpen = true
        ↔ 0 < n ∧ (recordedCalls options g units)[n - 1]? = some .closeUnit)
      ∧ (∀ (α : Type) (body : StateT FaultState (StateM MemorySink) (Except GenerationError α)),
        WritesOnly body → ∀ (state : FaultState) (name : String) (closing : Sink.Closing),
          (state.run ⟨.empty, units⟩ (Sink.withUnit name closing body)).2.isOpen = true
            ↔ state.SealRefused units name closing body)
      ∧ (∀ fragment : Fragment,
        WritesOnly (fragment.write 0 : StateT FaultState (StateM MemorySink) _))
      ∧ ∀ fragments : List Fragment,
        WritesOnly (Except.ok <$> Fragment.writeEach 0 fragments :
          StateT FaultState (StateM MemorySink) (Except GenerationError _)) := by
  refine ⟨isOpen_faultyRun_iff options g units, fun α body hbody state name closing => ?_,
    fun fragment => writesOnly_write fragment 0, fun fragments => ?_⟩
  · exact FaultState.isOpen_withUnit_iff hbody
  · exact (writesOnly_writeEach 0 fragments).map _

/-- It does happen: a run without namespaces writes a manifest of one line, and the third call is
the one that seals it. -/
theorem refused_seal_leaves_unit_open :
    (faultyRun .default (.ofNamespaces []) [] 3 (FaultState.injected 3)).1.1
        = .error (.sink (FaultState.injected 3))
      ∧ (faultyRun .default (.ofNamespaces []) [] 3 (FaultState.injected 3)).2.isOpen = true := by
  exact ⟨rfl, rfl⟩

end ModelForge
