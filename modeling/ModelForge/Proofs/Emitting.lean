/-
`Emitting.lean` -- writing call by call is writing the lines that a fragment yields.

An emitter meets the lines of a fragment one by one (`Fragment.exec`), and `Fragment.write` sends
them as one list. To a sink this is the same, and so it is to what comes next: behind a fragment
that was written to its end the emitter goes on at the level that the fragment yields, and behind
a failure it does not go on at all (`Fragment.answerFrom_exec_bind`). What comes next is part of
the statement because a block goes on behind its body. The induction has to say whether the
closing brace is written, and at which level.
-/
import ModelForge.Output.Emitter

set_option autoImplicit false

namespace ModelForge

/-! ## Effects of an emitter -/

namespace EmitterT

variable {m : Type → Type} [Monad m] [LawfulMonad m] {α β : Type} (current : Nat)

theorem answerFrom_pure (a : α) : answerFrom current (pure a : EmitterT m α) = pure (.ok a) := by
  rw [answerFrom, ExceptT.run_pure, StateT.run_pure, map_pure]

/-- An effect that fails ends what is answered. Otherwise the next one starts at its level. -/
theorem answerFrom_bind (effect : EmitterT m β) (next : β → EmitterT m α) :
    answerFrom current (effect >>= next)
      = effect.run.run current >>= fun answered =>
        match answered.1 with
        | .ok b => answerFrom answered.2 (next b)
        | .error e => pure (.error e) := by
  simp only [answerFrom, ExceptT.run_bind, StateT.run_bind, map_bind]
  refine bind_congr fun answered => ?_
  cases answered.1 with
  | ok b => rfl
  | error e => simp only [StateT.run_pure, map_pure]

/-- Behind an error nothing is done. -/
theorem answerFrom_throw_bind (error : GenerationError) (next : β → EmitterT m α) :
    answerFrom current (throw error >>= next) = pure (.error error) := by
  rw [answerFrom_bind]
  simp

/-- An effect of the sink leaves the level as it is. -/
theorem answerFrom_lift_bind (effect : m β) (next : β → EmitterT m α) :
    answerFrom current (lift effect >>= next)
      = effect >>= fun b => answerFrom current (next b) := by
  rw [answerFrom_bind]
  simp [lift]

/-- To read the level is to go on with it. -/
theorem answerFrom_level_bind (next : Nat → EmitterT m α) :
    answerFrom current (level >>= next) = answerFrom current (next current) := by
  rw [answerFrom_bind]
  simp [level]

theorem answerFrom_level : answerFrom current (level : EmitterT m Nat) = pure (.ok current) := by
  rw [← bind_pure (level (m := m)), answerFrom_level_bind, answerFrom_pure]

/-- To indent is to go on one level deeper. -/
theorem answerFrom_indent_bind (next : Unit → EmitterT m α) :
    answerFrom current (indent >>= next) = answerFrom (current + 1) (next ()) := by
  rw [answerFrom_bind]
  simp [indent]

/-- To dedent is to go on one level higher, and never below zero. -/
theorem answerFrom_dedent_bind (next : Unit → EmitterT m α) :
    answerFrom current (dedent >>= next) = answerFrom (current - 1) (next ()) := by
  rw [answerFrom_bind]
  simp [dedent]

end EmitterT

/-! ## Lines -/

section

variable {m : Type → Type} [Monad m] [Sink m] {α : Type}

/-- Sends the lines of an emission, and goes on at its level. Neither a refused line nor the error
of the emission lets it go on. -/
def Emission.sendThen (emission : Emission) (next : Nat → m (Except GenerationError α)) :
    m (Except GenerationError α) := do
  match ← Sink.performAll (emission.lines.map .writeLine) with
  | .error e => pure (.error (.sink e))
  | .ok _ =>
      match emission.error? with
      | some e => pure (.error e)
      | none => next emission.level

variable [LawfulMonad m] (next : Nat → m (Except GenerationError α))

/-- Calls in a row are sent until one is refused. -/
theorem Sink.performAll_append (before after : List SinkCall) :
    (Sink.performAll (before ++ after) : m _) = (do
      match ← Sink.performAll before with
      | .ok _ => Sink.performAll after
      | .error e => pure (.error e)) := by
  induction before with
  | nil => rw [List.nil_append, Sink.performAll, pure_bind]
  | cons call rest ih =>
      rw [List.cons_append, Sink.performAll, Sink.performAll, bind_assoc]
      refine bind_congr fun answer => ?_
      cases answer with
      | ok _ => exact ih
      | error e => rw [pure_bind]

/-- Without lines and errors there is only what comes next. -/
theorem Emission.sendThen_of_no_lines (level : Nat) :
    (⟨[], level, none⟩ : Emission).sendThen next = next level := by
  rw [sendThen, List.map_nil, Sink.performAll, pure_bind]

/-- An error is answered without a call. -/
theorem Emission.sendThen_of_error (level : Nat) (error : GenerationError) :
    (⟨[], level, some error⟩ : Emission).sendThen next = pure (.error error) := by
  rw [sendThen, List.map_nil, Sink.performAll, pure_bind]

/-- A single line is sent, and refused or not. -/
theorem Emission.sendThen_of_line (line : Line) (level : Nat) :
    (⟨[line], level, none⟩ : Emission).sendThen next = (do
      match ← Sink.perform (.writeLine line) with
      | .ok _ => next level
      | .error e => pure (.error (.sink e))) := by
  rw [sendThen, List.map_singleton, Sink.performAll, bind_assoc]
  refine bind_congr fun answer => ?_
  cases answer with
  | ok _ => rw [Sink.performAll, pure_bind]
  | error e => rw [pure_bind]

/-- What is yielded one after the other is sent one after the other. -/
theorem Emission.sendThen_andThen (emission : Emission) (rest : Nat → Emission) :
    (emission.andThen rest).sendThen next
      = emission.sendThen fun level => (rest level).sendThen next := by
  obtain ⟨lines, level, error?⟩ := emission
  cases error? with
  | some e => rfl
  | none =>
      simp only [andThen, sendThen, List.map_append, Sink.performAll_append, bind_assoc]
      refine bind_congr fun answer => ?_
      cases answer with
      | ok _ => rfl
      | error e => rw [pure_bind]

end

/-! ## Fragments -/

section

variable {m : Type → Type} [Monad m] [LawfulMonad m] [Sink m] {α : Type}

/-- A line at a level of its own leaves the current level as it is. -/
theorem EmitterT.answerFrom_lineAt_bind (current level : Nat) (text : String)
    (next : Unit → EmitterT m α) :
    answerFrom current (lineAt level text >>= next)
      = (⟨[⟨level, text⟩], current, none⟩ : Emission).sendThen fun level =>
          answerFrom level (next ()) := by
  rw [lineAt, bind_assoc, answerFrom_lift_bind, Emission.sendThen_of_line]
  refine bind_congr fun answer => ?_
  cases answer with
  | ok _ => rw [pure_bind]
  | error e => rw [answerFrom_throw_bind]

/-- A line is written at the current level. -/
theorem EmitterT.answerFrom_line_bind (current : Nat) (text : String) (next : Unit → EmitterT m α) :
    answerFrom current (line text >>= next)
      = (⟨[⟨current, text⟩], current, none⟩ : Emission).sendThen fun level =>
          answerFrom level (next ()) := by
  rw [line, bind_assoc, answerFrom_level_bind, answerFrom_lineAt_bind]

/-- **Call by call a fragment is written like its lines**, and what comes next starts at its
level. -/
theorem Fragment.answerFrom_exec_bind (fragment : Fragment) (level : Nat)
    (next : Unit → EmitterT m α) :
    EmitterT.answerFrom level (fragment.exec >>= next)
      = (fragment.emit level).sendThen fun level => EmitterT.answerFrom level (next ()) := by
  induction fragment generalizing level next with
  | nothing => rw [exec, pure_bind, emit, Emission.sendThen_of_no_lines]
  | line text => rw [exec, EmitterT.answerFrom_line_bind, emit]
  | lineAt other text => rw [exec, EmitterT.answerFrom_lineAt_bind, emit]
  | indent => rw [exec, EmitterT.answerFrom_indent_bind, emit, Emission.sendThen_of_no_lines]
  | dedent => rw [exec, EmitterT.answerFrom_dedent_bind, emit, Emission.sendThen_of_no_lines]
  | append first second ih₁ ih₂ =>
      simp only [exec, bind_assoc, emit, Emission.sendThen_andThen, ih₁, ih₂]
  | block header body ih =>
      -- the header, a level deeper the body, and at the level of the header the brace
      simp only [exec, EmitterT.block, bind_assoc, emit, Emission.sendThen_andThen,
        EmitterT.answerFrom_line_bind, EmitterT.answerFrom_indent_bind, ih,
        EmitterT.answerFrom_dedent_bind]
      rw [Emission.sendThen_of_line, Emission.sendThen_of_line]
  | abort error => rw [exec, EmitterT.answerFrom_throw_bind, emit, Emission.sendThen_of_error]

/-- Fragments one after the other are written one after the other. -/
theorem Fragment.exec_all_append (fragments more : List Fragment) :
    ((Fragment.all (fragments ++ more)).exec : EmitterT m Unit) = (do
      (Fragment.all fragments).exec
      (Fragment.all more).exec) := by
  induction fragments with
  | nil => exact (pure_bind () fun _ => ((all more).exec : EmitterT m Unit)).symm
  | cons fragment rest ih =>
      have hcons : ∀ others : List Fragment, ((all (fragment :: others)).exec : EmitterT m Unit)
          = fragment.exec >>= fun _ => (all others).exec := fun _ => rfl
      rw [List.cons_append, hcons, hcons, ih, bind_assoc]

/-- An emitter answers what the writing of the lines answers. -/
theorem Fragment.answerFrom_exec (fragment : Fragment) (level : Nat) :
    EmitterT.answerFrom level fragment.exec = (fragment.write level : m _) := by
  rw [← bind_pure (fragment.exec (m := m)), Fragment.answerFrom_exec_bind]
  simp only [EmitterT.answerFrom_pure]
  rfl

end

end ModelForge
