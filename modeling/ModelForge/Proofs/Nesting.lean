/-
`Nesting.lean` -- levels inside of fragments, and the blocks that stand at them.

A fragment is balanced if every `dedent` in it takes back an `indent` that stands before it, and
if all are taken back at its end, and in the body of every block as well. The parts of a balanced
fragment need not be: an induction meets parts that take back what others have opened.
`Fragment.Matches` therefore says how many are open in front of a fragment and how many behind it,
and for these two numbers the level is determined (`Fragment.Matches.exists_emit`). It never falls
below the one at which the outermost fragment started, so `dedent` never meets the level zero,
where it would do nothing.
-/
import ModelForge.Proofs.Emitting
import ModelForge.Proofs.Reading
import ModelForge.Proofs.Refusals

set_option autoImplicit false

namespace ModelForge

namespace Fragment

/-! ## Balance -/

/-- Every `dedent` takes back an `indent`: with so many open in front of the fragment, there are
so many open behind it. A block has its own, and of the lines that ignore the level there are only
blank ones. -/
inductive Matches : Fragment → Nat → Nat → Prop
  | nothing (depth : Nat) : Matches nothing depth depth
  | line (text : String) (depth : Nat) : Matches (line text) depth depth
  | blank (depth : Nat) : Matches (lineAt 0 "") depth depth
  | indent (depth : Nat) : Matches indent depth (depth + 1)
  | dedent (depth : Nat) : Matches dedent (depth + 1) depth
  | append {first second : Fragment} {before between behind : Nat}
      (hfirst : Matches first before between) (hsecond : Matches second between behind) :
      Matches (append first second) before behind
  | block (header : String) {body : Fragment} (hbody : Matches body 0 0) (depth : Nat) :
      Matches (block header body) depth depth

/-- Whatever the fragment indents it takes back, and nothing else. -/
def Balanced (fragment : Fragment) : Prop := fragment.Matches 0 0

/-- Two fragments match if the second one goes on with what the first leaves open. -/
theorem matches_append_iff {first second : Fragment} {before behind : Nat} :
    (append first second).Matches before behind
      ↔ ∃ between, first.Matches before between ∧ second.Matches between behind := by
  constructor
  · rintro (_ | _ | _ | _ | _ | ⟨hfirst, hsecond⟩ | _)
    exact ⟨_, hfirst, hsecond⟩
  · rintro ⟨between, hfirst, hsecond⟩
    exact .append hfirst hsecond

/-- A block matches if its body is balanced. It leaves open what was open before. -/
theorem matches_block_iff {header : String} {body : Fragment} {before behind : Nat} :
    (block header body).Matches before behind ↔ body.Balanced ∧ before = behind := by
  constructor
  · rintro (_ | _ | _ | _ | _ | _ | ⟨_, hbody, _⟩)
    exact ⟨hbody, rfl⟩
  · rintro ⟨hbody, rfl⟩
    exact .block header hbody before

/-- What a fragment yields if its indentations match. No line with a text stands above the level
that is left when everything is taken back. -/
theorem Matches.exists_emit {fragment : Fragment} {before behind : Nat}
    (h : fragment.Matches before behind) (base : Nat) :
    ∃ lines, fragment.emit (base + before) = ⟨lines, base + behind, none⟩
      ∧ ∀ line ∈ lines, line.text ≠ "" → base ≤ line.indent := by
  induction h generalizing base with
  | nothing | indent | dedent => exact ⟨[], rfl, List.forall_mem_nil _⟩
  | line text depth =>
      refine ⟨[⟨base + depth, text⟩], rfl, ?_⟩
      rw [List.forall_mem_singleton]
      exact fun _ => Nat.le_add_right base depth
  | blank depth =>
      refine ⟨[⟨0, ""⟩], rfl, ?_⟩
      rw [List.forall_mem_singleton]
      exact fun hblank => absurd rfl hblank
  | append _ _ ih₁ ih₂ =>
      obtain ⟨lines, hfirst, hlines⟩ := ih₁ base
      obtain ⟨more, hsecond, hmore⟩ := ih₂ base
      exact ⟨lines ++ more, emit_append_of_eq hfirst hsecond,
        List.forall_mem_append.2 ⟨hlines, hmore⟩⟩
  | block header _ depth ih =>
      obtain ⟨lines, hbody, hlines⟩ := ih (base + depth + 1)
      refine ⟨_, emit_block_of_eq header hbody, ?_⟩
      rw [List.forall_mem_cons, List.forall_mem_append, List.forall_mem_singleton]
      refine ⟨fun _ => Nat.le_add_right base depth, fun line hline htext => ?_,
        fun _ => Nat.le_add_right base depth⟩
      have := hlines line hline htext
      omega

/-- What matches also matches deeper inside. -/
theorem Matches.deeper {fragment : Fragment} {before behind : Nat}
    (h : fragment.Matches before behind) (more : Nat) :
    fragment.Matches (before + more) (behind + more) := by
  induction h with
  | nothing depth => exact .nothing _
  | line text depth => exact .line text _
  | blank depth => exact .blank _
  | indent depth =>
      rw [Nat.add_right_comm]
      exact .indent _
  | dedent depth =>
      rw [Nat.add_right_comm]
      exact .dedent _
  | append _ _ ih₁ ih₂ => exact .append ih₁ ih₂
  | block header hbody depth => exact .block header hbody _

/-- A kind of fragments to which everything belongs that is put together from lines, blank or not,
from what is written in one line, from indentations that are taken back, and from blocks. -/
structure HoldsPrograms (kind : Fragment → Prop) : Prop where
  nothing : kind nothing
  line : ∀ text, kind (line text)
  blank : kind blank
  attr : ∀ body, kind (attr body)
  derive : ∀ traits, kind (derive traits)
  doc : ∀ text, kind (doc text)
  use : ∀ path, kind (use path)
  append : ∀ first second, kind first → kind second → kind (first ++ second)
  indented : ∀ body, kind body → kind (indent ++ body ++ dedent)
  block : ∀ header body, kind body → kind (block header body)

theorem balanced_derive (traits : List String) : (derive traits).Balanced := by
  unfold derive
  split
  · exact .nothing 0
  · exact .line _ 0

/-- **Whatever programs put together is balanced.** -/
theorem holdsPrograms_balanced : HoldsPrograms Balanced where
  nothing := .nothing 0
  line text := .line text 0
  blank := .blank 0
  attr _ := .line _ 0
  derive := balanced_derive
  doc _ := .line _ 0
  use _ := .line _ 0
  append _ _ hfirst hsecond := .append hfirst hsecond
  indented _ hbody := .append (.append (.indent 0) (hbody.deeper 1)) (.dedent 0)
  block header _ hbody := .block header hbody 0

theorem balanced_all_map {α : Type} {form : α → Fragment} {items : List α}
    (h : ∀ item ∈ items, (form item).Balanced) : (all (items.map form)).Balanced := by
  induction items with
  | nil => exact .nothing 0
  | cons item rest ih =>
      rw [List.forall_mem_cons] at h
      exact .append h.1 (ih h.2)

theorem balanced_lines (texts : List String) : (lines texts).Balanced :=
  balanced_all_map fun text _ => .line text 0

/-! ## Blocks -/

/-- The block is in the fragment, at any depth, and it is opened at a level when the fragment
starts at another. -/
inductive Opens (header : String) (body : Fragment) (opened : Nat) : Fragment → Nat → Prop
  | here : Opens header body opened (block header body) opened
  | inside (outer : String) {fragment : Fragment} {level : Nat}
      (h : Opens header body opened fragment (level + 1)) :
      Opens header body opened (block outer fragment) level
  | first {fragment : Fragment} (second : Fragment) {level : Nat}
      (h : Opens header body opened fragment level) :
      Opens header body opened (append fragment second) level
  | second (first : Fragment) {fragment : Fragment} {level : Nat}
      (h : Opens header body opened fragment (first.emit level).level) :
      Opens header body opened (append first fragment) level

/-- A block of a balanced fragment is balanced inside, and what it yields stands in one piece
among the lines of the fragment. -/
theorem Opens.exists_lines {header : String} {body fragment : Fragment} {opened level : Nat}
    (h : Opens header body opened fragment level) {base before behind : Nat}
    (hlevel : level = base + before) (hmatches : fragment.Matches before behind) :
    body.Balanced ∧ base ≤ opened ∧ ∃ front rest,
      (fragment.emit level).lines = front ++ ((block header body).emit opened).lines ++ rest := by
  induction h generalizing base before behind with
  | here =>
      obtain ⟨hbody, rfl⟩ := matches_block_iff.1 hmatches
      exact ⟨hbody, by omega, [], [], by rw [List.nil_append, List.append_nil]⟩
  | @inside outer fragment level _ ih =>
      obtain ⟨hfragment, rfl⟩ := matches_block_iff.1 hmatches
      obtain ⟨hbody, hopened, front, rest, hlines⟩ := ih (Nat.add_zero _).symm hfragment
      obtain ⟨lines, hemit, -⟩ := hfragment.exists_emit (level + 1)
      rw [Nat.add_zero] at hemit
      rw [hemit] at hlines
      dsimp only at hlines
      refine ⟨hbody, by omega, ⟨level, outer ++ " \x7b"⟩ :: front, rest ++ [⟨level, "\x7d"⟩], ?_⟩
      rw [emit_block_of_eq outer hemit, hlines]
      simp only [List.append_assoc, List.cons_append]
  | @first fragment second level _ ih =>
      obtain ⟨between, hfragment, hsecond⟩ := matches_append_iff.1 hmatches
      obtain ⟨hbody, hopened, front, rest, hlines⟩ := ih hlevel hfragment
      subst hlevel
      obtain ⟨lines, hemit, -⟩ := hfragment.exists_emit base
      obtain ⟨more, hmore, -⟩ := hsecond.exists_emit base
      rw [hemit] at hlines
      dsimp only at hlines
      have hwhole : ((append fragment second).emit (base + before)).lines = lines ++ more :=
        congrArg Emission.lines (emit_append_of_eq hemit hmore)
      exact ⟨hbody, hopened, front, rest ++ more, by rw [hwhole, hlines, List.append_assoc]⟩
  | @second first fragment level _ ih =>
      obtain ⟨between, hfirst, hfragment⟩ := matches_append_iff.1 hmatches
      subst hlevel
      obtain ⟨lines, hemit, -⟩ := hfirst.exists_emit base
      obtain ⟨more, hmore, -⟩ := hfragment.exists_emit base
      have hnext : (first.emit (base + before)).level = base + between := by rw [hemit]
      obtain ⟨hbody, hopened, front, rest, hlines⟩ := ih hnext hfragment
      rw [hnext, hmore] at hlines
      dsimp only at hlines
      have hwhole : ((append first fragment).emit (base + before)).lines = lines ++ more :=
        congrArg Emission.lines (emit_append_of_eq hemit hmore)
      refine ⟨hbody, hopened, lines ++ front, rest, ?_⟩
      rw [hwhole, hlines]
      simp only [List.append_assoc]

end Fragment

/-! ## Refused lines -/

/-- Lines that are sent up to the one that is refused, and not beyond. -/
theorem FaultState.run_performAll_of_chosen {state : FaultState} {before : List Line}
    (hchosen : state.calls + before.length + 1 = state.failAt) (line : Line) (after : List Line)
    (name : String) (written : Array String) (units : List SourceUnit) :
    state.run ⟨⟨some ⟨name, written⟩⟩, units⟩
        (Sink.performAll ((before ++ line :: after).map .writeLine))
      = ((.error state.error, (state.passed (before.map .writeLine)).refused),
          ⟨⟨some ⟨name, written ++ (before.map Line.render).toArray⟩⟩, units⟩) := by
  induction before generalizing state written with
  | nil =>
      rw [List.nil_append, List.map_cons, Sink.performAll, run_bind,
        run_perform_of_refusesNext (show state.RefusesNext from hchosen)]
      simp
      rfl
  | cons first rest ih =>
      rw [List.length_cons] at hchosen
      have hpassed : ¬ state.RefusesNext := by
        unfold RefusesNext
        omega
      have hchosen' : (state.passed [.writeLine first]).calls + rest.length + 1
          = (state.passed [.writeLine first]).failAt := by
        simp only [passed, List.length_singleton]
        omega
      rw [List.cons_append, List.map_cons, Sink.performAll, run_bind,
        run_perform_of_not_refusesNext hpassed, MemorySink.run_perform_of_ok rfl]
      dsimp only
      rw [ih hchosen', ← passed_append]
      simp
      rfl

/-! ## Stored lines -/

/-- Four spaces stand in front of a line for each level, and none in a blank line. -/
theorem Line.render_eq (line : Line) :
    line.render = if line.text = "" then ""
      else String.ofList (List.replicate (4 * line.indent) ' ') ++ line.text := by
  have hindentation : String.join (List.replicate line.indent Line.levelIndent)
      = String.ofList (List.replicate (4 * line.indent) ' ') := by
    apply String.toList_injective
    rw [toList_join_levelIndent, String.toList_ofList]
  rw [Line.render, hindentation]
  simp only [String.isEmpty_iff]

/-! ## Writing -/

namespace Fragment

/-- What the writing of a fragment comes to when it starts at a level. -/
structure WritesNested (fragment : Fragment) (level : Nat) : Prop where
  /-- Lines are sent one by one. The first one that is refused is the answer, and if none is, the
  level is again what it was. -/
  answered : ∀ (m : Type → Type) [Monad m] [LawfulMonad m] [Sink m],
    EmitterT.answerFrom level (fragment.exec >>= fun _ => EmitterT.level)
      = (do
          match ← (Sink.performAll ((fragment.emit level).lines.map .writeLine) : m _) with
          | .ok _ => pure (.ok level)
          | .error e => pure (.error (.sink e)))
  /-- Behind a line that is refused no other line is sent. -/
  refused : ∀ before line after, (fragment.emit level).lines = before ++ line :: after →
    ∀ (state : FaultState) (name : String) (written : Array String) (units : List SourceUnit),
      state.calls + before.length + 1 = state.failAt →
        state.run ⟨⟨some ⟨name, written⟩⟩, units⟩ (EmitterT.answerFrom level fragment.exec)
          = ((.error (.sink state.error), (state.passed (before.map .writeLine)).refused),
              ⟨⟨some ⟨name, written ++ (before.map Line.render).toArray⟩⟩, units⟩)
  /-- A block has its header and its brace at the level where it was opened, and everything in
  between that is not blank stands deeper. -/
  blocks : ∀ header body opened, Opens header body opened fragment level →
    ∃ front inside rest, (fragment.emit level).lines
        = front ++ ⟨opened, header ++ " \x7b"⟩ :: inside ++ ⟨opened, "\x7d"⟩ :: rest
      ∧ inside = (body.emit (opened + 1)).lines ∧ level ≤ opened
      ∧ ∀ line ∈ inside, line.text ≠ "" → opened < line.indent
  /-- Lines are stored behind four spaces for every level, and blank ones without spaces. -/
  stored : ∀ line ∈ (fragment.emit level).lines,
    line.render = if line.text = "" then ""
      else String.ofList (List.replicate (4 * line.indent) ' ') ++ line.text

/-- **Balanced fragments are written nested.** -/
theorem Balanced.writesNested {fragment : Fragment} (h : fragment.Balanced) (level : Nat) :
    fragment.WritesNested level := by
  obtain ⟨lines, hemit, -⟩ := h.exists_emit level
  rw [Nat.add_zero] at hemit
  refine ⟨fun m _ _ _ => ?_, fun before line after hlines state name written units hchosen => ?_,
    fun header body opened hopens => ?_, fun line _ => line.render_eq⟩
  · rw [answerFrom_exec_bind, hemit, Emission.sendThen]
    refine bind_congr fun answer => ?_
    cases answer with
    | ok _ => exact EmitterT.answerFrom_level (m := m) level
    | error e => rfl
  · rw [answerFrom_exec, write, FaultState.run_bind, hlines,
      FaultState.run_performAll_of_chosen hchosen]
    rfl
  · obtain ⟨hbody, hopened, front, rest, hlines⟩ := hopens.exists_lines (Nat.add_zero level).symm h
    obtain ⟨inside, hinside, hdeeper⟩ := hbody.exists_emit (opened + 1)
    rw [Nat.add_zero] at hinside
    rw [emit_block_of_eq header hinside] at hlines
    refine ⟨front, inside, rest, ?_, by rw [hinside], hopened, hdeeper⟩
    rw [hlines]
    simp

end Fragment

end ModelForge
