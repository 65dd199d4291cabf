/-
`Fragments.lean` -- what a fragment yields, read off the fragment.

Emitting a fragment threads a level and stops at the first error. Two questions do not need that.
Whether a fragment gives up, and with what, does not depend on the level (`Fragment.fault?`). And
a property of all texts in a fragment is a property of all lines that it yields, wherever it stops
(`Fragment.text_of_mem_emit`).
-/
import ModelForge.Output.Fragment

set_option autoImplicit false

namespace ModelForge

/-! ## Where fragments give up -/

/-- The error of a fragment: the first one that it gives up with, at whatever level it starts. -/
def Fragment.fault? : Fragment → Option GenerationError
  | nothing => none
  | line _ => none
  | lineAt .. => none
  | indent => none
  | dedent => none
  | append first second => first.fault?.or second.fault?
  | block _ body => body.fault?
  | abort error => some error

/-- The first fault of two emissions is the one that ends them. -/
theorem Emission.error?_andThen (emission : Emission) (next : Nat → Emission) :
    (emission.andThen next).error? = emission.error?.or (next emission.level).error? := by
  rw [Emission.andThen]
  cases h : emission.error? with
  | none => rw [Option.none_or]
  | some e => rw [Option.some_or, h]

/-- What goes wrong with an emission is the fault of the fragment, at any level. -/
theorem Fragment.error?_emit (fragment : Fragment) (level : Nat) :
    (fragment.emit level).error? = fragment.fault? := by
  induction fragment generalizing level with
  | append first second ih₁ ih₂ =>
      rw [Fragment.emit, Emission.error?_andThen, ih₁, ih₂, Fragment.fault?]
  | block header body ih =>
      rw [Fragment.emit, Emission.error?_andThen, Emission.error?_andThen, ih, Option.none_or,
        Option.or_none, Fragment.fault?]
  | nothing | line | lineAt | indent | dedent | abort => rfl

theorem Fragment.fault?_append (first second : Fragment) :
    (first ++ second).fault? = first.fault?.or second.fault? := rfl

/-- The fault of fragments in a row is the first one. -/
theorem Fragment.fault?_all (fragments : List Fragment) :
    (Fragment.all fragments).fault? = fragments.findSome? Fragment.fault? := by
  induction fragments with
  | nil => rfl
  | cons fragment rest ih =>
      rw [Fragment.all, List.foldr_cons, Fragment.fault?, ← Fragment.all, ih, List.findSome?_cons]
      cases fragment.fault? <;> rfl

/-- Fragments of one form give up nowhere if the form never does. -/
theorem Fragment.fault?_all_map {α : Type} {form : α → Fragment} {items : List α}
    (h : ∀ item ∈ items, (form item).fault? = none) :
    (Fragment.all (items.map form)).fault? = none := by
  rw [Fragment.fault?_all, List.findSome?_map, List.findSome?_eq_none_iff]
  exact h

/-- Lines are without a fault. -/
theorem Fragment.fault?_lines (texts : List String) : (Fragment.lines texts).fault? = none := by
  apply Fragment.fault?_all_map
  intro text _
  rfl

/-! ## What fragments write -/

/-- Every text that a fragment can write has the property. -/
def Fragment.Writes (p : String → Prop) : Fragment → Prop
  | nothing => True
  | line text => p text
  | lineAt _ text => p text
  | indent => True
  | dedent => True
  | append first second => first.Writes p ∧ second.Writes p
  | block header body => p (header ++ " \x7b") ∧ body.Writes p ∧ p "\x7d"
  | abort _ => True

/-- A line of two emissions comes from one of them. -/
theorem Emission.mem_lines_andThen {emission : Emission} {next : Nat → Emission} {line : Line}
    (h : line ∈ (emission.andThen next).lines) :
    line ∈ emission.lines ∨ line ∈ (next emission.level).lines := by
  rw [Emission.andThen] at h
  cases herror : emission.error? with
  | some e =>
      rw [herror] at h
      exact .inl h
  | none =>
      rw [herror] at h
      exact List.mem_append.1 h

/-- The lines of a fragment have the texts that are in it. -/
theorem Fragment.text_of_mem_emit {p : String → Prop} {fragment : Fragment}
    (h : fragment.Writes p) {level : Nat} {line : Line}
    (hline : line ∈ (fragment.emit level).lines) :
    p line.text := by
  induction fragment generalizing level with
  | line text =>
      rw [List.mem_singleton.1 hline]
      exact h
  | lineAt other text =>
      rw [List.mem_singleton.1 hline]
      exact h
  | append first second ih₁ ih₂ =>
      rcases Emission.mem_lines_andThen hline with hfirst | hsecond
      · exact ih₁ h.1 hfirst
      · exact ih₂ h.2 hsecond
  | block header body ih =>
      -- the header, the body, the closing brace
      rcases Emission.mem_lines_andThen hline with hopen | hclose
      · rcases Emission.mem_lines_andThen hopen with hheader | hbody
        · rw [List.mem_singleton.1 hheader]
          exact h.1
        · exact ih h.2.1 hbody
      · rw [List.mem_singleton.1 hclose]
        exact h.2.2
  | nothing | indent | dedent | abort => exact absurd hline List.not_mem_nil

theorem Fragment.writes_append {p : String → Prop} {first second : Fragment} :
    (first ++ second).Writes p ↔ first.Writes p ∧ second.Writes p := Iff.rfl

/-- Fragments in a row write such lines if each of them does. -/
theorem Fragment.writes_all {p : String → Prop} {fragments : List Fragment} :
    (Fragment.all fragments).Writes p ↔ ∀ fragment ∈ fragments, fragment.Writes p := by
  induction fragments with
  | nil => exact iff_of_true trivial fun _ h => absurd h List.not_mem_nil
  | cons fragment rest ih =>
      rw [Fragment.all, List.foldr_cons, Fragment.Writes, ← Fragment.all, ih, List.forall_mem_cons]

/-- The same for fragments of one form. -/
theorem Fragment.writes_all_map {α : Type} {p : String → Prop} {form : α → Fragment}
    {items : List α} :
    (Fragment.all (items.map form)).Writes p ↔ ∀ item ∈ items, (form item).Writes p := by
  rw [Fragment.writes_all, List.forall_mem_map]

theorem Fragment.writes_lines {p : String → Prop} {texts : List String} :
    (Fragment.lines texts).Writes p ↔ ∀ text ∈ texts, p text := by
  rw [Fragment.lines, Fragment.writes_all_map]
  exact Iff.rfl

/-! ## Explicit lines -/

/-- Behind lines without an error the next fragment goes on. -/
theorem Emission.andThen_of_none (lines : List Line) (level : Nat) (next : Nat → Emission) :
    (⟨lines, level, none⟩ : Emission).andThen next
      = ⟨lines ++ (next level).lines, (next level).level, (next level).error?⟩ := rfl

theorem Fragment.emit_append (first second : Fragment) (level : Nat) :
    (first ++ second).emit level = (first.emit level).andThen second.emit := rfl

/-- Two fragments without an error yield their lines one after the other. -/
theorem Fragment.emit_append_of_eq {first second : Fragment} {level level' level'' : Nat}
    {lines lines' : List Line} (hfirst : first.emit level = ⟨lines, level', none⟩)
    (hsecond : second.emit level' = ⟨lines', level'', none⟩) :
    (first ++ second).emit level = ⟨lines ++ lines', level'', none⟩ := by
  rw [Fragment.emit_append, hfirst, Emission.andThen_of_none, hsecond]

/-- Fragments of one form that keep the level yield their lines one after the other. -/
theorem Fragment.emit_all_map {α : Type} {form : α → Fragment} {linesOf : α → List Line}
    {level : Nat} {items : List α}
    (h : ∀ item ∈ items, (form item).emit level = ⟨linesOf item, level, none⟩) :
    (Fragment.all (items.map form)).emit level = ⟨items.flatMap linesOf, level, none⟩ := by
  induction items with
  | nil => rfl
  | cons item rest ih =>
      rw [List.forall_mem_cons] at h
      rw [List.map_cons, Fragment.all, List.foldr_cons, ← Fragment.all, List.flatMap_cons]
      exact Fragment.emit_append_of_eq h.1 (ih h.2)

/-- A block whose body keeps the level keeps it too. -/
theorem Fragment.emit_block_of_eq (header : String) {body : Fragment} {level : Nat}
    {lines : List Line} (h : body.emit (level + 1) = ⟨lines, level + 1, none⟩) :
    (Fragment.block header body).emit level
      = ⟨⟨level, header ++ " \x7b"⟩ :: (lines ++ [⟨level, "\x7d"⟩]), level, none⟩ := by
  rw [Fragment.emit, Emission.andThen_of_none, h, Emission.andThen_of_none]
  rfl

/-- Lines at the current level leave the level as it is. -/
theorem Fragment.emit_lines (texts : List String) (level : Nat) :
    (Fragment.lines texts).emit level = ⟨texts.map fun text => ⟨level, text⟩, level, none⟩ := by
  rw [Fragment.lines, List.map_eq_flatMap (f := fun text => (⟨level, text⟩ : Line))]
  apply Fragment.emit_all_map
  intro text _
  rfl

end ModelForge
