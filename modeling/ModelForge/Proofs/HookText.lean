/-
`HookText.lean` -- the text of the unit with the hooks.

The hooks are a fixed text with a mark for the format of date-times. They are written like any
other unit: the text is cut at its line feeds, the spaces in front of a line become its level, and
when the unit is stored each level becomes four spaces again. Nothing is lost or added on the way,
whatever the format is: the fixed lines stand at whole levels, and the literal for the format
neither begins a line nor ends one (`exists_lines_hookUnit_eq`). So the stored text is the
template with its one mark replaced.
-/
import Mathlib.Data.List.Chain
import Mathlib.Data.List.TakeWhile
import ModelForge.Proofs.FileRuns
import ModelForge.Proofs.FixedUnits
import ModelForge.Proofs.Outcome

set_option autoImplicit false

namespace ModelForge

/-! ## Levels -/

/-- A line at a whole level is stored as it was. -/
theorem render_ofSpaced {line : List Char} (h : WholeLevels line) :
    (Line.ofSpaced line).render = String.ofList line := by
  obtain ⟨hlevels, hblank⟩ := h
  by_cases htext : line.dropWhile (· = ' ') = []
  · rw [hblank htext]
    rfl
  · have hspaces : line.takeWhile (· = ' ')
        = List.replicate (line.takeWhile (· = ' ')).length ' ' :=
      List.eq_replicate_iff.2 ⟨rfl, fun c hc => of_decide_eq_true
        (List.mem_takeWhile_imp (p := fun c => decide (c = ' ')) hc)⟩
    have hfull : ¬ (String.ofList (line.dropWhile (· = ' '))).isEmpty = true := by
      rwa [String.isEmpty_iff, String.ofList_eq_empty_iff]
    unfold Line.ofSpaced Line.render
    dsimp only
    rw [if_neg hfull, ← String.toList_inj, String.toList_append, toList_join_levelIndent,
      Nat.mul_div_cancel' hlevels, ← hspaces, String.toList_ofList, String.toList_ofList,
      List.takeWhile_append_dropWhile]

theorem wholeLevels_formatLine (format : String) : WholeLevels (formatLine format).toList := by
  obtain ⟨tail, htail⟩ := List.head?_eq_some_iff.1 (head_formatLine format)
  rw [htail, WholeLevels, List.takeWhile_cons_of_neg (by decide),
    List.dropWhile_cons_of_neg (by decide)]
  exact ⟨Nat.dvd_zero 4, id⟩

/-! ## The unit -/

/-- The unit with the hooks once it is sealed. -/
def hookUnit (options : Options) : SourceUnit := (dateTimePlan options).sealed

theorem lines_hookUnit (options : Options) : (hookUnit options).lines = dateTimeTexts options := by
  rw [hookUnit, sealed_dateTimePlan]

/-- The lines of the unit are the fixed ones and the one with the format, and its text is that of
the hooks. -/
theorem exists_lines_hookUnit_eq : ∃ front back : List String, front.length = 3
    ∧ (∀ line ∈ front ++ back, HookLine line.toList)
    ∧ ∀ options, (hookUnit options).lines = front ++ formatLine options.dateTimeFormat :: back
        ∧ (hookUnit options).text = dateTimeSource options.dateTimeFormat := by
  obtain ⟨front, back, hlength, hfixed, hsource⟩ := exists_dateTimeSource_eq
  refine ⟨front, back, hlength, hfixed, fun options => ?_⟩
  have hlines : (hookUnit options).lines = front ++ formatLine options.dateTimeFormat :: back := by
    have hlevels : ∀ line ∈ front ++ formatLine options.dateTimeFormat :: back,
        WholeLevels line.toList :=
      forall_mem_of_hookLine hfixed (fun line hline => hline.2.1) (wholeLevels_formatLine _)
    rw [lines_hookUnit, dateTimeTexts, hsource,
      splitLines_textOfLines_formatLine hfixed, List.map_map]
    refine (List.map_congr_left fun line hline => ?_).trans (List.map_id _)
    rw [Function.comp_apply, render_ofSpaced (hlevels line hline), String.ofList_toList, id]
  refine ⟨hlines, ?_⟩
  rw [text_eq_textOfLines (by rw [hlines]; simp), hlines, hsource]

/-! ## The mark -/

/-- What stands in the template for the literal. -/
def formatMark : String := "\x7bformat\x7d"

/-- The hooks with the mark in the place of the format. -/
def dateTimeTemplate : String := dateTimeHead ++ formatMark ++ dateTimeTail

/-- The one text is the other with a mark replaced, which stands there once. -/
def ReplacedOnce (mark replacement before after : String) : Prop :=
  ∃ front back, before = front ++ mark ++ back ∧ after = front ++ replacement ++ back
    ∧ ∀ front' back', before = front' ++ mark ++ back' → front' = front ∧ back' = back

/-- Where two neighbours are at odds, and no others are, is the only place for them. -/
theorem eq_of_isChain_append {α : Type} {R : α → α → Prop} {x y : α}
    {front back front' back' : List α} (hodds : ¬ R x y) (hfront : (front ++ [x]).IsChain R)
    (hback : (y :: back).IsChain R) (h : front' ++ x :: y :: back' = front ++ x :: y :: back) :
    front' = front := by
  rcases List.append_eq_append_iff.1 h with ⟨between, rfl, hrest⟩ | ⟨between, rfl, hrest⟩
  · -- they would stand further to the left
    cases between with
    | nil => rw [List.append_nil]
    | cons c between =>
        rw [List.cons_append, List.cons.injEq] at hrest
        obtain ⟨rfl, hrest⟩ := hrest
        rw [List.append_assoc, List.cons_append] at hfront
        obtain ⟨z, rest, hnext⟩ : ∃ z rest, between ++ [x] = z :: rest :=
          List.exists_cons_of_ne_nil (by simp)
        have hy : y = z := by
          rw [List.append_cons, hnext, List.cons_append, List.cons.injEq] at hrest
          exact hrest.1
        rw [hnext, ← hy] at hfront
        exact absurd (List.isChain_append_cons_cons.1 hfront).2.1 hodds
  · -- they would stand further to the right
    cases between with
    | nil => rw [List.append_nil]
    | cons c between =>
        rw [List.cons_append, List.cons.injEq] at hrest
        rw [hrest.2] at hback
        exact absurd (List.isChain_append_cons_cons.1 hback).2.1 hodds

/-- Lines without the mark are a text without the mark. -/
theorem unmarked_textOfLines {lines : List String} (h : ∀ line ∈ lines, Unmarked line.toList)
    {rest : List Char} (hrest : Unmarked rest) : Unmarked ((textOfLines lines).toList ++ rest) := by
  induction lines with
  | nil => exact hrest
  | cons line lines ih =>
      rw [List.forall_mem_cons] at h
      have htext : (textOfLines (line :: lines)).toList ++ rest
          = line.toList ++ '\n' :: ((textOfLines lines).toList ++ rest) := by
        rw [textOfLines_cons, String.toList_append, String.toList_append, List.append_assoc,
          List.append_assoc]
        rfl
      rw [htext]
      -- a line feed is neither the one neighbour nor the other
      refine h.1.append ((ih h.2).cons fun d _ hd => absurd hd.1 (by decide)) ?_
      rintro c - d hd ⟨-, rfl⟩
      exact absurd (Option.some.inj hd) (by decide)

/-- The mark is in the template once. -/
theorem replacedOnce_dateTimeTemplate (format : String) :
    ReplacedOnce formatMark (quoted format) dateTimeTemplate (dateTimeSource format) := by
  refine ⟨dateTimeHead, dateTimeTail, rfl, rfl, fun front' back' h => ?_⟩
  obtain ⟨front, -, hhead, hfront⟩ := exists_dateTimeHead_eq
  obtain ⟨back, htail, hback⟩ := exists_dateTimeTail_eq
  have hodds : ¬ ¬ ('\x7b' = '\x7b' ∧ 'f' = 'f') := not_not_intro ⟨rfl, rfl⟩
  have hleft : Unmarked (dateTimeHead.toList ++ ['\x7b']) := by
    rw [hhead, String.toList_append, List.append_assoc]
    exact unmarked_textOfLines (fun line hline => (hfront line hline).2.2) (by decide +kernel)
  have hright : Unmarked ('f' :: ("ormat\x7d".toList ++ dateTimeTail.toList)) := by
    have hline : Unmarked "format\x7d;".toList := by decide +kernel
    have hlines : ∀ line ∈ "format\x7d;" :: back, Unmarked line.toList :=
      List.forall_mem_cons.2 ⟨hline, fun line hline => (hback line hline).2.2⟩
    have hunmarked := unmarked_textOfLines hlines List.isChain_nil
    rw [textOfLines_cons] at htail hunmarked
    rw [htail]
    simpa using hunmarked
  have hchars := congrArg String.toList h
  rw [dateTimeTemplate, String.toList_append, String.toList_append, String.toList_append,
    String.toList_append, List.append_assoc, List.append_assoc] at hchars
  have hplace : front' = dateTimeHead :=
    String.toList_inj.1 (eq_of_isChain_append hodds hleft hright hchars.symm)
  rw [hplace, dateTimeTemplate, String.append_right_inj] at h
  exact ⟨hplace, h.symm⟩

/-! ## The unit as it is stored -/

/-- The line with the format, counted from nought. -/
def formatPlace : Nat := 3

/-- What the unit with the hooks is, for given options. -/
structure HoldsTemplate (options : Options) : Prop where
  /-- On a closed sink in memory one unit is sealed. -/
  sealed : ∀ units, MemorySink.run ⟨.empty, units⟩
      ((dateTimePlan options).content.writeUnit (dateTimePlan options).name)
    = (.ok (), ⟨.empty, units ++ [hookUnit options]⟩)
  /-- On a closed sink on a directory its file is all that is written. -/
  stored :
    ∀ {σ : Type} [FileSystem (StateM σ)] (directory : String) (written : List String) (state : σ),
    FileSink.run ⟨directory, .empty, written⟩ state
        ((dateTimePlan options).content.writeUnit (dateTimePlan options).name)
      = FileSink.afterStoring directory written state (hookUnit options)
  name : (hookUnit options).name = "utils.rs"
  /-- The text is the template, with the literal for the format in the one place of the mark. -/
  text : ReplacedOnce formatMark (quoted options.dateTimeFormat) dateTimeTemplate
    (hookUnit options).text
  /-- No line of the text is broken up or joined with another. -/
  lines : splitLines (hookUnit options).text.toList = (hookUnit options).lines.map String.toList
  format : (hookUnit options).lines[formatPlace]? = some (formatLine options.dateTimeFormat)
  /-- With any other format there are as many lines. -/
  length : ∀ other, (hookUnit other).lines.length = (hookUnit options).lines.length
  /-- They are the same lines but for that of the format. -/
  others : ∀ other place, place ≠ formatPlace →
    (hookUnit other).lines[place]? = (hookUnit options).lines[place]?

/-- **The unit with the hooks is the template, for every format.** On a closed sink one unit is
sealed. Its text is the template with the mark replaced, once, by the literal for the format; two
formats give units with the same lines, but for the one that holds the format. -/
theorem hooks_hold_template (options : Options) : HoldsTemplate options := by
  obtain ⟨front, back, hlength, hfixed, hunit⟩ := exists_lines_hookUnit_eq
  have hlines (options : Options) := (hunit options).1
  have htext := (hunit options).2
  exact {
    sealed := fun units => by
      rw [MemorySink.run_writeUnit, fault?_dateTimePlan]
      rfl
    stored := fun directory written state => by
      rw [FileSink.run_writeUnit, fault?_dateTimePlan]
      rfl
    name := rfl
    text := by
      rw [htext]
      exact replacedOnce_dateTimeTemplate options.dateTimeFormat
    lines := by
      have hunbroken : ∀ line ∈ front ++ formatLine options.dateTimeFormat :: back, Unbroken line :=
        forall_mem_of_hookLine hfixed (fun line hline => hline.1.1) (unbroken_formatLine _)
      refine splitLines_text (by rw [hlines]; simp) ?_
      rw [hlines]
      exact hunbroken
    format := by
      rw [hlines, formatPlace, ← hlength, List.getElem?_append_right (Nat.le_refl _), Nat.sub_self]
      rfl
    length := fun other => by
      rw [hlines, hlines, List.length_append, List.length_append,
        List.length_cons, List.length_cons]
    others := fun other place hplace => by
      rw [hlines, hlines]
      rw [formatPlace, ← hlength] at hplace
      rcases Nat.lt_or_gt_of_ne hplace with hbefore | hbehind
      · rw [List.getElem?_append_left hbefore, List.getElem?_append_left hbefore]
      · obtain ⟨beyond, rfl⟩ := Nat.exists_eq_add_of_lt hbehind
        have hbeyond : front.length + beyond + 1 - front.length = beyond + 1 := by omega
        rw [List.getElem?_append_right hbehind.le, List.getElem?_append_right hbehind.le, hbeyond,
          List.getElem?_cons_succ, List.getElem?_cons_succ] }

end ModelForge
