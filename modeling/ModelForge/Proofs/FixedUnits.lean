/-
`FixedUnits.lean` -- the lines of the two units that no namespace has.

The manifest has a line for each module. The unit of the date-time hooks is the same for every
graph: its text is that of some fixed lines and of one line with the format among them
(`exists_dateTimeSource_eq`). A fixed line stays on its line, and where it begins like an item it
is a function (`FunctionsOnly`).
-/
import ModelForge.Proofs.Imports
import ModelForge.Proofs.LineBreaks
import ModelForge.Proofs.MemoryRun
import ModelForge.Proofs.Reading

set_option autoImplicit false

namespace ModelForge

/-! ## The manifest -/

/-- The lines of the manifest. -/
def manifestTexts (g : Graph) : List String :=
  (g.namespaces.map fun ns => manifestLine (moduleName ns.name)) ++ [manifestLine utilityModule]

/-- The manifest is sealed with its lines. -/
theorem sealed_manifestPlan (g : Graph) :
    (manifestPlan g).sealed = ⟨manifestUnit, manifestTexts g⟩ := by
  rw [UnitPlan.sealed, manifestPlan, Fragment.rendered, Fragment.emit_lines, map_render_zero,
    manifestTexts]

/-! ## The date-time hooks -/

/-- What is declared for others behind the spaces of a line is a function. -/
def FunctionsOnly (line : List Char) : Prop :=
  ∀ rest ∈ behind? "pub " (line.dropWhile (· = ' ')), rest.head? = some 'f'

instance : DecidablePred FunctionsOnly := fun line =>
  inferInstanceAs (Decidable (∀ rest ∈ behind? "pub " (line.dropWhile (· = ' ')), _))

/-- A fixed line of the hooks. -/
def FixedLine (line : List Char) : Prop := (∀ c ∈ line, c ≠ '\n' ∧ c ≠ '\r') ∧ FunctionsOnly line

instance : DecidablePred FixedLine := fun line =>
  @instDecidableAnd _ _ (List.decidableBAll (fun c => c ≠ '\n' ∧ c ≠ '\r') line) inferInstance

/-- The leading spaces are whole levels, and there are none without a text behind them. -/
def WholeLevels (line : List Char) : Prop :=
  4 ∣ (line.takeWhile (· = ' ')).length ∧ (line.dropWhile (· = ' ') = [] → line = [])

instance : DecidablePred WholeLevels := fun line =>
  inferInstanceAs (Decidable (_ ∧ (line.dropWhile (· = ' ') = [] → line = [])))

/-- Nowhere does an `f` follow an opening brace. -/
def Unmarked (line : List Char) : Prop := line.IsChain fun c d => ¬ (c = '\x7b' ∧ d = 'f')

instance : DecidablePred Unmarked := fun line => inferInstanceAs (Decidable (List.IsChain _ line))

/-- What is known of each fixed line. -/
def HookLine (line : List Char) : Prop := FixedLine line ∧ WholeLevels line ∧ Unmarked line

instance : DecidablePred HookLine := fun line =>
  inferInstanceAs (Decidable (FixedLine line ∧ WholeLevels line ∧ Unmarked line))

/-- Of a literal only the characters count, and these need no decoding. -/
theorem hookLine_of_eq {text : String} {chars : List Char} (htext : text = String.ofList chars)
    (h : HookLine chars) : HookLine text.toList := by
  rwa [htext, String.toList_ofList]

/-- The line with the format. -/
def formatLine (format : String) : String :=
  "const DATETIME_FORMAT: &str = " ++ quoted format ++ ";"

theorem head_formatLine (format : String) : (formatLine format).toList.head? = some 'c' := by
  unfold formatLine
  simp [String.toList_append]

theorem textOfLines_cons (line : String) (lines : List String) :
    textOfLines (line :: lines) = line ++ "\n" ++ textOfLines lines := by
  rw [textOfLines, List.map_cons, String.join_cons, textOfLines]

theorem textOfLines_append (lines lines' : List String) :
    textOfLines (lines ++ lines') = textOfLines lines ++ textOfLines lines' := by
  rw [textOfLines, List.map_append, String.join_append, textOfLines, textOfLines]

/-- The line with the format is a single one, since literals have no breaks. -/
theorem unbroken_formatLine (format : String) : Unbroken (formatLine format) :=
  unbroken_append.2 ⟨unbroken_append.2 ⟨by decide, unbroken_quoted format⟩, by decide⟩

/-- Three lines are in front of the one with the format. -/
theorem exists_dateTimeHead_eq : ∃ front : List String, front.length = 3
    ∧ dateTimeHead = textOfLines front ++ "const DATETIME_FORMAT: &str = "
    ∧ ∀ line ∈ front, HookLine line.toList := by
  refine ⟨_, ?_, rfl, ?_⟩
  · rfl
  repeat refine List.forall_mem_cons.2 ⟨hookLine_of_eq rfl (by decide +kernel), ?_⟩
  exact List.forall_mem_nil _

/-- What follows the format is the rest of its line and then whole lines. -/
theorem exists_dateTimeTail_eq : ∃ back : List String,
    dateTimeTail = textOfLines (";" :: back) ∧ ∀ line ∈ back, HookLine line.toList := by
  refine ⟨_, rfl, ?_⟩
  repeat refine List.forall_mem_cons.2 ⟨hookLine_of_eq rfl (by decide +kernel), ?_⟩
  exact List.forall_mem_nil _

/-- The lines in front of the format and the lines behind it are always the same. -/
theorem exists_dateTimeSource_eq : ∃ front back : List String,
    front.length = 3
      ∧ (∀ line ∈ front ++ back, HookLine line.toList)
      ∧ ∀ format, dateTimeSource format = textOfLines (front ++ formatLine format :: back) := by
  obtain ⟨front, hlength, hhead, hfront⟩ := exists_dateTimeHead_eq
  obtain ⟨back, htail, hback⟩ := exists_dateTimeTail_eq
  refine ⟨front, back, hlength, List.forall_mem_append.2 ⟨hfront, hback⟩, fun format => ?_⟩
  -- the format stands between the end of the one text and the first line of the other
  have hfirst : textOfLines (";" :: back) = ";" ++ "\n" ++ textOfLines back := textOfLines_cons ..
  have hformat : textOfLines (formatLine format :: back)
      = formatLine format ++ "\n" ++ textOfLines back := textOfLines_cons ..
  rw [hfirst] at htail
  rw [textOfLines_append, hformat, dateTimeSource, hhead, htail]
  unfold formatLine
  simp only [String.append_assoc]

/-- The stored lines of the hooks. They are never computed: what they are follows from
`exists_splitLines_dateTimeSource`. -/
@[irreducible]
def dateTimeTexts (options : Options) : List String :=
  (splitLines (dateTimeSource options.dateTimeFormat).toList).map fun text =>
    (Line.ofSpaced text).render

/-- Each piece of the text becomes a line of its own. -/
theorem emit_dateTimeFragment (format : String) :
    (dateTimeFragment format).emit 0
      = ⟨(splitLines (dateTimeSource format).toList).map Line.ofSpaced, 0, none⟩ := by
  rw [dateTimeFragment]
  -- what the lines are plays no part, and the text they are cut from is long
  generalize splitLines (dateTimeSource format).toList = lines
  rw [List.map_eq_flatMap (f := Line.ofSpaced)]
  apply Fragment.emit_all_map
  intro text _
  rfl

/-- The hooks are sealed with their lines. -/
theorem sealed_dateTimePlan (options : Options) :
    (dateTimePlan options).sealed = ⟨unitName utilityModule, dateTimeTexts options⟩ := by
  rw [UnitPlan.sealed, dateTimePlan, Fragment.rendered, emit_dateTimeFragment, List.map_map,
    dateTimeTexts]
  rfl

/-- What is true of fixed lines and of the one with the format is true of all. -/
theorem forall_mem_of_hookLine {front back : List String} {p : String → Prop} {format : String}
    (hfixed : ∀ line ∈ front ++ back, HookLine line.toList)
    (h : ∀ line, HookLine line.toList → p line) (hformat : p (formatLine format)) :
    ∀ line ∈ front ++ formatLine format :: back, p line := by
  rw [List.forall_mem_append] at hfixed
  rw [List.forall_mem_append, List.forall_mem_cons]
  exact ⟨fun line hline => h line (hfixed.1 line hline), hformat,
    fun line hline => h line (hfixed.2 line hline)⟩

/-- Lines that are fixed, and one with the format among them, are cut where they end. -/
theorem splitLines_textOfLines_formatLine {front back : List String}
    (hfixed : ∀ line ∈ front ++ back, HookLine line.toList) (format : String) :
    splitLines (textOfLines (front ++ formatLine format :: back)).toList
      = (front ++ formatLine format :: back).map String.toList := by
  have hfeeds : ∀ line ∈ front ++ formatLine format :: back, '\n' ∉ line.toList :=
    forall_mem_of_hookLine hfixed (fun line hline hfeed => (hline.1.1 '\n' hfeed).1 rfl)
      fun hfeed => (unbroken_formatLine format '\n' hfeed).1 rfl
  have hsplit := splitLines_textOfLines hfeeds []
  rwa [List.append_nil, splitLines, List.append_nil] at hsplit

/-- The lines of the hooks are fixed, but for the one with the format. -/
theorem exists_splitLines_dateTimeSource (format : String) : ∃ front back : List String,
    (∀ line ∈ front ++ back, FixedLine line.toList)
      ∧ splitLines (dateTimeSource format).toList
        = (front ++ formatLine format :: back).map String.toList := by
  obtain ⟨front, back, -, hfixed, hsource⟩ := exists_dateTimeSource_eq
  refine ⟨front, back, fun line hline => (hfixed line hline).1, ?_⟩
  rw [hsource, splitLines_textOfLines_formatLine hfixed]

theorem dateTimeTexts_ne_nil (options : Options) : dateTimeTexts options ≠ [] := by
  obtain ⟨front, back, -, hsplit⟩ := exists_splitLines_dateTimeSource options.dateTimeFormat
  rw [dateTimeTexts, hsplit, Ne, List.map_eq_nil_iff, List.map_eq_nil_iff]
  exact List.append_ne_nil_of_right_ne_nil _ (List.cons_ne_nil _ _)

/-- A line of the hooks is fixed or has the format. -/
theorem mem_splitLines_dateTimeSource {format : String} {line : List Char}
    (h : line ∈ splitLines (dateTimeSource format).toList) :
    FixedLine line ∨ line = (formatLine format).toList := by
  obtain ⟨front, back, hfixed, hsplit⟩ := exists_splitLines_dateTimeSource format
  rw [List.forall_mem_append] at hfixed
  rw [hsplit] at h
  obtain ⟨text, htext, rfl⟩ := List.mem_map.1 h
  rcases List.mem_append.1 htext with hfront | htext
  · exact .inl (hfixed.1 text hfront)
  · rcases List.mem_cons.1 htext with rfl | hback
    · exact .inr rfl
    · exact .inl (hfixed.2 text hback)

end ModelForge
