/-
`FieldLines.lean` -- the lines that declare the fields of a record in a sealed unit.

A unit is taken as it was stored. The record of a class reaches from its header to the next line
that is a closing brace and nothing else. What in between begins like a field are its fields, in
order: the discriminator, and then one for each member of the class (`DeclaresFields`).
Documentation and attributes begin otherwise, so it does not matter what they say.
-/
import ModelForge.Proofs.WireShape

set_option autoImplicit false

namespace ModelForge

/-! ## Lines that begin like a field -/

/-- Whether a stored line begins like a field of a record. -/
def declaresField (text : String) : Bool := (behind? "    pub " text.toList).isSome

/-- The line of a field as it is stored. -/
def fieldText (name typeText : String) : String := "    pub " ++ name ++ ": " ++ typeText ++ ","

/-- Some stored lines hold a record of the given name, and these are the lines of its fields. -/
def DeclaresFields (name : String) (fields lines : List String) : Prop :=
  ∃ before inside after,
    lines = before ++ ("pub struct " ++ name ++ " \x7b") :: (inside ++ "\x7d" :: after)
      ∧ "\x7d" ∉ inside ∧ inside.filter declaresField = fields

/-- More lines in front of a record and behind it do not change it. -/
theorem DeclaresFields.surround {name : String} {fields lines : List String}
    (h : DeclaresFields name fields lines) (front back : List String) :
    DeclaresFields name fields (front ++ lines ++ back) := by
  obtain ⟨before, inside, after, rfl, hbrace, hfields⟩ := h
  refine ⟨front ++ before, inside, after ++ back, ?_, hbrace, hfields⟩
  simp only [List.append_assoc, List.cons_append]

/-- A line with a text is stored behind four spaces for each of its levels. -/
theorem Line.toList_render {line : Line} (h : line.text ≠ "") :
    line.render.toList = List.replicate (4 * line.indent) ' ' ++ line.text.toList := by
  rw [Line.render, if_neg (mt String.isEmpty_iff.1 h), String.toList_append,
    toList_join_levelIndent]

/-- One level more puts four spaces in front of a line with a text. -/
theorem Line.toList_render_succ (level : Nat) {text : String} (h : text ≠ "") :
    (Line.render ⟨level + 1, text⟩).toList
      = [' ', ' ', ' ', ' '] ++ (Line.render ⟨level, text⟩).toList := by
  rw [Line.toList_render h, Line.toList_render h, Nat.mul_succ, Nat.add_comm, List.replicate_add,
    List.append_assoc]
  rfl

/-- Of the lines within a block, only one that stands at the first level and begins with the
keyword begins like a field. -/
theorem declaresField_render_of_head {level : Nat} {text : String}
    (hhead : level = 0 → text.toList.head? ≠ some 'p') :
    declaresField (Line.render ⟨level + 1, text⟩) = false := by
  by_cases htext : text = ""
  · rw [Line.render, htext]
    rfl
  · cases hbehind : behind? "    pub " (Line.render ⟨level + 1, text⟩).toList with
    | none => rw [declaresField, hbehind, Option.isSome_none]
    | some rest =>
        rw [behind?, List.isPrefixOf?_eq_some_iff_append_eq, Line.toList_render_succ level htext]
          at hbehind
        have hkeyword : [' ', ' ', ' ', ' '] ++ (['p', 'u', 'b', ' '] ++ rest)
            = [' ', ' ', ' ', ' '] ++ (Line.render ⟨level, text⟩).toList := hbehind
        -- behind the spaces of the first level comes the letter of the keyword
        have hletter := congrArg List.head? (List.append_cancel_left hkeyword)
        cases level with
        | zero =>
            rw [Line.render_zero] at hletter
            exact absurd hletter.symm (hhead rfl)
        | succ level =>
            rw [Line.toList_render_succ level htext] at hletter
            exact absurd (Option.some.inj hletter) (by decide)

/-- Nothing within a block is stored as a closing brace and nothing else. -/
theorem render_ne_brace (level : Nat) (text : String) : Line.render ⟨level + 1, text⟩ ≠ "\x7d" := by
  by_cases htext : text = ""
  · rw [Line.render, if_pos (String.isEmpty_iff.2 htext)]
    decide
  · intro hbrace
    have hspaces := Line.toList_render_succ level htext
    rw [hbrace] at hspaces
    have hhead : some '\x7d' = some ' ' := congrArg List.head? hspaces
    exact absurd hhead (by decide)

/-! ## The lines of a record -/

/-- The last line of a field is stored as it is written here. -/
theorem render_fieldLine (name typeText : String) :
    Line.render ⟨1, "pub " ++ name ++ ": " ++ typeText ++ ","⟩ = fieldText name typeText := by
  have hne : "pub " ++ name ++ ": " ++ typeText ++ "," ≠ "" := by
    simp [← String.toList_inj, String.toList_append]
  rw [← String.toList_inj, Line.toList_render hne]
  simp only [fieldText, String.toList_append, List.append_assoc]
  rfl

theorem declaresField_fieldText (name typeText : String) :
    declaresField (fieldText name typeText) = true := by
  simp only [declaresField, fieldText, String.toList_append, List.append_assoc, behind?_append,
    Option.isSome_some]

/-- What stands in front of the last line of a field: documentation, and an attribute over some
lines. -/
def fieldPreamble (field : Field) : List Line :=
  docLines 1 field.decorators ++ [⟨1, "#[serde("⟩]
    ++ (fieldAttributes field).map (fun text => ⟨2, text⟩) ++ [⟨1, ")]"⟩]

/-- All of it stands within the block, and at the first level it begins otherwise than a field. -/
theorem exists_of_mem_fieldPreamble {field : Field} {line : Line} (h : line ∈ fieldPreamble field) :
    ∃ level text, line = ⟨level + 1, text⟩ ∧ (level = 0 → text.toList.head? ≠ some 'p') := by
  simp only [fieldPreamble, List.mem_append, List.mem_map, List.mem_singleton] at h
  obtain ((hdoc | rfl) | ⟨text, -, rfl⟩) | rfl := h
  · obtain ⟨text, rfl⟩ := exists_of_mem_docLines hdoc
    exact ⟨0, _, rfl, fun _ => by rw [head_doc]; decide⟩
  · exact ⟨0, _, rfl, by decide⟩
  · exact ⟨1, text, rfl, nofun⟩
  · exact ⟨0, _, rfl, by decide⟩

/-- A field is stored as what stands in front of it and the line that declares it. -/
theorem map_render_fieldLines (field : Field) :
    (fieldLines 1 field).map Line.render
      = (fieldPreamble field).map Line.render ++ [fieldText field.name field.typeText] := by
  rw [fieldLines, List.map_append, List.map_singleton, render_fieldLine]
  rfl

/-- Of the lines of a field one declares it, the last. -/
theorem filter_declaresField_fieldLines (field : Field) :
    ((fieldLines 1 field).map Line.render).filter declaresField
      = [fieldText field.name field.typeText] := by
  have hpreamble : ((fieldPreamble field).map Line.render).filter declaresField = [] := by
    rw [List.filter_eq_nil_iff, List.forall_mem_map]
    intro line hline
    obtain ⟨level, text, rfl, hhead⟩ := exists_of_mem_fieldPreamble hline
    rw [declaresField_render_of_head hhead]
    exact Bool.false_ne_true
  rw [map_render_fieldLines, List.filter_append, hpreamble, List.nil_append, List.filter_singleton,
    declaresField_fieldText]
  rfl

theorem brace_not_mem_fieldLines (field : Field) :
    "\x7d" ∉ (fieldLines 1 field).map Line.render := by
  rw [map_render_fieldLines, List.mem_append, List.mem_singleton, not_or]
  constructor
  · intro hbrace
    obtain ⟨line, hline, hrender⟩ := List.mem_map.1 hbrace
    obtain ⟨level, text, rfl, -⟩ := exists_of_mem_fieldPreamble hline
    exact render_ne_brace level text hrender
  · rw [← render_fieldLine]
    exact (render_ne_brace 0 _).symm

section

variable (options : Options) (naming : String → String) (g : Graph)

/-- **The lines of a record declare its fields**, each under its type. -/
theorem declaresFields_recordLines (d : Declaration) :
    DeclaresFields (typeName options.reserved d.name)
      ((recordFields options naming g d).map fun field => fieldText field.name field.typeText)
      ((recordLines options naming g d).map Line.render) := by
  let inside :=
    (recordFields options naming g d).flatMap fun field => (fieldLines 1 field).map Line.render
  have hbrace : "\x7d" ∉ inside := by
    intro hmem
    obtain ⟨field, -, hfield⟩ := List.mem_flatMap.1 hmem
    exact brace_not_mem_fieldLines field hfield
  have hfields : inside.filter declaresField
      = (recordFields options naming g d).map fun field => fieldText field.name field.typeText := by
    rw [List.map_eq_flatMap, List.filter_flatMap]
    exact List.flatMap_congr fun field _ => filter_declaresField_fieldLines field
  have hblock : (blockLines ("pub struct " ++ typeName options.reserved d.name)
        ((recordFields options naming g d).flatMap (fieldLines 1))).map Line.render
      = ("pub struct " ++ typeName options.reserved d.name ++ " \x7b")
        :: (inside ++ "\x7d" :: []) := by
    rw [blockLines, List.map_cons, List.map_append, List.map_flatMap, Line.render_zero,
      List.map_singleton, Line.render_zero]
  rw [recordLines, List.map_append, List.map_append, List.map_append, List.append_assoc]
  refine DeclaresFields.surround ?_ _ _
  exact ⟨[], inside, [], hblock, hbrace, hfields⟩

end

/-! ## Sealed units -/

/-- **A run that succeeds declares the fields of every class** in the unit of its namespace, which
is one of those that the run has sealed. -/
theorem exists_unit_declaresFields {options : Options} {g : Graph} {units : List SourceUnit}
    {sink : MemorySink} (hrun : runFrom options g units = (.ok (), sink)) {ns : Namespace}
    (hns : ns ∈ g.namespaces) {d : Declaration} (hd : d ∈ ns.declarations)
    (hclass : d.isClass = true) :
    ∃ unit ∈ sink.units.drop units.length, unit.name = unitName (moduleName ns.name)
      ∧ DeclaresFields (typeName options.reserved d.name)
        ((recordFields options (memberName options.reserved) g d).map fun field =>
          fieldText field.name field.typeText) unit.lines := by
  obtain ⟨-, hmembers, rfl⟩ := of_runFrom_eq_ok options g units hrun
  have hrecord : declarationTexts options g d
      = (recordLines options (memberName options.reserved) g d).map Line.render := by
    rw [declarationTexts, declarationLines_of_isClass _ _ _ hclass]
  refine ⟨(namespacePlan options (memberName options.reserved) g ns).sealed, ?_, rfl, ?_⟩
  · have hplan : namespacePlan options (memberName options.reserved) g ns
        ∈ plansUpTo options g g.namespaces :=
      List.mem_cons_of_mem _ (List.mem_cons_of_mem _ (List.mem_map_of_mem hns))
    dsimp only
    rw [List.drop_left]
    exact List.mem_map_of_mem hplan
  · rw [sealed_namespacePlan options g (hmembers ns hns)]
    obtain ⟨front, back, hsplit⟩ := List.append_of_mem hd
    rw [hsplit, List.flatMap_append, List.flatMap_cons, hrecord, ← List.append_assoc,
      ← List.append_assoc]
    exact (declaresFields_recordLines options _ g d).surround _ _

end ModelForge
