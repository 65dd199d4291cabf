/-
`Imports.lean` -- which modules a unit brings into scope.

Only the head of a unit has `use` declarations: no line of a record or of an enum reads like one
(`writes_declarationFragment`). So the modules that a unit brings into scope can be read off its
lines, and they are the ones of the namespaces that the import clauses name
(`useLine_mem_rendered_iff`).
-/
import ModelForge.Proofs.MemoryRun

set_option autoImplicit false

namespace ModelForge

/-! ## Lines that read like `use` declarations -/

/-- A `use` declaration. -/
def IsUse (text : String) : Prop := ∃ path, text = "use " ++ path ++ ";"

/-- A line that is no `use` declaration. -/
def NotUse (text : String) : Prop := ¬ IsUse text

/-- A line that begins with another letter is no `use` declaration. -/
theorem notUse_of_head {text : String} (h : text.toList.head? ≠ some 'u') : NotUse text := by
  rintro ⟨path, rfl⟩
  exact h (by simp [String.toList_append])

/-- Nor is one that ends with something else than a semicolon. -/
theorem notUse_of_last {text : String} (h : text.toList.getLast? ≠ some ';') : NotUse text := by
  rintro ⟨path, rfl⟩
  refine h ?_
  rw [String.toList_append]
  exact List.getLast?_concat

/-- The line that brings everything of a module into scope. -/
def useLine (module : String) : String := "use " ++ wholeModule module ++ ";"

/-- Modules are told apart by their lines. -/
theorem useLine_injective {module other : String} (h : useLine module = useLine other) :
    module = other := by
  unfold useLine wholeModule at h
  rwa [String.append_left_inj, String.append_right_inj, String.append_left_inj,
    String.append_right_inj] at h

/-- At the first level a line is stored as its text. -/
theorem Line.render_zero (text : String) : Line.render ⟨0, text⟩ = text := by
  unfold Line.render
  by_cases h : text.isEmpty = true
  · rw [if_pos h]
    exact (String.isEmpty_iff.1 h).symm
  · rw [if_neg h, List.replicate_zero]
    exact String.empty_append

theorem map_render_zero (texts : List String) :
    (texts.map fun text => (⟨0, text⟩ : Line)).map Line.render = texts := by
  have hstored : (Line.render ∘ fun text => ⟨0, text⟩) = id := funext Line.render_zero
  rw [List.map_map, hstored, List.map_id]

/-- A stored line that is a `use` declaration has that text: indentation begins with a space. -/
theorem isUse_of_render {line : Line} (h : IsUse line.render) : IsUse line.text := by
  obtain ⟨level, text⟩ := line
  cases level with
  | zero => rwa [Line.render_zero] at h
  | succ level =>
      -- at least one level of spaces stands in front, or the line is empty
      have hhead : (Line.render ⟨level + 1, text⟩).toList.head? ≠ some 'u' := by
        unfold Line.render
        by_cases hempty : text.isEmpty = true
        · rw [if_pos hempty]
          simp
        · rw [if_neg hempty, List.replicate_succ, String.join_cons, String.toList_append,
            String.toList_append]
          simp [Line.levelIndent]
      exact absurd h (notUse_of_head hhead)

/-! ## Declarations bring nothing into scope -/

theorem writes_decoratorDocs (decorators : List Decorator) :
    (decoratorDocs decorators).Writes NotUse := by
  unfold decoratorDocs
  split
  · rw [Fragment.writes_all_map]
    intro text _
    exact notUse_of_head (by simp [String.toList_append])
  · trivial

/-- The attributes of a field are no `use` declarations. -/
theorem notUse_of_mem_fieldAttributes {field : Field} {text : String}
    (h : text ∈ fieldAttributes field) : NotUse text := by
  -- each attribute begins with its own keyword, and none of these with the letter in question
  refine notUse_of_head ?_
  unfold fieldAttributes at h
  rw [List.mem_append, List.mem_append] at h
  rcases h with (hrename | hskip) | hhooks
  · rw [List.mem_singleton.1 hrename]
    simp [String.toList_append]
  · split at hskip
    · rw [List.mem_singleton.1 hskip]
      simp
    · exact absurd hskip List.not_mem_nil
  · split at hhooks
    · exact absurd hhooks List.not_mem_nil
    · rw [List.mem_append, List.mem_cons, List.mem_singleton] at hhooks
      rcases hhooks with (rfl | rfl) | hdefault
      · simp [String.toList_append]
      · simp [String.toList_append]
      · split at hdefault
        · rw [List.mem_singleton.1 hdefault]
          simp
        · exact absurd hdefault List.not_mem_nil

/-- Nor are the lines of a field. -/
theorem writes_fieldFragment (field : Field) : (fieldFragment field).Writes NotUse := by
  simp only [fieldFragment, Fragment.writes_append, Fragment.writes_lines]
  refine ⟨⟨⟨⟨⟨⟨writes_decoratorDocs _, ?_⟩, trivial⟩, ?_⟩, trivial⟩, ?_⟩, ?_⟩
  · exact notUse_of_head (by simp)
  · exact fun text h => notUse_of_mem_fieldAttributes h
  · exact notUse_of_head (by simp)
  · exact notUse_of_head (by simp [String.toList_append])

theorem writes_derive : (Fragment.derive derivedTraits).Writes NotUse :=
  notUse_of_head (by simp [String.toList_append])

/-- The lines of a record are no `use` declarations. -/
theorem writes_recordFragment (options : Options) (naming : String → String) (g : Graph)
    (d : Declaration) : (recordFragment options naming g d).Writes NotUse := by
  rw [recordFragment]
  split
  · trivial
  · simp only [Fragment.writes_append]
    refine ⟨⟨⟨⟨⟨?_, writes_decoratorDocs _⟩, writes_derive⟩, ?_, ?_, ?_⟩, ?_⟩, ?_, ?_, ?_⟩
    · exact notUse_of_head (by simp)
    · exact notUse_of_head (by simp [String.toList_append])
    · rw [Fragment.writes_all_map]
      intro field _
      exact writes_fieldFragment field
    · exact notUse_of_head (by simp)
    · exact notUse_of_head (by simp)
    · exact notUse_of_head (by simp [String.toList_append])
    · exact notUse_of_head (by simp [String.toList_append])
    · exact notUse_of_head (by simp)

/-- A variant may be called like the word, but it ends in a comma. -/
theorem writes_variantFragment (options : Options) (value : Property) :
    (variantFragment options value).Writes NotUse := by
  unfold variantFragment
  simp only [Fragment.writes_append]
  refine ⟨⟨writes_decoratorDocs _, ?_⟩, ?_⟩
  · split
    · trivial
    · exact notUse_of_head (by simp [String.toList_append])
  · refine notUse_of_last ?_
    rw [String.toList_append]
    intro h
    exact absurd (List.getLast?_concat.symm.trans h) (by decide)

/-- Nor are the lines of an enum. -/
theorem writes_enumFragment (options : Options) (d : Declaration) (values : List Property) :
    (enumFragment options d values).Writes NotUse := by
  rw [enumFragment]
  split
  · trivial
  · simp only [Fragment.writes_append]
    refine ⟨⟨⟨⟨?_, writes_decoratorDocs _⟩, writes_derive⟩, ?_⟩, ?_, ?_, ?_⟩
    · exact notUse_of_head (by simp)
    · exact notUse_of_head (by simp)
    · exact notUse_of_head (by simp [String.toList_append])
    · rw [Fragment.writes_all_map]
      intro value _
      exact writes_variantFragment options value
    · exact notUse_of_head (by simp)

/-- **No line of a declaration reads like a `use` declaration.** -/
theorem writes_declarationFragment (options : Options) (naming : String → String) (g : Graph)
    (d : Declaration) : (declarationFragment options naming g d).Writes NotUse := by
  unfold declarationFragment
  split
  · exact writes_recordFragment options naming g d
  · exact writes_enumFragment options d _
  · trivial

/-! ## The head of a unit -/

/-- What is imported from are the sources of the imports, but never the namespace itself. -/
theorem mem_importSources {ns : Namespace} {source : String} :
    source ∈ ns.importSources ↔ ∃ clause ∈ ns.imports, clause.source = source
      ∧ source ≠ ns.name := by
  rw [Namespace.importSources, List.mem_eraseDups, List.mem_filter, List.mem_map, decide_eq_true_eq]
  constructor
  · rintro ⟨⟨clause, hclause, hsource⟩, hne⟩
    exact ⟨clause, hclause, hsource, hne⟩
  · rintro ⟨clause, hclause, hsource, hne⟩
    exact ⟨⟨clause, hclause, hsource⟩, hne⟩

/-- The lines in front of the declarations. -/
def headerTexts (ns : Namespace) : List String :=
  ["#![allow(unused_imports)]", "use serde::\x7b Deserialize, Serialize \x7d;",
    "use chrono::\x7b DateTime, TimeZone, Utc \x7d;", ""]
    ++ ns.importSources.map (fun source => useLine (moduleName source)) ++ [useLine utilityModule]

/-- The head of a unit has its lines at level zero. -/
theorem emit_unitHeader (ns : Namespace) :
    (unitHeader ns).emit 0 = ⟨(headerTexts ns).map fun text => ⟨0, text⟩, 0, none⟩ := by
  have huses : Fragment.all
      (ns.importSources.map fun source => .use (wholeModule (moduleName source)))
        = .lines (ns.importSources.map fun source => useLine (moduleName source)) := by
    rw [Fragment.lines, List.map_map]
    rfl
  -- the fixed lines, then the imports, then the hooks
  have hbefore : (Fragment.line "#![allow(unused_imports)]"
      ++ .use "serde::\x7b Deserialize, Serialize \x7d"
      ++ .use "chrono::\x7b DateTime, TimeZone, Utc \x7d" ++ .blank).emit 0
        = ⟨["#![allow(unused_imports)]", "use serde::\x7b Deserialize, Serialize \x7d;",
            "use chrono::\x7b DateTime, TimeZone, Utc \x7d;", ""].map fun text => ⟨0, text⟩,
          0, none⟩ := rfl
  rw [unitHeader, Fragment.emit_append, Fragment.emit_append, hbefore, huses,
    Emission.andThen_of_none, Fragment.emit_lines, Emission.andThen_of_none, headerTexts,
    List.map_append, List.map_append]
  rfl

/-- A unit begins with its head, and what follows are lines of declarations. -/
theorem rendered_namespaceFragment (options : Options) (naming : String → String) (g : Graph)
    (ns : Namespace) :
    ∃ rest, (namespaceFragment options naming g ns).rendered = headerTexts ns ++ rest
      ∧ ∀ text ∈ rest, NotUse text := by
  let written := Fragment.all (ns.declarations.map (declarationFragment options naming g))
  refine ⟨(written.emit 0).lines.map Line.render, ?_, fun text htext huse => ?_⟩
  · rw [Fragment.rendered, namespaceFragment, Fragment.emit_append, emit_unitHeader,
      Emission.andThen_of_none, List.map_append, map_render_zero]
  · obtain ⟨line, hline, rfl⟩ := List.mem_map.1 htext
    have hwrites :
        (Fragment.all (ns.declarations.map (declarationFragment options naming g))).Writes
        NotUse := by
      rw [Fragment.writes_all_map]
      intro d _
      exact writes_declarationFragment options naming g d
    exact Fragment.text_of_mem_emit hwrites hline (isUse_of_render huse)

/-- **A unit brings into scope what its namespace imports.** The module of the date-time hooks is
brought into scope by every unit, and is left out here. -/
theorem useLine_mem_rendered_iff {options : Options} {naming : String → String} {g : Graph}
    {ns : Namespace} {module : String} (hmodule : module ≠ utilityModule) :
    useLine module ∈ (namespaceFragment options naming g ns).rendered
      ↔ ∃ clause ∈ ns.imports, clause.source ≠ ns.name ∧ moduleName clause.source = module := by
  obtain ⟨rest, hrendered, hrest⟩ := rendered_namespaceFragment options naming g ns
  have hbehind : useLine module ∉ rest := fun h => hrest _ h ⟨_, rfl⟩
  -- the four fixed lines differ from every line of this kind in an early character
  have hfixed : useLine module ∉ ["#![allow(unused_imports)]",
      "use serde::\x7b Deserialize, Serialize \x7d;",
      "use chrono::\x7b DateTime, TimeZone, Utc \x7d;",
      ""] := by
    intro h
    have hstart : (useLine module).toList.take 6 = ['u', 's', 'e', ' ', 'c', 'r'] := by
      simp [useLine, wholeModule, String.toList_append]
    simp only [List.mem_cons, List.not_mem_nil, or_false] at h
    rcases h with h | h | h | h <;> · rw [h] at hstart; simp at hstart
  have hutility : useLine module ∉ [useLine utilityModule] := fun h =>
    hmodule (useLine_injective (List.mem_singleton.1 h))
  rw [hrendered, headerTexts, List.mem_append, List.mem_append, List.mem_append,
    or_iff_left hbehind, or_iff_left hutility, or_iff_right hfixed, List.mem_map]
  constructor
  · rintro ⟨source, hsource, hline⟩
    obtain ⟨clause, hclause, rfl, hne⟩ := mem_importSources.1 hsource
    exact ⟨clause, hclause, hne, useLine_injective hline⟩
  · rintro ⟨clause, hclause, hne, rfl⟩
    exact ⟨clause.source, mem_importSources.2 ⟨clause, hclause, rfl, hne⟩, rfl⟩

end ModelForge
