/-
`Layout.lean` -- the lines of a unit, one by one.

What is written without a clash always comes back to the level that it started at. So the lines of
a unit can be listed without threading a level through them: those of a field, of a record, of a
variant and of an enum, and in the end those of the whole unit (`emit_namespaceFragment`).
Whatever is read off the text of a unit is read off these lists.
-/
import ModelForge.Proofs.Imports
import ModelForge.Proofs.Outcome

set_option autoImplicit false

namespace ModelForge

/-! ## Documentation -/

/-- The lines of documentation that decorators become. -/
def docLines (level : Nat) (decorators : List Decorator) : List Line :=
  match decoratorTable? decorators with
  | some table => (renderTable table).map fun text => ⟨level, "/// " ++ text⟩
  | none => []

/-- Every line of documentation is marked as one, whatever it says behind the mark. -/
theorem exists_of_mem_docLines {level : Nat} {decorators : List Decorator} {line : Line}
    (h : line ∈ docLines level decorators) : ∃ text, line = ⟨level, "/// " ++ text⟩ := by
  unfold docLines at h
  split at h
  · obtain ⟨text, -, rfl⟩ := List.mem_map.1 h
    exact ⟨text, rfl⟩
  · exact absurd h List.not_mem_nil

/-- Decorators write their documentation at the level they are met at, and stay there. -/
theorem emit_decoratorDocs (decorators : List Decorator) (level : Nat) :
    (decoratorDocs decorators).emit level = ⟨docLines level decorators, level, none⟩ := by
  unfold decoratorDocs docLines
  cases decoratorTable? decorators with
  | none => rfl
  | some table =>
      dsimp only
      rw [List.map_eq_flatMap (f := fun text => (⟨level, "/// " ++ text⟩ : Line))]
      apply Fragment.emit_all_map
      intro text _
      rfl

/-! ## Records -/

/-- The lines of a field. -/
def fieldLines (level : Nat) (field : Field) : List Line :=
  docLines level field.decorators
    ++ [⟨level, "#[serde("⟩]
    ++ (fieldAttributes field).map (fun text => ⟨level + 1, text⟩)
    ++ [⟨level, ")]"⟩]
    ++ [⟨level, "pub " ++ field.name ++ ": " ++ field.typeText ++ ","⟩]

/-- A field writes its own lines and comes back to the level of the record. -/
theorem emit_fieldFragment (field : Field) (level : Nat) :
    (fieldFragment field).emit level = ⟨fieldLines level field, level, none⟩ := by
  -- up to the attributes, which stand one level deeper
  have hopen : (decoratorDocs field.decorators ++ .line "#[serde(" ++ .indent).emit level
      = ⟨docLines level field.decorators ++ [⟨level, "#[serde("⟩] ++ [], level + 1, none⟩ :=
    Fragment.emit_append_of_eq (Fragment.emit_append_of_eq (emit_decoratorDocs _ _) rfl) rfl
  have hattributes := Fragment.emit_append_of_eq hopen
    (Fragment.emit_lines (fieldAttributes field) (level + 1))
  have hdedent : Fragment.dedent.emit (level + 1) = ⟨[], level, none⟩ := rfl
  have hclose : (Fragment.line ")]").emit level = ⟨[⟨level, ")]"⟩], level, none⟩ := rfl
  have hfield := Fragment.emit_append_of_eq
    (Fragment.emit_append_of_eq (Fragment.emit_append_of_eq hattributes hdedent) hclose)
    (rfl : (Fragment.line ("pub " ++ field.name ++ ": " ++ field.typeText ++ ",")).emit level = _)
  rw [List.append_nil, List.append_nil] at hfield
  exact hfield

/-- The lines of a block that starts at the first level. -/
def blockLines (header : String) (body : List Line) : List Line :=
  ⟨0, header ++ " \x7b"⟩ :: (body ++ [⟨0, "\x7d"⟩])

/-- The line that derives the traits of records and enums. -/
def deriveLine : Line := ⟨0, "#[derive(Debug, Clone, Serialize, Deserialize)]"⟩

theorem emit_derive : (Fragment.derive derivedTraits).emit 0 = ⟨[deriveLine], 0, none⟩ := rfl

section

variable (options : Options) (naming : String → String) (g : Graph)

/-- The line of the constant with the qualified name of a class. -/
def constantLine (d : Declaration) : Line :=
  ⟨1, "pub const CLASS: &str = " ++ quoted d.qualifiedName ++ ";"⟩

/-- The lines of a record and of its constant. -/
def recordLines (d : Declaration) : List Line :=
  [.blank]
    ++ docLines 0 d.decorators
    ++ [deriveLine]
    ++ blockLines ("pub struct " ++ typeName options.reserved d.name)
        ((recordFields options naming g d).flatMap (fieldLines 1))
    ++ [.blank]
    ++ blockLines ("impl " ++ typeName options.reserved d.name) [constantLine d]

/-- A record without a clash is written in full. -/
theorem emit_recordFragment {d : Declaration} (h : recordClash? naming g d = none) :
    (recordFragment options naming g d).emit 0 = ⟨recordLines options naming g d, 0, none⟩ := by
  have hblank : Fragment.blank.emit 0 = ⟨[.blank], 0, none⟩ := rfl
  have hhead := Fragment.emit_append_of_eq
    (Fragment.emit_append_of_eq hblank (emit_decoratorDocs d.decorators 0)) emit_derive
  have hfields : (Fragment.all ((recordFields options naming g d).map fieldFragment)).emit 1
      = ⟨(recordFields options naming g d).flatMap (fieldLines 1), 1, none⟩ := by
    apply Fragment.emit_all_map
    intro field _
    exact emit_fieldFragment field 1
  have hstruct := Fragment.emit_append_of_eq (Fragment.emit_append_of_eq hhead
    (Fragment.emit_block_of_eq ("pub struct " ++ typeName options.reserved d.name) hfields)) hblank
  rw [recordFragment, h]
  exact Fragment.emit_append_of_eq hstruct (Fragment.emit_block_of_eq _ rfl)

/-! ## Enums -/

/-- The line that gives a variant its name on the wire, where it needs one. -/
def renameLines (value : Property) : List Line :=
  if typeName options.reserved value.name = value.name then []
  else [⟨1, "#[serde(rename = " ++ quoted value.name ++ ")]"⟩]

/-- The lines of a variant. -/
def variantLines (value : Property) : List Line :=
  docLines 1 value.decorators
    ++ renameLines options value
    ++ [⟨1, typeName options.reserved value.name ++ ","⟩]

/-- A variant writes its own lines, with an attribute only where it is renamed. -/
theorem emit_variantFragment (value : Property) :
    (variantFragment options value).emit 1 = ⟨variantLines options value, 1, none⟩ := by
  have hrename : (if typeName options.reserved value.name = value.name then Fragment.nothing
      else .attr ("serde(rename = " ++ quoted value.name ++ ")")).emit 1
        = ⟨renameLines options value, 1, none⟩ := by
    unfold renameLines
    split
    · rfl
    · -- the attribute is put together differently
      have htext : "#[" ++ ("serde(rename = " ++ quoted value.name ++ ")") ++ "]"
          = "#[serde(rename = " ++ quoted value.name ++ ")]" := by
        simp [← String.toList_inj, String.toList_append]
      rw [Fragment.attr, htext]
      rfl
  exact Fragment.emit_append_of_eq
    (Fragment.emit_append_of_eq (emit_decoratorDocs value.decorators 1) hrename) rfl

/-- The lines of an enum. -/
def enumLines (d : Declaration) (values : List Property) : List Line :=
  [.blank]
    ++ docLines 0 d.decorators
    ++ [deriveLine]
    ++ [⟨0, "#[allow(non_camel_case_types)]"⟩]
    ++ blockLines ("pub enum " ++ typeName options.reserved d.name)
        (values.flatMap (variantLines options))

/-- An enum without a clash is written in full. -/
theorem emit_enumFragment {d : Declaration} {values : List Property}
    (h : enumClash? options values = none) :
    (enumFragment options d values).emit 0 = ⟨enumLines options d values, 0, none⟩ := by
  have hblank : Fragment.blank.emit 0 = ⟨[.blank], 0, none⟩ := rfl
  have hallow : (Fragment.attr "allow(non_camel_case_types)").emit 0
      = ⟨[⟨0, "#[allow(non_camel_case_types)]"⟩], 0, none⟩ := rfl
  have hhead := Fragment.emit_append_of_eq (Fragment.emit_append_of_eq
    (Fragment.emit_append_of_eq hblank (emit_decoratorDocs d.decorators 0)) emit_derive) hallow
  have hvariants : (Fragment.all (values.map (variantFragment options))).emit 1
      = ⟨values.flatMap (variantLines options), 1, none⟩ := by
    apply Fragment.emit_all_map
    intro value _
    exact emit_variantFragment options value
  rw [enumFragment, h]
  exact Fragment.emit_append_of_eq hhead (Fragment.emit_block_of_eq _ hvariants)

/-! ## Units -/

/-- The lines of a declaration. -/
def declarationLines (d : Declaration) : List Line :=
  match d.body with
  | .record .. => recordLines options naming g d
  | .enumeration values => enumLines options d values
  | .scalar .. => []

/-- The lines of a class are those of its record. -/
theorem declarationLines_of_isClass {d : Declaration} (hclass : d.isClass = true) :
    declarationLines options naming g d = recordLines options naming g d := by
  unfold Declaration.isClass at hclass
  unfold declarationLines
  cases hbody : d.body with
  | record => rfl
  | enumeration values =>
      rw [hbody] at hclass
      exact absurd hclass (by simp)
  | scalar primitive default =>
      rw [hbody] at hclass
      exact absurd hclass (by simp)

/-- A declaration whose writing has no fault writes the lines of its kind. -/
theorem emit_declarationFragment {d : Declaration}
    (h : (declarationFragment options naming g d).fault? = none) :
    (declarationFragment options naming g d).emit 0
      = ⟨declarationLines options naming g d, 0, none⟩ := by
  unfold declarationFragment at h ⊢
  unfold declarationLines
  cases hbody : d.body with
  | record flavor isAbstract superType properties =>
      rw [hbody] at h
      dsimp only at h ⊢
      rw [fault?_recordFragment, Option.map_eq_none_iff] at h
      exact emit_recordFragment options naming g h
  | enumeration values =>
      rw [hbody] at h
      dsimp only at h ⊢
      rw [fault?_enumFragment, Option.map_eq_none_iff] at h
      exact emit_enumFragment options h
  | scalar primitive default => rfl

/-- The lines of the unit of a namespace. -/
def unitLines (ns : Namespace) : List Line :=
  (headerTexts ns).map (fun text => ⟨0, text⟩)
    ++ ns.declarations.flatMap (declarationLines options naming g)

/-- **The lines of a unit are its head and the lines of its declarations**, if none has a clash. -/
theorem emit_namespaceFragment {ns : Namespace}
    (h : ∀ d ∈ ns.declarations, (declarationFragment options naming g d).fault? = none) :
    (namespaceFragment options naming g ns).emit 0 = ⟨unitLines options naming g ns, 0, none⟩ := by
  have hdeclarations :
      (Fragment.all (ns.declarations.map (declarationFragment options naming g))).emit 0
        = ⟨ns.declarations.flatMap (declarationLines options naming g), 0, none⟩ := by
    apply Fragment.emit_all_map
    intro d hd
    exact emit_declarationFragment options naming g (h d hd)
  exact Fragment.emit_append_of_eq (emit_unitHeader ns) hdeclarations

end

end ModelForge
