/-
`IntroducedNames.lean` -- the names that a unit introduces, read back from its lines.

The reader of `Reading.lean` reads items, and knows what an identifier is. The reader here is for
the question whether what stands where an identifier belongs is one, so it takes whatever stands
there: what is between `pub struct ` and the brace, or between `pub ` and the first colon of a
field. It follows the blocks of records and enums, because only there the shorter lines are fields
and variants.
-/
import ModelForge.Proofs.FixedUnits
import ModelForge.Proofs.WireShape

set_option autoImplicit false

namespace ModelForge

/-! ## Names and where they stand -/

/-- What a name is introduced for. -/
inductive NameRole where
  | module
  | record
  | enumeration
  | field
  | variant
  deriving DecidableEq, Repr

/-- A name with what it is introduced for. -/
structure IntroducedName where
  role : NameRole
  name : String
  deriving DecidableEq, Repr

/-- What stands in a text between `before` and `after`, whatever it is. -/
def between? (before after : String) (text : List Char) : Option String :=
  ((behind? before text).bind fun rest => after.toList.isSuffixOf? rest).map String.ofList

/-- A name between two texts is read from between them. -/
theorem between?_eq (before after name : String) :
    between? before after (before ++ name ++ after).toList = some name := by
  have hafter : after.toList.isSuffixOf? (name.toList ++ after.toList) = some name.toList := by
    rw [List.isSuffixOf?_eq_some_iff_append_eq]
  rw [between?, String.toList_append, String.toList_append, List.append_assoc, behind?_append,
    Option.bind_some, hafter, Option.map_some, String.ofList_toList]

theorem between?_of_behind? {before : String} (after : String) {text : List Char}
    (h : behind? before text = none) : between? before after text = none := by
  rw [between?, h, Option.bind_none, Option.map_none]

/-- The name that a line introduces outside of blocks. -/
def topName? (line : Line) : Option IntroducedName :=
  if line.indent = 0 then
    ((between? "pub mod " ";" line.text.toList).map (⟨.module, ·⟩)).or
      (((between? "pub struct " " \x7b" line.text.toList).map (⟨.record, ·⟩)).or
        ((between? "pub enum " " \x7b" line.text.toList).map (⟨.enumeration, ·⟩)))
  else none

/-- The name that a line introduces in a block of fields or of variants. A field's name ends at
the colon. Documentation and attributes, which begin with their own marks, introduce nothing. -/
def NameRole.inner? (role : NameRole) (line : Line) : Option String :=
  match role, line.indent with
  | .field, 1 =>
      (behind? "pub " line.text.toList).map fun rest => String.ofList (rest.takeWhile (· ≠ ':'))
  | .variant, 1 =>
      if line.text.toList.head? = some '/' ∨ line.text.toList.head? = some '#' then none
      else between? "" "," line.text.toList
  | _, _ => none

/-- What the names in the block behind a name are introduced for. -/
def NameRole.members? : NameRole → Option NameRole
  | .record => some .field
  | .enumeration => some .variant
  | .module => none
  | .field => none
  | .variant => none

/-! ## The reader -/

/-- The reader between two lines. -/
structure NameReader where
  found : List IntroducedName
  /-- What the names of the open block are introduced for. -/
  block? : Option NameRole

namespace NameReader

/-- The reader in front of a unit. -/
def start : NameReader := ⟨[], none⟩

/-- The reader behind one more line. -/
def next (reader : NameReader) (line : Line) : NameReader :=
  match reader.block? with
  | none =>
      match topName? line with
      | some introduced => ⟨reader.found ++ [introduced], introduced.role.members?⟩
      | none => reader
  | some role =>
      if line = ⟨0, "\x7d"⟩ then ⟨reader.found, none⟩
      else match role.inner? line with
        | some name => { reader with found := reader.found ++ [⟨role, name⟩] }
        | none => reader

/-- The reader behind more lines. -/
def run (reader : NameReader) (lines : List Line) : NameReader := lines.foldl next reader

theorem run_append (reader : NameReader) (lines lines' : List Line) :
    reader.run (lines ++ lines') = (reader.run lines).run lines' := List.foldl_append

/-- Lines that lead from one block to another and introduce names on the way. -/
def Reads (block? : Option NameRole) (lines : List Line) (block'? : Option NameRole)
    (names : List IntroducedName) : Prop :=
  ∀ found, run ⟨found, block?⟩ lines = ⟨found ++ names, block'?⟩

section

variable {block? block'? block''? : Option NameRole} {lines lines' : List Line}
variable {names names' : List IntroducedName}

/-- Lines are read one after the other, and the names add up. -/
theorem Reads.append (h : Reads block? lines block'? names)
    (h' : Reads block'? lines' block''? names') :
    Reads block? (lines ++ lines') block''? (names ++ names') := by
  intro found
  rw [run_append, h found, h' (found ++ names), List.append_assoc]

theorem Reads.of_next {line : Line}
    (h : ∀ found, next ⟨found, block?⟩ line = ⟨found ++ names, block'?⟩) :
    Reads block? [line] block'? names := h

theorem reads_nil : Reads block? [] block? [] := fun found => by
  rw [List.append_nil]
  rfl

/-- Lines that introduce nothing. -/
theorem Reads.of_silent (h : ∀ line ∈ lines, Reads block? [line] block? []) :
    Reads block? lines block? [] := by
  induction lines with
  | nil => exact reads_nil
  | cons line rest ih =>
      rw [List.forall_mem_cons] at h
      exact Reads.append h.1 (ih h.2)

/-- Lines that come in groups introduce the names of the groups, in their order. -/
theorem Reads.flatMap {α : Type} {linesOf : α → List Line} {namesOf : α → List IntroducedName}
    {items : List α} (h : ∀ x ∈ items, Reads block? (linesOf x) block? (namesOf x)) :
    Reads block? (items.flatMap linesOf) block? (items.flatMap namesOf) := by
  induction items with
  | nil => exact reads_nil
  | cons x rest ih =>
      rw [List.forall_mem_cons] at h
      exact Reads.append h.1 (ih h.2)

end

/-! ## Outside of blocks -/

theorem reads_of_topName? {line : Line} {introduced : IntroducedName}
    (h : topName? line = some introduced) :
    Reads none [line] introduced.role.members? [introduced] :=
  .of_next fun found => by simp only [next, h]

theorem reads_of_topName?_none {line : Line} (h : topName? line = none) :
    Reads none [line] none [] :=
  .of_next fun found => by simp only [next, h, List.append_nil]

end NameReader

/-- The names that a unit introduces, from its stored lines. -/
def namesIn (texts : List String) : List IntroducedName :=
  (NameReader.start.run (texts.map storedLine)).found

/-- A line that begins otherwise introduces nothing. -/
theorem topName?_of_head {line : Line} (h : line.text.toList.head? ≠ some 'p') :
    topName? line = none := by
  have hmodule : between? "pub mod " ";" line.text.toList = none :=
    between?_of_behind? ";" (behind?_of_head rfl h)
  have hrecord : between? "pub struct " " \x7b" line.text.toList = none :=
    between?_of_behind? " \x7b" (behind?_of_head rfl h)
  have henumeration : between? "pub enum " " \x7b" line.text.toList = none :=
    between?_of_behind? " \x7b" (behind?_of_head rfl h)
  unfold topName?
  rw [hmodule, hrecord, henumeration]
  split <;> rfl

/-- Nothing below the first level opens a block. -/
theorem topName?_of_indent {line : Line} (h : line.indent ≠ 0) : topName? line = none := if_neg h

/-- The line of a module introduces the module. -/
theorem topName?_module (name : String) :
    topName? ⟨0, "pub mod " ++ name ++ ";"⟩ = some ⟨.module, name⟩ := by
  unfold topName?
  dsimp only
  rw [if_pos rfl, between?_eq, Option.map_some, Option.some_or]

/-- The header of a record introduces the record. -/
theorem topName?_record (name : String) :
    topName? ⟨0, "pub struct " ++ name ++ " \x7b"⟩ = some ⟨.record, name⟩ := by
  have hmodule : behind? "pub mod " ("pub struct " ++ name ++ " \x7b").toList = none := by
    rw [String.toList_append, String.toList_append]
    rfl
  unfold topName?
  dsimp only
  rw [if_pos rfl, between?_of_behind? ";" hmodule, between?_eq, Option.map_none, Option.map_some,
    Option.none_or, Option.some_or]

/-- The header of an enum introduces the enum. -/
theorem topName?_enumeration (name : String) :
    topName? ⟨0, "pub enum " ++ name ++ " \x7b"⟩ = some ⟨.enumeration, name⟩ := by
  have hmodule : behind? "pub mod " ("pub enum " ++ name ++ " \x7b").toList = none := by
    rw [String.toList_append, String.toList_append]
    rfl
  have hrecord : behind? "pub struct " ("pub enum " ++ name ++ " \x7b").toList = none := by
    rw [String.toList_append, String.toList_append]
    rfl
  unfold topName?
  dsimp only
  rw [if_pos rfl, between?_of_behind? ";" hmodule, between?_of_behind? " \x7b" hrecord, between?_eq,
    Option.map_none, Option.map_none, Option.map_some, Option.none_or, Option.none_or]

namespace NameReader

/-- A line outside of blocks that begins with another letter than `pub`. -/
theorem reads_of_head {line : Line} (h : line.text.toList.head? ≠ some 'p') :
    Reads none [line] none [] := reads_of_topName?_none (topName?_of_head h)

/-- Documentation introduces nothing. -/
theorem reads_docLines_outside (decorators : List Decorator) :
    Reads none (docLines 0 decorators) none [] := by
  refine .of_silent fun line hline => ?_
  obtain ⟨text, rfl⟩ := exists_of_mem_docLines hline
  refine reads_of_head ?_
  rw [head_doc]
  decide

/-! ## Inside of blocks -/

section

variable {role : NameRole}

theorem reads_of_inner? {level : Nat} {text name : String}
    (h : role.inner? ⟨level + 1, text⟩ = some name) :
    Reads (some role) [⟨level + 1, text⟩] (some role) [⟨role, name⟩] :=
  .of_next fun found => by simp [next, h]

theorem reads_of_inner?_none {level : Nat} {text : String}
    (h : role.inner? ⟨level + 1, text⟩ = none) :
    Reads (some role) [⟨level + 1, text⟩] (some role) [] :=
  .of_next fun found => by simp [next, h]

/-- The closing brace ends a block. -/
theorem reads_close : Reads (some role) [⟨0, "\x7d"⟩] none [] :=
  .of_next fun found => by simp [next]

/-- A block introduces its own name and those of its body. -/
theorem reads_blockLines {header : String} {introduced : IntroducedName} {body : List Line}
    {names : List IntroducedName} (hheader : topName? ⟨0, header ++ " \x7b"⟩ = some introduced)
    (hmembers : introduced.role.members? = some role)
    (hbody : Reads (some role) body (some role) names) :
    Reads none (blockLines header body) none (introduced :: names) := by
  have hopen := reads_of_topName? hheader
  rw [hmembers] at hopen
  have hblock := hopen.append (hbody.append reads_close)
  rwa [List.append_nil] at hblock

end

theorem inner?_doc (role : NameRole) (text : String) : role.inner? ⟨1, "/// " ++ text⟩ = none := by
  unfold NameRole.inner?
  dsimp only
  rw [head_doc, String.toList_append]
  cases role <;> rfl

/-- Nor does documentation within a block. -/
theorem reads_docLines_inside (role : NameRole) (decorators : List Decorator) :
    Reads (some role) (docLines 1 decorators) (some role) [] := by
  refine .of_silent fun line hline => ?_
  obtain ⟨text, rfl⟩ := exists_of_mem_docLines hline
  exact reads_of_inner?_none (inner?_doc role text)

/-! ## Fields and variants -/

theorem inner?_field_of_head {text : String} (h : text.toList.head? ≠ some 'p') :
    NameRole.field.inner? ⟨1, text⟩ = none := by
  have hnone : behind? "pub " text.toList = none := behind?_of_head rfl h
  simp [NameRole.inner?, hnone]

/-- The name of a field ends in front of the first colon. -/
theorem inner?_field {name : String} (hname : ∀ c ∈ name.toList, isIdentChar c = true)
    (typeText : String) :
    NameRole.field.inner? ⟨1, "pub " ++ name ++ ": " ++ typeText ++ ","⟩ = some name := by
  have hbehind : behind? "pub " ("pub " ++ name ++ ": " ++ typeText ++ ",").toList
      = some (name.toList ++ (": " ++ typeText ++ ",").toList) := by
    simp only [String.toList_append, List.append_assoc]
    exact behind?_append _ _
  have hcolon : ∀ c ∈ name.toList, decide (c ≠ ':') = true := by
    intro c hc
    refine decide_eq_true ?_
    rintro rfl
    exact absurd (hname _ hc) (by decide)
  have hrest : ∃ rest, (": " ++ typeText ++ ",").toList = ':' :: rest := by
    rw [String.toList_append, String.toList_append]
    exact ⟨_, rfl⟩
  obtain ⟨rest, hrest⟩ := hrest
  simp only [NameRole.inner?, hbehind, Option.map_some]
  rw [hrest, List.takeWhile_append_of_pos hcolon, List.takeWhile_cons_of_neg (by decide),
    List.append_nil, String.ofList_toList]

/-- The lines of a field introduce its name once. -/
theorem reads_fieldLines {field : Field} (hfield : ∀ c ∈ field.name.toList, isIdentChar c = true) :
    Reads (some .field) (fieldLines 1 field) (some .field) [⟨.field, field.name⟩] := by
  have hsilent {text : String} (h : text.toList.head? ≠ some 'p') :
      Reads (some .field) [⟨1, text⟩] (some .field) [] :=
    reads_of_inner?_none (inner?_field_of_head h)
  have hattributes : Reads (some .field) ((fieldAttributes field).map fun text => ⟨2, text⟩)
      (some .field) [] := by
    refine .of_silent fun line hline => ?_
    obtain ⟨text, -, rfl⟩ := List.mem_map.1 hline
    exact reads_of_inner?_none rfl
  have hname := reads_of_inner? (inner?_field hfield field.typeText)
  exact ((((reads_docLines_inside .field field.decorators).append (hsilent (by decide))).append
    hattributes).append (hsilent (by decide))).append hname

/-- The name of a variant ends in front of the comma. -/
theorem inner?_variant {name : String} (hname : ∀ c ∈ name.toList, isIdentChar c = true) :
    NameRole.variant.inner? ⟨1, name ++ ","⟩ = some name := by
  have hslash : (name ++ ",").toList.head? ≠ some '/' := head_variant_ne hname rfl (by decide)
  have hhash : (name ++ ",").toList.head? ≠ some '#' := head_variant_ne hname rfl (by decide)
  have hbetween : between? "" "," (name ++ ",").toList = some name := by
    have h := between?_eq "" "," name
    rwa [String.empty_append] at h
  simp only [NameRole.inner?, if_neg (not_or.2 ⟨hslash, hhash⟩), hbetween]

/-- The lines of a variant introduce its name once. -/
theorem reads_variantLines (options : Options) (value : Property) :
    Reads (some .variant) (variantLines options value) (some .variant)
      [⟨.variant, typeName options.reserved value.name⟩] := by
  have hrename : Reads (some .variant) (renameLines options value) (some .variant) [] := by
    refine .of_silent fun line hline => ?_
    unfold renameLines at hline
    split at hline
    · exact absurd hline List.not_mem_nil
    · rw [List.mem_singleton.1 hline]
      refine reads_of_inner?_none ?_
      simp [NameRole.inner?]
  have hchars : ∀ c ∈ (typeName options.reserved value.name).toList, isIdentChar c = true :=
    fun _ => isIdentChar_of_mem_typeName
  have hname := reads_of_inner? (inner?_variant hchars)
  exact ((reads_docLines_inside .variant value.decorators).append hrename).append hname

end NameReader

/-! ## Declarations -/

/-- The names that a declaration introduces: its own, and those of its members. A record has the
discriminator for its first member. -/
def Graph.introducedNames (options : Options) (g : Graph) (d : Declaration) : List IntroducedName :=
  match d.body with
  | .record .. =>
      ⟨.record, typeName options.reserved d.name⟩ :: ⟨.field, discriminatorField⟩
        :: (g.dataMembers d).map fun m => ⟨.field, memberName options.reserved m.property.name⟩
  | .enumeration values =>
      ⟨.enumeration, typeName options.reserved d.name⟩
        :: values.map fun value => ⟨.variant, typeName options.reserved value.name⟩
  | .scalar .. => []

namespace NameReader

section

variable (options : Options) (g : Graph) (d : Declaration)

/-- A record introduces its name, the discriminator and one field for each member, in this order.
-/
theorem reads_recordLines :
    Reads none (recordLines options (memberName options.reserved) g d) none
      (⟨.record, typeName options.reserved d.name⟩ :: ⟨.field, discriminatorField⟩
        :: (g.dataMembers d).map
          fun m => ⟨.field, memberName options.reserved m.property.name⟩) := by
  have hfields : Reads (some .field)
      ((recordFields options (memberName options.reserved) g d).flatMap (fieldLines 1))
        (some .field)
      ((recordFields options (memberName options.reserved) g d).map fun field =>
        ⟨.field, field.name⟩) := by
    rw [List.map_eq_flatMap]
    refine .flatMap fun field hfield => reads_fieldLines ?_
    rw [recordFields, List.mem_cons, List.mem_map] at hfield
    rcases hfield with rfl | ⟨m, -, rfl⟩
    · have hdiscriminator : discriminatorField.toList.all isIdentChar = true := by decide
      exact List.all_eq_true.1 hdiscriminator
    · exact fun c => isIdentChar_of_mem_memberName
  have hnames : ((recordFields options (memberName options.reserved) g d).map fun field =>
      (⟨.field, field.name⟩ : IntroducedName))
        = ⟨.field, discriminatorField⟩
          :: (g.dataMembers d).map
            fun m => ⟨.field, memberName options.reserved m.property.name⟩ := by
    rw [recordFields, List.map_cons, List.map_map]
    rfl
  have hblank : Reads none [.blank] none [] := reads_of_head (by decide)
  have hstruct := reads_blockLines (topName?_record (typeName options.reserved d.name)) rfl hfields
  -- the constant stands outside of the blocks that are read
  have himpl : Reads none
      (blockLines ("impl " ++ typeName options.reserved d.name) [constantLine d]) none [] := by
    refine (reads_of_head ?_).append
      ((reads_of_topName?_none (topName?_of_indent Nat.one_ne_zero)).append
      (reads_of_head (by decide)))
    simp [String.toList_append]
  rw [hnames] at hstruct
  have hderive : Reads none [deriveLine] none [] := reads_of_head (by decide)
  have hrecord := ((((hblank.append (reads_docLines_outside d.decorators)).append hderive).append
    hstruct).append hblank).append himpl
  rwa [List.append_nil, List.append_nil] at hrecord

/-- An enum introduces its name and one variant for each value, in this order. -/
theorem reads_enumLines (values : List Property) :
    Reads none (enumLines options d values) none
      (⟨.enumeration, typeName options.reserved d.name⟩
        :: values.map fun value => ⟨.variant, typeName options.reserved value.name⟩) := by
  have hvariants : Reads (some .variant) (values.flatMap (variantLines options)) (some .variant)
      (values.map fun value => ⟨.variant, typeName options.reserved value.name⟩) := by
    rw [List.map_eq_flatMap]
    exact .flatMap fun value _ => reads_variantLines options value
  have hblank : Reads none [.blank] none [] := reads_of_head (by decide)
  have hderive : Reads none [deriveLine] none [] := reads_of_head (by decide)
  have hallow : Reads none [⟨0, "#[allow(non_camel_case_types)]"⟩] none [] :=
    reads_of_head (by decide)
  have henum :=
    reads_blockLines (topName?_enumeration (typeName options.reserved d.name)) rfl hvariants
  have hdocumented := hblank.append (reads_docLines_outside d.decorators)
  exact ((hdocumented.append hderive).append hallow).append henum

/-- A declaration introduces the names that it is said to introduce. -/
theorem reads_declarationLines :
    Reads none (declarationLines options (memberName options.reserved) g d) none
      (g.introducedNames options d) := by
  unfold declarationLines Graph.introducedNames
  cases d.body with
  | record flavor isAbstract superType properties => exact reads_recordLines options g d
  | enumeration values => exact reads_enumLines options d values
  | scalar primitive default => exact reads_nil

end

/-! ## Units -/

/-- The head of a unit introduces nothing, for it only brings names into scope. -/
theorem reads_headerTexts (ns : Namespace) :
    Reads none ((headerTexts ns).map fun text => ⟨0, text⟩) none [] := by
  refine .of_silent fun line hline => ?_
  obtain ⟨text, htext, rfl⟩ := List.mem_map.1 hline
  have huse (module : String) : (useLine module).toList.head? ≠ some 'p' := by
    simp [useLine, String.toList_append]
  rw [headerTexts, List.mem_append, List.mem_append, List.mem_map, List.mem_singleton] at htext
  rcases htext with (hfixed | ⟨source, -, rfl⟩) | rfl
  · simp only [List.mem_cons, List.not_mem_nil, or_false] at hfixed
    rcases hfixed with rfl | rfl | rfl | rfl <;> exact reads_of_head (by decide)
  · exact reads_of_head (huse _)
  · exact reads_of_head (huse _)

/-- What is read from plain lines is read from what is stored of them. -/
theorem namesIn_map_render {lines : List Line} {names : List IntroducedName}
    {block? : Option NameRole} (hplain : ∀ line ∈ lines, line.IsPlain)
    (h : Reads none lines block? names) :
    namesIn (lines.map Line.render) = names := by
  rw [namesIn, map_storedLine_render hplain, start, h [], List.nil_append]

end NameReader

open NameReader

/-- **The unit of a namespace introduces the names of its declarations**, in order, and no others.
-/
theorem namesIn_namespacePlan {options : Options} {g : Graph} {ns : Namespace}
    (h : ∀ d ∈ ns.declarations, g.MembersDistinct options d) :
    namesIn (namespacePlan options (memberName options.reserved) g ns).sealed.lines
      = ns.declarations.flatMap (g.introducedNames options) := by
  have hplain : ∀ line ∈ unitLines options (memberName options.reserved) g ns, line.IsPlain := by
    rw [unitLines, List.forall_mem_append, List.forall_mem_flatMap]
    exact ⟨isPlain_headerTexts ns, fun d _ => isPlain_declarationLines options _ g d⟩
  have hreads : Reads none (unitLines options (memberName options.reserved) g ns) none
      ([] ++ ns.declarations.flatMap (g.introducedNames options)) :=
    (reads_headerTexts ns).append (.flatMap fun d _ => reads_declarationLines options g d)
  rw [sealed_namespacePlan options g h, ← map_render_unitLines]
  exact namesIn_map_render hplain hreads

/-- The manifest introduces the modules of the namespaces and the one of the hooks. -/
theorem namesIn_manifestPlan (g : Graph) :
    namesIn (manifestPlan g).sealed.lines
      = (g.namespaces.map fun ns => ⟨.module, moduleName ns.name⟩)
        ++ [⟨.module, utilityModule⟩] := by
  have hmodules (modules : List String) :
      Reads none (modules.map fun module => ⟨0, manifestLine module⟩) none
        (modules.map fun module => ⟨.module, module⟩) := by
    rw [List.map_eq_flatMap, List.map_eq_flatMap]
    exact .flatMap fun module _ => reads_of_topName? (topName?_module module)
  have hplain (modules : List String) :
      ∀ line ∈ modules.map fun module => (⟨0, manifestLine module⟩ : Line), line.IsPlain := by
    rw [List.forall_mem_map]
    intro module _
    refine Line.isPlain_of_head (c := 'p') ?_ (by decide)
    simp [manifestLine, String.toList_append]
  have hnames := namesIn_map_render (hplain _)
    (hmodules (g.namespaces.map (fun ns => moduleName ns.name) ++ [utilityModule]))
  rw [sealed_manifestPlan, manifestTexts]
  simpa [List.map_map, Function.comp_def, Line.render_zero] using hnames

/-! ## The date-time hooks -/

/-- The line of the format declares a private constant, so no name is read from it. -/
theorem functionsOnly_formatLine (format : String) : FunctionsOnly (formatLine format).toList := by
  obtain ⟨rest, hline⟩ := List.head?_eq_some_iff.1 (head_formatLine format)
  have hnone : behind? "pub " ('c' :: rest) = none := behind?_of_head (c := 'p') rfl (by simp)
  intro found hfound
  rw [hline, List.dropWhile_cons_of_neg (by decide), hnone] at hfound
  exact absurd hfound (by simp)

/-- A line that declares functions only introduces no name of another kind. -/
theorem topName?_of_functionsOnly {line : List Char} (h : FunctionsOnly line) :
    topName? (Line.ofSpaced line) = none := by
  -- a keyword of a name begins with another letter behind `pub`
  have hnone : ∀ keyword : String,
      (∃ c rest, keyword.toList = "pub ".toList ++ c :: rest ∧ c ≠ 'f') →
      behind? keyword (line.dropWhile (· = ' ')) = none := by
    rintro keyword ⟨c, rest, hkeyword, hc⟩
    cases hfound : behind? keyword (line.dropWhile (· = ' ')) with
    | none => rfl
    | some tail =>
        rw [behind?, List.isPrefixOf?_eq_some_iff_append_eq, hkeyword, List.append_assoc] at hfound
        have hpub : behind? "pub " (line.dropWhile (· = ' ')) = some (c :: (rest ++ tail)) := by
          rw [← hfound]
          exact behind?_append _ _
        exact absurd (Option.some.inj (h _ hpub)) hc
  have hmodule := hnone "pub mod " ⟨'m', "od ".toList, rfl, by decide⟩
  have hrecord := hnone "pub struct " ⟨'s', "truct ".toList, rfl, by decide⟩
  have henumeration := hnone "pub enum " ⟨'e', "num ".toList, rfl, by decide⟩
  unfold topName? Line.ofSpaced
  dsimp only
  rw [String.toList_ofList, between?_of_behind? ";" hmodule, between?_of_behind? " \x7b" hrecord,
    between?_of_behind? " \x7b" henumeration]
  split <;> rfl

/-- Cut text is stored as a line that reads like it. -/
theorem topName?_storedLine_ofSpaced {line : List Char} (h : FunctionsOnly line) :
    topName? (storedLine (Line.ofSpaced line).render) = none := by
  by_cases hempty : (Line.ofSpaced line).text = ""
  · have hrender : (Line.ofSpaced line).render = "" := by
      rw [Line.render, hempty]
      rfl
    rw [hrender]
    decide
  · have hhead : (Line.ofSpaced line).text.toList.head? ≠ some ' ' := by
      rw [Line.ofSpaced, String.toList_ofList]
      intro hspace
      have hkept := List.head?_dropWhile_not (fun c => decide (c = ' ')) line
      rw [hspace] at hkept
      exact absurd hkept (by decide)
    rw [storedLine_render ⟨hhead, fun h => absurd h hempty⟩]
    exact topName?_of_functionsOnly h

/-- The hooks introduce no names of these kinds, whatever the format. -/
theorem namesIn_dateTimePlan (options : Options) :
    namesIn (dateTimePlan options).sealed.lines = [] := by
  have hreads : Reads none ((dateTimeTexts options).map storedLine) none [] := by
    refine .of_silent fun line hline => ?_
    obtain ⟨stored, hstored, rfl⟩ := List.mem_map.1 hline
    rw [dateTimeTexts] at hstored
    obtain ⟨text, htext, rfl⟩ := List.mem_map.1 hstored
    refine reads_of_topName?_none (topName?_storedLine_ofSpaced ?_)
    rcases mem_splitLines_dateTimeSource htext with hfixed | rfl
    · exact hfixed.2
    · exact functionsOnly_formatLine _
  rw [sealed_dateTimePlan, namesIn, start, hreads []]
  rfl

end ModelForge
