/-
`FieldAttributes.lean` -- the attributes of a field agree with its type.

The type of a field, its hooks and the lines of its attribute are made in three places from the
same few facts about a member. What must hold of the outcome is that they never contradict one
another: a field is routed through the functions for date-times exactly if it holds a single
date-time, through those for absent ones exactly if its type is an option, and only then does it
have a default.

The attributes are recognized in the source, by the word that a line begins with
(`attributesNamed`). No other line of a field can be taken for one of them: those of the
documentation begin with a slash, the brackets with none of the words, and the field itself with
`pub`. Of the model only one fact is needed, which references mean a primitive
(`Graph.referent_eq_primitive_iff`).
-/
import ModelForge.Proofs.Boxing
import ModelForge.Proofs.Layout
import ModelForge.Proofs.Literals

set_option autoImplicit false

namespace ModelForge

/-! ## Attributes by name -/

/-- The word that a text begins with. -/
def leadingWord (text : String) : String := String.ofList (text.toList.takeWhile isIdentChar)

/-- The lines that begin with the given word. -/
def attributesNamed (word : String) (lines : List Line) : List String :=
  (lines.map Line.text).filter fun text => leadingWord text = word

/-- A text that does not end within its first word can go on in any way. -/
theorem leadingWord_append {front : String} (rest : String) (h : leadingWord front ≠ front) :
    leadingWord (front ++ rest) = leadingWord front := by
  have hlength : (front.toList.takeWhile isIdentChar).length ≠ front.toList.length := by
    intro hlength
    have hall := (List.takeWhile_prefix isIdentChar (l := front.toList)).eq_of_length hlength
    apply h
    rw [leadingWord, hall, String.ofList_toList]
  rw [leadingWord, String.toList_append, List.takeWhile_append, if_neg hlength, leadingWord]

theorem attributesNamed_append (word : String) (lines lines' : List Line) :
    attributesNamed word (lines ++ lines')
      = attributesNamed word lines ++ attributesNamed word lines' := by
  rw [attributesNamed, List.map_append, List.filter_append, attributesNamed, attributesNamed]

/-- The words that say how a field is written and read. -/
def wireWords : List String :=
  ["skip_serializing_if", "serialize_with", "deserialize_with", "default"]

/-- The words that the other lines of a record begin with, if they begin with any. -/
def otherWords : List String := ["", "pub", "rename", "impl"]

section

variable {word : String} (hword : word ∈ wireWords)

include hword

/-- Lines that begin otherwise say nothing of what is asked for. -/
theorem attributesNamed_eq_nil {lines : List Line}
    (h : ∀ line ∈ lines, leadingWord line.text ∈ otherWords) : attributesNamed word lines = [] := by
  have hdisjoint : ∀ other ∈ otherWords, other ∉ wireWords := by decide
  rw [attributesNamed, List.filter_eq_nil_iff, List.forall_mem_map]
  intro line hline heq
  rw [decide_eq_true_eq] at heq
  exact hdisjoint _ (h line hline) (heq ▸ hword)

theorem attributesNamed_singleton (level : Nat) {text : String}
    (h : leadingWord text ∈ otherWords) :
    attributesNamed word [⟨level, text⟩] = [] := by
  apply attributesNamed_eq_nil hword
  intro line hline
  rwa [List.mem_singleton.1 hline]

/-- Documentation is no attribute, whatever it says. -/
theorem attributesNamed_docLines (level : Nat) (decorators : List Decorator) :
    attributesNamed word (docLines level decorators) = [] := by
  apply attributesNamed_eq_nil hword
  intro line hline
  obtain ⟨text, rfl⟩ := exists_of_mem_docLines hline
  dsimp only
  rw [leadingWord_append text (by decide)]
  decide

/-- Only the lines of the attribute begin with such a word. -/
theorem attributesNamed_fieldLines (level : Nat) (field : Field) :
    attributesNamed word (fieldLines level field)
      = (fieldAttributes field).filter fun text => leadingWord text = word := by
  -- the brackets begin with no word, and the field with one that is no attribute
  have hopen : attributesNamed word [⟨level, "#[serde("⟩] = [] :=
    attributesNamed_singleton hword level (by decide)
  have hclose : attributesNamed word [⟨level, ")]"⟩] = [] :=
    attributesNamed_singleton hword level (by decide)
  have hfield : attributesNamed word
      [⟨level, "pub " ++ field.name ++ ": " ++ field.typeText ++ ","⟩] = [] := by
    apply attributesNamed_singleton hword
    simp only [String.append_assoc]
    rw [leadingWord_append _ (by decide)]
    decide
  have hattributes : attributesNamed word
      ((fieldAttributes field).map fun text => ⟨level + 1, text⟩)
        = (fieldAttributes field).filter fun text => leadingWord text = word := by
    rw [attributesNamed, List.map_map]
    exact congrArg _ (List.map_id _)
  rw [fieldLines, attributesNamed_append, attributesNamed_append, attributesNamed_append,
    attributesNamed_append, attributesNamed_docLines hword, hopen, hclose, hfield, hattributes,
    List.nil_append, List.nil_append, List.append_nil, List.append_nil]

end

/-! ## The attributes of a field -/

@[simp] theorem leadingWord_rename (wireName : String) :
    leadingWord ("rename = " ++ quoted wireName ++ ",") = "rename" := by
  rw [String.append_assoc, leadingWord_append _ (by decide)]
  decide

@[simp] theorem leadingWord_serialize (function : String) :
    leadingWord ("serialize_with = " ++ quoted function ++ ",") = "serialize_with" := by
  rw [String.append_assoc, leadingWord_append _ (by decide)]
  decide

@[simp] theorem leadingWord_deserialize (function : String) :
    leadingWord ("deserialize_with = " ++ quoted function ++ ",") = "deserialize_with" := by
  rw [String.append_assoc, leadingWord_append _ (by decide)]
  decide

@[simp] theorem leadingWord_skip :
    leadingWord "skip_serializing_if = \"Option::is_none\"," = "skip_serializing_if" := by decide

@[simp] theorem leadingWord_default : leadingWord "default," = "default" := by decide

section

variable (level : Nat) (field : Field)

/-- A field says that it is left out when it is empty exactly if it is optional. -/
theorem attributesNamed_skip :
    attributesNamed "skip_serializing_if" (fieldLines level field)
      = if field.isOptional then ["skip_serializing_if = \"Option::is_none\","] else [] := by
  rw [attributesNamed_fieldLines (by decide), fieldAttributes]
  cases field.hooks <;> cases field.isOptional <;> simp

/-- It names the function that writes it exactly if it has hooks. -/
theorem attributesNamed_serialize :
    attributesNamed "serialize_with" (fieldLines level field)
      = (field.hooks.map fun hooks => "serialize_with = " ++ quoted hooks.serialize
        ++ ",").toList := by
  rw [attributesNamed_fieldLines (by decide), fieldAttributes]
  cases field.hooks <;> cases field.isOptional <;> simp

/-- It names the function that reads it exactly if it has hooks. -/
theorem attributesNamed_deserialize :
    attributesNamed "deserialize_with" (fieldLines level field)
      = (field.hooks.map fun hooks =>
          "deserialize_with = " ++ quoted hooks.deserialize ++ ",").toList := by
  rw [attributesNamed_fieldLines (by decide), fieldAttributes]
  cases field.hooks <;> cases field.isOptional <;> simp

/-- It asks for a default only if it has hooks and is optional. -/
theorem attributesNamed_default :
    attributesNamed "default" (fieldLines level field)
      = if field.hooks.isSome && field.isOptional then ["default,"] else [] := by
  rw [attributesNamed_fieldLines (by decide), fieldAttributes]
  cases field.hooks <;> cases field.isOptional <;> simp

/-- The two lines that route a field through the given functions. -/
def ShowsHooks (hooks : Hooks) (lines : List Line) : Prop :=
  attributesNamed "serialize_with" lines = ["serialize_with = " ++ quoted hooks.serialize ++ ","]
    ∧ attributesNamed "deserialize_with" lines
      = ["deserialize_with = " ++ quoted hooks.deserialize ++ ","]

/-- The two lines are there exactly if the field has these hooks. -/
theorem showsHooks_fieldLines (hooks : Hooks) :
    ShowsHooks hooks (fieldLines level field) ↔ field.hooks = some hooks := by
  rw [ShowsHooks, attributesNamed_serialize, attributesNamed_deserialize]
  cases field.hooks with
  | none => simp
  | some other =>
      obtain ⟨serialize, deserialize⟩ := hooks
      obtain ⟨serialize', deserialize'⟩ := other
      simp [String.append_left_inj, String.append_right_inj, quoted_injective.eq_iff]

/-- The line of the field itself, behind its attribute. -/
def ShowsType (name typeText : String) (lines : List Line) : Prop :=
  lines.getLast? = some ⟨1, "pub " ++ name ++ ": " ++ typeText ++ ","⟩

/-- The last line of a field shows its type and no other. -/
theorem showsType_fieldLines (typeText : String) :
    ShowsType field.name typeText (fieldLines 1 field) ↔ field.typeText = typeText := by
  rw [ShowsType, fieldLines, List.getLast?_append, List.getLast?_singleton, Option.some_or,
    Option.some.injEq, Line.mk.injEq, String.append_left_inj, String.append_right_inj]
  exact and_iff_right rfl

end

/-! ## What a member holds -/

namespace Graph

/-- The member is a field that holds one date-time. Its type is the keyword, or a scalar that
stands for it, wherever the scalar is declared and however it is referred to. -/
def HoldsDateTime (g : Graph) (m : Member) : Prop :=
  m.property.kind = .field ∧ m.property.isArray = false
    ∧ (m.property.typeRef = .ofPrimitive .dateTime
      ∨ ∃ d default, g.resolve m.declaredIn.owner m.property.typeRef = some d
        ∧ d.body = .scalar .dateTime default)

/-- What holds one date-time can be told from what the type of the member refers to. -/
theorem holdsDateTime_iff {g : Graph} {m : Member} :
    g.HoldsDateTime m ↔ g.memberReferent m = .primitive .dateTime ∧ m.property.isArray = false := by
  rw [HoldsDateTime, memberReferent, referent_eq_primitive_iff, and_assoc,
    and_comm (a := _ = false)]

section

variable {options : Options} {g : Graph} {owner : Declaration}
    {ownerIsRecursive : Bool} {m : Member}

/-- A date-time is routed through the functions that its type asks for, and nothing else is
routed. -/
theorem hooks_memberType_eq_some_iff {hooks : Hooks} :
    (memberType options g owner ownerIsRecursive m).2 = some hooks
      ↔ g.HoldsDateTime m
        ∧ hooks = if m.property.isOptional then .optionalDateTime else .dateTime := by
  rw [holdsDateTime_iff, memberType]
  cases g.memberReferent m with
  | primitive p =>
      -- of the primitives only date-times have functions, and an array of them has none
      cases p with
      | dateTime =>
          cases m.property.isArray <;> cases m.property.isOptional <;>
            simp [hooksFor?, eq_comm (b := hooks)]
      | boolean | integer | long | double | string => simp [hooksFor?]
  | declaration target => simp
  | unresolved name => simp

end

/-- The base of a member's type in the record of `owner`, before it is wrapped as an array or an
option. -/
def baseType (options : Options) (g : Graph) (owner : Declaration) (m : Member) : String :=
  match g.memberReferent m with
  | .primitive p => p.typeText
  | .declaration target =>
      if g.boxes owner (g.isRecursive owner) m target then
        boxType (typeName options.reserved target.name)
      else typeName options.reserved target.name
  | .unresolved name => name

/-- The type of a field is its base in the wrapping that the member asks for. -/
theorem fieldType_eq_wrapType (options : Options) (g : Graph) (owner : Declaration) (m : Member) :
    g.fieldType options owner m
      = wrapType (g.baseType options owner m) m.property.isArray m.property.isOptional := by
  rw [fieldType, memberType, baseType]
  cases g.memberReferent m <;> rfl

/-- The base of a member's type is the record or the enum that the member names, boxed or not, or
else the name itself. -/
def BaseIsNamed (options : Options) (g : Graph) (owner : Declaration) (m : Member) : Prop :=
  (∃ target, g.resolve m.declaredIn.owner m.property.typeRef = some target
      ∧ (∀ p default, target.body ≠ .scalar p default)
      ∧ (g.baseType options owner m = typeName options.reserved target.name
        ∨ g.baseType options owner m = boxType (typeName options.reserved target.name)))
    ∨ g.baseType options owner m = m.property.typeRef.name
      ∧ ∀ target, g.resolve m.declaredIn.owner m.property.typeRef = some target →
        ∃ p default, target.body = .scalar p default

/-- What is no field names its base: a declaration, boxed or not, or else the name as it is
written. -/
theorem baseIsNamed_of_not_field {options : Options} {g : Graph} {owner : Declaration} {m : Member}
    (hkind : m.property.kind ≠ .field) : g.BaseIsNamed options owner m := by
  cases hreferent : g.memberReferent m with
  | primitive p => exact absurd (referent_eq_primitive_iff.1 hreferent).1 hkind
  | declaration target =>
      obtain ⟨hresolve, hbody⟩ :=
        declared_eq_declaration_iff.1 (referent_eq_declaration_iff.1 hreferent).2
      refine .inl ⟨target, hresolve, hbody, ?_⟩
      rw [baseType, hreferent]
      dsimp only
      by_cases hbox : g.boxes owner (g.isRecursive owner) m target = true
      · rw [if_pos hbox]
        exact .inr rfl
      · rw [if_neg hbox]
        exact .inl rfl
  | unresolved name =>
      refine .inr ⟨?_, fun target hresolve => ?_⟩
      · rw [baseType, hreferent]
        exact name_of_referent_unresolved hreferent
      · -- a class or an enum would have been the referent
        by_contra hscalar
        push Not at hscalar
        have hdeclaration : g.memberReferent m = .declaration target :=
          referent_eq_declaration_iff.2 ⟨fun hfield => absurd hfield hkind,
            declared_eq_declaration_iff.2 ⟨hresolve, hscalar⟩⟩
        rw [hreferent] at hdeclaration
        exact absurd hdeclaration (by simp)

/-! ## The lines of a member -/

section

variable (options : Options) (naming : String → String) (g : Graph)
    (owner : Declaration) (m : Member)

/-- The lines of a member in the record of `owner`. -/
def memberLines : List Line :=
  let field := memberField options g owner (g.isRecursive owner) (naming m.property.name) m
  ((fieldFragment field).emit 1).lines

/-- The lines of a member are those of its field. -/
theorem memberLines_eq_fieldLines :
    g.memberLines options naming owner m
      = fieldLines 1
          (memberField options g owner (g.isRecursive owner) (naming m.property.name) m) := by
  rw [memberLines, emit_fieldFragment]

/-- **Hooks are shown by exactly the members that hold one date-time**, each with the pair for its
type. -/
theorem showsHooks_memberLines (hooks : Hooks) :
    ShowsHooks hooks (g.memberLines options naming owner m)
      ↔ g.HoldsDateTime m
        ∧ hooks = if m.property.isOptional then .optionalDateTime else .dateTime := by
  rw [memberLines_eq_fieldLines, showsHooks_fieldLines]
  exact hooks_memberType_eq_some_iff

/-- The type that is shown is the one that was decided on. -/
theorem showsType_memberLines (typeText : String) :
    ShowsType (naming m.property.name) typeText (g.memberLines options naming owner m)
      ↔ g.fieldType options owner m = typeText := by
  rw [memberLines_eq_fieldLines]
  exact showsType_fieldLines _ typeText

theorem hooks_memberField_ne_none_iff {name : String} :
    (memberField options g owner (g.isRecursive owner) name m).hooks ≠ none
      ↔ g.HoldsDateTime m := by
  rw [Option.ne_none_iff_exists']
  exact (exists_congr fun _ => hooks_memberType_eq_some_iff).trans (by simp)

/-- Only what holds one date-time names a function that writes it. -/
theorem serialize_memberLines_ne_nil_iff :
    attributesNamed "serialize_with" (g.memberLines options naming owner m) ≠ []
      ↔ g.HoldsDateTime m := by
  rw [memberLines_eq_fieldLines, attributesNamed_serialize, Ne, Option.toList_eq_nil_iff,
    Option.map_eq_none_iff]
  exact g.hooks_memberField_ne_none_iff options owner m

/-- Only what holds one date-time names a function that reads it. -/
theorem deserialize_memberLines_ne_nil_iff :
    attributesNamed "deserialize_with" (g.memberLines options naming owner m) ≠ []
      ↔ g.HoldsDateTime m := by
  rw [memberLines_eq_fieldLines, attributesNamed_deserialize, Ne, Option.toList_eq_nil_iff,
    Option.map_eq_none_iff]
  exact g.hooks_memberField_ne_none_iff options owner m

/-- Only what is optional is left out when it is empty. -/
theorem skip_memberLines_ne_nil_iff :
    attributesNamed "skip_serializing_if" (g.memberLines options naming owner m) ≠ []
      ↔ m.property.isOptional = true := by
  have hoptional :
      (memberField options g owner (g.isRecursive owner) (naming m.property.name) m).isOptional
      = m.property.isOptional := rfl
  rw [memberLines_eq_fieldLines, attributesNamed_skip, hoptional]
  cases m.property.isOptional <;> simp

/-- A default is given to what has functions and may be absent. -/
theorem default_memberLines_ne_nil_iff :
    attributesNamed "default" (g.memberLines options naming owner m) ≠ []
      ↔ g.HoldsDateTime m ∧ m.property.isOptional = true := by
  have hoptional :
      (memberField options g owner (g.isRecursive owner) (naming m.property.name) m).isOptional
      = m.property.isOptional := rfl
  rw [memberLines_eq_fieldLines, attributesNamed_default, hoptional,
    ← g.hooks_memberField_ne_none_iff options owner m, ← Option.isSome_iff_ne_none]
  cases (memberField options g owner (g.isRecursive owner)
    (naming m.property.name) m).hooks.isSome <;>
    cases m.property.isOptional <;> simp

/-- A date-time is never an array and never boxed. -/
theorem fieldType_of_holdsDateTime {options : Options} {g : Graph} {owner : Declaration}
    {m : Member} (h : g.HoldsDateTime m) :
    g.fieldType options owner m = wrapType "DateTime<Utc>" false m.property.isOptional := by
  obtain ⟨hreferent, harray⟩ := holdsDateTime_iff.1 h
  rw [fieldType_of_primitive hreferent, harray, Primitive.typeText]

end

end Graph

/-! ## Attributes and types -/

/-- The lines of a member of `owner` are consistent with one another and with the type of the
member. -/
structure AttributesFollowType (options : Options) (naming : String → String) (g : Graph)
    (owner : Declaration) (m : Member) (lines : List Line) : Prop where
  /-- Date-times are routed through functions, and nothing else is. -/
  serialize : attributesNamed "serialize_with" lines ≠ [] ↔ g.HoldsDateTime m
  deserialize : attributesNamed "deserialize_with" lines ≠ [] ↔ g.HoldsDateTime m
  /-- There are two pairs of functions, for date-times that may be absent and for the others. -/
  optionPair : ShowsHooks .optionalDateTime lines
    ↔ g.HoldsDateTime m ∧ m.property.isOptional = true
  plainPair : ShowsHooks .dateTime lines ↔ g.HoldsDateTime m ∧ m.property.isOptional = false
  /-- The pair determines the type, to the letter. -/
  optionType : ShowsHooks .optionalDateTime lines →
    ShowsType (naming m.property.name) "Option<DateTime<Utc>>" lines
  plainType : ShowsHooks .dateTime lines →
    ShowsType (naming m.property.name) "DateTime<Utc>" lines
  default : attributesNamed "default" lines ≠ [] ↔ ShowsHooks .optionalDateTime lines
  skip : attributesNamed "skip_serializing_if" lines ≠ [] ↔ m.property.isOptional = true
  type : ShowsType (naming m.property.name)
    (wrapType (g.baseType options owner m) m.property.isArray m.property.isOptional) lines
  /-- What holds a primitive has the type that the keyword is mapped to, however the primitive is
  referred to. -/
  mapped : ∀ p, g.memberReferent m = .primitive p → ShowsType (naming m.property.name)
    (mapType p.keyword m.property.isArray m.property.isOptional) lines
  /-- The type is an option, around the array or the base, exactly if the member is optional. -/
  option : ShowsType (naming m.property.name)
      ("Option<" ++ wrapType (g.baseType options owner m) m.property.isArray false ++ ">") lines
    ↔ m.property.isOptional = true
  /-- What is no field, a relationship in particular, has no functions and means no primitive. -/
  relationship : m.property.kind ≠ .field →
    attributesNamed "serialize_with" lines = [] ∧ attributesNamed "deserialize_with" lines = []
      ∧ (∀ p, g.memberReferent m ≠ .primitive p) ∧ g.BaseIsNamed options owner m

/-- A type is wrapped as optional exactly if it is to be. -/
theorem wrapType_eq_option_iff (base : String) (isArray isOptional : Bool) :
    wrapType base isArray isOptional = "Option<" ++ wrapType base isArray false ++ ">"
      ↔ isOptional = true := by
  cases isOptional with
  | true => exact iff_of_true rfl rfl
  | false =>
      refine iff_of_false (fun h => ?_) Bool.false_ne_true
      -- the option is longer than what is in it
      have hlength := congrArg String.length h
      rw [String.length_append, String.length_append] at hlength
      have hopen : 0 < "Option<".length := by decide +kernel
      omega

/-- The keyword of a primitive is mapped to the type of the primitive. -/
theorem mapType_keyword (p : Primitive) (isArray isOptional : Bool) :
    mapType p.keyword isArray isOptional = wrapType p.typeText isArray isOptional := by
  have hkeyword : Primitive.ofKeyword? p.keyword = some p := Primitive.ofKeyword?_eq_some_iff.2 rfl
  rw [mapType, hkeyword]

/-- The attributes of a member say what its type says, and nothing else. -/
theorem attributesFollowType_memberLines (options : Options) (naming : String → String) (g : Graph)
    (owner : Declaration) (m : Member) :
    AttributesFollowType options naming g owner m (g.memberLines options naming owner m) := by
  set lines := g.memberLines options naming owner m
  have hserialize : attributesNamed "serialize_with" lines ≠ [] ↔ g.HoldsDateTime m :=
    g.serialize_memberLines_ne_nil_iff options naming owner m
  have hdeserialize : attributesNamed "deserialize_with" lines ≠ [] ↔ g.HoldsDateTime m :=
    g.deserialize_memberLines_ne_nil_iff options naming owner m
  have hoptionPair : ShowsHooks .optionalDateTime lines
      ↔ g.HoldsDateTime m ∧ m.property.isOptional = true := by
    rw [g.showsHooks_memberLines]
    cases m.property.isOptional <;> simp [Hooks.optionalDateTime, Hooks.dateTime]
  have hplainPair : ShowsHooks .dateTime lines
      ↔ g.HoldsDateTime m ∧ m.property.isOptional = false := by
    rw [g.showsHooks_memberLines]
    cases m.property.isOptional <;> simp [Hooks.optionalDateTime, Hooks.dateTime]
  have hdefault := g.default_memberLines_ne_nil_iff options naming owner m
  refine ⟨hserialize, hdeserialize, hoptionPair, hplainPair, fun hshown => ?_, fun hshown => ?_,
    hdefault.trans hoptionPair.symm, g.skip_memberLines_ne_nil_iff options naming owner m, ?_,
    fun p hreferent => ?_, ?_, fun hkind => ?_⟩
  · obtain ⟨hdate, hoptional⟩ := hoptionPair.1 hshown
    rw [g.showsType_memberLines, Graph.fieldType_of_holdsDateTime hdate, hoptional]
    rfl
  · obtain ⟨hdate, hoptional⟩ := hplainPair.1 hshown
    rw [g.showsType_memberLines, Graph.fieldType_of_holdsDateTime hdate, hoptional]
    rfl
  · rw [g.showsType_memberLines]
    exact g.fieldType_eq_wrapType options owner m
  · rw [g.showsType_memberLines, mapType_keyword]
    exact Graph.fieldType_of_primitive hreferent
  · rw [g.showsType_memberLines, g.fieldType_eq_wrapType]
    exact wrapType_eq_option_iff _ _ _
  · -- only fields hold primitives, date-times among them
    have hnone : ¬ g.HoldsDateTime m := fun hdate => hkind hdate.1
    refine ⟨?_, ?_, fun p hreferent => ?_, Graph.baseIsNamed_of_not_field hkind⟩
    · exact not_not.1 (mt hserialize.1 hnone)
    · exact not_not.1 (mt hdeserialize.1 hnone)
    · exact hkind (Graph.referent_eq_primitive_iff.1 hreferent).1

/-! ## Records -/

/-- The attributes in the record of a class are those of its members. -/
structure RecordAttributes (options : Options) (naming : String → String) (g : Graph)
    (owner : Declaration) (lines : List Line) : Prop where
  /-- A class with a clash among its members has no record. -/
  refused : recordClash? naming g owner ≠ none → lines = []
  /-- Otherwise the lines of the members stand in the record, and around them no such line does. -/
  listed : recordClash? naming g owner = none → ∃ front back,
    lines = front ++ (g.dataMembers owner).flatMap (g.memberLines options naming owner) ++ back
      ∧ ∀ word ∈ wireWords, attributesNamed word front = [] ∧ attributesNamed word back = []
  members : ∀ m ∈ g.dataMembers owner,
    AttributesFollowType options naming g owner m (g.memberLines options naming owner m)

section

variable (options : Options)

/-- What stands in front of the members in the record of a class. -/
def recordHead (owner : Declaration) : List Line :=
  [.blank] ++ docLines 0 owner.decorators ++ [deriveLine]
    ++ [⟨0, "pub struct " ++ typeName options.reserved owner.name ++ " \x7b"⟩]
    ++ fieldLines 1 discriminator

/-- What stands behind them. -/
def recordTail (owner : Declaration) : List Line :=
  [⟨0, "\x7d"⟩] ++ [.blank]
    ++ blockLines ("impl " ++ typeName options.reserved owner.name) [constantLine owner]

/-- A record is its head, the lines of its members and its tail. -/
theorem recordLines_eq_members (naming : String → String) (g : Graph) (owner : Declaration) :
    recordLines options naming g owner
      = recordHead options owner
        ++ (g.dataMembers owner).flatMap (g.memberLines options naming owner)
        ++ recordTail options owner := by
  -- behind the discriminator each field is that of a member
  have hmembers : (g.dataMembers owner).flatMap (g.memberLines options naming owner)
      = ((g.dataMembers owner).map fun m =>
          memberField options g owner (g.isRecursive owner) (naming m.property.name) m).flatMap
            (fieldLines 1) := by
    rw [List.flatMap_map]
    exact List.flatMap_congr fun m _ => g.memberLines_eq_fieldLines options naming owner m
  rw [recordLines, recordFields, List.flatMap_cons, hmembers]
  simp only [recordHead, recordTail, blockLines, List.append_assoc,
    List.cons_append, List.nil_append]

variable {word : String} (hword : word ∈ wireWords)

include hword

/-- None of the attributes stands in front of the members. -/
theorem attributesNamed_recordHead (owner : Declaration) :
    attributesNamed word (recordHead options owner) = [] := by
  have hblank : attributesNamed word [.blank] = [] := attributesNamed_singleton hword 0 (by decide)
  have hderive : attributesNamed word [deriveLine] = [] :=
    attributesNamed_singleton hword 0 (by decide)
  have hheader : attributesNamed word
      [⟨0, "pub struct " ++ typeName options.reserved owner.name ++ " \x7b"⟩] = [] := by
    apply attributesNamed_singleton hword
    rw [String.append_assoc, leadingWord_append _ (by decide)]
    decide
  -- the discriminator has a name on the wire and no other attribute
  have hdiscriminator : attributesNamed word (fieldLines 1 discriminator) = [] := by
    rw [attributesNamed_fieldLines hword, List.filter_eq_nil_iff]
    intro text htext
    rw [List.mem_singleton.1 htext, leadingWord_rename, decide_eq_true_eq]
    rintro rfl
    exact absurd hword (by decide)
  rw [recordHead, attributesNamed_append, attributesNamed_append, attributesNamed_append,
    attributesNamed_append, hblank, attributesNamed_docLines hword, hderive,
    hheader, hdiscriminator]
  rfl

/-- None stands behind them. -/
theorem attributesNamed_recordTail (owner : Declaration) :
    attributesNamed word (recordTail options owner) = [] := by
  apply attributesNamed_eq_nil hword
  intro line hline
  simp only [recordTail, blockLines, List.mem_append, List.mem_cons,
    List.not_mem_nil, or_false] at hline
  rcases hline with (rfl | rfl) | rfl | rfl | rfl
  · decide
  · decide
  · dsimp only
    rw [String.append_assoc, leadingWord_append _ (by decide)]
    decide
  · rw [constantLine]
    dsimp only
    rw [String.append_assoc, leadingWord_append _ (by decide)]
    decide
  · decide

end

/-- **Attributes follow types.** In the record of a class the attributes of each member, inherited
or not, say what its type says. -/
theorem attributes_follow_types (options : Options) (naming : String → String) (g : Graph)
    (owner : Declaration) :
    RecordAttributes options naming g owner
      ((recordFragment options naming g owner).emit 0).lines where
  refused hclash := by
    obtain ⟨clash, hclash⟩ := Option.ne_none_iff_exists'.1 hclash
    rw [recordFragment, hclash]
    rfl
  listed hclash := by
    rw [emit_recordFragment options naming g hclash]
    refine ⟨_, _, recordLines_eq_members options naming g owner, fun word hword => ?_⟩
    exact ⟨attributesNamed_recordHead options hword owner,
      attributesNamed_recordTail options hword owner⟩
  members m _ := attributesFollowType_memberLines options naming g owner m

end ModelForge
