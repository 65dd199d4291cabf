/-
`BrokenLines.lean` -- which lines of a unit can break, and what breaks them.

Most of what a model says reaches the source as an identifier, a literal or a number, and these
stay on their line. Five texts are written as they are: the name of a namespace in its module, the
source of an import, the name of a decorator, the type that a decorator refers to, and the name of
a type that nothing in the graph has (`Graph.rawTexts`). A line is broken exactly if one of them
is broken that the line is made of (`broken_lines_are_raw`). So where no raw text is broken, the
file of a unit is cut back into its lines.
-/
import ModelForge.Proofs.Boxing
import ModelForge.Proofs.FixedUnits
import ModelForge.Proofs.NumberRange
import ModelForge.Proofs.Scope
import ModelForge.Proofs.WireShape

set_option autoImplicit false

namespace ModelForge

/-! ## Raw texts -/

/-- The text of an argument that is written as it is. -/
def Literal.rawText? : Literal → Option String
  | .typeReference name _ => some name
  | .text _ => none
  | .number _ => none
  | .boolean _ => none

/-- The texts of a decorator that are written as they are. -/
def Decorator.rawTexts (d : Decorator) : List String :=
  d.name :: d.arguments.filterMap Literal.rawText?

/-- The name of a type that is not in the graph. -/
def Referent.unresolved? : Referent → Option String
  | .unresolved name => some name
  | .primitive _ => none
  | .declaration _ => none

namespace Graph

/-- All decorators, those of declarations and those of what they list. -/
def decorators (g : Graph) : List Decorator :=
  g.declarations.flatMap fun d => d.decorators ++ d.ownProperties.flatMap Property.decorators

/-- All texts of a graph that are written as they are. -/
def rawTexts (g : Graph) : List String :=
  g.namespaces.map Namespace.name
    ++ g.namespaces.flatMap Namespace.importSources
    ++ g.decorators.flatMap Decorator.rawTexts
    ++ (g.declarations.filter Declaration.isClass).flatMap fun d =>
        (g.dataMembers d).filterMap fun m => (g.memberReferent m).unresolved?

/-- The lines of units, without their indentation, that are made of a broken text. -/
inductive RawLine (options : Options) (g : Graph) : String → Prop
  | module {ns : Namespace} (hns : ns ∈ g.namespaces) (hbroken : ¬ Unbroken ns.name) :
      RawLine options g (manifestLine (moduleName ns.name))
  | use {ns : Namespace} {source : String} (hns : ns ∈ g.namespaces)
      (hsource : source ∈ ns.importSources) (hbroken : ¬ Unbroken source) :
      RawLine options g (useLine (moduleName source))
  | doc {d : Decorator} {text : String} (hd : d ∈ g.decorators) (htext : text ∈ d.rawTexts)
      (hbroken : ¬ Unbroken text) :
      RawLine options g ("/// " ++ renderDecorator d.name d.arguments)
  | field {d : Declaration} {m : Member} {name : String} (hd : d ∈ g.declarations)
      (hclass : d.isClass = true) (hm : m ∈ g.dataMembers d)
      (hreferent : g.memberReferent m = .unresolved name)
      (hbroken : ¬ Unbroken name) :
      RawLine options g ("pub " ++ memberName options.reserved m.property.name ++ ": "
        ++ wrapType name m.property.isArray m.property.isOptional ++ ",")

end Graph

/-! ## What is made of raw texts -/

/-- A line of the manifest is broken exactly where its module is. -/
theorem unbroken_manifestLine {module : String} :
    Unbroken (manifestLine module) ↔ Unbroken module := by
  have hfront : Unbroken "pub mod " := by decide
  have hback : Unbroken ";" := by decide
  rw [manifestLine, unbroken_append, unbroken_append, and_iff_left hback, and_iff_right hfront]

/-- A line that brings a module into scope is broken exactly where the module is. -/
theorem unbroken_useLine {module : String} : Unbroken (useLine module) ↔ Unbroken module := by
  have huse : Unbroken "use " := by decide
  have hcrate : Unbroken "crate::" := by decide
  have hall : Unbroken "::*" := by decide
  have hback : Unbroken ";" := by decide
  rw [useLine, wholeModule]
  simp only [unbroken_append, huse, hcrate, hall, hback, true_and, and_true]

/-- An argument is broken in its raw text only. What is quoted has no break left. -/
theorem unbroken_literalRender (a : Literal) :
    Unbroken a.render ↔ ∀ text ∈ a.rawText?, Unbroken text := by
  cases a with
  | text s => exact iff_of_true (unbroken_quoted s) (by simp [Literal.rawText?])
  | number x => exact iff_of_true (unbroken_numberArgument x) (by simp [Literal.rawText?])
  | boolean b => cases b <;> exact iff_of_true (by decide) (by simp [Literal.rawText?])
  | typeReference name isArray =>
      have hbrackets : Unbroken "[]" := by decide
      cases isArray with
      | false => simp [Literal.render, Literal.rawText?]
      | true => simp [Literal.render, Literal.rawText?, unbroken_append, hbrackets]

/-- Documentation is broken in the raw texts of its decorator only. -/
theorem unbroken_renderDecorator (d : Decorator) :
    Unbroken (renderDecorator d.name d.arguments) ↔ ∀ text ∈ d.rawTexts, Unbroken text := by
  have hat : Unbroken "@" := by decide
  have hopen : Unbroken "(" := by decide
  have hclose : Unbroken ")" := by decide
  have harguments : Unbroken (", ".intercalate (d.arguments.map Literal.render))
      ↔ ∀ text ∈ d.arguments.filterMap Literal.rawText?, Unbroken text := by
    rw [unbroken_intercalate (by decide), List.forall_mem_map, List.forall_mem_filterMap]
    exact forall₂_congr fun a _ => unbroken_literalRender a
  rw [Decorator.rawTexts, List.forall_mem_cons, ← harguments]
  unfold renderDecorator
  cases hempty : d.arguments with
  | nil =>
      dsimp only
      rw [unbroken_append, and_iff_right hat, and_iff_left (by decide)]
  | cons a rest =>
      dsimp only
      simp only [unbroken_append, hat, hopen, hclose, true_and, and_true]

/-- What is put around a type has no break in it. -/
theorem unbroken_wrapType {base : String} (isArray isOptional : Bool) :
    Unbroken (wrapType base isArray isOptional) ↔ Unbroken base := by
  have hvec : Unbroken "Vec<" := by decide
  have hoption : Unbroken "Option<" := by decide
  have hclose : Unbroken ">" := by decide
  cases isArray <;> cases isOptional <;>
    simp [wrapType, unbroken_append, hvec, hoption, hclose]

/-- The line of a field is broken where its type is. -/
theorem unbroken_fieldLine {name : String} (hname : Unbroken name) (typeText : String) :
    Unbroken ("pub " ++ name ++ ": " ++ typeText ++ ",") ↔ Unbroken typeText := by
  have hpub : Unbroken "pub " := by decide
  have hcolon : Unbroken ": " := by decide
  have hcomma : Unbroken "," := by decide
  simp only [unbroken_append, hpub, hname, hcolon, hcomma, true_and, and_true]

theorem unbroken_docLine (text : String) : Unbroken ("/// " ++ text) ↔ Unbroken text := by
  have hmark : Unbroken "/// " := by decide
  rw [unbroken_append, and_iff_right hmark]

namespace Graph

/-- The lines that are made of broken texts are broken. -/
theorem RawLine.not_unbroken {options : Options} {g : Graph} {text : String}
    (h : g.RawLine options text) : ¬ Unbroken text := by
  cases h with
  | module hns hbroken => rwa [unbroken_manifestLine, unbroken_moduleName]
  | use hns hsource hbroken => rwa [unbroken_useLine, unbroken_moduleName]
  | doc hd htext hbroken =>
      rw [unbroken_docLine, unbroken_renderDecorator]
      exact fun hall => hbroken (hall _ htext)
  | field hd hclass hm hreferent hbroken =>
      rwa [unbroken_fieldLine (unbroken_memberName _ _), unbroken_wrapType]

/-- What such a line is made of is a raw text of the graph. -/
theorem RawLine.exists_rawText {options : Options} {g : Graph} {text : String}
    (h : g.RawLine options text) : ∃ raw ∈ g.rawTexts, ¬ Unbroken raw := by
  unfold rawTexts
  simp only [List.mem_append]
  cases h with
  | @module ns hns hbroken => exact ⟨ns.name, .inl (.inl (.inl (List.mem_map_of_mem hns))), hbroken⟩
  | @use ns source hns hsource hbroken =>
      exact ⟨source, .inl (.inl (.inr (List.mem_flatMap.2 ⟨ns, hns, hsource⟩))), hbroken⟩
  | @doc d raw hd htext hbroken =>
      exact ⟨raw, .inl (.inr (List.mem_flatMap.2 ⟨d, hd, htext⟩)), hbroken⟩
  | @field d m name hd hclass hm hreferent hbroken =>
      have hname : name ∈ (g.dataMembers d).filterMap fun m => (g.memberReferent m).unresolved? :=
        List.mem_filterMap.2 ⟨m, hm, by rw [hreferent, Referent.unresolved?]⟩
      have howner : d ∈ g.declarations.filter Declaration.isClass := List.mem_filter.2 ⟨hd, hclass⟩
      exact ⟨name, .inr (List.mem_flatMap.2 ⟨d, howner, hname⟩), hbroken⟩

end Graph

/-! ## What fragments write -/

/-- A text that stays on its line, or is made of one that does not. -/
def Accounted (options : Options) (g : Graph) (text : String) : Prop :=
  Unbroken text ∨ g.RawLine options text

section

variable {options : Options} {g : Graph}

/-- The manifest accounts for its lines: a module is the only thing in them that may be broken. -/
theorem accounted_manifestPlan : (manifestPlan g).content.Writes (Accounted options g) := by
  rw [manifestPlan, Fragment.writes_lines, List.forall_mem_append, List.forall_mem_map,
    List.forall_mem_singleton]
  refine ⟨fun ns hns => ?_, .inl (by decide)⟩
  by_cases hname : Unbroken ns.name
  · exact .inl (unbroken_manifestLine.2 (unbroken_moduleName.2 hname))
  · exact .inr (.module hns hname)

/-- The head of a unit has modules of imports in its lines, and nothing else of the model. -/
theorem accounted_unitHeader {ns : Namespace} (hns : ns ∈ g.namespaces) :
    (unitHeader ns).Writes (Accounted options g) := by
  simp only [unitHeader, Fragment.writes_append, Fragment.writes_all_map]
  refine ⟨⟨⟨⟨⟨.inl (by decide), .inl (by decide)⟩, .inl (by decide)⟩, .inl (by decide)⟩,
    fun source hsource => ?_⟩, .inl (by decide)⟩
  by_cases hbroken : Unbroken source
  · exact .inl (unbroken_useLine.2 (unbroken_moduleName.2 hbroken))
  · exact .inr (.use hns hsource hbroken)

/-- Documentation is accounted for by the decorators it was made from. -/
theorem accounted_docs {decorators : List Decorator} (h : ∀ d ∈ decorators, d ∈ g.decorators) :
    (decoratorDocs decorators).Writes (Accounted options g) := by
  unfold decoratorDocs decoratorTable?
  cases decorators with
  | nil => trivial
  | cons first rest =>
      dsimp only
      rw [renderTable, List.map_map, Fragment.writes_all_map]
      intro entry hentry
      -- of decorators with one name only the last is left, and its arguments are those of its text
      obtain ⟨d, hd, rfl⟩ := List.mem_map.1 (KeyedList.mem_of_mem_ofList hentry)
      by_cases hraw : ∀ text ∈ d.rawTexts, Unbroken text
      · exact .inl ((unbroken_docLine _).2 ((unbroken_renderDecorator d).2 hraw))
      · push Not at hraw
        obtain ⟨text, htext, hbroken⟩ := hraw
        exact .inr (.doc (h d hd) htext hbroken)

/-! ## Declarations -/

/-- The attributes of a field never have a break, since the names in them are quoted. -/
theorem unbroken_of_mem_fieldAttributes {field : Field} {text : String}
    (h : text ∈ fieldAttributes field) : Unbroken text := by
  have hquoted (front : String) (hfront : Unbroken front) (value : String) :
      Unbroken (front ++ quoted value ++ ",") :=
    unbroken_append.2 ⟨unbroken_append.2 ⟨hfront, unbroken_quoted value⟩, by decide⟩
  unfold fieldAttributes at h
  rw [List.mem_append, List.mem_append, List.mem_singleton] at h
  rcases h with (rfl | hskip) | hhooks
  · exact hquoted _ (by decide) _
  · split at hskip
    · rw [List.mem_singleton.1 hskip]
      decide
    · exact absurd hskip List.not_mem_nil
  · split at hhooks
    · exact absurd hhooks List.not_mem_nil
    · rw [List.mem_append, List.mem_cons, List.mem_singleton] at hhooks
      rcases hhooks with (rfl | rfl) | hdefault
      · exact hquoted _ (by decide) _
      · exact hquoted _ (by decide) _
      · split at hdefault
        · rw [List.mem_singleton.1 hdefault]
          decide
        · exact absurd hdefault List.not_mem_nil

/-- A field is accounted for if its documentation and its last line are. -/
theorem accounted_field {field : Field} (hdecorators : ∀ d ∈ field.decorators, d ∈ g.decorators)
    (hline : Accounted options g ("pub " ++ field.name ++ ": " ++ field.typeText ++ ",")) :
    (fieldFragment field).Writes (Accounted options g) := by
  simp only [fieldFragment, Fragment.writes_append, Fragment.writes_lines]
  exact ⟨⟨⟨⟨⟨⟨accounted_docs hdecorators, .inl (by decide)⟩, trivial⟩,
    fun text htext => .inl (unbroken_of_mem_fieldAttributes htext)⟩, trivial⟩,
      .inl (by decide)⟩, hline⟩

/-- The type of a member is spelled, unless nothing in the graph has its name. -/
theorem accounted_memberField {d : Declaration} (hd : d ∈ g.declarations)
    (hclass : d.isClass = true) {m : Member} (hm : m ∈ g.dataMembers d) (isRecursive : Bool) :
    (fieldFragment (memberField options g d isRecursive
      (memberName options.reserved m.property.name) m)).Writes (Accounted options g) := by
  have hname := unbroken_memberName options.reserved m.property.name
  obtain ⟨howner, hproperty⟩ := Graph.declaredIn_of_mem_members hd
    (Graph.mem_members_of_mem_dataMembers hm)
  refine accounted_field (fun a ha => ?_) ?_
  · refine List.mem_flatMap.2 ⟨m.declaredIn, howner, List.mem_append_right _ ?_⟩
    exact List.mem_flatMap.2 ⟨m.property, hproperty, ha⟩
  · unfold memberField memberType
    cases hreferent : g.memberReferent m with
    | primitive p =>
        refine .inl ((unbroken_fieldLine hname _).2 ((unbroken_wrapType _ _).2 ?_))
        cases p <;> decide
    | declaration target =>
        refine .inl ((unbroken_fieldLine hname _).2 ((unbroken_wrapType _ _).2 ?_))
        have htype := unbroken_typeName options.reserved target.name
        split
        · exact unbroken_append.2 ⟨unbroken_append.2 ⟨by decide, htype⟩, by decide⟩
        · exact htype
    | unresolved name =>
        -- the only type that is written as the model has it
        by_cases hbroken : Unbroken name
        · exact .inl ((unbroken_fieldLine hname _).2 ((unbroken_wrapType _ _).2 hbroken))
        · exact .inr (.field hd hclass hm hreferent hbroken)

/-- The header of a block has a sanitized name in it, which cannot be broken. -/
theorem unbroken_header {keyword : String} (hkeyword : Unbroken keyword) (raw : String) :
    Unbroken (keyword ++ typeName options.reserved raw ++ " \x7b") :=
  unbroken_append.2 ⟨unbroken_append.2 ⟨hkeyword, unbroken_typeName _ _⟩, by decide⟩

theorem accounted_derive : (Fragment.derive derivedTraits).Writes (Accounted options g) :=
  .inl (by decide)

theorem mem_decorators_of_mem_declarations {d : Declaration} (hd : d ∈ g.declarations) :
    ∀ a ∈ d.decorators, a ∈ g.decorators := fun _ ha =>
  List.mem_flatMap.2 ⟨d, hd, List.mem_append_left _ ha⟩

/-- All lines of a record are accounted for. -/
theorem accounted_record {d : Declaration} (hd : d ∈ g.declarations) (hclass : d.isClass = true) :
    (recordFragment options (memberName options.reserved) g d).Writes (Accounted options g) := by
  have hconstant : Unbroken ("pub const CLASS: &str = " ++ quoted d.qualifiedName ++ ";") :=
    unbroken_append.2 ⟨unbroken_append.2 ⟨by decide, unbroken_quoted _⟩, by decide⟩
  have hdiscriminator : (fieldFragment discriminator).Writes (Accounted options g) :=
    accounted_field (fun _ h => absurd h List.not_mem_nil) (.inl (by decide))
  rw [recordFragment]
  split
  · trivial
  · simp only [Fragment.writes_append]
    refine ⟨⟨⟨⟨⟨.inl (by decide), accounted_docs (mem_decorators_of_mem_declarations hd)⟩,
      accounted_derive⟩, .inl (unbroken_header (by decide) _), ?_, .inl (by decide)⟩,
      .inl (by decide)⟩, .inl (unbroken_header (by decide) _), .inl hconstant, .inl (by decide)⟩
    rw [Fragment.writes_all_map, recordFields, List.forall_mem_cons, List.forall_mem_map]
    exact ⟨hdiscriminator, fun m hm => accounted_memberField hd hclass hm _⟩

/-- All lines of a variant are. -/
theorem accounted_variant {value : Property} (h : ∀ d ∈ value.decorators, d ∈ g.decorators) :
    (variantFragment options value).Writes (Accounted options g) := by
  have hname : Unbroken (typeName options.reserved value.name ++ ",") :=
    unbroken_append.2 ⟨unbroken_typeName _ _, by decide⟩
  have hrename : Unbroken ("#[" ++ ("serde(rename = " ++ quoted value.name ++ ")") ++ "]") :=
    unbroken_append.2 ⟨unbroken_append.2 ⟨by decide, unbroken_append.2
      ⟨unbroken_append.2 ⟨by decide, unbroken_quoted _⟩, by decide⟩⟩, by decide⟩
  unfold variantFragment
  simp only [Fragment.writes_append]
  refine ⟨⟨accounted_docs h, ?_⟩, .inl hname⟩
  split
  · trivial
  · exact .inl hrename

/-- All lines of an enum are. -/
theorem accounted_enum {d : Declaration} (hd : d ∈ g.declarations) {values : List Property}
    (hbody : d.body = .enumeration values) :
    (enumFragment options d values).Writes (Accounted options g) := by
  have hvalues : ∀ value ∈ values, ∀ a ∈ value.decorators, a ∈ g.decorators := by
    intro value hvalue a ha
    refine List.mem_flatMap.2 ⟨d, hd, List.mem_append_right _ (List.mem_flatMap.2 ⟨value, ?_, ha⟩)⟩
    rwa [Declaration.ownProperties, hbody]
  rw [enumFragment]
  split
  · trivial
  · simp only [Fragment.writes_append]
    refine ⟨⟨⟨⟨.inl (by decide), accounted_docs (mem_decorators_of_mem_declarations hd)⟩,
      accounted_derive⟩, .inl (by decide)⟩, .inl (unbroken_header (by decide) _), ?_,
      .inl (by decide)⟩
    rw [Fragment.writes_all_map]
    exact fun value hvalue => accounted_variant (hvalues value hvalue)

/-- So are those of any declaration. -/
theorem accounted_declaration {d : Declaration} (hd : d ∈ g.declarations) :
    (declarationFragment options (memberName options.reserved) g d).Writes
      (Accounted options g) := by
  unfold declarationFragment
  split
  · rename_i hbody
    exact accounted_record hd (by rw [Declaration.isClass, hbody])
  · rename_i hbody
    exact accounted_enum hd hbody
  · trivial

/-- So are those of the unit of a namespace. -/
theorem accounted_namespacePlan {ns : Namespace} (hns : ns ∈ g.namespaces) :
    (namespacePlan options (memberName options.reserved) g ns).content.Writes
      (Accounted options g) := by
  rw [namespacePlan, namespaceFragment, Fragment.writes_append, Fragment.writes_all_map]
  exact ⟨accounted_unitHeader hns,
    fun d hd => accounted_declaration (List.mem_flatMap.2 ⟨ns, hns, hd⟩)⟩

/-! ## Stored lines -/

/-- A stored line is broken exactly where it is made of a broken text. -/
def BrokenByRawText (options : Options) (g : Graph) (stored : String) : Prop :=
  ¬ Unbroken stored ↔ ∃ level text, stored = Line.render ⟨level, text⟩ ∧ g.RawLine options text

/-- A line that is accounted for is broken by a raw text, once it is stored. -/
theorem brokenByRawText_of_accounted {line : Line} (h : Accounted options g line.text) :
    BrokenByRawText options g line.render := by
  constructor
  · intro hbroken
    rw [unbroken_render] at hbroken
    exact ⟨line.indent, line.text, rfl, h.resolve_left hbroken⟩
  · rintro ⟨level, text, heq, hraw⟩
    rw [heq, unbroken_render]
    exact hraw.not_unbroken

theorem brokenByRawText_of_writes {unit : UnitPlan}
    (h : unit.content.Writes (Accounted options g)) :
    ∀ stored ∈ unit.sealed.lines, BrokenByRawText options g stored := by
  intro stored hstored
  obtain ⟨line, hline, rfl⟩ := List.mem_map.1 hstored
  exact brokenByRawText_of_accounted (Fragment.text_of_mem_emit h hline)

/-- Cutting takes nothing into a line that was not in the text. -/
theorem unbroken_ofSpaced {text : List Char} (h : ∀ c ∈ text, c ≠ '\n' ∧ c ≠ '\r') :
    Unbroken (Line.ofSpaced text).text := by
  rw [Line.ofSpaced, unbroken_ofList]
  exact fun c hc => h c ((List.dropWhile_sublist _).subset hc)

/-- The hooks are fixed but for the format, and no stored line of them is broken. -/
theorem unbroken_of_mem_dateTimeTexts {stored : String} (h : stored ∈ dateTimeTexts options) :
    Unbroken stored := by
  rw [dateTimeTexts] at h
  obtain ⟨text, htext, rfl⟩ := List.mem_map.1 h
  refine unbroken_render.2 (unbroken_ofSpaced ?_)
  rcases mem_splitLines_dateTimeSource htext with hfixed | rfl
  · exact hfixed.1
  · exact unbroken_formatLine _

/-- A line without a break is not broken by anything. -/
theorem brokenByRawText_of_unbroken {stored : String} (h : Unbroken stored) :
    BrokenByRawText options g stored := by
  refine iff_of_false (not_not_intro h) ?_
  rintro ⟨level, text, rfl, hraw⟩
  exact hraw.not_unbroken (unbroken_render.1 h)

theorem brokenByRawText_dateTimePlan :
    ∀ stored ∈ (dateTimePlan options).sealed.lines, BrokenByRawText options g stored := by
  rw [sealed_dateTimePlan]
  exact fun _ hstored => brokenByRawText_of_unbroken (unbroken_of_mem_dateTimeTexts hstored)

/-- Every line of every planned unit is accounted for. -/
theorem brokenByRawText_plansUpTo {namespaces : List Namespace}
    (h : ∀ ns ∈ namespaces, ns ∈ g.namespaces) :
    ∀ unit ∈ plansUpTo options g namespaces,
      ∀ stored ∈ unit.sealed.lines, BrokenByRawText options g stored := by
  rw [plansUpTo, List.forall_mem_cons, List.forall_mem_cons, List.forall_mem_map]
  exact ⟨brokenByRawText_of_writes accounted_manifestPlan, brokenByRawText_dateTimePlan,
    fun ns hns => brokenByRawText_of_writes (accounted_namespacePlan (h ns hns))⟩

/-! ## Runs -/

/-- Whatever comes of a run, it seals nothing but planned units, and these only if the modules are
allowed. -/
theorem exists_units_of_runFrom (options : Options) (g : Graph) (units : List SourceUnit) :
    ∃ plans : List UnitPlan,
      (∀ unit ∈ plans, ModulesAllowed options g.namespaces
        ∧ unit ∈ plansUpTo options g g.namespaces)
      ∧ (runFrom options g units).2.units = units ++ plans.map UnitPlan.sealed := by
  by_cases hmodules : ModulesAllowed options g.namespaces
  · by_cases hmembers : ∀ d ∈ g.declarations, g.MembersDistinct options d
    · refine ⟨_, fun _ h => ⟨hmodules, h⟩, ?_⟩
      rw [runFrom_of_clean options g units hmodules hmembers]
    · -- the units of the namespaces before the clash are sealed
      obtain ⟨before, ns, after, -, -, -, hsplit, -, -, -, -, hsink⟩ :=
        runFrom_of_clash options g units hmodules hmembers
      refine ⟨plansUpTo options g before, fun unit hunit => ⟨hmodules, ?_⟩, by rw [hsink]⟩
      unfold plansUpTo at hunit ⊢
      rw [hsplit, List.map_append, ← List.cons_append, ← List.cons_append]
      exact List.mem_append_left _ hunit
  · obtain ⟨_, _, _, _, -, -, -, hrun⟩ := runFrom_of_not_allowed options g units hmodules
    exact ⟨[], fun _ h => absurd h List.not_mem_nil, by rw [hrun, List.map_nil, List.append_nil]⟩

/-- No unit of a run is without lines. -/
theorem lines_ne_nil_of_mem_plansUpTo {unit : UnitPlan}
    (h : unit ∈ plansUpTo options g g.namespaces) :
    unit.sealed.lines ≠ [] := by
  revert unit
  rw [plansUpTo, List.forall_mem_cons, List.forall_mem_cons, List.forall_mem_map]
  refine ⟨?_, ?_, fun ns _ => ?_⟩
  · rw [sealed_manifestPlan, manifestTexts]
    exact List.append_ne_nil_of_right_ne_nil _ (List.cons_ne_nil _ _)
  · rw [sealed_dateTimePlan]
    exact dateTimeTexts_ne_nil options
  · obtain ⟨rest, hrendered, -⟩ :=
      rendered_namespaceFragment options (memberName options.reserved) g ns
    rw [UnitPlan.sealed, namespacePlan, hrendered, headerTexts]
    exact List.cons_ne_nil _ _

/-- No other unit has the name of the hooks, in which nothing is broken. -/
theorem unbroken_of_unitName_utility (hmodules : ModulesAllowed options g.namespaces)
    {unit : UnitPlan} (h : unit ∈ plansUpTo options g g.namespaces) :
    unit.sealed.name = unitName utilityModule → ∀ stored ∈ unit.sealed.lines, Unbroken stored := by
  revert unit
  rw [plansUpTo, List.forall_mem_cons, List.forall_mem_cons, List.forall_mem_map]
  have hmanifest : manifestUnit ≠ unitName utilityModule := by decide
  refine ⟨fun hname => absurd hname hmanifest, fun _ => ?_, fun ns hns hname => ?_⟩
  · rw [sealed_dateTimePlan]
    exact fun _ hstored => unbroken_of_mem_dateTimeTexts hstored
  · -- a namespace with this module would have been refused
    have hmodule : moduleName ns.name = utilityModule := unitName_injective hname
    refine absurd ?_ (hmodules.1 ns hns).1
    rw [hmodule]
    exact List.mem_cons_self

end

/-- **Only raw texts break lines.** A line of a sealed unit is broken exactly if it is made of a
broken namespace, import source, decorator name, type in a decorator, or name of a type that is
not in the graph; identifiers, literals and numbers never break one, and nothing breaks one of the
hooks, whatever the format is. A unit without a broken line is cut at its line feeds into the
lines that were written; and no unit has one if no raw text is broken. -/
theorem broken_lines_are_raw (options : Options) (g : Graph) (units : List SourceUnit) :
    ∃ sealed, (runFrom options g units).2.units = units ++ sealed
      ∧ (∀ unit ∈ sealed, ∀ stored ∈ unit.lines, BrokenByRawText options g stored)
      ∧ (∀ unit ∈ sealed, unit.name = unitName utilityModule →
        ∀ stored ∈ unit.lines, Unbroken stored)
      ∧ (∀ unit ∈ sealed, (∀ stored ∈ unit.lines, Unbroken stored) →
        splitLines unit.text.toList = unit.lines.map String.toList)
      ∧ ((∀ raw ∈ g.rawTexts, Unbroken raw) → ∀ unit ∈ sealed,
        (∀ stored ∈ unit.lines, Unbroken stored)
          ∧ splitLines unit.text.toList = unit.lines.map String.toList) := by
  obtain ⟨plans, hplans, hunits⟩ := exists_units_of_runFrom options g units
  have hlines : ∀ unit ∈ plans.map UnitPlan.sealed,
      ∀ stored ∈ unit.lines, BrokenByRawText options g stored :=
    List.forall_mem_map.2 fun unit hunit =>
      brokenByRawText_plansUpTo (fun _ h => h) unit (hplans unit hunit).2
  have hhooks : ∀ unit ∈ plans.map UnitPlan.sealed, unit.name = unitName utilityModule →
      ∀ stored ∈ unit.lines, Unbroken stored :=
    List.forall_mem_map.2 fun unit hunit =>
      unbroken_of_unitName_utility (hplans unit hunit).1 (hplans unit hunit).2
  have hcut : ∀ unit ∈ plans.map UnitPlan.sealed, (∀ stored ∈ unit.lines, Unbroken stored) →
      splitLines unit.text.toList = unit.lines.map String.toList :=
    List.forall_mem_map.2 fun unit hunit hunbroken =>
      splitLines_text (lines_ne_nil_of_mem_plansUpTo (hplans unit hunit).2) hunbroken
  refine ⟨_, hunits, hlines, hhooks, hcut, fun hraw unit hunit => ?_⟩
  have hunbroken : ∀ stored ∈ unit.lines, Unbroken stored := by
    intro stored hstored
    by_contra hbroken
    obtain ⟨level, text, -, hline⟩ := (hlines unit hunit stored hstored).1 hbroken
    obtain ⟨raw, hmem, hne⟩ := hline.exists_rawText
    exact hne (hraw raw hmem)
  exact ⟨hunbroken, hcut unit hunit hunbroken⟩

/-! Line breaks in names and literals, which break nothing, and one in a namespace. -/

def fedNamespace : Namespace :=
  ⟨"t", [], [
    { name := "Two\nLines", owner := "t", decorators := [⟨"note", [.text "a\nb"]⟩]
      body := .record .concept false none [.field "x\r\ny" (.named "String")] }]⟩

def fed : Graph := .ofNamespaces [fedNamespace]

/-- Breaks in quoted places leave every line whole. -/
theorem broken_lines_are_raw_fed :
    (∀ raw ∈ fed.rawTexts, Unbroken raw)
      ∧ (runFrom .default fed []).1 = .ok ()
      ∧ (∀ unit ∈ (runFrom .default fed []).2.units,
        splitLines unit.text.toList = unit.lines.map String.toList)
      ∧ ∃ unit ∈ (runFrom .default fed []).2.units, unit.name = "t.rs"
        ∧ "/// @note(\"a\\nb\")" ∈ unit.lines ∧ "    pub x__y: String," ∈ unit.lines := by
  have hraw : ∀ raw ∈ fed.rawTexts, Unbroken raw := by decide +kernel
  have hmembers : ∀ d ∈ fed.declarations, fed.MembersDistinct .default d := by decide +kernel
  have hrun : runFrom .default fed []
      = (.ok (), ⟨.empty, (plansUpTo .default fed fed.namespaces).map UnitPlan.sealed⟩) :=
    runFrom_of_clean .default fed [] (by decide +kernel) hmembers
  obtain ⟨sealed, hunits, -, -, -, hunbroken⟩ := broken_lines_are_raw .default fed []
  rw [List.nil_append] at hunits
  refine ⟨hraw, by rw [hrun], fun unit hunit => (hunbroken hraw unit (hunits ▸ hunit)).2, ?_⟩
  rw [hrun]
  refine ⟨(namespacePlan .default (memberName Options.default.reserved) fed fedNamespace).sealed,
    ?_, rfl, ?_⟩
  · exact List.mem_map_of_mem (List.mem_cons_of_mem _ (List.mem_cons_of_mem _ List.mem_cons_self))
  · rw [sealed_namespacePlan .default fed fun d hd => hmembers d
      (List.mem_flatMap.2 ⟨_, List.mem_cons_self, hd⟩)]
    decide +kernel

/-- A graph with one namespace, in whose name there is a line feed. -/
def fedModule : Graph := .ofNamespaces [⟨"a\nb", [], []⟩]

/-- The graph as a document. -/
def fedModuleDocument : Json := Metamodel.writeDocument fedModule.namespaces

/-- The manifest of a document that can be read has a line that is not one line of the file. -/
theorem namespace_breaks_line :
    loadText fedModuleDocument.render = .ok fedModule
      ∧ (runFrom .default fedModule []).1 = .ok ()
      ∧ ∃ unit ∈ (runFrom .default fedModule []).2.units, "pub mod a\nb;" ∈ unit.lines
        ∧ ¬ Unbroken "pub mod a\nb;"
        ∧ splitLines unit.text.toList ≠ unit.lines.map String.toList := by
  have hload : loadText fedModuleDocument.render = .ok fedModule :=
    loadText_render (by decide +kernel) rfl (by decide)
  have hrun : runFrom .default fedModule [] = (.ok (), ⟨.empty, (plansUpTo .default fedModule
      fedModule.namespaces).map UnitPlan.sealed⟩) :=
    runFrom_of_clean .default fedModule [] (by decide +kernel) (by decide +kernel)
  rw [hrun]
  refine ⟨hload, rfl, (manifestPlan fedModule).sealed, List.mem_map_of_mem List.mem_cons_self, ?_⟩
  rw [sealed_manifestPlan]
  decide +kernel

end ModelForge
