/-
`DecoratorLines.lean` -- where the documentation of decorators stands.

Classes, enums, members of classes and values of enums have decorators. Their documentation stands
directly above the source of what they are on: above the line that derives the traits of a record
or an enum, above the attribute of a field, above a variant or the attribute of it (`DocsPlaced`).
Nothing in between and no other documentation in front of it can be taken for a part.

What is written depends on the decorators through their tables only. So a run cannot tell apart
graphs that have the same last decorators everywhere (`Graph.SameDecorators`).
-/
import ModelForge.Proofs.Independence
import ModelForge.Proofs.LastWrites
import ModelForge.Proofs.Mirrors
import ModelForge.Proofs.WireShape

set_option autoImplicit false

namespace ModelForge

/-! ## The same last decorators -/

/-- The same property but for its decorators, of which the last ones are the same. -/
structure Property.SameDecorators (p p' : Property) : Prop where
  rest : p' = { p with decorators := p'.decorators }
  last : SameLast p.decorators p'.decorators

/-- The same body but for the decorators of its properties. -/
inductive Body.SameDecorators : Body → Body → Prop
  | record (flavor : Flavor) (isAbstract : Bool) (superType : Option TypeRef)
      {properties properties' : List Property}
      (h : List.Forall₂ Property.SameDecorators properties properties') :
      SameDecorators (.record flavor isAbstract superType properties)
        (.record flavor isAbstract superType properties')
  | enumeration {values values' : List Property}
      (h : List.Forall₂ Property.SameDecorators values values') :
      SameDecorators (.enumeration values) (.enumeration values')
  | scalar (primitive : Primitive) (default : Option String) :
      SameDecorators (.scalar primitive default) (.scalar primitive default)

/-- The same declaration but for its decorators and those of its properties. -/
structure Declaration.SameDecorators (d d' : Declaration) : Prop where
  name : d.name = d'.name
  owner : d.owner = d'.owner
  last : SameLast d.decorators d'.decorators
  body : d.body.SameDecorators d'.body

/-- The same graph but for decorators. Wherever there are some, the last ones are the same. -/
def Graph.SameDecorators (g g' : Graph) : Prop :=
  List.Forall₂ (Namespace.Alike Declaration.SameDecorators) g.namespaces g'.namespaces

/-- Lists with the same last writes make the same documentation. -/
theorem SameLast.sameDocs {decorators decorators' : List Decorator}
    (h : SameLast decorators decorators') :
    SameDocs decorators decorators' := by
  unfold SameDocs decoratorDocs
  rw [decoratorTable?_eq_iff.2 h]

namespace Declaration.SameDecorators

variable {d d' : Declaration}

/-- Decorators are no part of the outline of a declaration. -/
theorem sameOutline (h : d.SameDecorators d') : d.SameOutline d' := by
  obtain ⟨_, _, _, body⟩ := d
  obtain ⟨_, _, _, body'⟩ := d'
  refine ⟨h.name, h.owner, ?_⟩
  cases h.body <;> rfl

/-- Members are compared one by one, and only their decorators may differ. -/
theorem ownProperties (h : d.SameDecorators d') :
    List.Forall₂ Property.SameDecorators d.ownProperties d'.ownProperties := by
  have hbody := h.body
  unfold Declaration.ownProperties
  generalize d.body = body at hbody
  generalize d'.body = body' at hbody
  cases hbody with
  | record flavor isAbstract superType hproperties => exact hproperties
  | enumeration hvalues => exact hvalues
  | scalar primitive default => exact .nil

end Declaration.SameDecorators

/-- **Graphs with the same last writes mirror one another**, as nothing but documentation reads
decorators. -/
theorem Graph.SameDecorators.mirrors {g g' : Graph} (h : g.SameDecorators g') :
    g.Mirrors Declaration.SameDecorators g' := by
  have halike : g.Alike Declaration.SameDecorators g' := ⟨fun _ _ hd => hd.sameOutline, h⟩
  have hown : ∀ d d' : Declaration, d.SameDecorators d' →
      List.Forall₂ (Member.Mirrors Declaration.SameDecorators g g') d.ownMembers d'.ownMembers := by
    intro d d' hd
    unfold Declaration.ownMembers
    rw [List.forall₂_map_left_iff, List.forall₂_map_right_iff]
    refine hd.ownProperties.imp fun p p' hp => ?_
    have hreferent := halike.referent d.owner p.kind p.typeRef
    rw [hp.rest]
    exact ⟨rfl, rfl, rfl, rfl, hp.last.sameDocs, by
      unfold Graph.memberReferent
      dsimp only
      rwa [← hd.owner]⟩
  exact {
    alike := halike
    docs := fun d d' hd => hd.last.sameDocs
    members := fun d d' hd => List.rel_flatMap (List.rel_reverse (halike.lineage hd))
      fun _ _ he => hown _ _ he
    values := fun d d' values values' hd hbody hbody' => by
      have hvalues := hd.ownProperties
      rw [Declaration.ownProperties, hbody, Declaration.ownProperties, hbody'] at hvalues
      exact hvalues.imp fun value value' hvalue => ⟨by rw [hvalue.rest], hvalue.last.sameDocs⟩ }

/-! ## Lines above others -/

/-- The lines end, and not with documentation. Only documentation begins with a slash. -/
def EndsPlain (lines : List Line) : Prop :=
  ∃ front last, lines = front ++ [last] ∧ last.text.toList.head? ≠ some '/'

/-- The documentation of some decorators stands directly above the target, and no other does. -/
def Above (lines : List Line) (level : Nat) (decorators : List Decorator) (target : List Line) :
    Prop :=
  ∃ before after, lines = before ++ docLines level decorators ++ target ++ after ∧ EndsPlain before

theorem EndsPlain.append_left {lines : List Line} (h : EndsPlain lines) (front : List Line) :
    EndsPlain (front ++ lines) := by
  obtain ⟨others, last, rfl, hlast⟩ := h
  exact ⟨front ++ others, last, (List.append_assoc ..).symm, hlast⟩

/-- Lines behind a plain end keep it, as long as each group of them ends plainly. -/
theorem EndsPlain.flatMap {α : Type} {f : α → List Line} {lines : List Line} (h : EndsPlain lines)
    {items : List α} (hitems : ∀ item ∈ items, EndsPlain (f item)) :
    EndsPlain (lines ++ items.flatMap f) := by
  induction items generalizing lines with
  | nil => rwa [List.flatMap_nil, List.append_nil]
  | cons item rest ih =>
      rw [List.forall_mem_cons] at hitems
      rw [List.flatMap_cons, ← List.append_assoc]
      exact ih (hitems.1.append_left lines) hitems.2

/-- Documentation stays where it is when lines are put around it. -/
theorem Above.extend {lines : List Line} {level : Nat} {decorators : List Decorator}
    {target : List Line} (h : Above lines level decorators target) (front back : List Line) :
    Above (front ++ lines ++ back) level decorators target := by
  obtain ⟨before, after, rfl, hbefore⟩ := h
  exact ⟨front ++ before, after ++ back, by simp only [List.append_assoc],
    hbefore.append_left front⟩

/-- A block that begins with documentation, behind a line in front of all blocks. -/
theorem above_of_block {α : Type} {f : α → List Line} {items : List α} {item : α}
    (hitem : item ∈ items) {front : List Line} (hfront : EndsPlain front)
    (hblocks : ∀ item ∈ items, EndsPlain (f item)) {level : Nat} {decorators : List Decorator}
    {target rest : List Line} (hblock : f item = docLines level decorators ++ target ++ rest) :
    Above (front ++ items.flatMap f) level decorators target := by
  obtain ⟨earlier, later, rfl⟩ := List.append_of_mem hitem
  rw [List.forall_mem_append] at hblocks
  refine ⟨front ++ earlier.flatMap f, rest ++ later.flatMap f, ?_, hfront.flatMap hblocks.1⟩
  rw [List.flatMap_append, List.flatMap_cons, hblock]
  simp only [List.append_assoc]

/-! ## Declarations -/

section

variable (options : Options) (naming : String → String) (g : Graph) (d : Declaration)

/-- The lines that open a record behind its documentation. -/
def recordOpening : List Line :=
  [deriveLine, ⟨0, "pub struct " ++ typeName options.reserved d.name ++ " \x7b"⟩]

/-- The lines that open an enum behind its documentation. -/
def enumOpening : List Line :=
  [deriveLine, ⟨0, "#[allow(non_camel_case_types)]"⟩,
    ⟨0, "pub enum " ++ typeName options.reserved d.name ++ " \x7b"⟩]

/-- The first lines of the attribute that a field has for the property. -/
def fieldOpening (p : Property) : List Line :=
  [⟨1, "#[serde("⟩, ⟨2, "rename = " ++ quoted p.name ++ ","⟩]

/-- The variant of a value, with the attribute that it may have. -/
def variantOpening (value : Property) : List Line :=
  renameLines options value ++ [⟨1, typeName options.reserved value.name ++ ","⟩]

theorem endsPlain_blank : EndsPlain [Line.blank] := ⟨[], Line.blank, rfl, by decide⟩

theorem endsPlain_recordOpening : EndsPlain (recordOpening options d) :=
  ⟨[deriveLine], _, rfl, by simp [String.toList_append]⟩

theorem endsPlain_enumOpening : EndsPlain (enumOpening options d) :=
  ⟨[deriveLine, ⟨0, "#[allow(non_camel_case_types)]"⟩], _, rfl, by simp [String.toList_append]⟩

/-- The last line of a field is no documentation. -/
theorem endsPlain_fieldLines (field : Field) : EndsPlain (fieldLines 1 field) :=
  ⟨_, _, rfl, by simp [String.toList_append]⟩

/-- Nor is the last line of a variant. -/
theorem endsPlain_variantLines (value : Property) : EndsPlain (variantLines options value) :=
  ⟨_, _, rfl, head_variant_ne (fun _ => isIdentChar_of_mem_typeName) (by decide) (by decide)⟩

/-- A record begins with its documentation, and the traits stand right below it. -/
theorem exists_recordLines_eq : ∃ closing, recordLines options naming g d
    = [.blank] ++ docLines 0 d.decorators ++ recordOpening options d
      ++ ((recordFields options naming g d).flatMap (fieldLines 1) ++ closing) := by
  refine ⟨⟨0, "\x7d"⟩ :: [.blank]
    ++ blockLines ("impl " ++ typeName options.reserved d.name) [constantLine d], ?_⟩
  unfold recordLines recordOpening blockLines
  simp only [List.append_assoc, List.cons_append, List.nil_append]

/-- So does an enum. -/
theorem exists_enumLines_eq (values : List Property) : ∃ closing, enumLines options d values
    = [.blank] ++ docLines 0 d.decorators ++ enumOpening options d
      ++ (values.flatMap (variantLines options) ++ closing) := by
  refine ⟨[⟨0, "\x7d"⟩], ?_⟩
  unfold enumLines enumOpening blockLines
  simp only [List.append_assoc, List.cons_append, List.nil_append]

/-- The documentation of a class stands above the line that derives its traits. -/
theorem above_record :
    Above (recordLines options naming g d) 0 d.decorators (recordOpening options d) := by
  obtain ⟨closing, hlines⟩ := exists_recordLines_eq options naming g d
  exact ⟨_, _, hlines, endsPlain_blank⟩

/-- The documentation of an enum stands above the line that derives its traits. -/
theorem above_enum (values : List Property) :
    Above (enumLines options d values) 0 d.decorators (enumOpening options d) := by
  obtain ⟨closing, hlines⟩ := exists_enumLines_eq options d values
  exact ⟨_, _, hlines, endsPlain_blank⟩

/-- The documentation of a member stands above the attribute of its field. -/
theorem above_field {m : Member} (hm : m ∈ g.dataMembers d) :
    Above (recordLines options naming g d) 1 m.property.decorators (fieldOpening m.property) := by
  obtain ⟨closing, hlines⟩ := exists_recordLines_eq options naming g d
  have hfield : memberField options g d (g.isRecursive d) (naming m.property.name) m
      ∈ recordFields options naming g d := List.mem_cons_of_mem _ (List.mem_map_of_mem hm)
  obtain ⟨rest, hrest⟩ : ∃ rest,
      fieldLines 1 (memberField options g d (g.isRecursive d) (naming m.property.name) m)
        = docLines 1 m.property.decorators ++ fieldOpening m.property ++ rest := by
    unfold fieldLines fieldAttributes fieldOpening
    simp only [List.map_append, List.map_cons, List.append_assoc, List.cons_append, List.nil_append]
    exact ⟨_, rfl⟩
  have hfront :=
    (endsPlain_recordOpening options d).append_left ([.blank] ++ docLines 0 d.decorators)
  rw [hlines, ← List.append_assoc]
  exact (above_of_block hfield hfront (fun field _ =>
    endsPlain_fieldLines field) hrest).extend [] closing

/-- The documentation of a value stands above its variant and the attribute of it. -/
theorem above_variant {values : List Property} {value : Property} (hvalue : value ∈ values) :
    Above (enumLines options d values) 1 value.decorators (variantOpening options value) := by
  obtain ⟨closing, hlines⟩ := exists_enumLines_eq options d values
  have hblock : variantLines options value
      = docLines 1 value.decorators ++ variantOpening options value ++ [] := by
    rw [variantLines, variantOpening, List.append_nil, List.append_assoc]
  have hfront := (endsPlain_enumOpening options d).append_left ([.blank] ++ docLines 0 d.decorators)
  rw [hlines, ← List.append_assoc]
  exact (above_of_block hvalue hfront (fun value _ => endsPlain_variantLines options value)
    hblock).extend [] closing

/-! ## Units -/

/-- In the lines of a unit, the documentation that belongs to a declaration stands where it
belongs. -/
structure DocsPlaced (lines : List Line) : Prop where
  record : d.isClass = true → Above lines 0 d.decorators (recordOpening options d)
  /-- Of the members a class has itself, and of those that it inherits. -/
  member : d.isClass = true → ∀ e ∈ g.lineage d, ∀ p ∈ e.ownProperties, p.name ≠ identifierMember →
    Above lines 1 p.decorators (fieldOpening p)
  enumeration : ∀ values, d.body = .enumeration values →
    Above lines 0 d.decorators (enumOpening options d)
  value : ∀ values, d.body = .enumeration values → ∀ value ∈ values,
    Above lines 1 value.decorators (variantOpening options value)

/-- **Each item of a declaration has its documentation right above it**, and so has each member
and value. -/
theorem docsPlaced_declarationLines :
    DocsPlaced options g d (declarationLines options naming g d) where
  record hclass := by
    rw [declarationLines_of_isClass options naming g hclass]
    exact above_record options naming g d
  member hclass e he p hp hname := by
    have hmember : (⟨e, p⟩ : Member) ∈ g.members d :=
      List.mem_flatMap.2 ⟨e, List.mem_reverse.2 he, List.mem_map_of_mem hp⟩
    rw [declarationLines_of_isClass options naming g hclass]
    exact above_field options naming g d (List.mem_filter.2 ⟨hmember, decide_eq_true hname⟩)
  enumeration values hbody := by
    rw [declarationLines, hbody]
    exact above_enum options d values
  value values hbody value hvalue := by
    rw [declarationLines, hbody]
    exact above_variant options d hvalue

variable {options g d} in
theorem DocsPlaced.extend {lines : List Line} (h : DocsPlaced options g d lines)
    (front back : List Line) :
    DocsPlaced options g d (front ++ lines ++ back) where
  record hclass := (h.record hclass).extend front back
  member hclass e he p hp hname := (h.member hclass e he p hp hname).extend front back
  enumeration values hbody := (h.enumeration values hbody).extend front back
  value values hbody value hvalue := (h.value values hbody value hvalue).extend front back

variable {d} in
/-- The declarations of a unit keep the documentation in its place. -/
theorem docsPlaced_unitLines {ns : Namespace} (hd : d ∈ ns.declarations) :
    DocsPlaced options g d (unitLines options naming g ns) := by
  obtain ⟨front, back, hsplit⟩ := List.append_of_mem hd
  have hlines : unitLines options naming g ns
      = (headerTexts ns).map (fun text => (⟨0, text⟩ : Line))
          ++ front.flatMap (declarationLines options naming g)
            ++ declarationLines options naming g d
        ++ back.flatMap (declarationLines options naming g) := by
    rw [unitLines, hsplit, List.flatMap_append, List.flatMap_cons]
    simp only [List.append_assoc]
  rw [hlines]
  exact (docsPlaced_declarationLines options naming g d).extend _ _

/-- The unit of a namespace, with the documentation of its declarations in place. -/
structure HoldsDocs (ns : Namespace) (unit : SourceUnit) : Prop where
  name : unit.name = unitName (moduleName ns.name)
  lines : ∃ lines, unit.lines = lines.map Line.render
    ∧ ∀ d ∈ ns.declarations, DocsPlaced options g d lines

/-- A sealed unit holds the documentation of all its declarations. -/
theorem holdsDocs_sealed {ns : Namespace} (h : ∀ d ∈ ns.declarations, g.MembersDistinct options d) :
    HoldsDocs options g ns (namespacePlan options (memberName options.reserved) g ns).sealed where
  name := rfl
  lines := by
    have hfaults : ∀ d ∈ ns.declarations,
        (declarationFragment options (memberName options.reserved) g d).fault? = none :=
      fun d hd => fault?_declarationFragment_eq_none_iff.2 (h d hd)
    refine ⟨unitLines options (memberName options.reserved) g ns, ?_, fun d hd =>
      docsPlaced_unitLines options _ g hd⟩
    rw [UnitPlan.sealed, namespacePlan, Fragment.rendered,
      emit_namespaceFragment options _ g hfaults]

end

/-! ## All decorators -/

/-- What is documented of a list of decorators. -/
structure DocumentsLast (decorators : List Decorator) : Prop where
  none_iff : decoratorTable? decorators = none ↔ decorators = []
  table : ∀ table, decoratorTable? decorators = some table → Tabulates decorators table
  /-- One line of documentation for each text of the table. -/
  lines : ∀ table level, decoratorTable? decorators = some table →
    docLines level decorators = (renderTable table).map fun text => ⟨level, "/// " ++ text⟩
  same_iff : ∀ decorators', decoratorTable? decorators' = decoratorTable? decorators
    ↔ SameLast decorators decorators'
  reordered : ∀ decorators', decorators'.Perm decorators → (decorators.map Decorator.name).Nodup →
    decoratorTable? decorators' = decoratorTable? decorators
  overwritten : ∀ kept, DropsOverwritten decorators kept →
    decoratorTable? kept = decoratorTable? decorators

theorem documentsLast (decorators : List Decorator) : DocumentsLast decorators where
  none_iff := decoratorTable?_eq_none_iff
  table _ h := tabulates h
  lines table level h := by
    rw [docLines, h]
  same_iff _ := decoratorTable?_eq_iff
  reordered _ hperm hdistinct := decoratorTable?_eq_iff.2 (sameLast_of_perm hperm hdistinct)
  overwritten _ hdrops := decoratorTable?_eq_iff.2 hdrops.sameLast

/-- What runs make of the decorators of a graph. -/
structure DocumentsGraph (options : Options) (g : Graph) : Prop where
  /-- A graph with the same last decorators everywhere gives the same run, into whatever sink. -/
  same : ∀ g', g.SameDecorators g' → ∀ (m : Type → Type) [Monad m] [Sink m],
    (generate options g' : m (Except GenerationError Unit)) = generate options g
  /-- Behind a run that succeeds all documentation is in its place. -/
  placed : ∀ units sink, runFrom options g units = (.ok (), sink) →
    ∃ sealed, sink.units
      = units ++ (manifestPlan g).sealed :: (dateTimePlan options).sealed :: sealed
      ∧ List.Forall₂ (HoldsDocs options g) g.namespaces sealed

/-- **The last decorator of each name is documented, in one order and in its place.** -/
theorem last_decorators_documented :
    (∀ decorators, DocumentsLast decorators) ∧ ∀ options g, DocumentsGraph options g := by
  refine ⟨documentsLast, fun options g => ⟨fun g' h m _ _ => h.mirrors.generate options, ?_⟩⟩
  intro units sink hrun
  obtain ⟨-, hmembers, rfl⟩ := of_runFrom_eq_ok options g units hrun
  exact ⟨_, rfl, forall₂_namespacePlans fun ns hns => holdsDocs_sealed options g (hmembers ns hns)⟩

/-! A story inherits a label. One decorator of the story is overwritten, one of the label says
nothing. -/

def labelProperty : Property :=
  { Property.field "label" (.ofPrimitive .string) with decorators := [⟨"Hidden", []⟩] }

def storyClass (decorators : List Decorator) : Declaration :=
  { Declaration.concept "shelf" "Story" (some (.named "Base")) [] with decorators := decorators }

def shelf (decorators : List Decorator) : Graph :=
  .ofNamespaces [⟨"shelf", [],
    [.concept "shelf" "Base" none [labelProperty], storyClass decorators]⟩]

/-- The decorators of the story, and those that are left of them. -/
def storyDecorators : List Decorator :=
  [⟨"Term", [.text "old"]⟩, ⟨"Hidden", []⟩, ⟨"Term", [.text "new", .boolean true]⟩]

def keptDecorators : List Decorator := storyDecorators.tail

theorem dropsOverwritten_story : DropsOverwritten storyDecorators keptDecorators :=
  .drop (by decide) (.keep _ (.keep _ .nil))

theorem sameDecorators_shelf : (shelf storyDecorators).SameDecorators (shelf keptDecorators) := by
  have hlabel : labelProperty.SameDecorators labelProperty := ⟨rfl, fun name => rfl⟩
  refine .cons ⟨rfl, rfl, .cons ?_ (.cons ?_ .nil)⟩ .nil
  · exact ⟨rfl, rfl, fun name => rfl, .record .concept false none (.cons hlabel .nil)⟩
  · exact ⟨rfl, rfl, dropsOverwritten_story.sameLast, .record .concept false _ .nil⟩

/-- A shelf and the same shelf without overwritten decorators make one unit. -/
theorem last_decorators_documented_shelf :
    (shelf storyDecorators).SameDecorators (shelf keptDecorators)
      ∧ ∃ sink, runFrom .default (shelf storyDecorators) [] = (.ok (), sink)
        ∧ runFrom .default (shelf keptDecorators) [] = (.ok (), sink)
        ∧ ∃ unit ∈ sink.units, unit.name = "shelf.rs" ∧ ∃ before after, unit.lines = before
          ++ ["/// @Hidden", "/// @Term(\"new\", true)",
            "#[derive(Debug, Clone, Serialize, Deserialize)]", "pub struct Story \x7b"]
              ++ after := by
  obtain ⟨hsame, hplaced⟩ := last_decorators_documented.2 .default (shelf storyDecorators)
  have hrun :=
    runFrom_of_clean .default (shelf storyDecorators) [] (by decide +kernel) (by decide +kernel)
  have hkept : runFrom .default (shelf keptDecorators) []
      = runFrom .default (shelf storyDecorators) [] := by
    rw [runFrom, runFrom, hsame _ sameDecorators_shelf]
  have hopening : (docLines 0 (storyClass storyDecorators).decorators
        ++ recordOpening .default (storyClass storyDecorators)).map Line.render
      = ["/// @Hidden", "/// @Term(\"new\", true)",
        "#[derive(Debug, Clone, Serialize, Deserialize)]", "pub struct Story \x7b"] := by
    decide +kernel
  obtain ⟨sealed, hunits, hsealed⟩ := hplaced [] _ hrun
  cases hsealed with
  | cons hunit _ =>
      obtain ⟨lines, hlines, hdocs⟩ := hunit.lines
      obtain ⟨before, after, habove, -⟩ :=
        (hdocs _ (List.mem_cons_of_mem _ List.mem_cons_self)).record rfl
      refine ⟨sameDecorators_shelf, _, hrun, hkept.trans hrun, _, ?_, hunit.name,
        before.map Line.render, after.map Line.render, ?_⟩
      · rw [hunits]
        exact List.mem_cons_of_mem _ (List.mem_cons_of_mem _ List.mem_cons_self)
      · rw [hlines, habove, List.map_append, List.append_assoc before, List.map_append, hopening]

end ModelForge
