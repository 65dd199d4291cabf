/-
`SourceItems.lean` -- the items in the lines of a unit.

The reader is run over the lines that are listed in `Layout.lean`. The lines of a record are read
as the record and its constant (`run_recordLines`), those of an enum as the enum
(`run_enumLines`), and the head of a unit as nothing. All these lines are plain, so nothing is
lost when only their texts are stored.
-/
import ModelForge.Proofs.Layout
import ModelForge.Proofs.Reading

set_option autoImplicit false

namespace ModelForge

/-! ## What single lines say -/

/-- Documentation begins with a slash, and no keyword does. -/
theorem head_doc (text : String) : ("/// " ++ text).toList.head? = some '/' := by
  rw [String.toList_append]
  rfl

/-- No keyword of an item begins with any other letter. -/
theorem openedBy?_of_head {line : Line} (hp : line.text.toList.head? ≠ some 'p')
    (hi : line.text.toList.head? ≠ some 'i') : openedBy? line = none := by
  have hrecord : behind? "pub struct " line.text.toList = none := behind?_of_head rfl hp
  have henumeration : behind? "pub enum " line.text.toList = none := behind?_of_head rfl hp
  have hconstants : behind? "impl " line.text.toList = none := behind?_of_head rfl hi
  simp [openedBy?, identifierBetween?, ItemKind.keyword, hrecord, henumeration, hconstants]

/-- A header opens its item. -/
theorem openedBy?_header (kind : ItemKind) {name : String}
    (hname : ∀ c ∈ name.toList, isIdentChar c = true) :
    openedBy? ⟨0, kind.keyword ++ name ++ " \x7b"⟩ = some ⟨kind, name, []⟩ := by
  have hread : identifierBetween? kind.keyword " \x7b" (kind.keyword ++ name ++ " \x7b").toList
      = some name := by
    have h := identifierBetween?_eq kind.keyword " \x7b" [] hname rfl rfl
    rw [List.append_nil] at h
    rw [String.toList_append, String.toList_append, List.append_assoc]
    exact h
  -- the keywords differ within their first five characters
  have hother : ∀ other, other ≠ kind →
      identifierBetween? other.keyword " \x7b" (kind.keyword ++ name ++ " \x7b").toList = none := by
    intro other hne
    rw [String.toList_append, String.toList_append]
    cases other <;> cases kind <;> first | exact absurd rfl hne | rfl
  unfold openedBy?
  dsimp only
  rw [if_pos rfl]
  cases kind with
  | record => rw [List.findSome?_cons, hread, Option.map_some]
  | enumeration =>
      rw [List.findSome?_cons, hother .record (by decide), Option.map_none]
      dsimp only
      rw [List.findSome?_cons, hread, Option.map_some]
  | constants =>
      rw [List.findSome?_cons, hother .record (by decide), Option.map_none]
      dsimp only
      rw [List.findSome?_cons, hother .enumeration (by decide), Option.map_none]
      dsimp only
      rw [List.findSome?_cons, hread, Option.map_some]

/-- Documentation says nothing inside of an item. -/
theorem reads?_doc (kind : ItemKind) (text : String) : kind.reads? ⟨1, "/// " ++ text⟩ = none := by
  cases kind with
  | record =>
      rw [ItemKind.reads?_record_one, String.toList_append]
      rfl
  | enumeration =>
      rw [ItemKind.reads?_enumeration_one, String.toList_append]
      rfl
  | constants =>
      rw [ItemKind.reads?_constants_one, String.toList_append]
      rfl

/-- In a record only fields and their names on the wire say something. -/
theorem reads?_record_of_head {text : String} (h : text.toList.head? ≠ some 'p') :
    ItemKind.record.reads? ⟨1, text⟩ = none := by
  have hnone : behind? "pub " text.toList = none := behind?_of_head rfl h
  rw [ItemKind.reads?_record_one, identifierBetween?, hnone, Option.bind_none, Option.map_none]

theorem reads?_attribute_of_head {text : String} (h : text.toList.head? ≠ some 'r') :
    ItemKind.record.reads? ⟨2, text⟩ = none := by
  have hnone : behind? "rename = " text.toList = none := behind?_of_head rfl h
  rw [ItemKind.reads?_record_two, literalBetween?, hnone, Option.bind_none, Option.bind_none,
    Option.map_none]

/-- The first attribute of a field says what it is called on the wire. -/
theorem reads?_rename (wire : String) :
    ItemKind.record.reads? ⟨2, "rename = " ++ quoted wire ++ ","⟩ = some (.rename wire) := by
  rw [ItemKind.reads?_record_two, literalBetween?_eq, Option.map_some]

/-- The last line of a field says its name, and the name ends in front of the colon. -/
theorem reads?_field {name : String} (hname : ∀ c ∈ name.toList, isIdentChar c = true)
    (typeText : String) :
    ItemKind.record.reads? ⟨1, "pub " ++ name ++ ": " ++ typeText ++ ","⟩
      = some (.member name) := by
  have hread : identifierBetween? "pub " ": " ("pub " ++ name ++ ": " ++ typeText ++ ",").toList
      = some name := by
    have h := identifierBetween?_eq "pub " ": " (typeText.toList ++ ",".toList) hname rfl rfl
    simp only [String.toList_append, List.append_assoc]
    exact h
  rw [ItemKind.reads?_record_one, hread, Option.map_some]

/-- An attribute above a variant says what it is called on the wire. -/
theorem reads?_variantRename (wire : String) :
    ItemKind.enumeration.reads? ⟨1, "#[serde(rename = " ++ quoted wire ++ ")]"⟩
      = some (.rename wire) := by
  rw [ItemKind.reads?_enumeration_one, literalBetween?_eq, Option.map_some, Option.some_or]

/-- The line of a variant begins with its name, or with the comma behind it. -/
theorem head_variant_ne {name : String} (hname : ∀ d ∈ name.toList, isIdentChar d = true) {c : Char}
    (hc : isIdentChar c = false) (hcomma : c ≠ ',') : (name ++ ",").toList.head? ≠ some c := by
  intro hhead
  rw [String.toList_append, List.head?_append] at hhead
  cases hchars : name.toList with
  | nil =>
      rw [hchars] at hhead
      exact hcomma (Option.some.inj hhead).symm
  | cons d rest =>
      rw [hchars, List.head?_cons, Option.some_or, Option.some.injEq] at hhead
      have hlegal := hname d (hchars ▸ List.mem_cons_self)
      rw [hhead, hc] at hlegal
      exact absurd hlegal (by decide)

/-- The line of a variant says its name. -/
theorem reads?_variant {name : String} (hname : ∀ c ∈ name.toList, isIdentChar c = true) :
    ItemKind.enumeration.reads? ⟨1, name ++ ","⟩ = some (.member name) := by
  have hmember : identifierBetween? "" "," (name ++ ",").toList = some name := by
    have h := identifierBetween?_eq "" "," [] hname rfl rfl
    rw [List.append_nil] at h
    rw [String.toList_append]
    exact h
  have hhash : (name ++ ",").toList.head? ≠ some '#' := head_variant_ne hname rfl (by decide)
  have hnone : behind? "#[serde(rename = " (name ++ ",").toList = none := behind?_of_head rfl hhash
  have hliteral : literalBetween? "#[serde(rename = " ")]" (name ++ ",").toList = none := by
    rw [literalBetween?, hnone, Option.bind_none, Option.bind_none]
  rw [ItemKind.reads?_enumeration_one, hliteral, hmember, Option.map_none, Option.map_some,
    Option.none_or]

/-- The constant of a record says the qualified name of the class. -/
theorem reads?_constant (text : String) :
    ItemKind.constants.reads? ⟨1, "pub const CLASS: &str = " ++ quoted text ++ ";"⟩
      = some (.constant text) := by
  rw [ItemKind.reads?_constants_one, literalBetween?_eq, Option.map_some]

/-! ## What the lines of an item say -/

namespace ItemReader

variable {found : List Item} {kind : ItemKind} {name : String} {members : List ItemMember}
variable {literal? : Option String}

/-- Outside of items a line that opens none is skipped. -/
theorem next_of_not_opened {line : Line} (h : openedBy? line = none) :
    next ⟨found, none, literal?⟩ line = ⟨found, none, literal?⟩ := by
  simp [next, h]

/-- Inside of an item a line that says nothing is skipped. -/
theorem next_of_silent {level : Nat} {text : String} (h : kind.reads? ⟨level + 1, text⟩ = none) :
    next ⟨found, some ⟨kind, name, members⟩, literal?⟩ ⟨level + 1, text⟩
      = ⟨found, some ⟨kind, name, members⟩, literal?⟩ := by
  simp [next, h]

/-- A name on the wire is kept for the next member. -/
theorem next_of_rename {level : Nat} {text wire : String}
    (h : kind.reads? ⟨level + 1, text⟩ = some (.rename wire)) :
    next ⟨found, some ⟨kind, name, members⟩, literal?⟩ ⟨level + 1, text⟩
      = ⟨found, some ⟨kind, name, members⟩, some wire⟩ := by
  simp [next, h]

/-- A member takes the name on the wire that was kept, if one was. -/
theorem next_of_member {level : Nat} {text identifier : String}
    (h : kind.reads? ⟨level + 1, text⟩ = some (.member identifier)) :
    next ⟨found, some ⟨kind, name, members⟩, literal?⟩ ⟨level + 1, text⟩
      = ⟨found, some ⟨kind, name, members ++ [⟨identifier, literal?⟩]⟩, none⟩ := by
  simp [next, h, Item.add]

/-- A constant comes with its text. -/
theorem next_of_constant {level : Nat} {text literal : String}
    (h : kind.reads? ⟨level + 1, text⟩ = some (.constant literal)) :
    next ⟨found, some ⟨kind, name, members⟩, literal?⟩ ⟨level + 1, text⟩
      = ⟨found, some ⟨kind, name, members ++ [⟨"CLASS", some literal⟩]⟩, none⟩ := by
  simp [next, h, Item.add]

/-- A block is an item with the members that its body adds. -/
theorem run_blockLines
    (hname : ∀ c ∈ name.toList, isIdentChar c = true) {body : List Line}
    (hbody : run ⟨found, some ⟨kind, name, []⟩, none⟩ body
      = ⟨found, some ⟨kind, name, members⟩, none⟩) :
    run ⟨found, none, none⟩ (blockLines (kind.keyword ++ name) body)
      = ⟨found ++ [⟨kind, name, members⟩], none, none⟩ := by
  have hopen : next ⟨found, none, none⟩ ⟨0, kind.keyword ++ name ++ " \x7b"⟩
      = ⟨found, some ⟨kind, name, []⟩, none⟩ := by
    simp only [next, openedBy?_header kind hname]
  rw [blockLines, run_cons, hopen, run_append, hbody]
  simp [run, next]

/-- A line outside of items that begins with neither letter of a keyword is skipped. -/
theorem run_skipped {line : Line} (hp : line.text.toList.head? ≠ some 'p')
    (hi : line.text.toList.head? ≠ some 'i') :
    run ⟨found, none, literal?⟩ [line] = ⟨found, none, literal?⟩ := by
  rw [run_singleton, next_of_not_opened (openedBy?_of_head hp hi)]

/-- Documentation says nothing, be it of an item or of a member. -/
theorem run_docLines_outside (decorators : List Decorator) :
    run ⟨found, none, literal?⟩ (docLines 0 decorators) = ⟨found, none, literal?⟩ := by
  apply run_of_ignored
  intro line hline
  obtain ⟨text, rfl⟩ := exists_of_mem_docLines hline
  apply next_of_not_opened
  apply openedBy?_of_head <;> rw [head_doc] <;> decide

theorem run_docLines_inside (decorators : List Decorator) :
    run ⟨found, some ⟨kind, name, members⟩, literal?⟩ (docLines 1 decorators)
      = ⟨found, some ⟨kind, name, members⟩, literal?⟩ := by
  apply run_of_ignored
  intro line hline
  obtain ⟨text, rfl⟩ := exists_of_mem_docLines hline
  exact next_of_silent (reads?_doc kind text)

/-- Lines that add one member for each element of a list add them in order. -/
theorem run_flatMap {α : Type} {linesOf : α → List Line} {memberOf : α → ItemMember}
    {elements : List α}
    (h : ∀ x ∈ elements, ∀ members, run ⟨found, some ⟨kind, name, members⟩, none⟩ (linesOf x)
      = ⟨found, some ⟨kind, name, members ++ [memberOf x]⟩, none⟩)
    (members : List ItemMember) :
    run ⟨found, some ⟨kind, name, members⟩, none⟩ (elements.flatMap linesOf)
      = ⟨found, some ⟨kind, name, members ++ elements.map memberOf⟩, none⟩ := by
  induction elements generalizing members with
  | nil => simp [run]
  | cons x rest ih =>
      rw [List.forall_mem_cons] at h
      rw [List.flatMap_cons, run_append, h.1, ih h.2, List.map_cons, List.append_assoc,
        List.singleton_append]

/-- A block whose body adds one member for each element of a list. -/
theorem run_blockLines_flatMap {α : Type} {linesOf : α → List Line} {memberOf : α → ItemMember}
    {elements : List α}
    (hname : ∀ c ∈ name.toList, isIdentChar c = true)
    (h : ∀ x ∈ elements, ∀ members, run ⟨found, some ⟨kind, name, members⟩, none⟩ (linesOf x)
      = ⟨found, some ⟨kind, name, members ++ [memberOf x]⟩, none⟩) :
    run ⟨found, none, none⟩ (blockLines (kind.keyword ++ name) (elements.flatMap linesOf))
      = ⟨found ++ [⟨kind, name, elements.map memberOf⟩], none, none⟩ := by
  have hbody := run_flatMap h []
  rw [List.nil_append] at hbody
  exact run_blockLines hname hbody

end ItemReader

/-! ## Records -/

/-- The name on the wire comes first among the attributes of a field. -/
theorem fieldAttributes_eq_cons (field : Field) :
    ∃ others, fieldAttributes field = ("rename = " ++ quoted field.wireName ++ ",") :: others
      ∧ ∀ text ∈ others, text.toList.head? = some 's' ∨ text.toList.head? = some 'd' := by
  refine ⟨_, rfl, fun text htext => ?_⟩
  rcases List.mem_append.1 htext with hskip | hhooks
  · split at hskip
    · rw [List.mem_singleton.1 hskip]
      exact .inl rfl
    · exact absurd hskip List.not_mem_nil
  · split at hhooks
    · exact absurd hhooks List.not_mem_nil
    · rw [List.mem_append, List.mem_cons, List.mem_singleton] at hhooks
      rcases hhooks with (rfl | rfl) | hdefault
      · left
        rw [String.toList_append, String.toList_append]
        rfl
      · right
        rw [String.toList_append, String.toList_append]
        rfl
      · split at hdefault
        · rw [List.mem_singleton.1 hdefault]
          exact .inr rfl
        · exact absurd hdefault List.not_mem_nil

/-- A field as it is read: always with its name on the wire. -/
def fieldMember (field : Field) : ItemMember := ⟨field.name, some field.wireName⟩

/-- **The lines of a field add one member**, with its own spelling and its name on the wire. -/
theorem ItemReader.run_fieldLines {found : List Item} {name : String} {field : Field}
    (hfield : ∀ c ∈ field.name.toList, isIdentChar c = true) (members : List ItemMember) :
    run ⟨found, some ⟨.record, name, members⟩, none⟩ (fieldLines 1 field)
      = ⟨found, some ⟨.record, name, members ++ [fieldMember field]⟩, none⟩ := by
  obtain ⟨others, hattributes, hothers⟩ := fieldAttributes_eq_cons field
  have hsilent {literal? : Option String} {text : String} (h : text.toList.head? ≠ some 'p') :
      run ⟨found, some ⟨.record, name, members⟩, literal?⟩ [⟨1, text⟩]
        = ⟨found, some ⟨.record, name, members⟩, literal?⟩ := by
    rw [run_singleton, next_of_silent (reads?_record_of_head h)]
  -- behind the first attribute the reader knows the name on the wire
  have hwire : run ⟨found, some ⟨.record, name, members⟩, none⟩
      ((fieldAttributes field).map fun text => ⟨2, text⟩)
        = ⟨found, some ⟨.record, name, members⟩, some field.wireName⟩ := by
    rw [hattributes, List.map_cons, run_cons, next_of_rename (reads?_rename field.wireName)]
    apply run_of_ignored
    intro line hline
    obtain ⟨text, htext, rfl⟩ := List.mem_map.1 hline
    apply next_of_silent
    apply reads?_attribute_of_head
    rcases hothers text htext with h | h <;> rw [h] <;> decide
  have hmember : run ⟨found, some ⟨.record, name, members⟩, some field.wireName⟩
      [⟨1, "pub " ++ field.name ++ ": " ++ field.typeText ++ ","⟩]
        = ⟨found, some ⟨.record, name, members ++ [fieldMember field]⟩, none⟩ := by
    rw [run_singleton, next_of_member (reads?_field hfield field.typeText)]
    rfl
  rw [fieldLines, run_append, run_append, run_append, run_append, run_docLines_inside,
    hsilent (by decide), hwire, hsilent (by decide), hmember]

/-- A record and its constant are read back. -/
theorem ItemReader.run_recordLines {found : List Item} (options : Options)
    {naming : String → String} (hnaming : ∀ raw, ∀ c ∈ (naming raw).toList, isIdentChar c = true)
    (g : Graph) (d : Declaration) :
    run ⟨found, none, none⟩ (recordLines options naming g d)
      = ⟨found
          ++ [⟨.record, typeName options.reserved d.name,
              (recordFields options naming g d).map fieldMember⟩]
          ++ [⟨.constants, typeName options.reserved d.name, [⟨"CLASS", some d.qualifiedName⟩]⟩],
        none, none⟩ := by
  have hname : ∀ c ∈ (typeName options.reserved d.name).toList, isIdentChar c = true :=
    fun c => isIdentChar_of_mem_typeName
  have hblank {items : List Item} : run ⟨items, none, none⟩ [.blank] = ⟨items, none, none⟩ :=
    run_skipped (by decide) (by decide)
  have hderive : run ⟨found, none, none⟩ [deriveLine] = ⟨found, none, none⟩ :=
    run_skipped (by decide) (by decide)
  have hfields : ∀ field ∈ recordFields options naming g d,
      ∀ c ∈ field.name.toList, isIdentChar c = true := by
    have hdiscriminator : discriminatorField.toList.all isIdentChar = true := by decide
    intro field hfield
    rw [recordFields, List.mem_cons, List.mem_map] at hfield
    rcases hfield with rfl | ⟨m, -, rfl⟩
    · exact List.all_eq_true.1 hdiscriminator
    · exact hnaming m.property.name
  have hstruct : run ⟨found, none, none⟩
      (blockLines (ItemKind.record.keyword ++ typeName options.reserved d.name)
        ((recordFields options naming g d).flatMap (fieldLines 1)))
      = ⟨found ++ [⟨.record, typeName options.reserved d.name,
          (recordFields options naming g d).map fieldMember⟩],
        none, none⟩ := by
    apply run_blockLines_flatMap hname
    intro field hfield members
    exact run_fieldLines (hfields field hfield) members
  have hconstants {items : List Item} : run ⟨items, none, none⟩
      (blockLines (ItemKind.constants.keyword ++ typeName options.reserved d.name) [constantLine d])
      = ⟨items ++
          [⟨.constants, typeName options.reserved d.name, [⟨"CLASS", some d.qualifiedName⟩]⟩],
        none, none⟩ := by
    apply run_blockLines hname
    rw [constantLine, run_singleton,
      next_of_constant (reads?_constant d.qualifiedName), List.nil_append]
  simp only [ItemKind.keyword] at hstruct hconstants
  rw [recordLines, run_append, run_append, run_append, run_append, run_append, hblank,
    run_docLines_outside, hderive, hstruct, hblank, hconstants]

/-! ## Enums -/

/-- A variant as it is read: its value is named by an attribute only where it is spelled
otherwise. -/
def variantMember (options : Options) (value : Property) : ItemMember where
  identifier := typeName options.reserved value.name
  literal? := if typeName options.reserved value.name = value.name then none else some value.name

/-- Either way the variant is called like the value. -/
theorem wireName_variantMember (options : Options) (value : Property) :
    (variantMember options value).wireName = value.name := by
  unfold variantMember ItemMember.wireName
  dsimp only
  split
  · rename_i hsame
    rw [Option.getD_none, hsame]
  · rw [Option.getD_some]

/-- The lines of a variant add one member, and a name on the wire only where it differs. -/
theorem ItemReader.run_variantLines {found : List Item} {name : String} (options : Options)
    (value : Property) (members : List ItemMember) :
    run ⟨found, some ⟨.enumeration, name, members⟩, none⟩ (variantLines options value)
      = ⟨found, some ⟨.enumeration, name, members ++ [variantMember options value]⟩, none⟩ := by
  have hvariant : ∀ c ∈ (typeName options.reserved value.name).toList, isIdentChar c = true :=
    fun c => isIdentChar_of_mem_typeName
  have hrename : run ⟨found, some ⟨.enumeration, name, members⟩, none⟩ (renameLines options value)
      = ⟨found, some ⟨.enumeration, name, members⟩, (variantMember options value).literal?⟩ := by
    unfold renameLines variantMember
    dsimp only
    split
    · rfl
    · rw [run_singleton, next_of_rename (reads?_variantRename value.name)]
  rw [variantLines, run_append, run_append, run_docLines_inside, hrename, run_singleton,
    next_of_member (reads?_variant hvariant)]
  rfl

/-- An enum is read back. -/
theorem ItemReader.run_enumLines {found : List Item} (options : Options) (d : Declaration)
    (values : List Property) :
    run ⟨found, none, none⟩ (enumLines options d values)
      = ⟨found ++ [⟨.enumeration, typeName options.reserved d.name,
          values.map (variantMember options)⟩],
        none, none⟩ := by
  have hname : ∀ c ∈ (typeName options.reserved d.name).toList, isIdentChar c = true :=
    fun c => isIdentChar_of_mem_typeName
  have hblank : run ⟨found, none, none⟩ [.blank] = ⟨found, none, none⟩ :=
    run_skipped (by decide) (by decide)
  have hderive : run ⟨found, none, none⟩ [deriveLine] = ⟨found, none, none⟩ :=
    run_skipped (by decide) (by decide)
  have hallow : run ⟨found, none, none⟩ [⟨0, "#[allow(non_camel_case_types)]"⟩]
      = ⟨found, none, none⟩ := run_skipped (by decide) (by decide)
  have henum : run ⟨found, none, none⟩
      (blockLines (ItemKind.enumeration.keyword ++ typeName options.reserved d.name)
        (values.flatMap (variantLines options)))
      = ⟨found ++ [⟨.enumeration, typeName options.reserved d.name,
          values.map (variantMember options)⟩],
        none, none⟩ := by
    apply run_blockLines_flatMap hname
    intro value _ members
    exact run_variantLines options value members
  simp only [ItemKind.keyword] at henum
  rw [enumLines, run_append, run_append, run_append, run_append, hblank, run_docLines_outside,
    hderive, hallow, henum]

/-! ## The head of a unit -/

/-- Nothing in the head of a unit opens an item. -/
theorem ItemReader.run_headerTexts (ns : Namespace) :
    start.run ((headerTexts ns).map fun text => ⟨0, text⟩) = start := by
  apply run_of_ignored
  intro line hline
  obtain ⟨text, htext, rfl⟩ := List.mem_map.1 hline
  have huse (module : String) : (useLine module).toList.head? = some 'u' := by
    simp [useLine, String.toList_append]
  apply next_of_not_opened
  rw [headerTexts, List.mem_append, List.mem_append, List.mem_map, List.mem_singleton] at htext
  rcases htext with (hfixed | ⟨source, -, rfl⟩) | rfl
  · simp only [List.mem_cons, List.not_mem_nil, or_false] at hfixed
    rcases hfixed with rfl | rfl | rfl | rfl <;> exact openedBy?_of_head (by decide) (by decide)
  · apply openedBy?_of_head <;> rw [huse] <;> decide
  · apply openedBy?_of_head <;> rw [huse] <;> decide

/-! ## Stored lines -/

/-- The lines of documentation are plain. -/
theorem isPlain_docLines (level : Nat) (decorators : List Decorator) :
    ∀ line ∈ docLines level decorators, line.IsPlain := by
  intro line hline
  obtain ⟨text, rfl⟩ := exists_of_mem_docLines hline
  exact Line.isPlain_of_head (head_doc text) (by decide)

/-- A block is plain if its header and its body are. -/
theorem isPlain_blockLines {header : String} {c : Char} (hheader : header.toList.head? = some c)
    (hc : c ≠ ' ') {body : List Line} (hbody : ∀ line ∈ body, line.IsPlain) :
    ∀ line ∈ blockLines header body, line.IsPlain := by
  have hopen : (header ++ " \x7b").toList.head? = some c := by
    rw [String.toList_append, List.head?_append, hheader, Option.some_or]
  rw [blockLines, List.forall_mem_cons, List.forall_mem_append, List.forall_mem_singleton]
  exact ⟨Line.isPlain_of_head hopen hc, hbody, by decide⟩

/-- The lines of a field are plain, as each begins with a mark or a letter. -/
theorem isPlain_fieldLines (field : Field) : ∀ line ∈ fieldLines 1 field, line.IsPlain := by
  obtain ⟨others, hattributes, hothers⟩ := fieldAttributes_eq_cons field
  have hrename : ("rename = " ++ quoted field.wireName ++ ",").toList.head? = some 'r' := by
    simp [String.toList_append]
  have hfield : ("pub " ++ field.name ++ ": " ++ field.typeText ++ ",").toList.head?
      = some 'p' := by
    simp [String.toList_append]
  have hattribute : ∀ text ∈ fieldAttributes field, Line.IsPlain ⟨2, text⟩ := by
    rw [hattributes, List.forall_mem_cons]
    refine ⟨Line.isPlain_of_head hrename (by decide), fun text htext => ?_⟩
    rcases hothers text htext with h | h
    · exact Line.isPlain_of_head h (by decide)
    · exact Line.isPlain_of_head h (by decide)
  simp only [fieldLines, List.forall_mem_append, List.forall_mem_singleton, List.forall_mem_map]
  exact ⟨⟨⟨⟨isPlain_docLines 1 _, by decide⟩, hattribute⟩, by decide⟩,
    Line.isPlain_of_head hfield (by decide)⟩

theorem isPlain_variant {level : Nat} {name : String}
    (hname : ∀ c ∈ name.toList, isIdentChar c = true) : Line.IsPlain ⟨level, name ++ ","⟩ := by
  refine ⟨head_variant_ne hname rfl (by decide), fun hempty => ?_⟩
  have hchars := congrArg String.toList hempty
  rw [String.toList_append] at hchars
  exact absurd hchars (by simp)

/-- The lines of a variant are plain. -/
theorem isPlain_variantLines (options : Options) (value : Property) :
    ∀ line ∈ variantLines options value, line.IsPlain := by
  have hrename : ∀ line ∈ renameLines options value, line.IsPlain := by
    intro line hline
    unfold renameLines at hline
    split at hline
    · exact absurd hline List.not_mem_nil
    · rw [List.mem_singleton.1 hline]
      refine Line.isPlain_of_head (c := '#') ?_ (by decide)
      simp [String.toList_append]
  simp only [variantLines, List.forall_mem_append, List.forall_mem_singleton]
  exact ⟨⟨isPlain_docLines 1 _, hrename⟩, isPlain_variant fun c => isIdentChar_of_mem_typeName⟩

/-- All lines of a declaration are plain, so nothing of them is lost when they are stored. -/
theorem isPlain_declarationLines (options : Options) (naming : String → String) (g : Graph)
    (d : Declaration) : ∀ line ∈ declarationLines options naming g d, line.IsPlain := by
  unfold declarationLines
  cases d.body with
  | record flavor isAbstract superType properties =>
      have hfields : ∀ line ∈ (recordFields options naming g d).flatMap (fieldLines 1),
          line.IsPlain := by
        rw [List.forall_mem_flatMap]
        exact fun field _ => isPlain_fieldLines field
      have hstruct : ("pub struct " ++ typeName options.reserved d.name).toList.head?
          = some 'p' := by
        simp [String.toList_append]
      have himpl : ("impl " ++ typeName options.reserved d.name).toList.head? = some 'i' := by
        simp [String.toList_append]
      have hconstant : (constantLine d).text.toList.head? = some 'p' := by
        simp [constantLine, String.toList_append]
      simp only [recordLines, List.forall_mem_append, List.forall_mem_singleton]
      refine ⟨⟨⟨⟨⟨by decide, isPlain_docLines 0 _⟩, by decide⟩, ?_⟩, by decide⟩, ?_⟩
      · exact isPlain_blockLines hstruct (by decide) hfields
      · refine isPlain_blockLines himpl (by decide) ?_
        rw [List.forall_mem_singleton]
        exact Line.isPlain_of_head hconstant (by decide)
  | enumeration values =>
      have hvariants : ∀ line ∈ values.flatMap (variantLines options), line.IsPlain := by
        rw [List.forall_mem_flatMap]
        exact fun value _ => isPlain_variantLines options value
      have henum : ("pub enum " ++ typeName options.reserved d.name).toList.head? = some 'p' := by
        simp [String.toList_append]
      simp only [enumLines, List.forall_mem_append, List.forall_mem_singleton]
      exact ⟨⟨⟨⟨by decide, isPlain_docLines 0 _⟩, by decide⟩, by decide⟩,
        isPlain_blockLines henum (by decide) hvariants⟩
  | scalar primitive default => exact fun line hline => absurd hline List.not_mem_nil

/-- The head of a unit is plain as well. -/
theorem isPlain_headerTexts (ns : Namespace) :
    ∀ line ∈ (headerTexts ns).map (fun text => (⟨0, text⟩ : Line)), line.IsPlain := by
  have huse (module : String) : Line.IsPlain ⟨0, useLine module⟩ := by
    refine Line.isPlain_of_head (c := 'u') ?_ (by decide)
    simp [useLine, String.toList_append]
  rw [List.forall_mem_map, headerTexts]
  simp only [List.forall_mem_append, List.forall_mem_singleton, List.forall_mem_map]
  exact ⟨⟨by decide, fun source _ => huse _⟩, huse _⟩

end ModelForge
