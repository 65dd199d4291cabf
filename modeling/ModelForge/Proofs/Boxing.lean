/-
`Boxing.lean` -- records have finite size, and boxes stand only where a cycle needs them.

Boxing is decided member by member. A member of `a` that has the class `b` for its type is boxed
when two searches agree: `a` leads back to itself, and `b` leads back to `a`. What is wanted of
the outcome is about all records at once: a record that holds another one as it is, which holds
another one in turn, must never come to hold itself (`Graph.not_transGen_embeds`).

The argument is short once both searches are known to be exact. On a cycle of records that hold
one another as they are, the second record leads back to the first. So the first is recursive, and
the member that starts the cycle is boxed after all. In the other direction the search of the
owner asks for nothing new, because a member whose class leads back to the owner makes the owner
recursive (`Graph.isRecursive_of_leadsBack`).

The text of a type is where the decision can be seen. `Box<` stands in it only if it was put there,
because no type name has a character outside of identifiers (`isIdentChar_of_mem_typeName`).
-/
import ModelForge.Generate.Record
import ModelForge.Metamodel.Writer
import ModelForge.Proofs.FieldLines
import ModelForge.Proofs.Identifiers
import ModelForge.Proofs.Loading
import ModelForge.Proofs.Search

set_option autoImplicit false

namespace ModelForge

open Relation

/-! ## Boxes in texts -/

/-- What every boxed type begins with. The bracket is part of it, for a class may be called
`Boxer`. -/
def boxMark : List Char := ['B', 'o', 'x', '<']

/-- Whether a type is boxed somewhere. -/
def ShowsBox (typeText : String) : Prop := boxMark <:+: typeText.toList

/-- Closing a bracket neither makes nor hides a box. -/
theorem boxMark_infix_concat {s : List Char} : boxMark <:+: s ++ ['>'] ↔ boxMark <:+: s := by
  rw [List.infix_concat_iff, List.suffix_concat_iff]
  constructor
  · rintro ((hnil | ⟨t, ht, -⟩) | hs)
    · exact absurd hnil (by decide)
    · have hlast := congrArg List.getLast? ht
      rw [List.getLast?_concat] at hlast
      exact absurd hlast (by decide)
    · exact hs
  · exact .inr

/-- A list around a type shows no box of its own. -/
theorem showsBox_vec {base : String} : ShowsBox ("Vec<" ++ base ++ ">") ↔ ShowsBox base := by
  have htext : ("Vec<" ++ base ++ ">").toList
      = 'V' :: 'e' :: 'c' :: '<' :: base.toList ++ ['>'] := by
    rw [String.toList_append, String.toList_append]
    rfl
  rw [ShowsBox, htext, boxMark_infix_concat]
  simp [ShowsBox, boxMark, List.infix_cons_iff, List.cons_prefix_cons]

/-- Nor does an option. -/
theorem showsBox_option {base : String} : ShowsBox ("Option<" ++ base ++ ">") ↔ ShowsBox base := by
  have htext : ("Option<" ++ base ++ ">").toList
      = 'O' :: 'p' :: 't' :: 'i' :: 'o' :: 'n' :: '<' :: base.toList ++ ['>'] := by
    rw [String.toList_append, String.toList_append]
    rfl
  rw [ShowsBox, htext, boxMark_infix_concat]
  simp [ShowsBox, boxMark, List.infix_cons_iff, List.cons_prefix_cons]

/-- A type is boxed when its base is. -/
theorem showsBox_wrapType {base : String} {isArray isOptional : Bool} :
    ShowsBox (wrapType base isArray isOptional) ↔ ShowsBox base := by
  cases isArray <;> cases isOptional
  · exact Iff.rfl
  · exact showsBox_option
  · exact showsBox_vec
  · exact showsBox_option.trans showsBox_vec

theorem showsBox_boxType (base : String) : ShowsBox (boxType base) := by
  rw [ShowsBox, boxType, String.toList_append, String.toList_append]
  exact ⟨[], base.toList ++ ">".toList, by simp [boxMark]⟩

/-- A sanitized name has no bracket in it. -/
theorem not_showsBox_typeName (reserved : WordSet) (raw : String) :
    ¬ ShowsBox (typeName reserved raw) := by
  intro h
  have hbracket : '<' ∈ (typeName reserved raw).toList := h.subset (by decide)
  exact absurd (isIdentChar_of_mem_typeName hbracket) (by decide)

theorem not_showsBox_primitive (p : Primitive) : ¬ ShowsBox p.typeText := by
  intro h
  have hletter : 'B' ∈ p.typeText.toList := h.subset List.mem_cons_self
  cases p <;> simp [Primitive.typeText] at hletter

/-- A boxed type is another one. -/
theorem boxType_ne (base : String) : boxType base ≠ base := by
  intro h
  have hlength := congrArg String.length h
  rw [boxType, String.length_append, String.length_append] at hlength
  have hbox : 0 < "Box<".length := by decide +kernel
  omega

/-- What is inside of a wrapping can be told from outside. -/
theorem wrapType_injective {base base' : String} {isArray isOptional : Bool}
    (h : wrapType base isArray isOptional = wrapType base' isArray isOptional) : base = base' := by
  have hopen : ∀ pre s t : String, pre ++ s ++ ">" = pre ++ t ++ ">" → s = t := by
    intro pre s t heq
    rwa [String.append_left_inj, String.append_right_inj] at heq
  cases isArray <;> cases isOptional
  · exact h
  · exact hopen _ _ _ h
  · exact hopen _ _ _ h
  · exact hopen _ _ _ (hopen _ _ _ h)

/-! ## The type of a field -/

namespace Graph

/-- The type of a member's field in the record of `owner`. -/
def fieldType (options : Options) (g : Graph) (owner : Declaration) (m : Member) : String :=
  (memberType options g owner (g.isRecursive owner) m).1

/-- The fields of a record have these types, behind the discriminator. -/
theorem typeText_recordFields (options : Options) (naming : String → String) (g : Graph)
    (d : Declaration) :
    (recordFields options naming g d).map Field.typeText
      = "String" :: (g.dataMembers d).map (g.fieldType options d) := by
  rw [recordFields, List.map_cons, List.map_map]
  rfl

/-- So the lines that declare them show these types. -/
theorem fieldTexts_recordFields (options : Options) (naming : String → String) (g : Graph)
    (d : Declaration) :
    ((recordFields options naming g d).map fun field => fieldText field.name field.typeText)
      = fieldText "_class" "String" :: (g.dataMembers d).map fun m =>
          fieldText (naming m.property.name) (g.fieldType options d m) := by
  rw [recordFields, List.map_cons, List.map_map]
  rfl

/-- A member that holds a class or an enum has its name for a type, boxed or not. -/
theorem fieldType_of_declaration {options : Options} {g : Graph} {owner target : Declaration}
    {m : Member} (h : g.memberReferent m = .declaration target) :
    g.fieldType options owner m
      = wrapType
          (if g.boxes owner (g.isRecursive owner) m target then
            boxType (typeName options.reserved target.name)
          else typeName options.reserved target.name)
          m.property.isArray m.property.isOptional := by
  rw [fieldType, memberType, h]

/-- A member that holds a primitive has the type of that primitive. -/
theorem fieldType_of_primitive {options : Options} {g : Graph} {owner : Declaration} {m : Member}
    {p : Primitive} (h : g.memberReferent m = .primitive p) :
    g.fieldType options owner m = wrapType p.typeText m.property.isArray m.property.isOptional := by
  rw [fieldType, memberType, h]

/-- The box is seen in the text, exactly where it was decided on. -/
theorem showsBox_fieldType {options : Options} {g : Graph} {owner target : Declaration} {m : Member}
    (h : g.memberReferent m = .declaration target) :
    ShowsBox (g.fieldType options owner m)
      ↔ g.boxes owner (g.isRecursive owner) m target = true := by
  rw [fieldType_of_declaration h, showsBox_wrapType]
  by_cases hbox : g.boxes owner (g.isRecursive owner) m target = true
  · rw [if_pos hbox]
    exact iff_of_true (showsBox_boxType _) hbox
  · rw [if_neg hbox]
    exact iff_of_false (not_showsBox_typeName _ _) hbox

/-- The field of the member is a box of `target`. -/
def EmitsBox (options : Options) (g : Graph) (owner : Declaration) (m : Member)
    (target : Declaration) : Prop :=
  g.memberReferent m = .declaration target
    ∧ g.fieldType options owner m
        = wrapType (boxType (typeName options.reserved target.name)) m.property.isArray
            m.property.isOptional

/-- The field is a box exactly if that was decided for the member. -/
theorem emitsBox_iff {options : Options} {g : Graph} {owner target : Declaration} {m : Member} :
    g.EmitsBox options owner m target
      ↔ g.memberReferent m = .declaration target
        ∧ g.boxes owner (g.isRecursive owner) m target = true := by
  refine and_congr_right fun h => ?_
  rw [fieldType_of_declaration h]
  by_cases hbox : g.boxes owner (g.isRecursive owner) m target = true
  · rw [if_pos hbox]
    exact iff_of_true rfl hbox
  · rw [if_neg hbox]
    exact iff_of_false (fun heq => boxType_ne _ (wrapType_injective heq).symm) hbox

/-! ## Members of classes -/

/-- The lineage of a declaration of the graph stays in the graph. -/
theorem mem_declarations_of_mem_lineageFrom {g : Graph} {seen : List DeclId} {d e : Declaration}
    (hd : d ∈ g.declarations) (he : e ∈ g.lineageFrom seen d) : e ∈ g.declarations := by
  induction seen, d using Graph.lineageFrom.induct g with
  | case1 seen d hparent =>
      rw [lineageFrom_of_none hparent, List.mem_singleton] at he
      exact he ▸ hd
  | case2 seen d p hparent hseen =>
      rw [lineageFrom_of_some hparent, if_pos hseen, List.mem_singleton] at he
      exact he ▸ hd
  | case3 seen d p hparent hnew ih =>
      -- only here the walk goes on, and to a declaration that was looked up
      rw [lineageFrom_of_some hparent, if_neg hnew] at he
      rcases List.mem_cons.1 he with rfl | he
      · exact hd
      · exact ih (mem_declarations_of_parent? hparent) he

/-- A member is listed by a declaration of the graph. -/
theorem declaredIn_of_mem_members {g : Graph} {d : Declaration} {m : Member}
    (hd : d ∈ g.declarations) (hm : m ∈ g.members d) :
    m.declaredIn ∈ g.declarations ∧ m.property ∈ m.declaredIn.ownProperties := by
  obtain ⟨owner, howner, hm⟩ := List.mem_flatMap.1 hm
  obtain ⟨p, hp, rfl⟩ := List.mem_map.1 hm
  exact ⟨mem_declarations_of_mem_lineageFrom hd (List.mem_reverse.1 howner), hp⟩

/-- The type of an enum's value is the enum, or nothing at all if the enum has the name of a
primitive. A lineage can end in an enum, so a class can have such members. -/
theorem kind_of_memberReferent {g : Graph} (hg : g.Loaded) (hnames : g.NamesDistinct)
    {d t : Declaration} {m : Member} (hd : d ∈ g.declarations) (hm : m ∈ g.members d)
    (href : g.memberReferent m = .declaration t) (hclass : t.isClass = true) :
    m.property.kind ≠ .enumValue := by
  obtain ⟨howner, hproperty⟩ := declaredIn_of_mem_members hd hm
  have hfound := declaration?_id hg.ownersMatch hnames howner
  obtain ⟨ns, hns, hlisted⟩ := List.mem_flatMap.1 howner
  have hread := hg.readFrom ns hns m.declaredIn hlisted
  unfold Declaration.ownProperties at hproperty
  split at hproperty
  · rename_i hbody
    exact hread.members _ _ _ _ hbody m.property hproperty
  · rename_i values hbody
    have hvalue := hread.values values hbody m.property hproperty
    have hresolve := resolve_of_referent href
    -- the enum is found before any import is asked
    rw [hvalue, Property.enumValue, resolve_named_of_declaration? hfound] at hresolve
    by_cases hkeyword : (Primitive.ofKeyword? m.declaredIn.name).isSome = true
    · rw [if_pos hkeyword] at hresolve
      exact absurd hresolve (by simp)
    · rw [if_neg hkeyword] at hresolve
      rw [← Option.some.inj hresolve, Declaration.isClass, hbody] at hclass
      exact Bool.noConfusion hclass
  · exact absurd hproperty List.not_mem_nil

/-! ## Reaching a class

Where no name is declared twice, the two searches are about the declarations themselves. -/

section

variable {g : Graph} (hg : g.OwnersMatch) (hnames : g.NamesDistinct)

include hg hnames

/-- The search from a declaration finds what the references reach. -/
theorem leadsBack_iff_reaches {start origin : Declaration} (hstart : start ∈ g.declarations)
    (horigin : origin ∈ g.declarations) :
    g.leadsBack start origin = true ↔ ReflTransGen g.RefersTo start origin := by
  rw [leadsBack_iff hg (declaration?_id hg hnames hstart)]
  constructor
  · rintro ⟨x, hx, hid⟩
    have hmem : x ∈ g.declarations := by
      rcases ReflTransGen.cases_tail hx with rfl | ⟨y, -, hy⟩
      · exact hstart
      · exact hy.mem_declarations
    rwa [← eq_of_id_eq hg hnames hmem horigin hid]
  · exact fun h => ⟨origin, h, rfl⟩

/-- A class is recursive exactly if the references lead back to it. -/
theorem isRecursive_iff_reaches {d : Declaration} (hd : d ∈ g.declarations) :
    g.isRecursive d = true ↔ d.isClass = true ∧ TransGen g.RefersTo d d := by
  rw [isRecursive_iff hg]
  refine and_congr_right fun _ => ⟨?_, fun h => ⟨d, h, rfl⟩⟩
  rintro ⟨x, hx, hid⟩
  obtain ⟨y, -, hy⟩ := TransGen.tail'_iff.1 hx
  obtain rfl := eq_of_id_eq hg hnames hy.mem_declarations hd hid
  exact hx

end

/-! ## Boxes where cycles are -/

section

variable {g : Graph} (hg : g.Loaded) (hnames : g.NamesDistinct) {owner target : Declaration}
  {m : Member} (howner : owner ∈ g.declarations) (hclass : owner.isClass = true)
  (hm : m ∈ g.members owner) (href : g.memberReferent m = .declaration target)
  (htarget : target.isClass = true)

include hg hnames howner hm href htarget

/-- The declaration that a member refers to is one that its owner refers to. -/
theorem refersTo_of_memberReferent : g.RefersTo owner target :=
  ⟨m, hm, kind_of_memberReferent hg hnames howner hm href htarget, href, htarget⟩

include hclass

/-- **The search of the owner suppresses no box.** A member whose class leads back to the owner
makes the owner lead back to itself. -/
theorem isRecursive_of_leadsBack (hback : g.leadsBack target owner = true) :
    g.isRecursive owner = true := by
  have hfirst := refersTo_of_memberReferent hg hnames howner hm href htarget
  rw [leadsBack_iff_reaches hg.ownersMatch hnames hfirst.mem_declarations howner] at hback
  rw [isRecursive_iff_reaches hg.ownersMatch hnames howner]
  exact ⟨hclass, TransGen.head' hfirst hback⟩

/-- **A box stands exactly where a single value leads back to the owner.** -/
theorem boxes_iff_reaches :
    g.boxes owner (g.isRecursive owner) m target = true
      ↔ m.property.isArray = false ∧ ReflTransGen g.RefersTo target owner := by
  have hfirst := refersTo_of_memberReferent hg hnames howner hm href htarget
  rw [← leadsBack_iff_reaches hg.ownersMatch hnames hfirst.mem_declarations howner]
  have hgate := isRecursive_of_leadsBack hg hnames howner hclass hm href htarget
  simp only [boxes, Bool.and_eq_true, Bool.not_eq_true']
  constructor
  · rintro ⟨⟨⟨-, harray⟩, -⟩, hback⟩
    exact ⟨harray, hback⟩
  · rintro ⟨harray, hback⟩
    exact ⟨⟨⟨hgate hback, harray⟩, htarget⟩, hback⟩

end

/-- The record of `a` holds the record of `b` as it is. -/
def Embeds (options : Options) (g : Graph) (a b : Declaration) : Prop :=
  a.isClass = true ∧ ∃ m ∈ g.dataMembers a, m.property.isArray = false
    ∧ g.memberReferent m = .declaration b ∧ b.isClass = true
    ∧ ¬ ShowsBox (g.fieldType options a m)

theorem mem_members_of_mem_dataMembers {g : Graph} {d : Declaration} {m : Member}
    (hm : m ∈ g.dataMembers d) : m ∈ g.members d := (List.mem_filter.1 hm).1

/-- What a record holds as it is, its class refers to. -/
theorem refersTo_of_embeds {g : Graph} (hg : g.Loaded) (hnames : g.NamesDistinct)
    {options : Options} {a b : Declaration} (ha : a ∈ g.declarations) (h : g.Embeds options a b) :
    g.RefersTo a b := by
  obtain ⟨-, m, hm, -, href, hclass, -⟩ := h
  exact refersTo_of_memberReferent hg hnames ha (mem_members_of_mem_dataMembers hm) href hclass

/-- So a chain of records that hold one another is a chain of references. -/
theorem reaches_of_embeds {g : Graph} (hg : g.Loaded) (hnames : g.NamesDistinct)
    {options : Options} {a b : Declaration} (ha : a ∈ g.declarations)
    (h : ReflTransGen (g.Embeds options) a b) : ReflTransGen g.RefersTo a b := by
  induction h using ReflTransGen.head_induction_on with
  | refl => exact .refl
  | head hstep _ ih =>
      have href := refersTo_of_embeds hg hnames ha hstep
      exact (ih href.mem_declarations).head href

/-- **No record holds itself**, however many others it goes through. -/
theorem not_transGen_embeds {g : Graph} (hg : g.Loaded) (hnames : g.NamesDistinct)
    (options : Options) (d : Declaration) : ¬ TransGen (g.Embeds options) d d := by
  intro hcycle
  obtain ⟨next, hstep, hback⟩ := TransGen.head'_iff.1 hcycle
  obtain ⟨last, -, hlast⟩ := TransGen.tail'_iff.1 hcycle
  -- the end of the cycle is a target, and so a declaration of the graph
  have hd : d ∈ g.declarations := by
    obtain ⟨-, m, -, -, href, -⟩ := hlast
    exact mem_declarations_of_referent href
  have hreaches : ReflTransGen g.RefersTo next d :=
    reaches_of_embeds hg hnames (refersTo_of_embeds hg hnames hd hstep).mem_declarations hback
  -- so the member that starts the cycle was boxed, and it shows
  obtain ⟨hclass, m, hm, harray, href, htarget, hshown⟩ := hstep
  have hm := mem_members_of_mem_dataMembers hm
  have hbox : g.boxes d (g.isRecursive d) m next = true :=
    (boxes_iff_reaches hg hnames hd hclass hm href htarget).2 ⟨harray, hreaches⟩
  exact hshown ((showsBox_fieldType href).2 hbox)

/-- The member is boxed: it holds one value, of a class that leads back to the owner. -/
theorem emitsBox_iff_reaches {g : Graph} (hg : g.Loaded) (hnames : g.NamesDistinct)
    {options : Options} {owner target : Declaration} {m : Member} (howner : owner ∈ g.declarations)
    (hclass : owner.isClass = true) (hm : m ∈ g.members owner) :
    g.EmitsBox options owner m target
      ↔ m.property.isArray = false ∧ g.memberReferent m = .declaration target
        ∧ target.isClass = true ∧ ReflTransGen g.RefersTo target owner := by
  rw [emitsBox_iff]
  constructor
  · rintro ⟨href, hbox⟩
    -- an enum is never boxed, so that there is a class to speak of
    have htarget : target.isClass = true := by
      simp only [boxes, Bool.and_eq_true] at hbox
      exact hbox.1.2
    rw [boxes_iff_reaches hg hnames howner hclass hm href htarget] at hbox
    exact ⟨hbox.1, href, htarget, hbox.2⟩
  · rintro ⟨harray, href, htarget, hreaches⟩
    exact ⟨href, (boxes_iff_reaches hg hnames howner hclass hm href htarget).2 ⟨harray, hreaches⟩⟩

/-- A type that was resolved shows a box only if the member is boxed. -/
theorem showsBox_iff_emitsBox {options : Options} {g : Graph} {owner : Declaration} {m : Member}
    (href : ∀ name, g.memberReferent m ≠ .unresolved name) :
    ShowsBox (g.fieldType options owner m) ↔ ∃ target, g.EmitsBox options owner m target := by
  simp only [emitsBox_iff]
  cases hreferent : g.memberReferent m with
  | primitive p =>
      -- neither side holds: the six spellings are known, and there is no declaration
      rw [fieldType_of_primitive hreferent, showsBox_wrapType]
      refine iff_of_false (not_showsBox_primitive p) ?_
      rintro ⟨target, htarget, -⟩
      exact absurd htarget (by simp)
  | declaration target =>
      rw [showsBox_fieldType hreferent]
      constructor
      · exact fun hbox => ⟨target, rfl, hbox⟩
      · rintro ⟨other, hother, hbox⟩
        rwa [Referent.declaration.inj hother]
  | unresolved name => exact absurd hreferent (href name)

/-! ## All records of a text -/

/-- **Records have finite size, and are boxed only where a cycle needs it.** In a graph that was
loaded and declares no name twice no record holds itself as it is. The types of the fields are the
ones that were decided on; a member whose class leads back to the owner is never left out by the
search of the owner; and what is boxed is exactly a single value of a class that leads back, be it
over inherited members, relationships or arrays. A run that succeeds seals every record with these
types: in the unit of its namespace the lines of its fields are that of the discriminator and one
for each member, in order. -/
theorem boxes_exactly_where_cyclic {text : String} {g : Graph} (hload : loadText text = .ok g)
    (hnames : ∀ ns ∈ g.namespaces, (ns.declarations.map Declaration.name).Nodup)
    (options : Options) (naming : String → String) :
    (∀ d, ¬ TransGen (g.Embeds options) d d)
      ∧ (∀ owner ∈ g.declarations, owner.isClass = true →
        (recordFields options naming g owner).map Field.typeText
            = "String" :: (g.dataMembers owner).map (g.fieldType options owner)
          ∧ ∀ m ∈ g.dataMembers owner,
            (∀ target, g.memberReferent m = .declaration target → target.isClass = true →
                g.leadsBack target owner = true → g.isRecursive owner = true)
              ∧ (∀ target, g.EmitsBox options owner m target
                ↔ m.property.isArray = false ∧ g.memberReferent m = .declaration target
                  ∧ target.isClass = true ∧ ReflTransGen g.RefersTo target owner)
              ∧ ((∀ name, g.memberReferent m ≠ .unresolved name) →
                (ShowsBox (g.fieldType options owner m)
                  ↔ ∃ target, g.EmitsBox options owner m target)))
      ∧ ∀ units sink, runFrom options g units = (.ok (), sink) →
        ∀ ns ∈ g.namespaces, ∀ owner ∈ ns.declarations, owner.isClass = true →
          ∃ unit ∈ sink.units.drop units.length, unit.name = unitName (moduleName ns.name)
            ∧ DeclaresFields (typeName options.reserved owner.name)
              (fieldText "_class" "String" :: (g.dataMembers owner).map fun m =>
                fieldText (memberName options.reserved m.property.name)
                  (g.fieldType options owner m)) unit.lines := by
  have hg : g.Loaded := loaded_of_loadText hload
  have hdistinct : g.NamesDistinct := hg.namesDistinct hnames
  refine ⟨not_transGen_embeds hg hdistinct options, fun owner howner hclass => ?_,
    fun units sink hrun ns hns owner howner hclass => ?_⟩
  case refine_2 =>
    rw [← fieldTexts_recordFields]
    exact exists_unit_declaresFields hrun hns howner hclass
  refine ⟨typeText_recordFields options naming g owner, fun m hm => ?_⟩
  have hm := mem_members_of_mem_dataMembers hm
  refine ⟨fun target href htarget hback => ?_, fun target => ?_, showsBox_iff_emitsBox⟩
  · exact isRecursive_of_leadsBack hg hdistinct howner hclass hm href htarget hback
  · exact emitsBox_iff_reaches hg hdistinct howner hclass hm

/-! A link of a chain holds the next one, which is a link as well. -/

/-- The class of the links. -/
def linkClass : Declaration := .concept "t" "Link" none [.field "next" (.named "Link")]

def chain : Graph := .ofNamespaces [⟨"t", [], [linkClass]⟩]

/-- The chain as a document. -/
def chainDocument : Json := Metamodel.writeDocument chain.namespaces

/-- The link is boxed, and the unit that is sealed says so. -/
theorem boxes_exactly_where_cyclic_chain :
    loadText chainDocument.render = .ok chain
      ∧ (∀ ns ∈ chain.namespaces, (ns.declarations.map Declaration.name).Nodup)
      ∧ ¬ TransGen (chain.Embeds .default) linkClass linkClass
      ∧ chain.EmitsBox .default linkClass ⟨linkClass, .field "next" (.named "Link")⟩ linkClass
      ∧ ∃ sink, runFrom .default chain [] = (.ok (), sink)
        ∧ ∃ unit ∈ sink.units, unit.name = "t.rs"
          ∧ DeclaresFields "Link" ["    pub _class: String,", "    pub next: Box<Link>,"]
            unit.lines := by
  have hload : loadText chainDocument.render = .ok chain :=
    loadText_render (by decide +kernel) rfl (by decide)
  have hnames : ∀ ns ∈ chain.namespaces, (ns.declarations.map Declaration.name).Nodup := by decide
  have hrun := runFrom_of_clean .default chain [] (by decide +kernel) (by decide +kernel)
  obtain ⟨hfinite, hrecords, hsealed⟩ := boxes_exactly_where_cyclic hload hnames .default id
  obtain ⟨-, hmembers⟩ := hrecords linkClass (by decide) rfl
  obtain ⟨-, hbox, -⟩ :=
    hmembers ⟨linkClass, .field "next" (.named "Link")⟩ (by decide +kernel)
  have hemits :
      chain.EmitsBox .default linkClass ⟨linkClass, .field "next" (.named "Link")⟩ linkClass :=
    (hbox linkClass).2 ⟨rfl, by decide +kernel, rfl, .refl⟩
  obtain ⟨unit, hunit, hname, hfields⟩ :=
    hsealed [] _ hrun ⟨"t", [], [linkClass]⟩ (by decide) linkClass (by decide) rfl
  have hdata : chain.dataMembers linkClass = [⟨linkClass, .field "next" (.named "Link")⟩] := by
    decide +kernel
  have hlines : [fieldText "_class" "String", fieldText (memberName Options.default.reserved "next")
      (wrapType (boxType "Link") false false)]
        = ["    pub _class: String,", "    pub next: Box<Link>,"] := by decide +kernel
  have hlink : typeName Options.default.reserved linkClass.name = "Link" := by decide +kernel
  rw [hdata, List.map_singleton, hemits.2, hlink] at hfields
  refine ⟨hload, hnames, hfinite linkClass, hemits, _, hrun, unit, hunit, ?_, hlines ▸ hfields⟩
  rw [hname]
  decide +kernel

end Graph

end ModelForge
