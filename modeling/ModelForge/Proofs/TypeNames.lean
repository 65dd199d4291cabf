/-
`TypeNames.lean` -- when two types of a unit get one name.

The names of modules, of fields and of variants are checked for clashes before they are written.
The names of types are only transliterated and escaped, so whether they are distinct is up to the
model. Escaping goes from a reserved name to the same name with one more underscore until it is
free; so two names end at the same identifier exactly if one of them is met on the way of the
other (`typeName_eq_iff`). Names that the unit uses for something else have letters only, and are
hit exactly by a declaration of that very name (`typeName_eq_word_iff`). `type_names_clash_iff`
says both of what is read from the units of a run.
-/
import Mathlib.Logic.Relation
import ModelForge.Proofs.LegalNames

set_option autoImplicit false

namespace ModelForge

/-! ## The way of an escaped name -/

/-- One step of escaping. -/
def EscapeStep (reserved : WordSet) (name next : String) : Prop :=
  name ∈ reserved ∧ next = name.push '_'

/-- A name is met when another is escaped: underscores are appended to the one, each of them to a
reserved name, until it is the other. -/
abbrev EscapesTo (reserved : WordSet) : String → String → Prop :=
  Relation.ReflTransGen (EscapeStep reserved)

section

variable {reserved : WordSet} {name other : String}

theorem push_injective {c : Char} (h : name.push c = other.push c) : name = other := by
  have htexts := congrArg String.toList h
  rw [String.toList_push, String.toList_push] at htexts
  exact String.toList_injective (List.append_cancel_right htexts)

/-- Only one name stands a step in front of another. -/
theorem rightUnique_swap_escapeStep :
    Relator.RightUnique (Function.swap (EscapeStep reserved)) := by
  rintro next name other ⟨-, hname⟩ ⟨-, hother⟩
  exact push_injective (hname.symm.trans hother)

/-- A name is escaped step by step, until it is free. -/
theorem escapesTo_escapeReserved (reserved : WordSet) (name : String) :
    EscapesTo reserved name (escapeReserved reserved name) := by
  fun_induction escapeReserved reserved name with
  | case1 name hreserved ih => exact .head ⟨hreserved, rfl⟩ ih
  | case2 name hfree => exact .refl

/-- A name that is met on the way ends where the way ends. -/
theorem escapeReserved_of_escapesTo (h : EscapesTo reserved name other) :
    escapeReserved reserved name = escapeReserved reserved other := by
  induction h using Relation.ReflTransGen.head_induction_on with
  | refl => rfl
  | head hstep _ ih =>
      obtain ⟨hreserved, rfl⟩ := hstep
      rw [escapeReserved, if_pos hreserved, ih]

/-- **Two names are escaped to one identifier exactly if one is met on the way of the other.** -/
theorem escapeReserved_eq_iff :
    escapeReserved reserved name = escapeReserved reserved other
      ↔ EscapesTo reserved name other ∨ EscapesTo reserved other name := by
  constructor
  · intro h
    have hname := escapesTo_escapeReserved reserved name
    have hother := escapesTo_escapeReserved reserved other
    rw [← h] at hother
    -- both ways lead back from the same identifier, and leading back leaves no choice
    have hback := Relation.ReflTransGen.total_of_right_unique rightUnique_swap_escapeStep
      hname.swap hother.swap
    rcases hback with hback | hback
    · exact .inr hback.swap
    · exact .inl hback.swap
  · rintro (h | h)
    · exact escapeReserved_of_escapesTo h
    · exact (escapeReserved_of_escapesTo h).symm

end

/-- Two names of a model become one type. -/
def SpelledAlike (reserved : WordSet) (raw raw' : String) : Prop :=
  EscapesTo reserved (typeBase raw) (typeBase raw')
    ∨ EscapesTo reserved (typeBase raw') (typeBase raw)

/-- **Two types have one name exactly if they are spelled alike.** -/
theorem typeName_eq_iff {reserved : WordSet} {raw raw' : String} :
    typeName reserved raw = typeName reserved raw' ↔ SpelledAlike reserved raw raw' :=
  escapeReserved_eq_iff

/-! ## Words -/

/-- A name that transliteration would not change and that has no underscore. -/
def IsWord (name : String) : Prop :=
  (∃ c ∈ name.toList.head?, isIdentStart c = true) ∧ ∀ c ∈ name.toList, c.isAlphanum = true

instance : DecidablePred IsWord := fun name =>
  @instDecidableAnd _ _ (Option.decidableExistsMem name.toList.head?)
    (List.decidableBAll (fun c => c.isAlphanum = true) name.toList)

section

variable {reserved : WordSet} {raw word : String}

/-- A word has no underscore. -/
theorem IsWord.underscore_not_mem (h : IsWord word) : '_' ∉ word.toList := fun hmem =>
  absurd (h.2 '_' hmem) (by decide)

/-- Where transliteration leaves no underscore, it changes nothing. -/
theorem legalize_of_ne {c : Char} (h : legalize c ≠ '_') : legalize c = c := by
  unfold legalize at h ⊢
  by_cases hlegal : isIdentChar c = true
  · exact if_pos hlegal
  · exact absurd (if_neg hlegal) h

/-- Letters and digits are left alone. -/
theorem legalize_of_isAlphanum {c : Char} (h : c.isAlphanum = true) : legalize c = c := by
  have hlegal : isIdentChar c = true := by
    rw [isIdentChar, h]
    rfl
  exact if_pos hlegal

/-- Only a word itself is transliterated to it. -/
theorem typeBase_eq_word_iff (hword : IsWord word) : typeBase raw = word ↔ raw = word := by
  constructor
  · intro h
    have htext : withLegalStart (raw.toList.map legalize) = word.toList := by
      rw [← h, typeBase, String.toList_ofList]
    -- what is put in front, and what replaces a character, is an underscore
    have hmap : raw.toList.map legalize = word.toList := by
      rw [← htext]
      cases hraw : raw.toList.map legalize with
      | nil =>
          rw [hraw, withLegalStart] at htext
          exact absurd (htext ▸ List.mem_singleton_self '_') hword.underscore_not_mem
      | cons c rest =>
          rw [hraw, withLegalStart] at htext
          rw [withLegalStart]
          by_cases hstart : isIdentStart c = true
          · exact (if_pos hstart).symm
          · rw [if_neg hstart] at htext
            exact absurd (htext ▸ List.mem_cons_self) hword.underscore_not_mem
    have hsame : raw.toList.map legalize = raw.toList.map id := by
      refine List.map_congr_left fun c hc => legalize_of_ne fun hunderscore => ?_
      have hmem : '_' ∈ raw.toList.map legalize := List.mem_map.2 ⟨c, hc, hunderscore⟩
      rw [hmap] at hmem
      exact hword.underscore_not_mem hmem
    rw [hsame, List.map_id] at hmap
    exact String.toList_injective hmap
  · rintro rfl
    obtain ⟨⟨c, hhead, hstart⟩, halphanum⟩ := hword
    obtain ⟨rest, hraw⟩ := List.head?_eq_some_iff.1 hhead
    have hmap : raw.toList.map legalize = raw.toList.map id :=
      List.map_congr_left fun c hc => legalize_of_isAlphanum (halphanum c hc)
    rw [typeBase, hmap, List.map_id, hraw, withLegalStart, if_pos hstart, ← hraw,
      String.ofList_toList]

/-- **A type gets the name of a word exactly if it is called so in the model and the word is
free.** -/
theorem typeName_eq_word_iff (hword : IsWord word) :
    typeName reserved raw = word ↔ word ∉ reserved ∧ raw = word := by
  constructor
  · intro h
    refine ⟨h ▸ escapeReserved_not_mem reserved (typeBase raw), ?_⟩
    -- a step of escaping ends in an underscore
    have hway := escapesTo_escapeReserved reserved (typeBase raw)
    rw [typeName] at h
    rw [h] at hway
    rcases Relation.ReflTransGen.cases_tail hway with hbase | ⟨shorter, -, -, hpush⟩
    · exact (typeBase_eq_word_iff hword).1 hbase.symm
    · have hmem : '_' ∈ word.toList := by
        rw [hpush, String.toList_push]
        exact List.mem_append_right _ (List.mem_singleton_self '_')
      exact absurd hmem hword.underscore_not_mem
  · rintro ⟨hfree, rfl⟩
    rw [typeName, (typeBase_eq_word_iff hword).2 rfl, escapeReserved, if_neg hfree]

end

/-! ## The types of a unit -/

/-- The name of a type among the introduced names. -/
def IntroducedName.type? (introduced : IntroducedName) : Option String :=
  match introduced.role with
  | .record => some introduced.name
  | .enumeration => some introduced.name
  | .module => none
  | .field => none
  | .variant => none

/-- The names of the records and the enums that a unit introduces, read from its lines. -/
def typeNamesIn (texts : List String) : List String :=
  (namesIn texts).filterMap IntroducedName.type?

instance (d : Declaration) : Decidable d.IsEmitted :=
  match hbody : d.body with
  | .record .. => isTrue fun _ _ hscalar => Body.noConfusion (hbody.symm.trans hscalar)
  | .enumeration _ => isTrue fun _ _ hscalar => Body.noConfusion (hbody.symm.trans hscalar)
  | .scalar primitive default => isFalse fun hemitted => hemitted primitive default hbody

/-- The declarations that become types: the classes and the enums. -/
def Namespace.types (ns : Namespace) : List Declaration :=
  ns.declarations.filter fun d => decide d.IsEmitted

/-- A declaration introduces one type, or none, whatever its members are called. -/
theorem filterMap_type?_introducedNames (options : Options) (g : Graph) (d : Declaration) :
    (g.introducedNames options d).filterMap IntroducedName.type?
      = if d.IsEmitted then [typeName options.reserved d.name] else [] := by
  unfold Graph.introducedNames
  cases hbody : d.body with
  | record flavor isAbstract superType properties =>
      have hemitted : d.IsEmitted := fun _ _ hscalar => by simp [hbody] at hscalar
      simp [hemitted, IntroducedName.type?]
  | enumeration values =>
      have hemitted : d.IsEmitted := fun _ _ hscalar => by simp [hbody] at hscalar
      simp [hemitted, IntroducedName.type?]
  | scalar primitive default =>
      have hsilent : ¬ d.IsEmitted := fun hemitted => hemitted primitive default hbody
      exact (if_neg hsilent).symm

/-- The types of a unit are read from its lines in the order of their declarations. -/
theorem typeNamesIn_namespacePlan {options : Options} {g : Graph} {ns : Namespace}
    (h : ∀ d ∈ ns.declarations, g.MembersDistinct options d) :
    typeNamesIn (namespacePlan options (memberName options.reserved) g ns).sealed.lines
      = ns.types.map fun d => typeName options.reserved d.name := by
  rw [typeNamesIn, namesIn_namespacePlan h, Namespace.types]
  induction ns.declarations with
  | nil => rfl
  | cons d rest ih =>
      rw [List.flatMap_cons, List.filterMap_append, ih, filterMap_type?_introducedNames]
      by_cases hemitted : d.IsEmitted
      · simp [hemitted]
      · simp [hemitted]

/-! ## Names that a unit uses for something else -/

/-- A `use` declaration that lists what it brings into scope. -/
def listUse (path : String) (names : List String) : String :=
  "use " ++ path ++ "::\x7b " ++ String.intercalate ", " names ++ " \x7d;"

/-- What the head of every unit lists. -/
def listedImports : List (String × List String) :=
  [("serde", ["Deserialize", "Serialize"]), ("chrono", ["DateTime", "TimeZone", "Utc"])]

/-- Every list of imports stands in the head of each unit. -/
theorem listUse_mem_headerTexts (ns : Namespace) :
    ∀ listed ∈ listedImports, listUse listed.1 listed.2 ∈ headerTexts ns := by
  have hfixed : ∀ listed ∈ listedImports, listUse listed.1 listed.2
      ∈ ["#![allow(unused_imports)]", "use serde::\x7b Deserialize, Serialize \x7d;",
        "use chrono::\x7b DateTime, TimeZone, Utc \x7d;", ""] := by decide
  intro listed hlisted
  rw [headerTexts, List.append_assoc]
  exact List.mem_append_left _ (hfixed listed hlisted)

/-- The types that the types of members are made with (`wrapType`, `boxType`), and that of the
discriminator. -/
def writtenTypes : List String := [discriminator.typeText, "Vec", "Option", "Box"]

/-- The names that mean something else in every unit. -/
def namesInUse : List String := listedImports.flatMap Prod.snd ++ writtenTypes

/-- What every unit uses are words. -/
theorem isWord_of_mem_namesInUse : ∀ word ∈ namesInUse, IsWord word := by decide

/-! ## Runs -/

/-- What is known of the types of a unit. -/
structure TypeNames (options : Options) (ns : Namespace) (unit : SourceUnit) : Prop where
  /-- They are the classes and enums of the namespace, in order. -/
  names : typeNamesIn unit.lines = ns.types.map fun d => typeName options.reserved d.name
  uses : ∀ listed ∈ listedImports, listUse listed.1 listed.2 ∈ unit.lines
  /-- Their names are distinct exactly if no two are spelled alike. -/
  distinct : (typeNamesIn unit.lines).Nodup
    ↔ ns.types.Pairwise fun d e => ¬ SpelledAlike options.reserved d.name e.name
  /-- One of them gets a name that is in use exactly if it has that name in the model and the
  options do not reserve it. -/
  inUse : ∀ word ∈ namesInUse, word ∈ typeNamesIn unit.lines
    ↔ word ∉ options.reserved ∧ ∃ d ∈ ns.types, d.name = word

/-- A sealed namespace has the types that its declarations stand for. -/
theorem typeNames_sealed {options : Options} {g : Graph} {ns : Namespace}
    (hmembers : ∀ d ∈ ns.declarations, g.MembersDistinct options d) :
    TypeNames options ns (namespacePlan options (memberName options.reserved) g ns).sealed := by
  have hnames := typeNamesIn_namespacePlan hmembers
  refine ⟨hnames, fun listed hlisted => ?_, ?_, fun word hword => ?_⟩
  · rw [sealed_namespacePlan options g hmembers]
    exact List.mem_append_left _ (listUse_mem_headerTexts ns listed hlisted)
  · rw [hnames, List.Nodup, List.pairwise_map]
    simp only [Ne, typeName_eq_iff]
  · rw [hnames, List.mem_map]
    simp only [typeName_eq_word_iff (isWord_of_mem_namesInUse word hword)]
    constructor
    · rintro ⟨d, hd, hfree, hname⟩
      exact ⟨hfree, d, hd, hname⟩
    · rintro ⟨hfree, d, hd, hname⟩
      exact ⟨d, hd, hfree, hname⟩

/-- **When the types of a unit clash.** A run that succeeds seals one unit for each namespace
behind the manifest and the hooks. The records and enums that it introduces are named after the
classes and enums of the namespace; two of them have one name exactly if the names in the model
are spelled alike, and one of them takes a name that the unit imports or builds types with exactly
if the model calls it so and the options leave the name free. -/
theorem type_names_clash_iff {options : Options} {g : Graph} {units : List SourceUnit}
    {sink : MemorySink} (hrun : runFrom options g units = (.ok (), sink)) :
    ∃ sealed, sink.units
        = units ++ (manifestPlan g).sealed :: (dateTimePlan options).sealed :: sealed
      ∧ List.Forall₂ (TypeNames options) g.namespaces sealed := by
  obtain ⟨-, hmembers, rfl⟩ := of_runFrom_eq_ok options g units hrun
  exact ⟨_, rfl, forall₂_namespacePlans fun ns hns => typeNames_sealed (hmembers ns hns)⟩

/-- The types of the shop have the names of the model, and no two of them the same. -/
theorem type_names_clash_iff_shop :
    ∃ sink, runFrom .default shop [] = (.ok (), sink)
      ∧ ∃ unit, sink.units = [(manifestPlan shop).sealed, (dateTimePlan .default).sealed, unit]
        ∧ typeNamesIn unit.lines = ["Book", "Item", "Binding"]
        ∧ ∀ word ∈ namesInUse, word ∉ typeNamesIn unit.lines := by
  obtain ⟨sealed, hunits, htypes⟩ := type_names_clash_iff runFrom_shop
  obtain ⟨unit, rfl, hunit⟩ : ∃ unit, sealed = [unit] ∧ TypeNames .default
      ⟨"shop", [], [bookClass, itemClass, bindingEnum, priceScalar]⟩ unit := by
    cases htypes with
    | cons hunit hnone =>
        cases hnone
        exact ⟨_, rfl, hunit⟩
  refine ⟨_, runFrom_shop, unit, hunits, ?_, fun word hword hmem => ?_⟩
  · rw [hunit.names]
    decide +kernel
  · obtain ⟨-, d, hd, rfl⟩ := (hunit.inUse word hword).1 hmem
    have hfree : ∀ d ∈ [bookClass, itemClass, bindingEnum, priceScalar], d.name ∉ namesInUse := by
      decide
    exact hfree d (List.mem_filter.1 hd).1 hword

/-! A namespace whose declarations have distinct names, with a keyword, the identifier that it is
escaped to, and two names that every unit uses. -/

def serializeEnum : Declaration where
  name := "Serialize"
  owner := "a"
  decorators := []
  body := .enumeration [.enumValue "Yes" "Serialize" []]

def clashingTypes : Graph :=
  .ofNamespaces [⟨"a", [], [.concept "a" "Self" none [], .concept "a" "Self_" none [],
    .concept "a" "String" none [], serializeEnum]⟩]

/-- The graph as a document. -/
def clashingTypesDocument : Json := Metamodel.writeDocument clashingTypes.namespaces

/-- The model is loaded and written without an error, two of its types get one name, and two
others take names that the unit uses. -/
theorem distinct_declarations_clash :
    loadText clashingTypesDocument.render = .ok clashingTypes
      ∧ (∀ ns ∈ clashingTypes.namespaces, (ns.declarations.map Declaration.name).Nodup)
      ∧ (runFrom .default clashingTypes []).1 = .ok ()
      ∧ ∃ unit ∈ (runFrom .default clashingTypes []).2.units, unit.name = "a.rs"
        ∧ typeNamesIn unit.lines = ["Self_", "Self_", "String", "Serialize"]
        ∧ ¬ (typeNamesIn unit.lines).Nodup
        ∧ "String" ∈ writtenTypes ∧ "Serialize" ∈ listedImports.flatMap Prod.snd := by
  have hload : loadText clashingTypesDocument.render = .ok clashingTypes :=
    loadText_render (by decide +kernel) rfl (by decide)
  have hmembers : ∀ d ∈ clashingTypes.declarations, clashingTypes.MembersDistinct .default d := by
    decide +kernel
  have hrun := runFrom_of_clean .default clashingTypes [] (by decide +kernel) hmembers
  have hnames :
      typeNamesIn (namespacePlan .default (memberName Options.default.reserved) clashingTypes
      ⟨"a", [], [.concept "a" "Self" none [], .concept "a" "Self_" none [],
        .concept "a" "String" none [], serializeEnum]⟩).sealed.lines
        = ["Self_", "Self_", "String", "Serialize"] := by
    rw [typeNamesIn_namespacePlan fun d hd =>
      hmembers d (List.mem_flatMap.2 ⟨_, List.mem_cons_self, hd⟩)]
    decide +kernel
  rw [hrun]
  refine ⟨hload, by decide, rfl, _, ?_, ?_, hnames, ?_, by decide, by decide⟩
  · exact List.mem_map_of_mem
      (List.mem_cons_of_mem _ (List.mem_cons_of_mem _ List.mem_cons_self))
  · decide
  · rw [hnames]
    decide

end ModelForge
