/-
`ReservedWords.lean` -- what reserving one more word does to a run.

A reserved word has to do with the spelling of names and with the choice of modules, and with
nothing else. So a run is the same with two sets of words that spell the names of the graph alike
and allow its modules alike (`Options.SpellsAlike`). Escaping stops at the first name that is
free. With more words it stops there too, unless that very name is among the new ones
(`escapeReserved_of_more`): the names that were passed on the way are reserved in any case. And
the names at which it stops are the ones that are written. The types of members are no exception,
because a type that is named in one record is introduced by another unit, or further down in the
same one.
-/
import ModelForge.Proofs.Independence
import ModelForge.Proofs.ManifestUnits

set_option autoImplicit false

namespace ModelForge

/-! ## Escaping with more words -/

section

variable {reserved more : WordSet} {name word : String}

/-- With more words reserved, a name is escaped as before, unless what comes of it is one of them.
-/
theorem escapeReserved_of_more (hmore : ∀ word ∈ reserved, word ∈ more)
    (hfree : escapeReserved reserved name ∉ more) :
    escapeReserved more name = escapeReserved reserved name := by
  fun_induction escapeReserved reserved name with
  | case1 name hreserved ih => rw [escapeReserved, if_pos (hmore name hreserved), ih hfree]
  | case2 name hname => rw [escapeReserved, if_neg hfree]

/-- **A word changes what comes of a name exactly if it is what came of it.** -/
theorem escapeReserved_insert_ne_iff :
    escapeReserved (reserved.insert word) name ≠ escapeReserved reserved name
      ↔ escapeReserved reserved name = word := by
  constructor
  · intro hchanged
    by_contra hother
    refine hchanged (escapeReserved_of_more (fun _ h => WordSet.mem_insert.2 (.inr h))
      fun hmem => ?_)
    rcases WordSet.mem_insert.1 hmem with hword | hreserved
    · exact hother hword
    · exact escapeReserved_not_mem reserved name hreserved
  · intro hword hsame
    have hfree := escapeReserved_not_mem (reserved.insert word) name
    rw [hsame, hword] at hfree
    exact hfree (WordSet.mem_insert.2 (.inl rfl))

end

/-! ## Options with more words -/

namespace Options

/-- Reserves words, one after the other. -/
def reserveAll (options : Options) (words : List String) : Options := words.foldl reserve options

/-- Reserved are one word more and those from before. -/
theorem mem_reserve {options : Options} {word other : String} :
    other ∈ (options.reserve word).reserved ↔ other = word ∨ other ∈ options.reserved :=
  WordSet.mem_insert

/-- Reserved are all the words and those from before. -/
theorem mem_reserveAll {options : Options} {words : List String} {word : String} :
    word ∈ (options.reserveAll words).reserved ↔ word ∈ words ∨ word ∈ options.reserved := by
  have hreserved : (options.reserveAll words).reserved
      = words.foldl WordSet.insert options.reserved := by
    induction words generalizing options with
    | nil => rfl
    | cons word rest ih => exact ih
  rw [hreserved, WordSet.mem_foldl_insert]

/-- To reserve words does not change the format. -/
theorem dateTimeFormat_reserveAll (options : Options) (words : List String) :
    (options.reserveAll words).dateTimeFormat = options.dateTimeFormat := by
  induction words generalizing options with
  | nil => rfl
  | cons word rest ih => exact ih _

/-- With one word more, the same modules are allowed but for that word. -/
theorem allows_reserve_iff {options : Options} {word module : String} :
    (options.reserve word).Allows module ↔ options.Allows module ∧ module ≠ word := by
  rw [Allows, Allows, mem_reserve, not_or, and_assoc, and_comm (a := module ∉ options.reserved)]

end Options

/-! ## Options that spell a graph alike -/

/-- The second options allow the modules of the graph as the first do, and spell all names alike
that become identifiers of the generated source. -/
structure Options.SpellsAlike (options other : Options) (g : Graph) : Prop where
  format : other.dateTimeFormat = options.dateTimeFormat
  modules : ∀ ns ∈ g.namespaces,
    other.Allows (moduleName ns.name) ↔ options.Allows (moduleName ns.name)
  types : ∀ d ∈ g.declarations, d.IsEmitted →
    typeName other.reserved d.name = typeName options.reserved d.name
  members : ∀ d ∈ g.declarations, d.isClass = true → ∀ m ∈ g.dataMembers d,
    memberName other.reserved m.property.name = memberName options.reserved m.property.name
  values : ∀ d ∈ g.declarations, ∀ values, d.body = .enumeration values → ∀ value ∈ values,
    typeName other.reserved value.name = typeName options.reserved value.name

/-- More words spell a graph alike if none of them is a module of it or a name that a declaration
introduces. A name that was written although it is reserved may stay reserved. -/
theorem Options.spellsAlike_of_more {options other : Options} {g : Graph}
    (hformat : other.dateTimeFormat = options.dateTimeFormat)
    (hmore : ∀ word ∈ options.reserved, word ∈ other.reserved)
    (hmodules : ∀ ns ∈ g.namespaces,
      moduleName ns.name ∈ other.reserved → moduleName ns.name ∈ options.reserved)
    (hnames : ∀ d ∈ g.declarations, ∀ introduced ∈ g.introducedNames options d,
      introduced.name ∈ other.reserved → introduced.name ∈ options.reserved) :
    options.SpellsAlike other g := by
  -- an escaped name is free with the old words, so that it is free with the new ones
  have hescaped : ∀ d ∈ g.declarations, ∀ role name,
      (⟨role, escapeReserved options.reserved name⟩ : IntroducedName)
        ∈ g.introducedNames options d →
      escapeReserved other.reserved name = escapeReserved options.reserved name := by
    intro d hd role name hintroduced
    refine escapeReserved_of_more hmore fun hreserved => ?_
    exact escapeReserved_not_mem options.reserved name (hnames d hd _ hintroduced hreserved)
  refine ⟨hformat, fun ns hns => ?_, fun d hd hemitted => ?_, fun d hd hclass m hm => ?_,
    fun d hd values hbody value hvalue => ?_⟩
  · exact and_congr_right fun _ => not_congr ⟨hmodules ns hns, hmore _⟩
  · cases hbody : d.body with
    | record flavor isAbstract superType properties =>
        refine hescaped d hd .record _ ?_
        rw [Graph.introducedNames, hbody]
        exact List.mem_cons_self
    | enumeration values =>
        refine hescaped d hd .enumeration _ ?_
        rw [Graph.introducedNames, hbody]
        exact List.mem_cons_self
    | scalar p default => exact absurd hbody (hemitted p default)
  · refine hescaped d hd .field _ ?_
    rw [Declaration.isClass] at hclass
    cases hbody : d.body with
    | record flavor isAbstract superType properties =>
        rw [Graph.introducedNames, hbody]
        exact List.mem_cons_of_mem _ (List.mem_cons_of_mem _
          (List.mem_map_of_mem (f := fun m : Member =>
            (⟨.field, memberName options.reserved m.property.name⟩ : IntroducedName)) hm))
    | enumeration values => rw [hbody] at hclass; exact absurd hclass (by simp)
    | scalar p default => rw [hbody] at hclass; exact absurd hclass (by simp)
  · refine hescaped d hd .variant _ ?_
    rw [Graph.introducedNames, hbody]
    exact List.mem_cons_of_mem _ (List.mem_map_of_mem (f := fun value : Property =>
      (⟨.variant, typeName options.reserved value.name⟩ : IntroducedName)) hvalue)

namespace Options.SpellsAlike

variable {options other : Options} {g : Graph} (h : options.SpellsAlike other g)

include h

/-! ## What is planned -/

/-- The type of a member names a class or an enum of the graph, which is spelled alike. -/
theorem memberType (owner : Declaration) (ownerIsRecursive : Bool) (m : Member) :
    ModelForge.memberType other g owner ownerIsRecursive m
      = ModelForge.memberType options g owner ownerIsRecursive m := by
  unfold ModelForge.memberType
  cases href : g.memberReferent m with
  | primitive p => rfl
  | unresolved name => rfl
  | declaration target =>
      have hemitted : target.IsEmitted :=
        (Graph.declared_eq_declaration_iff.1 (Graph.referent_eq_declaration_iff.1 href).2).2
      dsimp only
      rw [h.types target (Graph.mem_declarations_of_referent href) hemitted]

variable {d : Declaration} (hd : d ∈ g.declarations)

include hd

/-- Classes whose names are spelled alike have the same record. -/
theorem recordFragment (hclass : d.isClass = true) :
    ModelForge.recordFragment other (memberName other.reserved) g d
      = ModelForge.recordFragment options (memberName options.reserved) g d := by
  have hclash : recordClash? (memberName other.reserved) g d
      = recordClash? (memberName options.reserved) g d := by
    unfold recordClash?
    rw [List.map_congr_left fun m hm => by rw [h.members d hd hclass m hm]]
  have hfields : recordFields other (memberName other.reserved) g d
      = recordFields options (memberName options.reserved) g d := by
    unfold recordFields
    dsimp only
    refine congrArg (_ :: ·) (List.map_congr_left fun m hm => ?_)
    unfold memberField
    rw [h.members d hd hclass m hm, h.memberType]
  have hemitted : d.IsEmitted := by
    intro p default hbody
    rw [Declaration.isClass, hbody] at hclass
    exact absurd hclass (by simp)
  unfold ModelForge.recordFragment
  rw [hclash, hfields, h.types d hd hemitted]

/-- Enums whose names are spelled alike have the same text. -/
theorem enumFragment {values : List Property} (hbody : d.body = .enumeration values) :
    ModelForge.enumFragment other d values = ModelForge.enumFragment options d values := by
  have hclash : enumClash? other values = enumClash? options values := by
    unfold enumClash?
    rw [List.map_congr_left fun value hvalue => by rw [h.values d hd values hbody value hvalue]]
  have hvariants : values.map (variantFragment other) = values.map (variantFragment options) := by
    refine List.map_congr_left fun value hvalue => ?_
    unfold variantFragment
    rw [h.values d hd values hbody value hvalue]
  have hemitted : d.IsEmitted := by
    intro p default hscalar
    rw [hbody] at hscalar
    exact absurd hscalar (by simp)
  unfold ModelForge.enumFragment
  rw [hclash, hvariants, h.types d hd hemitted]

/-- So every declaration has the same text. -/
theorem declarationFragment :
    ModelForge.declarationFragment other (memberName other.reserved) g d
      = ModelForge.declarationFragment options (memberName options.reserved) g d := by
  unfold ModelForge.declarationFragment
  cases hbody : d.body with
  | record flavor isAbstract superType properties =>
      refine h.recordFragment hd ?_
      rw [Declaration.isClass, hbody]
  | enumeration values => exact h.enumFragment hd hbody
  | scalar p default => rfl

omit hd

/-- Modules are judged alike, wherever the scan stands. -/
theorem moduleFault? (taken : List (String × String)) {namespaces : List Namespace}
    (hsub : ∀ ns ∈ namespaces, ns ∈ g.namespaces) :
    ModelForge.moduleFault? other taken namespaces
      = ModelForge.moduleFault? options taken namespaces := by
  induction namespaces generalizing taken with
  | nil => rfl
  | cons ns rest ih =>
      rw [List.forall_mem_cons] at hsub
      have hallows := h.modules ns hsub.1
      by_cases hallowed : options.Allows (moduleName ns.name)
      · cases htaken : taken.lookup (moduleName ns.name) with
        | some first =>
            rw [moduleFault?_of_taken hallowed htaken,
              moduleFault?_of_taken (hallows.2 hallowed) htaken]
        | none =>
            rw [moduleFault?_of_free hallowed htaken,
              moduleFault?_of_free (hallows.2 hallowed) htaken, ih _ hsub.2]
      · rw [moduleFault?_of_not_allows hallowed, moduleFault?_of_not_allows fun hother =>
          hallowed (hallows.1 hother)]

/-- **The same units are planned**, or none for the same reason. -/
theorem plan :
    ModelForge.plan other (memberName other.reserved) g
      = ModelForge.plan options (memberName options.reserved) g := by
  have hhooks : dateTimePlan other = dateTimePlan options := by
    rw [dateTimePlan, dateTimePlan, h.format]
  have hunits : g.namespaces.map (namespacePlan other (memberName other.reserved) g)
      = g.namespaces.map (namespacePlan options (memberName options.reserved) g) := by
    refine List.map_congr_left fun ns hns => ?_
    have hdeclarations : ns.declarations.map
          (ModelForge.declarationFragment other (memberName other.reserved) g)
        = ns.declarations.map
          (ModelForge.declarationFragment options (memberName options.reserved) g) :=
      List.map_congr_left fun d hd => h.declarationFragment (List.mem_flatMap.2 ⟨ns, hns, hd⟩)
    unfold namespacePlan namespaceFragment
    rw [hdeclarations]
  unfold ModelForge.plan
  rw [h.moduleFault? [] fun _ hns => hns, hhooks, hunits]

/-- **Where all names are spelled alike, the runs are equal**, in any sink. -/
theorem generate_eq {m : Type → Type} [Monad m] [Sink m] :
    (generate other g : m (Except GenerationError Unit)) = generate options g := by
  rw [generate, generate, h.plan]

/-- So a generator that has not run before leaves the same sink. -/
theorem freshRun_eq : freshRun other g = freshRun options g := by
  rw [ModelForge.freshRun_eq, ModelForge.freshRun_eq, runFrom, runFrom, h.generate_eq]

end Options.SpellsAlike

/-! ## Runs -/

/-- One of the units introduces the word: as a module, a type, a variant or a field. -/
def IsIntroduced (units : List SourceUnit) (word : String) : Prop :=
  ∃ unit ∈ units, ∃ introduced ∈ namesIn unit.lines, introduced.name = word

/-- The units of a run introduce the modules and what the declarations introduce. -/
theorem isIntroduced_sealed_iff {options : Options} {g : Graph}
    (hmembers : ∀ ns ∈ g.namespaces, ∀ d ∈ ns.declarations, g.MembersDistinct options d)
    {word : String} :
    IsIntroduced ((plansUpTo options g g.namespaces).map UnitPlan.sealed) word
      ↔ word ∈ g.modules
        ∨ ∃ d ∈ g.declarations, ∃ introduced ∈ g.introducedNames options d,
          introduced.name = word := by
  have hmodules : namesIn (manifestPlan g).sealed.lines = g.modules.map (⟨.module, ·⟩) := by
    rw [namesIn_manifestPlan, Graph.modules, List.map_append, List.map_map]
    rfl
  have hmanifest : (∃ introduced ∈ namesIn (manifestPlan g).sealed.lines, introduced.name = word)
      ↔ word ∈ g.modules := by
    rw [hmodules]
    constructor
    · rintro ⟨introduced, hintroduced, rfl⟩
      obtain ⟨module, hmodule, rfl⟩ := List.mem_map.1 hintroduced
      exact hmodule
    · exact fun hword => ⟨⟨.module, word⟩, List.mem_map_of_mem hword, rfl⟩
  have hhooks : ¬ ∃ introduced ∈ namesIn (dateTimePlan options).sealed.lines,
      introduced.name = word := by
    rw [namesIn_dateTimePlan]
    rintro ⟨introduced, hintroduced, -⟩
    exact absurd hintroduced List.not_mem_nil
  rw [IsIntroduced, plansUpTo, List.map_cons, List.map_cons, List.exists_mem_cons_iff,
    List.exists_mem_cons_iff, hmanifest, or_iff_right hhooks]
  refine or_congr_right ?_
  -- what is left are the units of the namespaces, with their declarations
  constructor
  · rintro ⟨unit, hunit, introduced, hintroduced, hname⟩
    obtain ⟨plan, hplan, rfl⟩ := List.mem_map.1 hunit
    obtain ⟨ns, hns, rfl⟩ := List.mem_map.1 hplan
    rw [namesIn_namespacePlan (hmembers ns hns), List.mem_flatMap] at hintroduced
    obtain ⟨d, hd, hintroduced⟩ := hintroduced
    exact ⟨d, List.mem_flatMap.2 ⟨ns, hns, hd⟩, introduced, hintroduced, hname⟩
  · rintro ⟨d, hd, introduced, hintroduced, hname⟩
    obtain ⟨ns, hns, hd⟩ := List.mem_flatMap.1 hd
    refine ⟨(namespacePlan options (memberName options.reserved) g ns).sealed,
      List.mem_map_of_mem (List.mem_map_of_mem hns), introduced, ?_, hname⟩
    rw [namesIn_namespacePlan (hmembers ns hns)]
    exact List.mem_flatMap.2 ⟨d, hd, hintroduced⟩

/-- A word that no unit of a successful run introduces spells the graph alike. -/
theorem spellsAlike_reserve_of_unused {options : Options} {g : Graph} {sink : MemorySink}
    {word : String} (hrun : freshRun options g = (.ok (), sink))
    (hword : ¬ IsIntroduced sink.units word) :
    options.SpellsAlike (options.reserve word) g := by
  rw [freshRun_eq] at hrun
  obtain ⟨-, hmembers, rfl⟩ := of_runFrom_eq_ok options g [] hrun
  rw [List.nil_append, isIntroduced_sealed_iff hmembers, not_or] at hword
  obtain ⟨hmodule, hname⟩ := hword
  refine Options.spellsAlike_of_more rfl (fun _ h => Options.mem_reserve.2 (.inr h))
    (fun ns hns hreserved => ?_) fun d hd introduced hintroduced hreserved => ?_
  · refine (Options.mem_reserve.1 hreserved).resolve_left fun hsame => hmodule ?_
    rw [← hsame, Graph.modules]
    exact List.mem_append_left _ (List.mem_map_of_mem hns)
  · refine (Options.mem_reserve.1 hreserved).resolve_left fun hsame => hname ?_
    exact ⟨d, hd, introduced, hintroduced, hsame⟩

/-- **Reserving a word changes only what uses that word.** If a run succeeds and none of its units
introduces the word, then a run with the word reserved besides succeeds with the same units, and
into any other sink it does the same, too. In which order words are reserved, and how often, makes
no difference to any run. The spelling of a name changes exactly if the word is what it was
spelled; and a module is refused on account of the word exactly if it is the word. -/
theorem reserving_changes_only_uses (options : Options) (g : Graph) :
    (∀ word sink, freshRun options g = (.ok (), sink) → ¬ IsIntroduced sink.units word →
        freshRun (options.reserve word) g = (.ok (), sink)
          ∧ ∀ (m : Type → Type) [Monad m] [Sink m],
            (generate (options.reserve word) g : m (Except GenerationError Unit))
              = generate options g)
      ∧ (∀ words words', (∀ word, word ∈ words ↔ word ∈ words') →
        freshRun (options.reserveAll words') g = freshRun (options.reserveAll words) g
          ∧ ∀ (m : Type → Type) [Monad m] [Sink m],
            (generate (options.reserveAll words') g : m (Except GenerationError Unit))
              = generate (options.reserveAll words) g)
      ∧ ∀ word raw,
        (memberName (options.reserve word).reserved raw ≠ memberName options.reserved raw
            ↔ memberName options.reserved raw = word)
          ∧ (typeName (options.reserve word).reserved raw ≠ typeName options.reserved raw
            ↔ typeName options.reserved raw = word)
          ∧ ((options.reserve word).Allows (moduleName raw)
            ↔ options.Allows (moduleName raw) ∧ moduleName raw ≠ word) := by
  refine ⟨fun word sink hrun hword => ?_, fun words words' hsame => ?_, fun word raw => ?_⟩
  · have hspells := spellsAlike_reserve_of_unused hrun hword
    exact ⟨hspells.freshRun_eq.trans hrun, fun m _ _ => hspells.generate_eq⟩
  · have hreserved (word : String) : word ∈ (options.reserveAll words).reserved
        ↔ word ∈ (options.reserveAll words').reserved := by
      rw [Options.mem_reserveAll, Options.mem_reserveAll, hsame]
    have hformat : (options.reserveAll words').dateTimeFormat
        = (options.reserveAll words).dateTimeFormat := by
      rw [Options.dateTimeFormat_reserveAll, Options.dateTimeFormat_reserveAll]
    -- no word is new here, so that no name can be a new word
    have hspells : (options.reserveAll words).SpellsAlike (options.reserveAll words') g :=
      Options.spellsAlike_of_more hformat (fun word => (hreserved word).1)
        (fun ns _ => (hreserved _).2) fun d _ introduced _ => (hreserved _).2
    exact ⟨hspells.freshRun_eq, fun m _ _ => hspells.generate_eq⟩
  · exact ⟨escapeReserved_insert_ne_iff, escapeReserved_insert_ne_iff, Options.allows_reserve_iff⟩

/-- In the shop the scalar `Price` leaves no name behind, so that its name can be reserved, with
others and in any order. The class `Book` does leave one, and gets another if that is reserved. -/
theorem reserving_changes_only_uses_shop :
    ∃ sink, freshRun .default shop = (.ok (), sink)
      ∧ ¬ IsIntroduced sink.units "Price"
      ∧ freshRun (Options.default.reserve "Price") shop = (.ok (), sink)
      ∧ freshRun (Options.default.reserveAll ["Item", "Book", "Item"]) shop
        = freshRun (Options.default.reserveAll ["Book", "Item"]) shop
      ∧ typeName (Options.default.reserve "Book").reserved "Book"
        ≠ typeName Options.default.reserved "Book" := by
  obtain ⟨hunused, horder, hspelling⟩ := reserving_changes_only_uses .default shop
  have hmembers : ∀ ns ∈ shop.namespaces, ∀ d ∈ ns.declarations,
      shop.MembersDistinct .default d := by
    decide +kernel
  have hrun := freshRun_of_clean .default shop (by decide +kernel) (by decide +kernel)
  have hword :
      ¬ IsIntroduced ((plansUpTo .default shop shop.namespaces).map UnitPlan.sealed) "Price" := by
    rw [isIntroduced_sealed_iff hmembers]
    decide +kernel
  have hsame : ∀ word : String, word ∈ ["Book", "Item"] ↔ word ∈ ["Item", "Book", "Item"] := by
    intro word
    simp only [List.mem_cons, List.not_mem_nil, or_false]
    exact ⟨fun h => .inr h, fun h => h.elim .inr id⟩
  refine ⟨_, hrun, hword, (hunused "Price" _ hrun hword).1, (horder _ _ hsame).1, ?_⟩
  exact (hspelling "Book" "Book").2.1.2 (by decide +kernel)

end ModelForge
