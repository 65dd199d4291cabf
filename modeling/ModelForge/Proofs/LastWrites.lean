/-
`LastWrites.lean` -- what is documented of a list of decorators.

Several decorators can have one name, and then the last one of them is documented. So of a list of
decorators nothing counts but the arguments of the last decorator of each name (`SameLast`): lists
that agree in these have the same table, and no others do (`decoratorTable?_eq_iff`). The table is
in the order of the names, byte by byte, whatever order the decorators are in.
-/
import ModelForge.Generate.Decorators
import ModelForge.Proofs.ByteOrder
import ModelForge.Proofs.KeyedLists

set_option autoImplicit false

namespace ModelForge

/-! ## Last occurrences -/

/-- The arguments of the last decorator of a name. -/
def lastArguments? (decorators : List Decorator) (name : String) : Option (List Literal) :=
  (decorators.reverse.find? fun d => d.name = name).map Decorator.arguments

/-- Every name has the same arguments in its last occurrence. -/
def SameLast (decorators decorators' : List Decorator) : Prop :=
  ∀ name, lastArguments? decorators' name = lastArguments? decorators name

/-- The decorators as entries of a table. -/
def decoratorEntries (decorators : List Decorator) : List (String × List Literal) :=
  decorators.map fun d => (d.name, d.arguments)

/-- The last entry of a name holds the arguments that count. -/
theorem lookup_reverse_decoratorEntries (decorators : List Decorator) (name : String) :
    (decoratorEntries decorators).reverse.lookup name = lastArguments? decorators name := by
  rw [decoratorEntries, ← List.map_reverse, lastArguments?]
  induction decorators.reverse with
  | nil => rfl
  | cons d rest ih =>
      rw [List.map_cons, lookup_cons_eq_ite, List.find?_cons]
      by_cases hname : d.name = name
      · rw [if_pos hname.symm, decide_eq_true hname]
        rfl
      · rw [if_neg fun h => hname h.symm, decide_eq_false hname]
        exact ih

/-- What is written later hides what was written before under the same name. -/
theorem lastArguments?_append (front back : List Decorator) (name : String) :
    lastArguments? (front ++ back) name
      = (lastArguments? back name).or (lastArguments? front name) := by
  rw [lastArguments?, lastArguments?, lastArguments?, List.reverse_append, List.find?_append,
    Option.map_or]

/-- A name has arguments exactly if some decorator has the name. -/
theorem lastArguments?_isSome {decorators : List Decorator} {name : String} :
    (lastArguments? decorators name).isSome = true ↔ name ∈ decorators.map Decorator.name := by
  rw [lastArguments?, Option.isSome_map, List.find?_isSome]
  simp

/-- With distinct names every occurrence is the last. -/
theorem sameLast_of_perm {decorators decorators' : List Decorator} (h : decorators'.Perm decorators)
    (hdistinct : (decorators.map Decorator.name).Nodup) : SameLast decorators decorators' := by
  intro name
  have hnames : ((decoratorEntries decorators).reverse.map Prod.fst).Nodup := by
    rw [List.map_reverse, List.nodup_reverse, decoratorEntries, List.map_map]
    exact hdistinct
  have hentries :
      (decoratorEntries decorators').reverse.Perm (decoratorEntries decorators).reverse :=
    (List.reverse_perm _).trans ((h.map _).trans (List.reverse_perm _).symm)
  have hnames' := (hentries.map Prod.fst).nodup_iff.2 hnames
  rw [← lookup_reverse_decoratorEntries, ← lookup_reverse_decoratorEntries]
  refine Option.ext fun arguments => ⟨fun hvalue => ?_, fun hvalue => ?_⟩
  · exact lookup_of_mem hnames (hentries.mem_iff.1 (mem_of_lookup hvalue))
  · exact lookup_of_mem hnames' (hentries.mem_iff.2 (mem_of_lookup hvalue))

/-- The list without some of the decorators that others of their name are behind. -/
inductive DropsOverwritten : List Decorator → List Decorator → Prop
  | nil : DropsOverwritten [] []
  | keep (d : Decorator) {decorators kept : List Decorator} (h : DropsOverwritten decorators kept) :
      DropsOverwritten (d :: decorators) (d :: kept)
  | drop {d : Decorator} {decorators kept : List Decorator}
      (hover : d.name ∈ decorators.map Decorator.name) (h : DropsOverwritten decorators kept) :
      DropsOverwritten (d :: decorators) kept

/-- To drop what is overwritten leaves every name the arguments that count. -/
theorem DropsOverwritten.sameLast {decorators kept : List Decorator}
    (h : DropsOverwritten decorators kept) : SameLast decorators kept := by
  induction h with
  | nil => exact fun name => rfl
  | @keep d decorators kept _ ih =>
      intro name
      rw [← List.singleton_append, ← List.singleton_append (l := decorators), lastArguments?_append,
        lastArguments?_append, ih name]
  | @drop d decorators kept hover _ ih =>
      intro name
      rw [← List.singleton_append, lastArguments?_append, ih name]
      by_cases hname : name = d.name
      · rw [hname, Option.or_of_isSome (lastArguments?_isSome.2 hover)]
      · have hother : lastArguments? [d] name = none := by
          rw [← Option.not_isSome_iff_eq_none, lastArguments?_isSome]
          simpa using hname
        rw [hother, Option.or_none]

/-! ## The table -/

/-- Only a list without decorators has no table. -/
theorem decoratorTable?_eq_none_iff {decorators : List Decorator} :
    decoratorTable? decorators = none ↔ decorators = [] := by
  cases decorators <;> simp [decoratorTable?]

/-- The table is put together from the entries in their order. -/
theorem decoratorTable?_eq_some {decorators : List Decorator} {table : KeyedList (List Literal)}
    (h : decoratorTable? decorators = some table) :
    table = KeyedList.ofList (decoratorEntries decorators) := by
  cases decorators with
  | nil => exact absurd h (by simp [decoratorTable?])
  | cons d rest => exact (Option.some.inj h).symm

/-- What is in the table of some decorators, and the texts that it becomes. -/
structure Tabulates (decorators : List Decorator) (table : KeyedList (List Literal)) : Prop where
  /-- Names ascend, compared by their bytes. -/
  ascending : (table.map Prod.fst).Pairwise fun name other => bytesOf name < bytesOf other
  /-- The names are those of the decorators. -/
  names : ∀ name, name ∈ table.map Prod.fst ↔ name ∈ decorators.map Decorator.name
  /-- Each name has the arguments of its last occurrence, all of them and in their order. -/
  last : ∀ entry ∈ table, lastArguments? decorators entry.1 = some entry.2
  /-- There is one text for each entry. It has the name, and the arguments if there are any. -/
  texts : renderTable table = table.map fun entry => "@" ++ entry.1
    ++ if entry.2 = [] then "" else "(" ++ ", ".intercalate (entry.2.map Literal.render) ++ ")"
  /-- Nothing but the name is said of a decorator without arguments, and of no other one. -/
  bare : ∀ entry ∈ table, renderDecorator entry.1 entry.2 = "@" ++ entry.1 ↔ entry.2 = []

/-- What the table has under a name are the arguments written last. -/
theorem lookup_ofList_decoratorEntries (decorators : List Decorator) (name : String) :
    (KeyedList.ofList (decoratorEntries decorators)).lookup name
      = lastArguments? decorators name := by
  rw [KeyedList.lookup_ofList, lookup_reverse_decoratorEntries]

/-- The brackets around arguments are left out where there are none. -/
theorem renderDecorator_eq (name : String) (arguments : List Literal) :
    renderDecorator name arguments = "@" ++ name
      ++ if arguments = [] then ""
        else "(" ++ ", ".intercalate (arguments.map Literal.render) ++ ")" := by
  cases arguments with
  | nil => rw [if_pos rfl, String.append_empty]; rfl
  | cons argument rest =>
      rw [if_neg (List.cons_ne_nil _ _), renderDecorator]
      simp only [String.append_assoc]

/-- Nothing but a decorator without arguments is rendered bare. -/
theorem renderDecorator_eq_bare_iff {name : String} {arguments : List Literal} :
    renderDecorator name arguments = "@" ++ name ↔ arguments = [] := by
  constructor
  · intro h
    by_contra harguments
    rw [renderDecorator_eq, if_neg harguments] at h
    -- the parentheses would be nothing
    have hlength := congrArg String.length h
    simp only [String.length_append] at hlength
    have hopen : "(".length = 1 := by decide
    omega
  · rintro rfl
    rfl

/-- The table of some decorators has each name once, with its last arguments. -/
theorem tabulates {decorators : List Decorator} {table : KeyedList (List Literal)}
    (h : decoratorTable? decorators = some table) : Tabulates decorators table := by
  have htable := decoratorTable?_eq_some h
  have hlookup (name : String) : table.lookup name = lastArguments? decorators name := by
    rw [htable, lookup_ofList_decoratorEntries]
  have hascending : (table.map Prod.fst).Pairwise (· < ·) := by
    rw [htable]
    exact KeyedList.ascending_ofList _
  exact {
    ascending := hascending.imp lt_iff_bytesOf_lt.1
    names := fun name => by
      rw [← lastArguments?_isSome, ← hlookup, ← Option.ne_none_iff_isSome, Ne,
        lookup_eq_none_iff_not_mem, not_not]
    last := fun entry hentry => by
      rw [← hlookup]
      exact lookup_of_mem (KeyedList.nodup_of_ascending hascending) hentry
    texts := List.map_congr_left fun entry _ => renderDecorator_eq entry.1 entry.2
    bare := fun entry _ => renderDecorator_eq_bare_iff }

theorem eq_nil_iff_lastArguments? {decorators : List Decorator} :
    decorators = [] ↔ ∀ name, lastArguments? decorators name = none := by
  constructor
  · rintro rfl name
    rfl
  · intro h
    cases decorators with
    | nil => rfl
    | cons d rest =>
        have hsome : (lastArguments? (d :: rest) d.name).isSome = true :=
          lastArguments?_isSome.2 List.mem_cons_self
        rw [h d.name] at hsome
        exact absurd hsome (by simp)

/-- **Nothing counts but the last decorator of each name.** -/
theorem decoratorTable?_eq_iff {decorators decorators' : List Decorator} :
    decoratorTable? decorators' = decoratorTable? decorators ↔ SameLast decorators decorators' := by
  constructor
  · intro h name
    have hvalues (decorators : List Decorator) :
        ((decoratorTable? decorators).bind fun table => table.lookup name)
          = lastArguments? decorators name := by
      cases decorators with
      | nil => rfl
      | cons d rest => exact lookup_ofList_decoratorEntries (d :: rest) name
    rw [← hvalues, ← hvalues, h]
  · intro h
    have htable : KeyedList.ofList (decoratorEntries decorators')
        = KeyedList.ofList (decoratorEntries decorators) :=
      KeyedList.ext_of_ascending (KeyedList.ascending_ofList _) (KeyedList.ascending_ofList _)
        fun name => by rw [lookup_ofList_decoratorEntries, lookup_ofList_decoratorEntries, h name]
    have hnil : decorators' = [] ↔ decorators = [] := by
      rw [eq_nil_iff_lastArguments?, eq_nil_iff_lastArguments?]
      exact forall_congr' fun name => by rw [h name]
    cases decorators with
    | nil => rw [hnil.2 rfl]
    | cons d rest =>
        cases decorators' with
        | nil => exact absurd (hnil.1 rfl) (List.cons_ne_nil _ _)
        | cons d' rest' => exact congrArg some htable

end ModelForge
