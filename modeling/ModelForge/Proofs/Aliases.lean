/-
`Aliases.lean` -- a scalar is as good as the primitive that it stands for.

A field whose type is a scalar can have the keyword of the primitive instead. Any number of
references may be exchanged in this way (`Graph.Unaliased`), and what is generated stays the same,
to the letter or to the error.

The exchange is seen in one place only, where it is decided what a reference means. There both
spellings mean the same primitive (`Unaliased.memberReferent`), and every other reference means
declarations that correspond. All the rest is carried over: look-up and inheritance do not read
properties (`Graph.Alike`), references between classes can be followed in both directions
(`Graph.Follows`), and so both searches have the same answers.
-/
import ModelForge.Proofs.Independence

set_option autoImplicit false

namespace ModelForge

/-! ## The exchange -/

/-- The same property, or one that has the keyword of a primitive in the place of a reference to a
scalar. It has to be a field. The reference is written in the namespace that is given. -/
inductive Property.Unaliased (g : Graph) (fromNamespace : String) : Property → Property → Prop
  | same (p : Property) : Unaliased g fromNamespace p p
  | exchanged {p : Property} {scalar : Declaration} {primitive : Primitive}
      {default : Option String}
      (hkind : p.kind = .field) (hscalar : g.resolve fromNamespace p.typeRef = some scalar)
      (hbody : scalar.body = .scalar primitive default) :
      Unaliased g fromNamespace p { p with typeRef := .ofPrimitive primitive }

/-- The same body but for such properties of a class. -/
inductive Body.Unaliased (g : Graph) (fromNamespace : String) : Body → Body → Prop
  | record (flavor : Flavor) (isAbstract : Bool) (superType : Option TypeRef)
      {properties properties' : List Property}
      (h : List.Forall₂ (Property.Unaliased g fromNamespace) properties properties') :
      Unaliased g fromNamespace (.record flavor isAbstract superType properties)
        (.record flavor isAbstract superType properties')
  | enumeration (values : List Property) :
      Unaliased g fromNamespace (.enumeration values) (.enumeration values)
  | scalar (primitive : Primitive) (default : Option String) :
      Unaliased g fromNamespace (.scalar primitive default) (.scalar primitive default)

/-- The same declaration but for such properties. -/
structure Declaration.Unaliased (g : Graph) (d d' : Declaration) : Prop where
  name : d.name = d'.name
  owner : d.owner = d'.owner
  decorators : d.decorators = d'.decorators
  body : d.body.Unaliased g d.owner d'.body

/-- The same graph but for some fields of classes, which have keywords in the place of references to
scalars. -/
def Graph.Unaliased (g g' : Graph) : Prop :=
  List.Forall₂ (Namespace.Alike (Declaration.Unaliased g)) g.namespaces g'.namespaces

/-- The same member but for its type. -/
structure Member.Unaliased (g : Graph) (m m' : Member) : Prop where
  declaredIn : m.declaredIn.Unaliased g m'.declaredIn
  property : m.property.Unaliased g m.declaredIn.owner m'.property

/-- Nothing but the type is exchanged. -/
theorem Property.Unaliased.eq_with {g : Graph} {fromNamespace : String} {p p' : Property}
    (h : p.Unaliased g fromNamespace p') : p' = { p with typeRef := p'.typeRef } := by
  cases h <;> rfl

namespace Declaration.Unaliased

variable {g : Graph} {d d' : Declaration}

/-- An alias stands in the type of a property, which is no part of the outline. -/
theorem sameOutline (h : d.Unaliased g d') : d.SameOutline d' := by
  obtain ⟨_, _, _, body⟩ := d
  obtain ⟨_, _, _, body'⟩ := d'
  refine ⟨h.name, h.owner, ?_⟩
  cases h.body <;> rfl

theorem qualifiedName (h : d.Unaliased g d') : d'.qualifiedName = d.qualifiedName := by
  rw [Declaration.qualifiedName, Declaration.qualifiedName, h.name, h.owner]

/-- The members are the same one by one, but for aliases in their types. -/
theorem ownMembers (h : d.Unaliased g d') :
    List.Forall₂ (Member.Unaliased g) d.ownMembers d'.ownMembers := by
  have hproperties :
      List.Forall₂ (Property.Unaliased g d.owner) d.ownProperties d'.ownProperties := by
    have hbody := h.body
    unfold Declaration.ownProperties
    generalize d.body = body at hbody
    generalize d'.body = body' at hbody
    cases hbody with
    | record flavor isAbstract superType hproperties => exact hproperties
    | enumeration values => exact List.forall₂_same.2 fun value _ => .same value
    | scalar primitive default => exact .nil
  unfold Declaration.ownMembers
  rw [List.forall₂_map_left_iff, List.forall₂_map_right_iff]
  exact hproperties.imp fun p p' hp => ⟨h, hp⟩

end Declaration.Unaliased

namespace Graph.Unaliased

variable {g g' : Graph}

/-! ## What the exchange does not change -/

/-- The graphs have alike declarations in the same places. -/
theorem alike (h : g.Unaliased g') : g.Alike (Declaration.Unaliased g) g' where
  outline _ _ hd := hd.sameOutline
  namespaces := h

/-- Inherited members are the same one by one as well. -/
theorem members (h : g.Unaliased g') {d d' : Declaration} (hd : d.Unaliased g d') :
    List.Forall₂ (Member.Unaliased g) (g.members d) (g'.members d') :=
  List.rel_flatMap (List.rel_reverse (h.alike.lineage hd)) fun _ _ he => he.ownMembers

/-- **Both spellings mean the same.** -/
theorem memberReferent (h : g.Unaliased g') {m m' : Member} (hm : m.Unaliased g m') :
    Referent.Alike (Declaration.Unaliased g) (g.memberReferent m) (g'.memberReferent m') := by
  obtain ⟨e, p⟩ := m
  obtain ⟨e', p'⟩ := m'
  obtain ⟨he, hp⟩ := hm
  dsimp only at he hp
  rw [Graph.memberReferent, Graph.memberReferent]
  dsimp only
  rw [← he.owner]
  cases hp with
  | same => exact h.alike.referent e.owner p.kind p.typeRef
  | @exchanged scalar primitive default hkind hscalar hbody =>
      -- the reference is seen through, the keyword is taken at its word
      have hreference : g.referent e.owner p.kind p.typeRef = .primitive primitive :=
        referent_eq_primitive_iff.2 ⟨hkind, .inr ⟨scalar, default, hscalar, hbody⟩⟩
      have hkeyword : g'.referent e.owner p.kind (.ofPrimitive primitive) = .primitive primitive :=
        referent_eq_primitive_iff.2 ⟨hkind, .inl rfl⟩
      rw [hreference, hkeyword]
      exact .primitive primitive

/-- And so are those that become fields. -/
theorem dataMembers (h : g.Unaliased g') {d d' : Declaration} (hd : d.Unaliased g d') :
    List.Forall₂ (Member.Unaliased g) (g.dataMembers d) (g'.dataMembers d') := by
  refine List.rel_filter (fun m m' hm => ?_) (h.members hd)
  have hname : m'.property.name = m.property.name := by rw [hm.property.eq_with]
  dsimp only
  rw [hname]

/-- A name is no alias, so members clash in both graphs or in neither. -/
theorem recordClash? (h : g.Unaliased g') (naming : String → String) {d d' : Declaration}
    (hd : d.Unaliased g d') :
    ModelForge.recordClash? naming g' d' = ModelForge.recordClash? naming g d := by
  have hname : ∀ m m' : Member, m.Unaliased g m' →
      (naming m'.property.name, m'.property.name) = (naming m.property.name, m.property.name) := by
    intro m m' hm
    rw [hm.property.eq_with]
  rw [ModelForge.recordClash?, ModelForge.recordClash?, map_eq_of_forall₂ (h.dataMembers hd) hname]

/-! ## References between classes -/

/-- References are followed alike, because an alias refers to no declaration of records. -/
theorem follows (h : g.Unaliased g') : Follows (Declaration.Unaliased g) g g' where
  outline := h.alike.outline
  refersTo ha := by
    refine h.alike.refersTo fun m hm => ?_
    obtain ⟨m', hm', hrel⟩ := exists_mem_of_forall₂ (h.members ha) hm
    exact ⟨m', hm', by rw [hrel.property.eq_with], h.memberReferent hrel⟩

/-- The way back. What the exchange relates is the same, read from the other side. -/
theorem follows_flip (h : g.Unaliased g') : Follows (flip (Declaration.Unaliased g)) g' g where
  outline := h.alike.symm.outline
  refersTo ha := by
    refine h.alike.symm.refersTo fun m' hm' => ?_
    obtain ⟨m, hm, hrel⟩ := exists_mem_of_forall₂ (h.members ha).flip hm'
    exact ⟨m, hm, by rw [hrel.property.eq_with], (h.memberReferent hrel).symm⟩

section

variable (h : g.Unaliased g') (hg : g.OwnersMatch)

include h hg

/-- Recursion does not see aliases. -/
theorem isRecursive {d d' : Declaration} (hd : d.Unaliased g d') :
    g'.isRecursive d' = g.isRecursive d :=
  h.follows.isRecursive_eq hg (h.alike.ownersMatch hg) h.follows_flip hd

/-- Nor does the search for an origin. -/
theorem leadsBack {start start' origin origin' : Declaration} (hstart : start.Unaliased g start')
    (horigin : origin.Unaliased g origin') :
    g'.leadsBack start' origin' = g.leadsBack start origin :=
  h.follows.leadsBack_eq hg (h.alike.ownersMatch hg) h.follows_flip hstart horigin.sameOutline.id

/-! ## What is written -/

variable (options : Options) (naming : String → String)

/-- **The type of a member is the same text**, with the alias or with the primitive. -/
theorem memberType {owner owner' : Declaration} (howner : owner.Unaliased g owner') {m m' : Member}
    (hm : m.Unaliased g m') :
    ModelForge.memberType options g' owner' (g'.isRecursive owner') m'
      = ModelForge.memberType options g owner (g.isRecursive owner) m := by
  have harray : m'.property.isArray = m.property.isArray := by rw [hm.property.eq_with]
  have hoptional : m'.property.isOptional = m.property.isOptional := by rw [hm.property.eq_with]
  have hreferent := h.memberReferent hm
  unfold ModelForge.memberType
  dsimp only
  rw [harray, hoptional]
  -- from here on it does not matter how the referents came about
  generalize g.memberReferent m = referent at hreferent
  generalize g'.memberReferent m' = referent' at hreferent
  cases hreferent with
  | primitive p => rfl
  | unresolved name => rfl
  | @declaration target target' htarget =>
      -- the type of a class or an enum is boxed or not, and boxing asks for references only
      have hboxes : g'.boxes owner' (g'.isRecursive owner') m' target'
          = g.boxes owner (g.isRecursive owner) m target := by
        rw [boxes, boxes, h.isRecursive hg howner, harray, htarget.sameOutline.isClass,
          h.leadsBack hg htarget howner]
      dsimp only
      rw [hboxes, htarget.name]

theorem recordFields {d d' : Declaration} (hd : d.Unaliased g d') :
    ModelForge.recordFields options naming g' d' = ModelForge.recordFields options naming g d := by
  have hfield : ∀ m m' : Member, m.Unaliased g m' →
      memberField options g' d' (g'.isRecursive d') (naming m'.property.name) m'
        = memberField options g d (g.isRecursive d) (naming m.property.name) m := by
    intro m m' hm
    unfold memberField
    -- of the member only the type is read from the reference
    rw [h.memberType hg options hd hm, hm.property.eq_with]
  unfold ModelForge.recordFields
  dsimp only
  rw [map_eq_of_forall₂ (h.dataMembers hd) hfield]

/-- So a declaration is written alike in both graphs. -/
theorem declarationFragment {d d' : Declaration} (hd : d.Unaliased g d') :
    ModelForge.declarationFragment options naming g' d'
      = ModelForge.declarationFragment options naming g d := by
  have hrecord : recordFragment options naming g' d' = recordFragment options naming g d := by
    unfold recordFragment
    rw [h.recordClash? naming hd, h.recordFields hg options naming hd, hd.qualifiedName,
      hd.decorators, hd.name]
  have henum : ∀ values, enumFragment options d' values = enumFragment options d values := by
    intro values
    unfold enumFragment
    rw [hd.qualifiedName, hd.decorators, hd.name]
  have hbody := hd.body
  unfold ModelForge.declarationFragment
  generalize d.body = body at hbody
  generalize d'.body = body' at hbody
  cases hbody with
  | record => exact hrecord
  | enumeration values => exact henum values
  | scalar => rfl

/-- And so is the unit of a namespace. -/
theorem namespacePlan {ns ns' : Namespace} (hns : ns.Alike (Declaration.Unaliased g) ns') :
    ModelForge.namespacePlan options naming g' ns'
      = ModelForge.namespacePlan options naming g ns := by
  have hheader : unitHeader ns' = unitHeader ns := by
    unfold unitHeader Namespace.importSources
    rw [hns.name, hns.imports]
  have hdeclarations : ns'.declarations.map (ModelForge.declarationFragment options naming g')
      = ns.declarations.map (ModelForge.declarationFragment options naming g) :=
    map_eq_of_forall₂ hns.declarations fun d d' hd => h.declarationFragment hg options naming hd
  unfold ModelForge.namespacePlan namespaceFragment
  rw [hheader, hdeclarations, hns.name]

/-- The same units are planned, or none for the same reason. -/
theorem plan : ModelForge.plan options naming g' = ModelForge.plan options naming g := by
  have hnames : g'.namespaces.map Namespace.name = g.namespaces.map Namespace.name :=
    map_eq_of_forall₂ h fun ns ns' hns => hns.name.symm
  -- modules are named and judged without a look at the declarations
  have hfault : moduleFault? options [] g'.namespaces = moduleFault? options [] g.namespaces :=
    moduleFault?_eq_of_map_name hnames
  have hmanifest : manifestPlan g' = manifestPlan g := by
    have hlines : g'.namespaces.map (fun ns => manifestLine (moduleName ns.name))
        = g.namespaces.map fun ns => manifestLine (moduleName ns.name) :=
      map_eq_of_forall₂ h fun ns ns' hns => by rw [hns.name]
    rw [manifestPlan, manifestPlan, hlines]
  have hunits : g'.namespaces.map (ModelForge.namespacePlan options naming g')
      = g.namespaces.map (ModelForge.namespacePlan options naming g) :=
    map_eq_of_forall₂ h fun ns ns' hns => h.namespacePlan hg options naming hns
  unfold ModelForge.plan
  rw [hfault, hmanifest, hunits]

end

end Graph.Unaliased

/-! ## Runs -/

/-- **Scalars are transparent.** Wherever fields of classes have keywords in the place of
references to scalars, a run does the same, into whatever sink it writes: it makes the same units
or fails alike. -/
theorem aliases_transparent {g g' : Graph} (hg : g.OwnersMatch) (h : g.Unaliased g')
    (options : Options) :
    (∀ (m : Type → Type) [Monad m] [Sink m],
        (generate options g' : m (Except GenerationError Unit)) = generate options g)
      ∧ freshRun options g' = freshRun options g := by
  have hgenerate : ∀ (m : Type → Type) [Monad m] [Sink m],
      (generate options g' : m (Except GenerationError Unit)) = generate options g := by
    intro m _ _
    unfold generate
    rw [h.plan hg]
  refine ⟨hgenerate, ?_⟩
  rw [freshRun_eq, freshRun_eq, runFrom, runFrom, hgenerate]

/-! Sales have an amount that is imported, a day that is qualified, and a day that they inherit. -/

def dayScalar : Declaration := ⟨"Day", "money", [], .scalar .dateTime none⟩

def amountScalar : Declaration := ⟨"Amount", "money", [], .scalar .double none⟩

/-- The entries and the sales, where the arguments say how the types are referred to. -/
def accounts (localDay amount day : TypeRef) : Graph :=
  .ofNamespaces
    [⟨"money", [],
      [dayScalar, amountScalar, .concept "money" "Entry" none [.field "booked" localDay]]⟩,
      ⟨"sales", [.one "money" "Amount"],
        [.concept "sales" "Sale" (some ⟨"Entry", some "money"⟩)
          [.field "price" amount, .field "due" day, .field "previous" (.named "Sale")]]⟩]

def aliasedAccounts : Graph := accounts (.named "Day") (.named "Amount") ⟨"Day", some "money"⟩

def plainAccounts : Graph :=
  accounts (.ofPrimitive .dateTime) (.ofPrimitive .double) (.ofPrimitive .dateTime)

theorem unaliased_accounts : aliasedAccounts.Unaliased plainAccounts := by
  have hlocal : aliasedAccounts.resolve "money" (.named "Day") = some dayScalar := by decide +kernel
  have himported : aliasedAccounts.resolve "sales" (.named "Amount") = some amountScalar := by
    decide +kernel
  have hqualified : aliasedAccounts.resolve "sales" ⟨"Day", some "money"⟩ = some dayScalar := by
    decide +kernel
  have hentry := Property.Unaliased.exchanged (p := .field "booked" (.named "Day")) rfl hlocal rfl
  have hprice :=
    Property.Unaliased.exchanged (p := .field "price" (.named "Amount")) rfl himported rfl
  have hdue :=
    Property.Unaliased.exchanged (p := .field "due" ⟨"Day", some "money"⟩) rfl hqualified rfl
  have hsale := List.Forall₂.cons hprice
    (.cons hdue (.cons (.same (.field "previous" (.named "Sale"))) .nil))
  refine .cons ⟨rfl, rfl,
    .cons ?_ (.cons ?_ (.cons ?_ .nil))⟩ (.cons ⟨rfl, rfl, .cons ?_ .nil⟩ .nil)
  · exact ⟨rfl, rfl, rfl, .scalar .dateTime none⟩
  · exact ⟨rfl, rfl, rfl, .scalar .double none⟩
  · exact ⟨rfl, rfl, rfl, .record .concept false none (.cons hentry .nil)⟩
  · exact ⟨rfl, rfl, rfl, .record .concept false _ hsale⟩

/-- Local, imported, qualified and inherited aliases make no difference to the units of a run. -/
theorem aliases_transparent_accounts :
    aliasedAccounts.OwnersMatch ∧ aliasedAccounts.Unaliased plainAccounts
      ∧ ∃ sink, freshRun .default aliasedAccounts = (.ok (), sink)
        ∧ freshRun .default plainAccounts = (.ok (), sink) := by
  have hg : aliasedAccounts.OwnersMatch := by decide
  have hrun := freshRun_of_clean .default aliasedAccounts (by decide +kernel) (by decide +kernel)
  obtain ⟨-, hsame⟩ := aliases_transparent hg unaliased_accounts .default
  exact ⟨hg, unaliased_accounts, _, hrun, hsame.trans hrun⟩

end ModelForge
