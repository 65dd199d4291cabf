/-
`Mirrors.lean` -- graphs that a run reads alike.

A run reads a declaration in a few ways only: its outline, its documentation, and of each member
the name, the documentation and what the type means. Where all of that corresponds
(`Graph.Mirrors`), the searches for cycles take the same steps. So they have the same answers,
also where an identity is taken twice and the answers are not those about paths; and the same is
planned, to the letter or to the error (`Graph.Mirrors.plan`).
-/
import ModelForge.Proofs.Clashes
import ModelForge.Proofs.References

set_option autoImplicit false

namespace ModelForge

/-- The decorators become the same documentation. -/
def SameDocs (decorators decorators' : List Decorator) : Prop :=
  decoratorDocs decorators' = decoratorDocs decorators

section

variable (r : Declaration → Declaration → Prop) (g g' : Graph)

/-- As members, the two are read alike. What their types refer to corresponds. -/
structure Member.Mirrors (m m' : Member) : Prop where
  name : m'.property.name = m.property.name
  kind : m'.property.kind = m.property.kind
  isArray : m'.property.isArray = m.property.isArray
  isOptional : m'.property.isOptional = m.property.isOptional
  docs : SameDocs m.property.decorators m'.property.decorators
  referent : Referent.Alike r (g.memberReferent m) (g'.memberReferent m')

/-- As values of enums, the two are read alike. -/
structure Property.MirrorsValue (value value' : Property) : Prop where
  name : value'.name = value.name
  docs : SameDocs value.decorators value'.decorators

/-- The declarations that correspond are read alike. -/
structure Graph.Mirrors : Prop where
  alike : g.Alike r g'
  docs : ∀ d d', r d d' → SameDocs d.decorators d'.decorators
  members : ∀ d d', r d d' → List.Forall₂ (Member.Mirrors r g g') (g.members d) (g'.members d')
  values : ∀ d d' values values', r d d' → d.body = .enumeration values →
    d'.body = .enumeration values' →
    List.Forall₂ Property.MirrorsValue values values'

end

namespace Graph.Mirrors

variable {r : Declaration → Declaration → Prop} {g g' : Graph}

/-! ## The searches -/

/-- Nodes that correspond. -/
def NodesAlike (r : Declaration → Declaration → Prop) (g g' : Graph) (node : g.Node)
    (node' : g'.Node) : Prop :=
  r node.1 node'.1

/-- A member that holds a class holds the class that corresponds to it in the other graph. -/
theorem exists_memberClass? (houtline : ∀ d d', r d d' → d.SameOutline d') {m m' : Member}
    (hkind : m'.property.kind = m.property.kind)
    (hreferent : Referent.Alike r (g.memberReferent m) (g'.memberReferent m')) {node : g.Node}
    (hnode : g.memberClass? m = some node) :
    ∃ node', g'.memberClass? m' = some node' ∧ NodesAlike r g g' node node' := by
  obtain ⟨hvalue, hmeans, hclass⟩ := memberClass?_eq_some_iff.1 hnode
  rw [hmeans] at hreferent
  obtain ⟨d', hmeans', hd⟩ := hreferent.exists_declaration
  refine ⟨⟨d', mem_declarations_of_referent hmeans'⟩,
    memberClass?_eq_some_iff.2 ⟨?_, hmeans', ?_⟩, hd⟩
  · rwa [hkind]
  · rwa [← (houtline _ _ hd).isClass]

/-- Members that mirror each other hold classes that correspond, or both hold none. -/
theorem memberClass? (h : g.Mirrors r g') {m m' : Member} (hm : m.Mirrors r g g' m') :
    Option.Rel (NodesAlike r g g') (g.memberClass? m) (g'.memberClass? m') := by
  cases hnode : g.memberClass? m with
  | some node =>
      obtain ⟨node', hnode', hd⟩ := exists_memberClass? h.alike.outline hm.kind hm.referent hnode
      rw [hnode']
      exact .some hd
  | none =>
      -- what the one has the other one has
      cases hnode' : g'.memberClass? m' with
      | none => exact .none
      | some node' =>
          obtain ⟨node, hsome, -⟩ := exists_memberClass? h.alike.symm.outline hm.kind.symm
            hm.referent.symm hnode'
          exact absurd (hnode.symm.trans hsome) (by simp)

/-- The classes that a declaration may contain correspond one by one. -/
theorem classTargets (h : g.Mirrors r g') {d d' : Declaration} (hd : r d d') :
    List.Forall₂ (NodesAlike r g g') (g.classTargets d) (g'.classTargets d') :=
  List.rel_filterMap (fun _ _ hm => h.memberClass? hm) (h.members d d' hd)

/-- **Both searches take the same steps.** -/
theorem search (h : g.Mirrors r g') (origin : DeclId) (path explored : List DeclId)
    {nodes : List g.Node} {nodes' : List g'.Node}
    (hnodes : List.Forall₂ (NodesAlike r g g') nodes nodes') :
    g'.search origin path explored nodes' = g.search origin path explored nodes := by
  have hid {node : g.Node} {node' : g'.Node} (hnode : NodesAlike r g g' node node') :
      node'.1.id = node.1.id := (h.alike.outline _ _ hnode).id.symm
  induction path, explored, nodes using Graph.search.induct g origin generalizing nodes' with
  | case1 path explored =>
      cases hnodes
      rw [Graph.search, Graph.search]
  | case2 path explored node rest horigin =>
      cases hnodes with
      | cons hnode hrest =>
          rw [Graph.search, Graph.search, hid hnode, if_pos horigin, if_pos horigin]
  | case3 path explored node rest horigin hseen ih =>
      cases hnodes with
      | cons hnode hrest =>
          rw [Graph.search, Graph.search, hid hnode, if_neg horigin, if_neg horigin, dif_pos hseen,
            dif_pos hseen, ih hrest]
  | case4 path explored node rest horigin hseen explored' hfound ih =>
      cases hnodes with
      | cons hnode hrest =>
          have hbelow := ih (h.classTargets hnode)
          rw [Graph.search, Graph.search, hid hnode, if_neg horigin, if_neg horigin, dif_neg hseen,
            dif_neg hseen, hbelow, hfound]
  | case5 path explored node rest horigin hseen explored' hfound ih₁ ih₂ =>
      cases hnodes with
      | cons hnode hrest =>
          have hbelow := ih₁ (h.classTargets hnode)
          rw [Graph.search, Graph.search, hid hnode, if_neg horigin, if_neg horigin, dif_neg hseen,
            dif_neg hseen, hbelow, hfound]
          exact ih₂ hrest

/-- **A class is recursive if what it corresponds to is.** -/
theorem isRecursive (h : g.Mirrors r g') {d d' : Declaration} (hd : r d d') :
    g'.isRecursive d' = g.isRecursive d := by
  have houtline := h.alike.outline d d' hd
  rw [Graph.isRecursive, Graph.isRecursive, ← houtline.isClass, ← houtline.id,
    h.search d.id [d.id] [] (h.classTargets hd)]

/-- **A declaration leads back if what it corresponds to does.** -/
theorem leadsBack (h : g.Mirrors r g') {start start' origin origin' : Declaration}
    (hstart : r start start') (horigin : r origin origin') :
    g'.leadsBack start' origin' = g.leadsBack start origin := by
  rw [Graph.leadsBack, Graph.leadsBack, ← (h.alike.outline _ _ hstart).id,
    ← (h.alike.outline _ _ horigin).id,
    h.search origin.id [start.id] [] (h.classTargets hstart)]

/-! ## What is written -/

/-- The members that have data correspond one by one. -/
theorem dataMembers (h : g.Mirrors r g') {d d' : Declaration} (hd : r d d') :
    List.Forall₂ (Member.Mirrors r g g') (g.dataMembers d) (g'.dataMembers d') :=
  List.rel_filter (fun m m' hm => by dsimp only; rw [hm.name]) (h.members d d' hd)

section

variable (options : Options) (naming : String → String)

/-- Their names clash in both graphs or in none. -/
theorem recordClash? (h : g.Mirrors r g') {d d' : Declaration} (hd : r d d') :
    ModelForge.recordClash? naming g' d' = ModelForge.recordClash? naming g d := by
  have hname : ∀ m m' : Member, m.Mirrors r g g' m' →
      (naming m'.property.name, m'.property.name) = (naming m.property.name, m.property.name) :=
    fun m m' hm => by rw [hm.name]
  rw [ModelForge.recordClash?, ModelForge.recordClash?, map_eq_of_forall₂ (h.dataMembers hd) hname]

/-- They have the same types. -/
theorem memberType (h : g.Mirrors r g') {owner owner' : Declaration} (howner : r owner owner')
    {m m' : Member} (hm : m.Mirrors r g g' m') :
    ModelForge.memberType options g' owner' (g'.isRecursive owner') m'
      = ModelForge.memberType options g owner (g.isRecursive owner) m := by
  have hreferent := hm.referent
  unfold ModelForge.memberType
  dsimp only
  rw [hm.isArray, hm.isOptional]
  -- from here on it does not matter how the referents came about
  generalize g.memberReferent m = referent at hreferent
  generalize g'.memberReferent m' = referent' at hreferent
  cases hreferent with
  | primitive p => rfl
  | unresolved name => rfl
  | @declaration target target' htarget =>
      -- the type of a class or an enum is boxed or not, and boxing asks for references only
      have houtline := h.alike.outline target target' htarget
      have hboxes : g'.boxes owner' (g'.isRecursive owner') m' target'
          = g.boxes owner (g.isRecursive owner) m target := by
        rw [boxes, boxes, h.isRecursive howner, hm.isArray, houtline.isClass,
          h.leadsBack htarget howner]
      dsimp only
      rw [hboxes, houtline.name]

/-- The fields of members that are read alike are written alike. -/
theorem fieldFragment (h : g.Mirrors r g') {owner owner' : Declaration} (howner : r owner owner')
    {m m' : Member} (hm : m.Mirrors r g g' m') :
    ModelForge.fieldFragment
        (memberField options g' owner' (g'.isRecursive owner') (naming m'.property.name) m')
      = ModelForge.fieldFragment
        (memberField options g owner (g.isRecursive owner) (naming m.property.name) m) := by
  have hdocs : decoratorDocs m'.property.decorators = decoratorDocs m.property.decorators := hm.docs
  unfold ModelForge.fieldFragment memberField
  rw [h.memberType options howner hm, hm.name, hm.isOptional]
  dsimp only
  rw [hdocs]
  rfl

/-- Declarations that correspond give the same record. -/
theorem recordFragment (h : g.Mirrors r g') {d d' : Declaration} (hd : r d d') :
    ModelForge.recordFragment options naming g' d'
      = ModelForge.recordFragment options naming g d := by
  have houtline := h.alike.outline d d' hd
  have hdocs : decoratorDocs d'.decorators = decoratorDocs d.decorators := h.docs d d' hd
  have hfields : (recordFields options naming g' d').map ModelForge.fieldFragment
      = (recordFields options naming g d).map ModelForge.fieldFragment := by
    unfold recordFields
    dsimp only
    rw [List.map_cons, List.map_cons, List.map_map, List.map_map]
    exact congrArg _ (map_eq_of_forall₂ (h.dataMembers hd) fun m m' hm =>
      h.fieldFragment options naming hd hm)
  unfold ModelForge.recordFragment
  rw [h.recordClash? naming hd, hfields, houtline.qualifiedName, hdocs, houtline.name]

/-- And the same enum, if their values do. -/
theorem enumFragment (h : g.Mirrors r g') {d d' : Declaration} (hd : r d d')
    {values values' : List Property} (hvalues : List.Forall₂ Property.MirrorsValue values values') :
    ModelForge.enumFragment options d' values' = ModelForge.enumFragment options d values := by
  have houtline := h.alike.outline d d' hd
  have hdocs : decoratorDocs d'.decorators = decoratorDocs d.decorators := h.docs d d' hd
  have hclash : enumClash? options values' = enumClash? options values := by
    unfold enumClash?
    rw [map_eq_of_forall₂ hvalues fun value value' hvalue => by rw [hvalue.name]]
  have hvariants : values'.map (variantFragment options)
      = values.map (variantFragment options) := by
    refine map_eq_of_forall₂ hvalues fun value value' hvalue => ?_
    have hvalueDocs : decoratorDocs value'.decorators = decoratorDocs value.decorators :=
      hvalue.docs
    unfold variantFragment
    rw [hvalueDocs, hvalue.name]
  unfold ModelForge.enumFragment
  rw [hclash, hvariants, houtline.qualifiedName, hdocs, houtline.name]

/-- **So they give the same text**, whatever their kind. -/
theorem declarationFragment (h : g.Mirrors r g') {d d' : Declaration} (hd : r d d') :
    ModelForge.declarationFragment options naming g' d'
      = ModelForge.declarationFragment options naming g d := by
  have hvalues := h.values d d'
  unfold ModelForge.declarationFragment
  rcases Body.outline_cases (h.alike.outline d d' hd).body with
    ⟨_, _, _, _, _, hbody, hbody'⟩ | ⟨values, values', hbody, hbody'⟩ | ⟨_, _, hbody, hbody'⟩
  · rw [hbody, hbody']
    exact h.recordFragment options naming hd
  · rw [hbody, hbody']
    exact h.enumFragment options hd (hvalues values values' hd hbody hbody')
  · rw [hbody, hbody']

/-- Namespaces of such declarations are planned alike. -/
theorem namespacePlan (h : g.Mirrors r g') {ns ns' : Namespace} (hns : ns.Alike r ns') :
    ModelForge.namespacePlan options naming g' ns'
      = ModelForge.namespacePlan options naming g ns := by
  have hheader : unitHeader ns' = unitHeader ns := by
    unfold unitHeader Namespace.importSources
    rw [hns.name, hns.imports]
  have hdeclarations : ns'.declarations.map (ModelForge.declarationFragment options naming g')
      = ns.declarations.map (ModelForge.declarationFragment options naming g) :=
    map_eq_of_forall₂ hns.declarations fun d d' hd => h.declarationFragment options naming hd
  unfold ModelForge.namespacePlan namespaceFragment
  rw [hheader, hdeclarations, hns.name]

/-- **The same units are planned**, or none for the same reason. -/
theorem plan (h : g.Mirrors r g') :
    ModelForge.plan options naming g' = ModelForge.plan options naming g := by
  have hnamespaces := h.alike.namespaces
  have hnames : g'.namespaces.map Namespace.name = g.namespaces.map Namespace.name :=
    map_eq_of_forall₂ hnamespaces fun ns ns' hns => hns.name.symm
  -- modules are named and judged without a look at the declarations
  have hfault : moduleFault? options [] g'.namespaces = moduleFault? options [] g.namespaces :=
    moduleFault?_eq_of_map_name hnames
  have hmanifest : manifestPlan g' = manifestPlan g := by
    have hlines : g'.namespaces.map (fun ns => manifestLine (moduleName ns.name))
        = g.namespaces.map fun ns => manifestLine (moduleName ns.name) :=
      map_eq_of_forall₂ hnamespaces fun ns ns' hns => by rw [hns.name]
    rw [manifestPlan, manifestPlan, hlines]
  have hunits : g'.namespaces.map (ModelForge.namespacePlan options naming g')
      = g.namespaces.map (ModelForge.namespacePlan options naming g) :=
    map_eq_of_forall₂ hnamespaces fun ns ns' hns => h.namespacePlan options naming hns
  unfold ModelForge.plan
  rw [hfault, hmanifest, hunits]

/-- A run does the same, into whatever sink it writes. -/
theorem generate (h : g.Mirrors r g') {m : Type → Type} [Monad m] [Sink m] :
    (ModelForge.generate options g' : m (Except GenerationError Unit))
      = ModelForge.generate options g := by
  unfold ModelForge.generate
  rw [h.plan]

end

end Graph.Mirrors

end ModelForge
