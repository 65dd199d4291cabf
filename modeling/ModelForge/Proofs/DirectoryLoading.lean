/-
`DirectoryLoading.lean` -- a directory is loaded like one document.

The files of a directory are read one after the other, and each gives the namespaces of its models
(`run_namespacesOfFiles`). Reading the models of several files in turn is reading the list of all
of them (`namespacesOfSources_eq_ok_iff`), so a directory has the graph of one document that lists
the models of its files. Which files these are and in what order they are read depends on their
names alone, and not on the order in which the names are listed (`documentNames_eq_of_perm`). What
can go wrong is that a file cannot be read, and then the first such file decides; or that all can
be read and a name comes twice.
-/
import ModelForge.Proofs.ByteOrder
import ModelForge.Proofs.KnownKinds
import ModelForge.Proofs.RejectedRuns

set_option autoImplicit false

namespace ModelForge

open Metamodel
open Decoder (tells_record)
open Record (tells_required)

/-! ## The first failure -/

section

variable {ε α β : Type} {f : α → Except ε β}

/-- An item fails, and none before it does. -/
def FirstFailure (f : α → Except ε β) (items : List α) (e : ε) : Prop :=
  ∃ before item after, items = before ++ item :: after
    ∧ (∀ a ∈ before, ∃ b, f a = .ok b) ∧ f item = .error e

/-- Either the first one fails, or it does not and the failure is among the others. -/
theorem firstFailure_cons_iff {a : α} {rest : List α} {e : ε} :
    FirstFailure f (a :: rest) e ↔ f a = .error e ∨ ∃ b, f a = .ok b ∧ FirstFailure f rest e := by
  constructor
  · rintro ⟨before, item, after, h, hbefore, hitem⟩
    cases before with
    | nil =>
        obtain ⟨rfl, -⟩ := List.cons.inj h
        exact .inl hitem
    | cons other before =>
        obtain ⟨rfl, rfl⟩ := List.cons.inj h
        obtain ⟨⟨b, hb⟩, hbefore⟩ := List.forall_mem_cons.1 hbefore
        exact .inr ⟨b, hb, before, item, after, rfl, hbefore, hitem⟩
  · rintro (ha | ⟨b, hb, before, item, after, rfl, hbefore, hitem⟩)
    · exact ⟨[], a, rest, rfl, List.forall_mem_nil _, ha⟩
    · exact ⟨a :: before, item, after, rfl, List.forall_mem_cons.2 ⟨⟨b, hb⟩, hbefore⟩, hitem⟩

/-- The first item that fails ends the list. -/
theorem mapM_eq_error_iff {items : List α} {e : ε} :
    items.mapM f = .error e ↔ FirstFailure f items e := by
  induction items with
  | nil =>
      refine iff_of_false (by simp [pure, Except.pure]) ?_
      rintro ⟨before, item, after, h, -⟩
      exact absurd h (by simp)
  | cons a rest ih =>
      rw [List.mapM_cons, bind_eq_error_iff, firstFailure_cons_iff]
      refine or_congr_right (exists_congr fun b => and_congr_right fun _ => ?_)
      rw [bind_eq_error_iff, ih]
      exact or_iff_left fun ⟨_, _, h⟩ => absurd h (by simp [pure, Except.pure])

end

/-! ## Repeated names -/

/-- A name comes again, and no name before it has come twice. -/
def FirstRepeat (names : List String) (name : String) : Prop :=
  ∃ before after, names = before ++ name :: after ∧ before.Nodup ∧ name ∈ before

/-- Seen names count as names that came before, the last one seen at the front. -/
theorem firstRepeat?_eq_some_iff {seen names : List String} (hseen : seen.Nodup) {name : String} :
    firstRepeat? seen names = some name ↔ ∃ before after, names = before ++ name :: after
      ∧ (seen.reverse ++ before).Nodup ∧ name ∈ seen.reverse ++ before := by
  induction names generalizing seen with
  | nil =>
      refine iff_of_false (by simp [firstRepeat?]) ?_
      rintro ⟨before, after, h, -⟩
      exact absurd h (by simp)
  | cons first rest ih =>
      rw [firstRepeat?]
      by_cases hfirst : first ∈ seen
      · rw [if_pos hfirst]
        constructor
        · intro h
          obtain rfl := Option.some.inj h
          exact ⟨[], rest, rfl, by simpa using hseen, by simpa using hfirst⟩
        · rintro ⟨before, after, h, hnodup, -⟩
          cases before with
          | nil => exact congrArg some (List.cons.inj h).1
          | cons other before =>
              obtain ⟨rfl, -⟩ := List.cons.inj h
              have hnew := (List.disjoint_of_nodup_append hnodup) (List.mem_reverse.2 hfirst)
              exact absurd List.mem_cons_self hnew
      · rw [if_neg hfirst, ih (List.nodup_cons.2 ⟨hfirst, hseen⟩), List.reverse_cons]
        constructor
        · rintro ⟨before, after, rfl, hnodup, hname⟩
          rw [List.append_assoc] at hnodup hname
          exact ⟨first :: before, after, rfl, hnodup, hname⟩
        · rintro ⟨before, after, h, hnodup, hname⟩
          cases before with
          | nil =>
              obtain ⟨rfl, -⟩ := List.cons.inj h
              exact absurd (by simpa using hname) hfirst
          | cons other before =>
              obtain ⟨rfl, rfl⟩ := List.cons.inj h
              exact ⟨before, after, rfl, by rwa [List.append_assoc], by rwa [List.append_assoc]⟩

/-- A name is refused if it is the first to come again. -/
theorem Graph.ofDistinct_eq_duplicate_iff {namespaces : List Namespace} {name : String} :
    Graph.ofDistinct namespaces = .error (.duplicateNamespace name)
      ↔ FirstRepeat (namespaces.map Namespace.name) name := by
  have hfirst : firstRepeat? [] (namespaces.map Namespace.name) = some name ↔ FirstRepeat _ name :=
    firstRepeat?_eq_some_iff List.nodup_nil
  rw [← hfirst, Graph.ofDistinct]
  cases firstRepeat? [] (namespaces.map Namespace.name) with
  | some other =>
      simp only [Except.error.injEq, LoadError.duplicateNamespace.injEq, Option.some.injEq]
  | none => exact iff_of_false (by simp) (by simp)

/-! ## The models of a document -/

/-- The graph of a document that comes from no file. -/
def loadDocument (document : Json) : Except LoadError Graph := do
  Graph.ofDistinct (← namespacesOfDocument "<string>" document)

/-- A text that is parsed is loaded as its document. -/
theorem loadText_of_parse {text : String} {document : Json} (h : Json.parse text = .ok document) :
    loadText text = loadDocument document := by
  rw [loadText, namespacesOfText, h, loadDocument]

/-- A document lists models. -/
def Json.ListsModels (document : Json) (models : List Json) : Prop :=
  document.kindWord? = some "Models" ∧ document.field? "models" = some (.array models)

/-- The models of a document: the document itself if it is a model, or those that it lists. -/
inductive Json.HoldsModels (document : Json) : List Json → Prop where
  | model (hkind : document.kindWord? = some "Model") : document.HoldsModels [document]
  | models {models : List Json} (h : document.ListsModels models) : document.HoldsModels models

/-- What the decoder takes for models is the array under the key. -/
theorem modelsDecoder_tells_array {document : Json} {models : List Json}
    (h : modelsDecoder document = .ok models) :
    document.part? "models" 0 = some (.array models) := by
  refine tells_record (p := fun look models => look "models" 0 = some (.array models)) h
    (tells_required (q := fun found models => found = some (.array models))
      fun value models hvalue => ?_)
  cases value with
  | array items => rw [← Except.ok.inj ((list_any_array items).symm.trans hvalue)]
  | _ => exact absurd hvalue (by simp [Decoder.list])

theorem kindOf_of_kindWord? {node : Json} (kind : RootKind)
    (h : node.kindWord? = some (NodeKind.name kind)) :
    kindOf RootKind node = .ok kind := by
  rw [kindOf, kindWord, h]
  cases kind <;> rfl

/-- The models of a document are read one by one. -/
theorem Json.HoldsModels.readDocument_eq {document : Json} {models : List Json}
    (h : document.HoldsModels models) : readDocument document = models.mapM readModel := by
  cases h with
  | models h => exact readDocument_of_list h.1 h.2
  | model hkind =>
      rw [readDocument, kindOf_of_kindWord? .model hkind]
      rfl

/-- A document that is read holds models. -/
theorem Json.exists_holdsModels {document : Json} {namespaces : List Namespace}
    (h : readDocument document = .ok namespaces) : ∃ models, document.HoldsModels models := by
  unfold readDocument at h
  obtain ⟨kind, hkind, h⟩ := bind_eq_ok_iff.1 h
  have hword := kindWord?_of_kindOf hkind
  cases kind with
  | model => exact ⟨_, .model hword⟩
  | models =>
      obtain ⟨models, hmodels, -⟩ := bind_eq_ok_iff.1 h
      have hlisted := modelsDecoder_tells_array (eq_ok_of_fields hmodels)
      rw [Json.part?_of_kindWord? hword] at hlisted
      exact ⟨models, .models ⟨hword, hlisted⟩⟩

/-! ## Texts in turn -/

/-- A text and where it comes from. -/
structure Source where
  origin : String
  text : String

namespace Source

/-- The namespaces of a text. -/
def namespaces (source : Source) : Except LoadError (List Namespace) :=
  namespacesOfText source.origin source.text

/-- The models of the document that a text is. -/
def Holds (source : Source) (models : List Json) : Prop :=
  ∃ document, Json.parse source.text = .ok document ∧ document.HoldsModels models

variable {source : Source}

/-- A source gives the namespaces of the models that it holds, or fails as they do. -/
theorem Holds.namespaces_eq_ok_iff {models : List Json} (h : source.Holds models)
    {found : List Namespace} :
    source.namespaces = .ok found ↔ models.mapM readModel = .ok found := by
  obtain ⟨document, hparse, hmodels⟩ := h
  rw [namespaces, namespacesOfText, hparse]
  dsimp only
  rw [namespacesOfDocument_eq_ok_iff, hmodels.readDocument_eq]

/-- A source that gives namespaces holds models. -/
theorem exists_holds {found : List Namespace} (h : source.namespaces = .ok found) :
    ∃ models, source.Holds models := by
  unfold namespaces namespacesOfText at h
  split at h
  · rename_i document hparse
    obtain ⟨models, hmodels⟩ := Json.exists_holdsModels (namespacesOfDocument_eq_ok_iff.1 h)
    exact ⟨models, document, hparse, hmodels⟩
  · exact absurd h (by simp)

/-- No text by itself defines a namespace twice. -/
theorem namespaces_ne_duplicate (source : Source) (name : String) :
    source.namespaces ≠ .error (.duplicateNamespace name) := by
  unfold namespaces namespacesOfText namespacesOfDocument
  repeat' split
  · simp
  · rename_i e _
    cases e <;> simp [LoadError.ofNodeError]
  · simp

end Source

/-- The namespaces of several texts, in order. -/
def namespacesOfSources (sources : List Source) : Except LoadError (List Namespace) := do
  return (← sources.mapM Source.namespaces).flatten

variable {sources : List Source}

/-- The sources are read from the first to the last. -/
theorem namespacesOfSources_cons (source : Source) (rest : List Source) :
    namespacesOfSources (source :: rest) = (do
      let found ← source.namespaces
      return found ++ (← namespacesOfSources rest)) := by
  rw [namespacesOfSources, namespacesOfSources, List.mapM_cons]
  cases source.namespaces with
  | error e => rfl
  | ok found =>
      cases rest.mapM Source.namespaces with
      | error e => rfl
      | ok others => rfl

/-- All sources give namespaces exactly if each of them does, and these are put together in order.
-/
theorem namespacesOfSources_eq_ok_iff_forall₂ {namespaces : List Namespace} :
    namespacesOfSources sources = .ok namespaces ↔ ∃ lists,
      List.Forall₂ (fun source found => source.namespaces = .ok found) sources lists
        ∧ lists.flatten = namespaces := by
  rw [namespacesOfSources, bind_eq_ok_iff]
  exact exists_congr fun lists => and_congr mapM_eq_ok_iff pure_eq_ok_iff

/-- Reading fails with the fault of the first source that has one. -/
theorem namespacesOfSources_eq_error_iff {e : LoadError} :
    namespacesOfSources sources = .error e ↔ FirstFailure Source.namespaces sources e := by
  rw [← mapM_eq_error_iff, namespacesOfSources, bind_eq_error_iff]
  exact or_iff_left fun ⟨_, _, h⟩ => absurd h (by simp [pure, Except.pure])

/-- Texts are read in turn as the models in all of them are. -/
theorem namespacesOfSources_eq_ok_iff {lists : List (List Json)}
    (h : List.Forall₂ Source.Holds sources lists) {namespaces : List Namespace} :
    namespacesOfSources sources = .ok namespaces
      ↔ lists.flatten.mapM readModel = .ok namespaces := by
  induction h generalizing namespaces with
  | nil =>
      rw [namespacesOfSources, List.flatten_nil, List.mapM_nil, List.mapM_nil,
        pure_bind, List.flatten_nil, pure_eq_ok_iff, pure_eq_ok_iff]
  | @cons source models rest lists hsource _ ih =>
      rw [namespacesOfSources_cons, List.flatten_cons, List.mapM_append,
        bind_eq_ok_iff, bind_eq_ok_iff]
      refine exists_congr fun found => and_congr hsource.namespaces_eq_ok_iff ?_
      rw [bind_eq_ok_iff, bind_eq_ok_iff]
      refine exists_congr fun others => and_congr ih ?_
      rw [pure_eq_ok_iff, pure_eq_ok_iff]

theorem exists_holds_of_forall₂ {found : List (List Namespace)}
    (h : List.Forall₂ (fun source found => source.namespaces = .ok found) sources found) :
    ∃ lists, List.Forall₂ Source.Holds sources lists := by
  induction h with
  | nil => exact ⟨[], .nil⟩
  | cons hsource _ ih =>
      obtain ⟨models, hmodels⟩ := Source.exists_holds hsource
      obtain ⟨lists, hlists⟩ := ih
      exact ⟨models :: lists, .cons hmodels hlists⟩

/-! ## Loading texts in turn -/

/-- Some texts were loaded as one document. -/
structure LoadsAsOne (sources : List Source) (outcome : Except LoadError Graph) : Prop where
  /-- A document that lists the models of all of them, one text after the other, has the same
  graph. -/
  document : ∀ lists whole, List.Forall₂ Source.Holds sources lists →
    whole.ListsModels lists.flatten →
    ∀ g, outcome = .ok g ↔ loadDocument whole = .ok g
  /-- So has the text of such a document. -/
  text : ∀ lists whole text, List.Forall₂ Source.Holds sources lists →
    whole.ListsModels lists.flatten →
    Json.parse text = .ok whole → ∀ g, outcome = .ok g ↔ loadText text = .ok g
  /-- A graph has one namespace for each model, in their order. -/
  kept : ∀ g, outcome = .ok g → ∃ lists, List.Forall₂ Source.Holds sources lists
    ∧ List.Forall₂ (fun model ns => readModel model = .ok ns) lists.flatten g.namespaces
  /-- A name is refused if all texts can be read and it is the first that comes again. -/
  duplicate : ∀ name, outcome = .error (.duplicateNamespace name) ↔ ∃ lists,
    List.Forall₂ (fun source found => source.namespaces = .ok found) sources lists
      ∧ FirstRepeat (lists.flatten.map Namespace.name) name
  /-- The first text that cannot be read decides, whatever the others say. -/
  first : ∀ e, FirstFailure Source.namespaces sources e → outcome = .error e
  /-- Nothing else goes wrong. -/
  faults : ∀ e, outcome = .error e →
    FirstFailure Source.namespaces sources e ∨ ∃ name, e = .duplicateNamespace name

/-- What is wrong with a source is never that a namespace was declared twice. -/
theorem FirstFailure.ne_duplicate {e : LoadError} (h : FirstFailure Source.namespaces sources e)
    (name : String) : e ≠ .duplicateNamespace name := by
  obtain ⟨-, source, -, -, -, hsource⟩ := h
  rintro rfl
  exact source.namespaces_ne_duplicate name hsource

/-- Nothing else is wrong with namespaces than that two of them share a name. -/
theorem Graph.eq_duplicate_of_ofDistinct {namespaces : List Namespace} {e : LoadError}
    (h : Graph.ofDistinct namespaces = .error e) : ∃ name, e = .duplicateNamespace name := by
  unfold Graph.ofDistinct at h
  split at h
  · exact ⟨_, (Except.error.inj h).symm⟩
  · exact absurd h (by simp)

/-- **Sources are loaded as one document** that holds the models of all of them. -/
theorem loadsAsOne (sources : List Source) :
    LoadsAsOne sources (namespacesOfSources sources >>= Graph.ofDistinct) := by
  have hdocument : ∀ lists whole, List.Forall₂ Source.Holds sources lists →
      whole.ListsModels lists.flatten →
      ∀ g, (namespacesOfSources sources >>= Graph.ofDistinct) = .ok g
        ↔ loadDocument whole = .ok g := by
    intro lists whole hlists hwhole g
    rw [loadDocument, bind_eq_ok_iff, bind_eq_ok_iff]
    refine exists_congr fun namespaces => and_congr_left fun _ => ?_
    rw [namespacesOfSources_eq_ok_iff hlists, namespacesOfDocument_eq_ok_iff,
      (Json.HoldsModels.models hwhole).readDocument_eq]
  refine ⟨hdocument, fun lists whole text hlists hwhole hparse g => ?_,
    fun g h => ?_, fun name => ?_, fun e h => ?_, fun e h => ?_⟩
  · rw [loadText_of_parse hparse]
    exact hdocument lists whole hlists hwhole g
  · obtain ⟨namespaces, hread, hdistinct⟩ := bind_eq_ok_iff.1 h
    obtain ⟨rfl, -⟩ := Graph.ofDistinct_eq_ok_iff.1 hdistinct
    obtain ⟨found, hfound, -⟩ := namespacesOfSources_eq_ok_iff_forall₂.1 hread
    obtain ⟨lists, hlists⟩ := exists_holds_of_forall₂ hfound
    exact ⟨lists, hlists, mapM_eq_ok_iff.1 ((namespacesOfSources_eq_ok_iff hlists).1 hread)⟩
  · rw [bind_eq_error_iff, or_iff_right fun h =>
      (namespacesOfSources_eq_error_iff.1 h).ne_duplicate name rfl]
    constructor
    · rintro ⟨namespaces, hread, hrepeat⟩
      obtain ⟨found, hfound, rfl⟩ := namespacesOfSources_eq_ok_iff_forall₂.1 hread
      exact ⟨found, hfound, Graph.ofDistinct_eq_duplicate_iff.1 hrepeat⟩
    · rintro ⟨found, hfound, hrepeat⟩
      exact ⟨found.flatten, namespacesOfSources_eq_ok_iff_forall₂.2 ⟨found, hfound, rfl⟩,
        Graph.ofDistinct_eq_duplicate_iff.2 hrepeat⟩
  · exact bind_eq_error_iff.2 (.inl (namespacesOfSources_eq_error_iff.2 h))
  · rcases bind_eq_error_iff.1 h with hread | ⟨namespaces, -, hrepeat⟩
    · exact .inl (namespacesOfSources_eq_error_iff.1 hread)
    · exact .inr (Graph.eq_duplicate_of_ofDistinct hrepeat)

/-! ## The documents of a directory -/

/-- Documents of a directory in the order of the bytes of their names. -/
structure InNameOrder (names documents : List String) : Prop where
  all : documents.Perm (names.filter isDocumentName)
  ascending : documents.Pairwise fun a b => bytesOf a ≤ bytesOf b

/-- The documents of a directory are the names in it with the ending of documents. -/
theorem InNameOrder.mem_iff {names documents : List String} (h : InNameOrder names documents)
    {name : String} :
    name ∈ documents ↔ name ∈ names ∧ isDocumentName name = true := by
  rw [h.all.mem_iff, List.mem_filter]

/-- They are taken in the order of their names. -/
theorem inNameOrder_documentNames (names : List String) :
    InNameOrder names (documentNames names) where
  all := List.mergeSort_perm _ _
  ascending := by
    have htrans (a b c : String) (hab : decide (a ≤ b) = true) (hbc : decide (b ≤ c) = true) :
        decide (a ≤ c) = true :=
      decide_eq_true (String.le_trans (of_decide_eq_true hab) (of_decide_eq_true hbc))
    have htotal (a b : String) : (decide (a ≤ b) || decide (b ≤ a)) = true := by
      simpa using String.le_total a b
    refine (List.pairwise_mergeSort htrans htotal (names.filter isDocumentName)).imp
      fun {a b} hab => ?_
    rw [← List.not_lt, ← lt_iff_bytesOf_lt, String.not_lt]
    exact of_decide_eq_true hab

/-- Two ways to put the same documents in order are the same. -/
theorem InNameOrder.unique {names names' documents documents' : List String}
    (h : InNameOrder names documents) (h' : InNameOrder names' documents')
    (hnames : names.Perm names') : documents = documents' := by
  have hperm := h.all.trans ((hnames.filter isDocumentName).trans h'.all.symm)
  refine hperm.eq_of_pairwise (fun a b _ _ hab hba => ?_) h.ascending h'.ascending
  rw [← List.not_lt, ← lt_iff_bytesOf_lt, String.not_lt] at hab hba
  exact String.le_antisymm hab hba

/-- So it does not matter in which order the system lists them. -/
theorem documentNames_eq_of_perm {names names' : List String} (h : names.Perm names') :
    documentNames names = documentNames names' :=
  (inNameOrder_documentNames names).unique (inNameOrder_documentNames names') h

/-! ## Loading a directory -/

section

variable {σ : Type} [FileSystem (StateM σ)]

/-- A path leads to a directory in which some names are listed. All documents among them can be
read. -/
structure HoldsDirectory (path : String) (names : List String) (texts : String → String)
    (state : σ) : Prop where
  directory : (FileSystem.isDirectory path : StateM σ Bool).run state = (true, state)
  listed : (FileSystem.entryNames path : StateM σ _).run state = (.ok names, state)
  readable : ∀ name ∈ names, isDocumentName name = true →
    (FileSystem.readText (Path.join path name) : StateM σ _).run state = (.ok (texts name), state)

/-- The texts of some files of a directory. -/
def directorySources (path : String) (texts : String → String) (documents : List String) :
    List Source :=
  documents.map fun name => ⟨Path.join path name, texts name⟩

/-- Files are read one after the other, and reading them changes nothing. -/
theorem run_namespacesOfFiles {state : σ} {sources : List Source}
    (h : ∀ source ∈ sources,
      (FileSystem.readText source.origin : StateM σ _).run state = (.ok source.text, state)) :
    (namespacesOfFiles (sources.map Source.origin) : StateM σ _).run state
      = (namespacesOfSources sources, state) := by
  induction sources with
  | nil => rfl
  | cons source rest ih =>
      rw [List.forall_mem_cons] at h
      have hsource : (namespacesOfFile source.origin : StateM σ _).run state
          = (source.namespaces, state) := by
        rw [namespacesOfFile, run_bind_of_eq h.1]
        rfl
      rw [List.map_cons, namespacesOfFiles, run_bind_of_eq hsource, namespacesOfSources_cons]
      cases source.namespaces with
      | error e => rfl
      | ok found =>
          dsimp only
          rw [run_bind_of_eq (ih h.2)]
          cases namespacesOfSources rest with
          | error e => rfl
          | ok others => rfl

variable {path : String} {names : List String} {texts : String → String} {state : σ}

/-- The documents of a directory are read in the order of their names. -/
theorem HoldsDirectory.run_loadPath (h : HoldsDirectory path names texts state)
    (hdocuments : ∃ name ∈ names, isDocumentName name = true) :
    (loadPath path : StateM σ _).run state
      = (namespacesOfSources (directorySources path texts (documentNames names))
        >>= Graph.ofDistinct,
        state) := by
  have horder := inNameOrder_documentNames names
  have hsources : ∀ source ∈ directorySources path texts (documentNames names),
      (FileSystem.readText source.origin : StateM σ _).run state = (.ok source.text, state) := by
    intro source hsource
    obtain ⟨name, hname, rfl⟩ := List.mem_map.1 hsource
    exact h.readable name (horder.mem_iff.1 hname).1 (horder.mem_iff.1 hname).2
  have hfiles : (sourceFiles path : StateM σ _).run state
      = (.ok ((directorySources path texts (documentNames names)).map Source.origin), state) := by
    obtain ⟨name, hname⟩ := hdocuments
    have hmem := horder.mem_iff.2 hname
    rw [sourceFiles, run_bind_of_eq h.directory, if_pos rfl,
      run_bind_of_eq h.listed, directorySources, List.map_map]
    dsimp only
    cases hdocuments : documentNames names with
    | nil => exact absurd (hdocuments ▸ hmem) List.not_mem_nil
    | cons first rest => rfl
  rw [loadPath, run_bind_of_eq hfiles]
  dsimp only
  rw [run_bind_of_eq (run_namespacesOfFiles hsources)]
  cases namespacesOfSources (directorySources path texts (documentNames names)) with
  | error e => rfl
  | ok namespaces => rfl

/-- **A directory is loaded like one document**, in whatever order its names are listed. -/
theorem directory_loads_as_one (h : HoldsDirectory path names texts state)
    (hdocuments : ∃ name ∈ names, isDocumentName name = true) :
    ∃ outcome, (loadPath path : StateM σ _).run state = (outcome, state)
      ∧ InNameOrder names (documentNames names)
      ∧ LoadsAsOne (directorySources path texts (documentNames names)) outcome
      ∧ ∀ (τ : Type) [FileSystem (StateM τ)] (names' : List String) (state' : τ),
        names'.Perm names →
          HoldsDirectory path names' texts state' →
          (loadPath path : StateM τ _).run state' = (outcome, state') := by
  refine ⟨_, h.run_loadPath hdocuments, inNameOrder_documentNames names, loadsAsOne _,
    fun τ _ names' state' hperm h' => ?_⟩
  obtain ⟨name, hname, hdocument⟩ := hdocuments
  rw [h'.run_loadPath ⟨name, hperm.mem_iff.2 hname, hdocument⟩, documentNames_eq_of_perm hperm]

end

/-! A directory with a model and a list of two. The system lists the second document first. -/

def bareNamespace (name : String) : Namespace where
  name := name
  imports := []
  declarations := []

def modelText (name : String) : String := (writeModel (bareNamespace name)).render

def listText : String := (writeDocument [bareNamespace "b", bareNamespace "c"]).render

def shelfDisk (name : String) : Disk :=
  let single := modelsDisk (modelText name).toUTF8
  (single.put ["work", "m", "notes.txt"] (.file ByteArray.empty)).put ["work", "m", "list.json"]
    (.file listText.toUTF8)

/-- The names in the directory as the system lists them. -/
def shelfNames : List String := ["list.json", "notes.txt", "a.json"]

def shelfText (name file : String) : String :=
  if file = "list.json" then listText else modelText name

/-- The shelf is such a directory, whatever is in its single model. -/
theorem holdsDirectory_shelfDisk (name : String) :
    HoldsDirectory "m" shelfNames (shelfText name) (shelfDisk name) := by
  have hfind : (shelfDisk name).find "m" = .ok (["work", "m"], .directory) := rfl
  have hbelow : (shelfDisk name).namesBelow ["work", "m"] = shelfNames := rfl
  have hlist : (shelfDisk name).readText (Path.join "m" "list.json") = .ok listText := by
    have hlocate : (shelfDisk name).locate (Path.join "m" "list.json")
        = .ok ["work", "m", "list.json"] := rfl
    exact Disk.readText_of_file hlocate rfl
  have hmodel : (shelfDisk name).readText (Path.join "m" "a.json") = .ok (modelText name) := by
    have hlocate : (shelfDisk name).locate (Path.join "m" "a.json")
        = .ok ["work", "m", "a.json"] := rfl
    exact Disk.readText_of_file hlocate rfl
  refine ⟨?_, ?_, fun file hfile hdocument => ?_⟩
  · rw [Disk.run_isDirectory, hfind]
  · rw [Disk.run_entryNames_of_directory hfind, hbelow]
  · show ((shelfDisk name).readText (Path.join "m" file), shelfDisk name) = _
    simp only [shelfNames, List.mem_cons, List.not_mem_nil, or_false] at hfile
    rcases hfile with rfl | rfl | rfl
    · rw [hlist]
      rfl
    · exact absurd hdocument (by decide +kernel)
    · rw [hmodel]
      rfl

theorem holds_shelf {name : String}
    (hreadable : (writeModel (bareNamespace name)).readable Json.Parser.maxDepth = true) :
    List.Forall₂ Source.Holds (directorySources "m" (shelfText name) ["a.json", "list.json"])
      [[writeModel (bareNamespace name)],
        [writeModel (bareNamespace "b"), writeModel (bareNamespace "c")]] :=
  .cons ⟨_, Json.parse_render hreadable, .model (kindWord?_node rfl (by decide))⟩
    (.cons ⟨_, Json.parse_render (by decide +kernel), .models ⟨by decide, rfl⟩⟩ .nil)

/-- Three models in two files make one graph. With one namespace in both files they make none. -/
theorem directory_loads_as_one_shelf :
    (∃ name ∈ shelfNames, isDocumentName name = true)
    ∧ HoldsDirectory "m" shelfNames (shelfText "a") (shelfDisk "a")
    ∧ (loadPath "m" : StateM Disk _).run (shelfDisk "a")
      = (.ok (.ofNamespaces [bareNamespace "a", bareNamespace "b", bareNamespace "c"]),
        shelfDisk "a")
    ∧ HoldsDirectory "m" shelfNames (shelfText "c") (shelfDisk "c")
    ∧ (loadPath "m" : StateM Disk _).run (shelfDisk "c")
      = (.error (.duplicateNamespace "c"), shelfDisk "c") := by
  have hordered : InNameOrder shelfNames ["a.json", "list.json"] :=
    ⟨by decide +kernel, by decide +kernel⟩
  have hnames : documentNames shelfNames = ["a.json", "list.json"] :=
    (inNameOrder_documentNames _).unique hordered (.refl _)
  have hdocuments : ∃ name ∈ shelfNames, isDocumentName name = true :=
    ⟨"a.json", by decide, by decide +kernel⟩
  refine ⟨hdocuments, holdsDirectory_shelfDisk "a", ?_, holdsDirectory_shelfDisk "c", ?_⟩
  · obtain ⟨outcome, hrun, -, hone, -⟩ :=
      directory_loads_as_one (holdsDirectory_shelfDisk "a") hdocuments
    rw [hnames] at hone
    have hdocument := hone.document _
      (writeDocument [bareNamespace "a", bareNamespace "b", bareNamespace "c"])
      (holds_shelf (by decide +kernel)) ⟨by decide, rfl⟩
    rw [hrun, (hdocument _).2]
    exact ofDistinct_namespacesOfDocument_eq_ok_iff.2 ⟨readDocument_writeDocument (by decide),
      by decide⟩
  · obtain ⟨outcome, hrun, -, hone, -⟩ :=
      directory_loads_as_one (holdsDirectory_shelfDisk "c") hdocuments
    rw [hnames] at hone
    have hread :
        ([bareNamespace "c", bareNamespace "b", bareNamespace "c"].map writeModel).mapM readModel
        = .ok [bareNamespace "c", bareNamespace "b", bareNamespace "c"] :=
      mapM_map_eq_ok_self fun ns hns => readModel_writeModel (by revert ns; decide)
    have hsources := (namespacesOfSources_eq_ok_iff (holds_shelf (by decide +kernel))).2 hread
    obtain ⟨lists, hlists, hflat⟩ := namespacesOfSources_eq_ok_iff_forall₂.1 hsources
    have hrepeat : FirstRepeat (lists.flatten.map Namespace.name) "c" := by
      rw [hflat]
      exact ⟨["c", "b"], [], rfl, by decide, by decide⟩
    rw [hrun, (hone.duplicate "c").2 ⟨lists, hlists, hrepeat⟩]

end ModelForge
