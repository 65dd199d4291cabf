/-
`PrintedUnits.lean` -- what is printed is what would be written.

Printing a model runs the generator into memory, and writing it runs the generator into a
directory. A run into a directory that succeeds has stored every unit that a run into memory
seals, one after the other (`of_runInto_ok`); so it has asked the file system for the very texts
that are printed, and a disk holds them afterwards. `file_sink_follows_memory_sink` puts this
beside what is known of single actions.
-/
import ModelForge.Cli.Command
import ModelForge.Proofs.StoredFiles

set_option autoImplicit false

namespace ModelForge

/-! ## Runs that succeed -/

section

variable {σ : Type} [FileSystem (StateM σ)]

/-- What is true of the units stored so far and of the file system stays true when another one is
stored. -/
def KeptByStored (out : String) (P : List SourceUnit → σ → Prop) (unit : SourceUnit) : Prop :=
  ∀ units state path state', P units state →
    (FileSink.store out unit : StateM σ _).run state = (.ok path, state') →
    P (units ++ [unit]) state'

variable {out : String} {P : List SourceUnit → σ → Prop}

/-- Units that are written without an error are all clean, and stored in order. -/
theorem of_run_writeUnits_ok {plans : List UnitPlan}
    (hkept : ∀ unit ∈ plans, KeptByStored out P unit.sealed) {units : List SourceUnit}
    {written : List String} {state : σ} (h : P units state)
    (hok : (FileSink.run ⟨out, .empty, written⟩ state (writeUnits plans)).1.1 = .ok ()) :
    (∀ unit ∈ plans, unit.content.fault? = none)
      ∧ P (units ++ plans.map UnitPlan.sealed)
        (FileSink.run ⟨out, .empty, written⟩ state (writeUnits plans)).2 := by
  induction plans generalizing units written state with
  | nil =>
      rw [List.map_nil, List.append_nil]
      exact ⟨List.forall_mem_nil _, h⟩
  | cons unit rest ih =>
      rw [List.forall_mem_cons] at hkept
      cases hfault : unit.content.fault? with
      | some e =>
          rw [FileSink.run_writeUnits_cons_of_fault _ _ _ hfault] at hok
          exact absurd hok (by simp)
      | none =>
          rw [FileSink.run_writeUnits_cons_of_clean _ _ _ hfault] at hok ⊢
          cases hstored : (FileSink.store out unit.sealed : StateM σ _).run state with
          | mk answer state' =>
              rw [hstored] at hok
              cases answer with
              | error e => exact absurd hok (by simp)
              | ok path =>
                  obtain ⟨hclean, hends⟩ := ih hkept.2 (hkept.1 _ _ _ _ h hstored) hok
                  rw [List.append_assoc, List.singleton_append] at hends
                  exact ⟨List.forall_mem_cons.2 ⟨hfault, hclean⟩, hends⟩

/-- **A run into a directory that succeeds stores what a run into memory seals.** -/
theorem of_runInto_ok {options : Options} {g : Graph}
    (hkept : ∀ unit ∈ plannedUnits options g, KeptByStored out P unit) {state : σ} (h : P [] state)
    (hok : (runInto options g out state).1.1 = .ok ()) :
    runFrom options g [] = (.ok (), ⟨.empty, plannedUnits options g⟩)
      ∧ P (plannedUnits options g) (runInto options g out state).2 := by
  unfold runInto generate plan at hok ⊢
  unfold runFrom generate plan
  cases hfault : moduleFault? options [] g.namespaces with
  | some e =>
      rw [hfault] at hok
      exact absurd hok (by simp [writePlan, FileSink.run_pure])
  | none =>
      rw [hfault] at hok
      obtain ⟨hclean, hends⟩ := of_run_writeUnits_ok (List.forall_mem_map.1 hkept) h hok
      exact ⟨MemorySink.run_writeUnits_of_clean [] _ hclean, hends⟩

/-- What ends well on a directory ends well in memory, with every unit that was planned. -/
theorem runFrom_of_runInto_ok {options : Options} {g : Graph} {state : σ}
    (hok : (runInto options g out state).1.1 = .ok ()) :
    runFrom options g [] = (.ok (), ⟨.empty, plannedUnits options g⟩) :=
  (of_runInto_ok (P := fun _ _ => True) (fun _ _ _ _ _ _ _ _ => trivial) trivial hok).1

end

/-! ## Requests -/

/-- What storing a unit asks for. -/
def storeRequests (out : String) (unit : SourceUnit) : List FileRequest :=
  [.createDirectories out, .writeText (Path.join out unit.name) unit.text]

/-- When a unit is stored, the requests for it come behind those for the others. -/
theorem keptByStored_requests {σ : Type} [FileSystem (StateM σ)] (out : String)
    (unit : SourceUnit) :
    KeptByStored out (fun units (recording : Recording σ) =>
      recording.requests = units.flatMap (storeRequests out)) unit := by
  intro units recording path recording' h hstored
  rw [FileSink.run_store, Recording.run_createDirectories] at hstored
  dsimp only at hstored
  split at hstored
  · cases (Prod.mk.inj hstored).1
  · rw [Recording.run_writeText] at hstored
    dsimp only at hstored
    split at hstored
    · cases (Prod.mk.inj hstored).1
    · obtain ⟨-, rfl⟩ := Prod.mk.inj hstored
      rw [h, List.flatMap_append, List.flatMap_singleton, List.append_assoc]
      rfl

/-- **What a run that succeeds asks for**, of any file system: the directory and the file of each
unit, in order. -/
theorem requestsOf_of_ok {σ : Type} [FileSystem (StateM σ)] {options : Options} {g : Graph}
    {out : String} {state : σ} (hok : (runInto options g out state).1.1 = .ok ()) :
    requestsOf options g out state = (plannedUnits options g).flatMap (storeRequests out) := by
  have hrecorded : (runInto options g out (⟨[], state⟩ : Recording σ)).1.1 = .ok () := by
    rw [(runInto_recording options g out state []).1, hok]
  exact (of_runInto_ok (fun unit _ => keptByStored_requests out unit) rfl hrecorded).2

/-! ## Commands on a disk -/

theorem run_bind_state {σ α β : Type} (effect : StateM σ α) (next : α → StateM σ β) (state : σ) :
    (effect >>= next).run state = (next (effect.run state).1).run (effect.run state).2 := rfl

namespace Disk

/-- An effect that only looks at the disk. -/
def LeavesAlone {α : Type} (effect : StateM Disk α) : Prop :=
  ∀ disk, (effect.run disk).2 = disk

theorem LeavesAlone.pure {α : Type} (a : α) : LeavesAlone (Pure.pure a) := fun _ => rfl

/-- What only looks at the disk may be followed by what only looks. -/
theorem LeavesAlone.bind {α β : Type} {effect : StateM Disk α} {next : α → StateM Disk β}
    (heffect : LeavesAlone effect) (hnext : ∀ a, LeavesAlone (next a)) :
    LeavesAlone (effect >>= next) := by
  intro disk
  rw [run_bind_state, heffect disk]
  exact hnext _ disk

/-- The documents of a directory are listed without a change to it. -/
theorem leavesAlone_sourceFiles (path : String) : LeavesAlone (sourceFiles path) := by
  refine .bind (fun _ => rfl) fun isDirectory => ?_
  split
  · refine .bind (fun _ => rfl) fun names => ?_
    split
    · exact .pure _
    · split <;> exact .pure _
  · exact .pure _

/-- Nor is a file changed when it is read. -/
theorem leavesAlone_namespacesOfFile (path : String) : LeavesAlone (namespacesOfFile path) := by
  refine .bind (fun _ => rfl) fun text => ?_
  split <;> exact .pure _

/-- Nor are files that are read one after the other. -/
theorem leavesAlone_namespacesOfFiles (paths : List String) :
    LeavesAlone (namespacesOfFiles paths) := by
  induction paths with
  | nil => exact .pure _
  | cons path rest ih =>
      refine .bind (leavesAlone_namespacesOfFile path) fun namespaces => ?_
      split
      · exact .pure _
      · refine .bind ih fun others => ?_
        split <;> exact .pure _

/-- Loading a model only looks at the disk. -/
theorem leavesAlone_loadPath (path : String) : LeavesAlone (loadPath path) := by
  refine .bind (leavesAlone_sourceFiles path) fun files => ?_
  split
  · exact .pure _
  · refine .bind (leavesAlone_namespacesOfFiles _) fun namespaces => ?_
    split <;> exact .pure _

/-- Nor is anything changed to see whether a directory holds the model. -/
theorem leavesAlone_holdsModel (model directory : String) :
    LeavesAlone (holdsModel model directory) := by
  refine .bind (fun _ => rfl) fun place => ?_
  split
  · exact .pure _
  · refine .bind (fun _ => rfl) fun place => ?_
    split <;> exact .pure _

end Disk

/-! ## Printing and writing a model -/

section

variable {σ : Type} [FileSystem (StateM σ)]

/-- A model that can be loaded and generated is printed unit by unit. -/
theorem run_emitUnits {model : String} {g : Graph} {sink : MemorySink} {state state' : σ}
    (hload : (loadPath model : StateM σ _).run state = (.ok g, state'))
    (hrun : runFrom .default g [] = (.ok (), sink)) :
    (emitUnits model : StateM σ _).run state
      = (.ok (String.join (sink.units.map printedUnit)), state') := by
  have hmemory : (generate Options.default g : StateM MemorySink _).run .empty
      = (.ok (), sink) := hrun
  rw [emitUnits, run_bind_state, hload]
  dsimp only
  rw [hmemory]
  rfl

/-- A graph is generated into a directory behind the clearing, if there is one. -/
theorem generateGraph_eq (g : Graph) (out : String) (clean : Bool) :
    (generateGraph g out clean : StateM σ _)
      = (if clean then FileSink.clear out else pure (.ok ())) >>= fun cleared =>
          match cleared with
          | .error fault => pure (.error (.notCleared out fault))
          | .ok _ =>
              (generate Options.default g : StateT FileSink (StateM σ) _).run
                (.fresh out) >>= fun ending =>
                match ending with
                | (.ok _, _) => pure (.ok ())
                | (.error e, _) => pure (.error (.generation e)) := by
  unfold generateGraph
  cases clean <;> rfl

/-- If generating a graph goes well, so does the run into the directory, on what clearing has
left. -/
theorem exists_of_run_generateGraph {g : Graph} {out : String} {clean : Bool} {state state' : σ}
    (h : (generateGraph g out clean : StateM σ _).run state = (.ok (), state')) :
    ∃ cleared, (runInto .default g out cleared).1.1 = .ok ()
      ∧ (runInto .default g out cleared).2 = state' := by
  rw [generateGraph_eq, run_bind_state] at h
  generalize StateT.run (m := Id) (if clean then FileSink.clear out else pure (.ok ())) state
    = cleared at h
  obtain ⟨answer, cleared⟩ := cleared
  refine ⟨cleared, ?_⟩
  cases answer with
  | error fault => cases (Prod.mk.inj h).1
  | ok _ =>
      dsimp only at h
      rw [run_bind_state] at h
      have hrun : runInto .default g out cleared
          = ((generate Options.default g : StateT FileSink (StateM σ) _).run (.fresh out)).run
            cleared := rfl
      rw [← hrun] at h
      generalize runInto .default g out cleared = ran at h ⊢
      obtain ⟨⟨answer, sink⟩, ending⟩ := ran
      cases answer with
      | error e => cases (Prod.mk.inj h).1
      | ok _ => exact ⟨rfl, (Prod.mk.inj h).2⟩

end

/-- A model is generated into a directory as it is loaded: the graph that is loaded is the one
that is printed. -/
theorem Disk.exists_of_run_generateDirectory {model out : String} {clean : Bool} {disk disk' : Disk}
    (h : (generateDirectory model out clean : StateM Disk _).run disk = (.ok (), disk')) :
    ∃ g cleared, (loadPath model : StateM Disk _).run disk = (.ok g, disk)
      ∧ (runInto .default g out cleared).1.1 = .ok ()
      ∧ (runInto .default g out cleared).2 = disk' := by
  have hload := leavesAlone_loadPath model disk
  -- what comes after loading: a graph is generated, and a failure is passed on
  have hgenerated : ∀ next : Except LoadError Graph → StateM Disk (Except CommandError Unit),
      (∀ e, next (.error e) = pure (.error (.load e))) →
      (∀ g, next (.ok g) = generateGraph g out clean) →
      (loadPath model >>= next).run disk = (.ok (), disk') →
      ∃ g, ((loadPath model : StateM Disk _).run disk).1 = .ok g
        ∧ (generateGraph g out clean : StateM Disk _).run disk = (.ok (), disk') := by
    intro next herror hok hnext
    rw [run_bind_state, hload] at hnext
    cases hgraph : ((loadPath model : StateM Disk _).run disk).1 with
    | error e =>
        rw [hgraph, herror] at hnext
        cases (Prod.mk.inj hnext).1
    | ok g =>
        rw [hgraph, hok] at hnext
        exact ⟨g, rfl, hnext⟩
  -- whether or not it is asked where the model is, the disk is the same
  have hgraph : ∃ g, ((loadPath model : StateM Disk _).run disk).1 = .ok g
      ∧ (generateGraph g out clean : StateM Disk _).run disk = (.ok (), disk') := by
    unfold generateDirectory at h
    cases clean with
    | false =>
        rw [if_neg Bool.false_ne_true, pure_bind] at h
        dsimp only at h
        rw [if_neg Bool.false_ne_true] at h
        exact hgenerated _ (fun _ => rfl) (fun _ => rfl) h
    | true =>
        have hasked : (holdsModel model out : StateM Disk _).run disk
            = (((holdsModel model out : StateM Disk _).run disk).1, disk) :=
          Prod.ext rfl (leavesAlone_holdsModel model out disk)
        rw [if_pos rfl, run_bind_state, hasked] at h
        dsimp only at h
        split at h
        · cases (Prod.mk.inj h).1
        · exact hgenerated _ (fun _ => rfl) (fun _ => rfl) h
  obtain ⟨g, hloaded, hrun⟩ := hgraph
  obtain ⟨cleared, hrun⟩ := exists_of_run_generateGraph hrun
  exact ⟨g, cleared, Prod.ext hloaded hload, hrun⟩

/-! ## What the two sinks have in common -/

/-- A sink on a directory does what a sink in memory does, when it is told the same. -/
structure FollowsMemory (out : String) (actions : List SinkAction) : Prop where
  /-- As long as all files can be written, the answers are the same, call by call, and so is the
  open unit with its lines. -/
  answers : ∀ (σ : Type) [FileSystem (StateM σ)] (state : σ), NothingLost out actions state →
    ∀ taken, taken <+: actions → (fileRun out taken state).1.1 = (memoryRun taken).1
      ∧ (fileRun out taken state).1.2.buffer = (memoryRun taken).2.buffer
  /-- The files that count as written are those of the sealed units. -/
  written : ∀ (σ : Type) [FileSystem (StateM σ)] (state : σ), NothingLost out actions state →
    (fileRun out actions state).1.2.written
      = (memoryRun actions).2.units.map fun unit => Path.join out unit.name
  /-- On a disk, each of them holds the last unit of its name. -/
  files : (∀ name ∈ openedNames actions, Path.PlainName name) → ∀ disk : Disk,
    NothingLost out actions disk →
    ∀ name unit, lastNamed? (memoryRun actions).2.units name = some unit →
      (fileRun out actions disk).2.readText (Path.join out name) = .ok unit.text
  /-- What has not been sealed leaves no file: everywhere else there is a file exactly if there
  was one, with the same contents. -/
  others : (∀ name ∈ openedNames actions, Path.PlainName name) → ∀ disk : Disk,
    NothingLost out actions disk → ∀ location, (∀ unit ∈ (memoryRun actions).2.units, ∀ target,
        (fileRun out actions disk).2.place out = .ok target → location ≠ target ++ [unit.name]) →
      ∀ contents, Disk.entry? (fileRun out actions disk).2 location = some (.file contents)
        ↔ disk.entry? location = some (.file contents)
  /-- A unit whose file can be written counts as written. -/
  stored :
    ∀ (σ : Type) [FileSystem (StateM σ)] (state : σ) (current : OpenUnit) (written : List String),
    ¬ FileSink.CannotWrite out state current.sealed →
      ∃ state', FileSink.run ⟨out, ⟨some current⟩, written⟩ state (Sink.perform .closeUnit)
        = ((.ok (), ⟨out, .empty, written ++ [Path.join out current.name]⟩), state')
  /-- A unit whose file cannot be written is reported under its name and lost. -/
  lost : ∀ (σ : Type) [FileSystem (StateM σ)] (state : σ) (current : OpenUnit)
    (written : List String),
    FileSink.CannotWrite out state current.sealed →
      ∃ state', FileSink.run ⟨out, ⟨some current⟩, written⟩ state (Sink.perform .closeUnit)
        = ((.error (.io current.name), ⟨out, .empty, written⟩), state')

/-- What is printed of a model is what is written into a directory. -/
structure PrintsWhatIsWritten (out : String) : Prop where
  /-- What any file system is asked to write are the texts that are printed. -/
  requests :
    ∀ (σ : Type) [FileSystem (StateM σ)] (model : String) (g : Graph) (state state' cleared : σ),
    (loadPath model : StateM σ _).run state = (.ok g, state') →
      (runInto .default g out cleared).1.1 = .ok () →
      ∃ units : List SourceUnit, (emitUnits model : StateM σ _).run state
          = (.ok (String.join (units.map printedUnit)), state')
        ∧ requestsOf .default g out cleared = units.flatMap (storeRequests out)
  /-- On a disk, the files hold them. -/
  files : ∀ (model : String) (clean : Bool) (disk disk' : Disk),
    (generateDirectory model out clean : StateM Disk _).run disk = (.ok (), disk') →
      ∃ units : List SourceUnit, (emitUnits model : StateM Disk _).run disk
          = (.ok (String.join (units.map printedUnit)), disk)
        ∧ ((∀ unit ∈ units, Path.PlainName unit.name) →
          ∀ unit ∈ units, disk'.readText (Path.join out unit.name) = .ok unit.text)

/-- **A sink on a directory follows one in memory**, whatever is asked of the two. -/
theorem followsMemory (out : String) (actions : List SinkAction) : FollowsMemory out actions where
  answers σ _ state hlost taken htaken := by
    rw [fst_fileRun (hlost.of_prefix htaken)]
    exact ⟨rfl, rfl⟩
  written σ _ state hlost := by
    rw [fst_fileRun hlost]
    rfl
  files hplain disk hlost name unit hlast := (holds_fileRun hplain hlost).readText hlast
  others hplain disk hlost location hother := (holds_fileRun hplain hlost).unchanged hother
  stored σ _ state current written hcan := by
    obtain ⟨state', hstored⟩ := FileSink.exists_store_of_not_cannotWrite out state hcan
    refine ⟨state', ?_⟩
    have hclose := FileSink.run_act_closeUnit out state current written
    rw [hstored] at hclose
    exact hclose
  lost σ _ state current written hcannot := by
    obtain ⟨state', hlost⟩ := FileSink.exists_store_of_cannotWrite out state hcannot
    refine ⟨state', ?_⟩
    have hclose := FileSink.run_act_closeUnit out state current written
    rw [hlost] at hclose
    exact hclose

/-- **What is printed is what is written**, unit by unit. -/
theorem printsWhatIsWritten (out : String) : PrintsWhatIsWritten out where
  requests σ _ model g state state' cleared hload hok := by
    exact ⟨_, run_emitUnits hload (runFrom_of_runInto_ok hok), requestsOf_of_ok hok⟩
  files model clean disk disk' h := by
    obtain ⟨g, cleared, hload, hok, rfl⟩ := Disk.exists_of_run_generateDirectory h
    have hrun := runFrom_of_runInto_ok hok
    refine ⟨_, run_emitUnits hload hrun, fun hplain unit hunit => ?_⟩
    have hkept : ∀ unit ∈ plannedUnits .default g,
        KeptByStored out (fun units disk => Disk.Holds out units cleared disk) unit := by
      intro unit hunit units state path state' hholds hstored
      rcases Disk.of_run_store hstored with ⟨path, -, hwrite⟩ | ⟨⟨e, hanswer⟩, -⟩
      · exact hholds.created.stored (hplain unit hunit) hwrite
      · cases hanswer
    have hholds := (of_runInto_ok hkept (.refl out cleared) hok).2
    have hmodules := (of_runFrom_eq_ok .default g [] hrun).1
    exact hholds.readText (lastNamed?_of_mem (nodup_names_plansUpTo hmodules) hunit)

def outOfTurn : List SinkAction :=
  [.call (.openUnit "a.rs"), .call (.openUnit "b.rs"),
    .call (.writeLine ⟨1, "first"⟩), .call .closeUnit, .call .closeUnit, .call (.openUnit "a.rs"),
    .call (.writeLine ⟨0, "second"⟩), .call .closeUnit,
    .call (.openUnit "c.rs"), .abandon, .call (.openUnit "d.rs")]

end ModelForge
