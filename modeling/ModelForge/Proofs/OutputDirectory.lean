/-
`OutputDirectory.lean` -- where a run writes.

A run into a directory asks a file system for two things only: that the directory be created, and
that a file be written at the path of a unit in it (`AsksFor`). To say so of every file system,
the requests are recorded in front of it, which changes nothing about the run
(`runInto_recording`). The path of a unit is the directory with a plain file name as long as no
namespace has a separator in its name; and as long as none begins with one, nothing outside of the
directory changes on a disk (`StaysIn`). A namespace that begins with a separator is a path of its
own (`namespace_leaves_directory`).
-/
import ModelForge.Proofs.DirectoryWrites
import ModelForge.Proofs.FileRuns
import ModelForge.Proofs.Loading
import ModelForge.Proofs.WireShape

set_option autoImplicit false

namespace ModelForge

/-! ## Requests -/

/-- What a file system can be asked. -/
inductive FileRequest where
  | isDirectory (path : String)
  | isPresent (path : String)
  | canonical (path : String)
  | entryNames (path : String)
  | readText (path : String)
  | createDirectories (path : String)
  | writeText (path text : String)
  | removeTree (path : String)
  | removeFile (path : String)

/-- A file system with the requests that were made of it. -/
structure Recording (σ : Type) where
  requests : List FileRequest
  state : σ

namespace Recording

variable {σ : Type}

/-- Notes a request, and leaves it to the file system. -/
def noting {α : Type} (request : FileRequest) (effect : StateM σ α) : StateM (Recording σ) α :=
  fun recording =>
    let answer := effect.run recording.state
    (answer.1, ⟨recording.requests ++ [request], answer.2⟩)

instance [FileSystem (StateM σ)] : FileSystem (StateM (Recording σ)) where
  isDirectory path := noting (.isDirectory path) (FileSystem.isDirectory path)
  isPresent path := noting (.isPresent path) (FileSystem.isPresent path)
  canonical path := noting (.canonical path) (FileSystem.canonical path)
  entryNames path := noting (.entryNames path) (FileSystem.entryNames path)
  readText path := noting (.readText path) (FileSystem.readText path)
  createDirectories path := noting (.createDirectories path) (FileSystem.createDirectories path)
  writeText path text := noting (.writeText path text) (FileSystem.writeText path text)
  removeTree path := noting (.removeTree path) (FileSystem.removeTree path)
  removeFile path := noting (.removeFile path) (FileSystem.removeFile path)

variable [FileSystem (StateM σ)]

theorem run_createDirectories (path : String) (recording : Recording σ) :
    (FileSystem.createDirectories path : StateM (Recording σ) _).run recording
      = (((FileSystem.createDirectories path : StateM σ _).run recording.state).1,
          ⟨recording.requests ++ [.createDirectories path],
            ((FileSystem.createDirectories path : StateM σ _).run recording.state).2⟩) := rfl

theorem run_writeText (path text : String) (recording : Recording σ) :
    (FileSystem.writeText path text : StateM (Recording σ) _).run recording
      = (((FileSystem.writeText path text : StateM σ _).run recording.state).1,
          ⟨recording.requests ++ [.writeText path text],
            ((FileSystem.writeText path text : StateM σ _).run recording.state).2⟩) := rfl

/-- Storing a unit is answered as it would be without the recording. -/
theorem exists_requests_of_store (directory : String) (unit : SourceUnit)
    (recording : Recording σ) :
    ∃ requests, (FileSink.store directory unit : StateM (Recording σ) _).run recording
      = (((FileSink.store directory unit : StateM σ _).run recording.state).1,
          ⟨requests, ((FileSink.store directory unit : StateM σ _).run recording.state).2⟩) := by
  rw [FileSink.run_store, FileSink.run_store, run_createDirectories]
  dsimp only
  cases ((FileSystem.createDirectories directory : StateM σ _).run recording.state).1 with
  | error fault => exact ⟨_, rfl⟩
  | ok _ =>
      dsimp only
      rw [run_writeText]
      dsimp only
      cases ((FileSystem.writeText (Path.join directory unit.name) unit.text : StateM σ _).run
          ((FileSystem.createDirectories directory : StateM σ _).run recording.state).2).1 <;>
        exact ⟨_, rfl⟩

/-- A recording is no part of what it records: the units are written as they are without one. -/
theorem exists_requests_of_writeUnits (directory : String) (written : List String)
    (plans : List UnitPlan) (recording : Recording σ) :
    ∃ requests, FileSink.run ⟨directory, .empty, written⟩ recording (writeUnits plans)
      = ((FileSink.run ⟨directory, .empty, written⟩ recording.state (writeUnits plans)).1,
          ⟨requests,
            (FileSink.run ⟨directory, .empty, written⟩ recording.state (writeUnits plans)).2⟩) := by
  induction plans generalizing written recording with
  | nil => exact ⟨_, rfl⟩
  | cons unit rest ih =>
      cases hfault : unit.content.fault? with
      | some e =>
          rw [FileSink.run_writeUnits_cons_of_fault _ _ _ hfault,
            FileSink.run_writeUnits_cons_of_fault _ _ _ hfault]
          exact ⟨_, rfl⟩
      | none =>
          rw [FileSink.run_writeUnits_cons_of_clean _ _ _ hfault,
            FileSink.run_writeUnits_cons_of_clean _ _ _ hfault]
          -- both runs get the same answer and go on in the same way
          obtain ⟨requests, hstore⟩ := exists_requests_of_store directory unit.sealed recording
          rw [hstore]
          dsimp only
          cases ((FileSink.store directory unit.sealed : StateM σ _).run recording.state).1 with
          | ok path => exact ih _ _
          | error e => exact ⟨_, rfl⟩

end Recording

/-! ## Runs into a directory -/

section

variable {σ : Type} [FileSystem (StateM σ)]

/-- A run into a directory: what it answers, the sink, and the file system that it leaves. -/
def runInto (options : Options) (g : Graph) (out : String) (state : σ) :
    (Except GenerationError Unit × FileSink) × σ :=
  FileSink.run (.fresh out) state (generate options g)

/-- The requests that a run makes, in order. -/
def requestsOf (options : Options) (g : Graph) (out : String) (state : σ) : List FileRequest :=
  (runInto options g out (⟨[], state⟩ : Recording σ)).2.requests

/-- The units that a run can write. -/
def plannedUnits (options : Options) (g : Graph) : List SourceUnit :=
  (plansUpTo options g g.namespaces).map UnitPlan.sealed

/-- A request for the directory itself, or for the file of a unit in it. -/
def AsksFor (out : String) (units : List SourceUnit) (request : FileRequest) : Prop :=
  request = .createDirectories out
    ∨ ∃ unit ∈ units, request = .writeText (Path.join out unit.name) unit.text

variable (options : Options) (g : Graph) (out : String) (state : σ)

/-- **The recording does not show.** -/
theorem runInto_recording (requests : List FileRequest) :
    (runInto options g out (⟨requests, state⟩ : Recording σ)).1 = (runInto options g out state).1
      ∧ (runInto options g out (⟨requests, state⟩ : Recording σ)).2.state
        = (runInto options g out state).2 := by
  unfold runInto generate plan
  cases moduleFault? options [] g.namespaces with
  | some e => exact ⟨rfl, rfl⟩
  | none =>
      obtain ⟨noted, hrun⟩ := Recording.exists_requests_of_writeUnits out []
        (plansUpTo options g g.namespaces) ⟨requests, state⟩
      exact ⟨congrArg Prod.fst hrun, congrArg (fun ending => ending.2.state) hrun⟩

/-- What a run keeps true as long as storing a planned unit does. -/
theorem of_runInto {P : List String → σ → Prop}
    (hkept : ∀ unit ∈ plannedUnits options g, FileSink.KeptByStoring out P unit) (h : P [] state) :
    P (runInto options g out state).1.2.written (runInto options g out state).2 := by
  obtain ⟨outcome, written, state', hrun, hends⟩ :=
    FileSink.exists_of_run_generate options g (List.forall_mem_map.1 hkept) h
  rw [runInto, FileSink.fresh, hrun]
  exact hends

/-- What is known of the requests made, and of the files written, at any time of a run. -/
def RequestsKnown (out : String) (units : List SourceUnit) (written : List String)
    (recording : Recording σ) : Prop :=
  (∀ request ∈ recording.requests, AsksFor out units request)
    ∧ ∀ path ∈ written, ∃ unit ∈ units, path = Path.join out unit.name
      ∧ .writeText path unit.text ∈ recording.requests

omit [FileSystem (StateM σ)] in
/-- One more request is known if it asks for one of the units. -/
theorem RequestsKnown.noting {units : List SourceUnit} {written : List String}
    {recording : Recording σ} {request : FileRequest} {state' : σ}
    (h : RequestsKnown out units written recording) (hrequest : AsksFor out units request) :
    RequestsKnown out units written ⟨recording.requests ++ [request], state'⟩ := by
  refine ⟨List.forall_mem_append.2 ⟨h.1, List.forall_mem_singleton.2 hrequest⟩,
    fun path hpath => ?_⟩
  obtain ⟨unit, hunit, hjoin, hnoted⟩ := h.2 path hpath
  exact ⟨unit, hunit, hjoin, List.mem_append_left _ hnoted⟩

/-- **Whatever a run asks for is known**, and so are the files that it has written. -/
theorem requestsKnown_runInto :
    RequestsKnown out (plannedUnits options g) (runInto options g out state).1.2.written
      (runInto options g out (⟨[], state⟩ : Recording σ)).2 := by
  have hrun := of_runInto options g out (⟨[], state⟩ : Recording σ)
    (P := RequestsKnown out (plannedUnits options g)) (fun unit hunit => ?_)
    ⟨List.forall_mem_nil _, List.forall_mem_nil _⟩
  · rwa [(runInto_recording options g out state []).1] at hrun
  · refine .of_requests (fun written recording h => ?_) fun written recording h => ?_
    · rw [Recording.run_createDirectories]
      exact h.noting _ (.inl rfl)
    · have hnoted (state' : σ) : RequestsKnown out (plannedUnits options g) written
          ⟨recording.requests ++ [.writeText (Path.join out unit.name) unit.text], state'⟩ :=
        h.noting _ (.inr ⟨unit, hunit, rfl⟩)
      rw [Recording.run_writeText]
      dsimp only
      split
      · -- the path counts as written, and the request for it is the last one
        refine ⟨(hnoted _).1,
          List.forall_mem_append.2 ⟨(hnoted _).2, List.forall_mem_singleton.2 ?_⟩⟩
        exact ⟨unit, hunit, rfl, List.mem_append_right _ List.mem_cons_self⟩
      · exact hnoted _

end

/-! ## Disks -/

namespace Disk

/-- Directories are created one in the other, and what is there already is no fault. -/
theorem run_createDirectories (path : String) (disk : Disk) :
    (FileSystem.createDirectories path : StateM Disk _).run disk
      = match disk.createAll path with
        | (.ok _, disk') => (.ok (), disk')
        | (.error fault, disk') => (.error fault.toFileFault, disk') := rfl

theorem snd_run_createDirectories (path : String) (disk : Disk) :
    ((FileSystem.createDirectories path : StateM Disk _).run disk).2 = (disk.createAll path).2 := by
  rw [run_createDirectories]
  rcases disk.createAll path with ⟨answer, disk'⟩
  cases answer <;> rfl

/-- A text that cannot be written changes nothing. -/
theorem run_writeText (path text : String) (disk : Disk) :
    (FileSystem.writeText path text : StateM Disk _).run disk
      = match disk.writeText path text with
        | .ok disk' => (.ok (), disk')
        | .error fault => (.error fault, disk) := rfl

/-- A unit is stored where its path leads, if the directory is there and the location is none. -/
theorem run_store_of_located {out path : String} {unit : SourceUnit} {disk : Disk}
    {location : Location} (hcreate : disk.createAll out = (.ok (), disk))
    (hpath : Path.join out unit.name = path) (hlocate : disk.locate path = .ok location)
    (hnot : disk.isDirectoryAt location = false) :
    (FileSink.store out unit : StateM Disk _).run disk
      = (.ok path, disk.put location (.file unit.text.toUTF8) (plain_of_locate hlocate)) := by
  have hcreated : (FileSystem.createDirectories out : StateM Disk _).run disk = (.ok (), disk) := by
    rw [run_createDirectories, hcreate]
  have hwrite : disk.writeText path unit.text
      = .ok (disk.put location (.file unit.text.toUTF8) (plain_of_locate hlocate)) := by
    unfold writeText writeBytes
    split
    · rename_i hfault
      exact absurd (hfault.symm.trans hlocate) (by simp)
    · rename_i found hfound
      obtain rfl := Except.ok.inj (hfound.symm.trans hlocate)
      exact if_neg (by rw [hnot]; exact Bool.false_ne_true)
  rw [FileSink.run_store, hcreated]
  dsimp only
  rw [hpath, run_writeText, hwrite]

end Disk

/-- On a disk, what a run changes is below its directory. -/
theorem writtenBelow_runInto (options : Options) (g : Graph) (out : String)
    (hdescends : ∀ unit ∈ plannedUnits options g, Path.Descends unit.name) (disk : Disk) :
    Disk.WrittenBelow out (plannedUnits options g) disk (runInto options g out disk).2 := by
  refine of_runInto options g out disk
    (P := fun _ => Disk.WrittenBelow out (plannedUnits options g) disk) (fun unit hunit => ?_)
    (Disk.WrittenBelow.refl disk)
  refine .of_requests (fun written state h => ?_) fun written state h => ?_
  · rw [Disk.snd_run_createDirectories]
    exact h.trans (Disk.writtenBelow_createAll out _ state)
  · rw [Disk.run_writeText]
    cases hwrite : state.writeText (Path.join out unit.name) unit.text with
    | ok state' => exact h.trans (Disk.writtenBelow_writeText hunit (hdescends unit hunit) hwrite)
    | error fault => exact h

/-! ## Names of planned units -/

/-- What holds of the two units of every run and of the units of the namespaces holds of all. -/
theorem forall_mem_plannedUnits {options : Options} {g : Graph} {P : String → Prop}
    (hmanifest : P manifestUnit) (hhooks : P (unitName utilityModule))
    (hnamespaces : ∀ ns ∈ g.namespaces, P (unitName (moduleName ns.name))) :
    ∀ unit ∈ plannedUnits options g, P unit.name := by
  rw [plannedUnits, plansUpTo, List.forall_mem_map, List.forall_mem_cons, List.forall_mem_cons,
    List.forall_mem_map]
  exact ⟨hmanifest, hhooks, hnamespaces⟩

/-- Without a separator in any namespace, the units have plain names. -/
theorem plainName_of_mem_plannedUnits {options : Options} {g : Graph}
    (h : ∀ ns ∈ g.namespaces, Path.separator ∉ ns.name.toList) :
    ∀ unit ∈ plannedUnits options g, Path.PlainName unit.name :=
  forall_mem_plannedUnits (by decide) (by decide) fun ns hns =>
    plainName_unitName_iff.2 (mt separator_mem_moduleName.1 (h ns hns))

/-- Without an absolute namespace, each unit leads down from the directory. -/
theorem descends_of_mem_plannedUnits {options : Options} {g : Graph}
    (h : ∀ ns ∈ g.namespaces, Path.isAbsolute ns.name = false) :
    ∀ unit ∈ plannedUnits options g, Path.Descends unit.name :=
  forall_mem_plannedUnits (Path.PlainName.descends (by decide))
    (Path.PlainName.descends (by decide))
    fun ns hns => descends_unitName_moduleName (h ns hns)

/-! ## Where a run writes -/

/-- What is known of the places where a run writes. -/
structure StaysIn (options : Options) (g : Graph) (out : String) : Prop where
  /-- No file system is asked for anything but the directory and the files of units in it. -/
  requests : ∀ (σ : Type) [FileSystem (StateM σ)] (state : σ),
    ∀ request ∈ requestsOf options g out state, AsksFor out (plannedUnits options g) request
  /-- What counts as written is the path of a unit, and it was asked for. -/
  written : ∀ (σ : Type) [FileSystem (StateM σ)] (state : σ),
    ∀ path ∈ (runInto options g out state).1.2.written, ∃ unit ∈ plannedUnits options g,
      path = Path.join out unit.name ∧ .writeText path unit.text ∈ requestsOf options g out state
  /-- The file of a namespace has a plain name exactly if there is no separator in it. -/
  plain : ∀ ns ∈ g.namespaces,
    Path.PlainName (unitName (moduleName ns.name)) ↔ Path.separator ∉ ns.name.toList
  /-- Without such namespaces, every file is directly in the directory. -/
  direct : (∀ ns ∈ g.namespaces, Path.separator ∉ ns.name.toList) →
    ∀ unit ∈ plannedUnits options g, Path.PlainName unit.name ∧ Path.names unit.name = [unit.name]
      ∧ Path.join out unit.name = (if out = "" then "" else Path.asDirectory out) ++ unit.name
  /-- As long as no namespace begins with a separator, nothing outside of the directory changes on
  a disk, except that directories are created on the way to it. -/
  below : (∀ ns ∈ g.namespaces, Path.isAbsolute ns.name = false) → ∀ disk : Disk,
    Disk.WrittenBelow out (plannedUnits options g) disk (runInto options g out disk).2

/-- **A run writes in its directory**, as long as the namespaces let it. -/
theorem run_stays_in_directory (options : Options) (g : Graph) (out : String) :
    StaysIn options g out where
  requests σ _ state := (requestsKnown_runInto options g out state).1
  written σ _ state := (requestsKnown_runInto options g out state).2
  plain ns _ := by rw [plainName_unitName_iff, separator_mem_moduleName]
  direct h unit hunit := by
    have hplain := plainName_of_mem_plannedUnits h unit hunit
    refine ⟨hplain, hplain.names, ?_⟩
    rw [Path.join_of_relative hplain.isAbsolute]
    split
    · exact String.empty_append.symm
    · rfl
  below h disk := writtenBelow_runInto options g out (descends_of_mem_plannedUnits h) disk

/-- The units of the shop have plain names, and a run leaves a disk alone everywhere but below its
directory. -/
theorem run_stays_in_directory_shop :
    (∀ unit ∈ plannedUnits .default shop, Path.PlainName unit.name
        ∧ Path.join "out" unit.name = "out/" ++ unit.name)
      ∧ ∀ disk, Disk.WrittenBelow "out" (plannedUnits .default shop) disk
        (runInto .default shop "out" disk).2 := by
  have hstays := run_stays_in_directory .default shop "out"
  refine ⟨fun unit hunit => ?_, hstays.below (by decide)⟩
  obtain ⟨hplain, -, hjoin⟩ := hstays.direct (by decide) unit hunit
  exact ⟨hplain, hjoin⟩

/-! Namespaces with separators in their names, one of them at its beginning. -/

def slashed : Graph := .ofNamespaces [⟨"/x", [], []⟩, ⟨"sub/x", [], []⟩]

/-- The graph as a document. -/
def slashedDocument : Json := Metamodel.writeDocument slashed.namespaces

/-- A disk with nothing but a directory to work in. -/
def workHome : Disk := .atHome ["work"]

/-- A disk with a directory to write in. -/
def workDisk : Disk :=
  (workHome.put ["work", "out"] .directory).put ["work", "out", "sub"] .directory

/-- The disk with the file of a unit at a location. -/
def Disk.withFile (disk : Disk) (location : Location) (unit : UnitPlan)
    (h : Path.PlainNames location := by decide) : Disk :=
  disk.put location (.file unit.sealed.text.toUTF8) h

/-- Whatever is in them, units of these names are written to these places. -/
theorem run_writeUnits_slashed {manifest hooks rooted below : UnitPlan}
    (hclean : ∀ unit ∈ [manifest, hooks, rooted, below], unit.content.fault? = none)
    (hnames : [manifest, hooks, rooted, below].map UnitPlan.name
      = ["mod.rs", "utils.rs", "/x.rs", "sub/x.rs"]) :
    ∃ disk, FileSink.run ⟨"out", .empty, []⟩ workDisk (writeUnits [manifest, hooks, rooted, below])
        = ((.ok (), ⟨"out", .empty, ["out/mod.rs", "out/utils.rs", "/x.rs", "out/sub/x.rs"]⟩), disk)
      ∧ disk.place "out" = .ok ["work", "out"] ∧ (disk.entry? ["x.rs"]).isSome = true := by
  simp only [List.map_cons, List.map_nil, List.cons.injEq, and_true] at hnames
  simp only [List.mem_cons, List.not_mem_nil, or_false, forall_eq_or_imp, forall_eq] at hclean
  obtain ⟨hmanifest, hhooks, hrooted, hbelow⟩ := hclean
  obtain ⟨hmanifestName, hhooksName, hrootedName, hbelowName⟩ := hnames
  have hpath {unit : UnitPlan} {name path : String} (hname : unit.name = name)
      (h : Path.join "out" name = path) : Path.join "out" unit.sealed.name = path := by
    rw [UnitPlan.sealed, hname, h]
  -- the disks one after the other; what is in the files plays no part
  obtain ⟨first, hfirst⟩ : ∃ disk, disk = workDisk.withFile ["work", "out", "mod.rs"] manifest :=
    ⟨_, rfl⟩
  obtain ⟨second, hsecond⟩ : ∃ disk, disk = first.withFile ["work", "out", "utils.rs"] hooks :=
    ⟨_, rfl⟩
  obtain ⟨third, hthird⟩ : ∃ disk, disk = second.withFile ["x.rs"] rooted := ⟨_, rfl⟩
  obtain ⟨fourth, hfourth⟩ : ∃ disk, disk = third.withFile ["work", "out", "sub", "x.rs"] below :=
    ⟨_, rfl⟩
  have hstored : (FileSink.store "out" manifest.sealed : StateM Disk _).run workDisk
        = (.ok "out/mod.rs", first)
      ∧ (FileSink.store "out" hooks.sealed : StateM Disk _).run first = (.ok "out/utils.rs", second)
      ∧ (FileSink.store "out" rooted.sealed : StateM Disk _).run second = (.ok "/x.rs", third)
      ∧ (FileSink.store "out" below.sealed : StateM Disk _).run third
        = (.ok "out/sub/x.rs", fourth) := by
    subst hfirst hsecond hthird hfourth
    refine ⟨Disk.run_store_of_located (by rfl) (hpath hmanifestName ?_) (by rfl) (by rfl),
      Disk.run_store_of_located (by rfl) (hpath hhooksName ?_) (by rfl) (by rfl),
      Disk.run_store_of_located (by rfl) (hpath hrootedName ?_) (by rfl) (by rfl),
      Disk.run_store_of_located (by rfl) (hpath hbelowName ?_) (by rfl) (by rfl)⟩ <;> decide +kernel
  obtain ⟨hstored₁, hstored₂, hstored₃, hstored₄⟩ := hstored
  rw [FileSink.run_writeUnits_cons_of_stored _ _ _ hmanifest hstored₁,
    FileSink.run_writeUnits_cons_of_stored _ _ _ hhooks hstored₂,
    FileSink.run_writeUnits_cons_of_stored _ _ _ hrooted hstored₃,
    FileSink.run_writeUnits_cons_of_stored _ _ _ hbelow hstored₄, writeUnits, FileSink.run_pure]
  subst hfirst hsecond hthird hfourth
  exact ⟨_, rfl, by rfl, by rfl⟩

/-- Where a path leads elsewhere, it is no plain name in the directory. -/
theorem not_join_plainName {path : String} (h : ¬ "out/".toList.isPrefixOf path.toList
    ∨ Path.separator ∈ path.toList.drop 4) :
    ¬ ∃ name, Path.PlainName name ∧ path = Path.join "out" name := by
  rintro ⟨name, hplain, rfl⟩
  have hjoin : (Path.join "out" name).toList = "out/".toList ++ name.toList := by
    rw [Path.join_of_relative hplain.isAbsolute, if_neg (by decide), String.toList_append]
    rfl
  rw [hjoin] at h
  rcases h with hprefix | hseparator
  · exact hprefix (by simp)
  · exact hplain.2.2.2 hseparator

/-- What is written to `out` is not always directly in `out`, nor below it. -/
theorem namespace_leaves_directory :
    loadText slashedDocument.render = .ok slashed
      ∧ ∃ disk, runInto .default slashed "out" workDisk
          = ((.ok (), ⟨"out", .empty, ["out/mod.rs", "out/utils.rs", "/x.rs", "out/sub/x.rs"]⟩),
            disk)
        ∧ (∀ path ∈ ["/x.rs", "out/sub/x.rs"], ¬ ∃ name, Path.PlainName name
          ∧ path = Path.join "out" name)
        ∧ disk.place "out" = .ok ["work", "out"]
        ∧ (workDisk.entry? ["x.rs"]).isSome = false ∧ (disk.entry? ["x.rs"]).isSome = true := by
  have hload : loadText slashedDocument.render = .ok slashed :=
    loadText_render (by decide +kernel) rfl (by decide)
  have hplan : plan .default (memberName Options.default.reserved) slashed
      = .ok (plansUpTo .default slashed slashed.namespaces) := by
    rw [plan, moduleFault?_nil_eq_none_iff.2 (by decide +kernel)]
    rfl
  have hclean : ∀ unit ∈ plansUpTo .default slashed slashed.namespaces,
      unit.content.fault? = none :=
    fault?_plansUpTo .default slashed (by decide +kernel)
  obtain ⟨disk, hrun, hplace, hwritten⟩ := run_writeUnits_slashed hclean (by decide +kernel)
  refine ⟨hload, disk, ?_, ?_, hplace, by decide +kernel, hwritten⟩
  · rw [runInto, generate, hplan]
    exact hrun
  · rw [List.forall_mem_cons, List.forall_mem_singleton]
    exact ⟨not_join_plainName (by decide), not_join_plainName (by decide)⟩

end ModelForge
