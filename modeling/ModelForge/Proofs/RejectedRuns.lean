/-
`RejectedRuns.lean` -- a run that is rejected touches nothing, and no run clears away its model.

Generating into a directory asks where the model lies, loads it, clears the directory and writes,
in this order (`Disk.generateDirectory_eq`). The first two steps only look, so a run that ends
with them leaves the disk as it was. A run that goes on removes what is below the directory. The
files of a model are at its location or right below it (`Disk.IsSource`); a directory that has one
of them below it is on the way to the model, and then the run is refused
(`Disk.IsSource.not_below`).
-/
import ModelForge.Proofs.Clearing
import ModelForge.Proofs.PrintedUnits

set_option autoImplicit false

namespace ModelForge

namespace Disk

variable {disk : Disk} {model out : String}

/-! ## Where a model lies -/

/-- A model lies in a directory: at its location or below it. -/
def HoldsModel (disk : Disk) (model out : String) : Prop :=
  ∃ modelPlace modelEntry place entry, disk.find model = .ok (modelPlace, modelEntry)
    ∧ disk.find out = .ok (place, entry) ∧ place <+: modelPlace

/-- The files of a model: its own, or the documents in its directory. -/
inductive IsSource (disk : Disk) (model : String) : Location → ByteArray → Prop where
  | file {location : Location} {contents : ByteArray}
      (hmodel : disk.find model = .ok (location, .file contents)) :
      IsSource disk model location contents
  | document {place : Location} {name : String} {contents : ByteArray}
      (hmodel : disk.find model = .ok (place, .directory)) (hname : isDocumentName name = true)
      (hfile : disk.entry? (place ++ [name]) = some (.file contents)) :
      IsSource disk model (place ++ [name]) contents

/-- A path is made canonical without a change. -/
theorem run_canonical (path : String) :
    (FileSystem.canonical path : StateM Disk _).run disk
      = (match disk.find path with
        | .ok (location, _) => .ok location
        | .error fault => .error fault.toFileFault, disk) := rfl

/-- What is found has its location. -/
theorem run_canonical_of_found {path : String} {location : Location} {entry : Entry}
    (h : disk.find path = .ok (location, entry)) :
    (FileSystem.canonical path : StateM Disk _).run disk = (.ok location, disk) := by
  rw [run_canonical, h]

/-- What is missing has none, and the fault says so. -/
theorem run_canonical_of_missing {path : String} {fault : PathFault}
    (h : disk.find path = .error fault) :
    (FileSystem.canonical path : StateM Disk _).run disk = (.error fault.toFileFault, disk) := by
  rw [run_canonical, h]

/-- The command finds out where the model lies, and changes nothing. -/
theorem run_holdsModel (disk : Disk) (model out : String) :
    ∃ holds, (holdsModel model out : StateM Disk _).run disk = (holds, disk)
      ∧ (holds = true ↔ disk.HoldsModel model out) := by
  cases hmodel : disk.find model with
  | error fault =>
      refine ⟨false, run_bind_of_eq (run_canonical_of_missing hmodel),
        iff_of_false Bool.false_ne_true ?_⟩
      rintro ⟨_, _, _, _, hfound, -⟩
      exact absurd (hmodel.symm.trans hfound) (by simp)
  | ok found =>
      obtain ⟨modelPlace, modelEntry⟩ := found
      rw [holdsModel, run_bind_of_eq (run_canonical_of_found hmodel)]
      dsimp only
      cases hout : disk.find out with
      | error fault =>
          refine ⟨false, run_bind_of_eq (run_canonical_of_missing hout),
            iff_of_false Bool.false_ne_true ?_⟩
          rintro ⟨_, _, _, _, -, hfound, -⟩
          exact absurd (hout.symm.trans hfound) (by simp)
      | ok found =>
          obtain ⟨place, entry⟩ := found
          refine ⟨place.isPrefixOf modelPlace, run_bind_of_eq (run_canonical_of_found hout), ?_⟩
          rw [List.isPrefixOf_iff_prefix]
          constructor
          · exact fun hbelow => ⟨modelPlace, modelEntry, place, entry, hmodel, hout, hbelow⟩
          · rintro ⟨_, _, _, _, hmodel', hout', hbelow⟩
            obtain ⟨rfl, -⟩ := Prod.mk.inj (Except.ok.inj (hmodel.symm.trans hmodel'))
            obtain ⟨rfl, -⟩ := Prod.mk.inj (Except.ok.inj (hout.symm.trans hout'))
            exact hbelow

/-! ## The files of a model -/

/-- A source is a file. -/
theorem IsSource.entry_eq {location : Location} {contents : ByteArray}
    (h : disk.IsSource model location contents) :
    disk.entry? location = some (.file contents) := by
  cases h with
  | file hmodel => exact (find_eq_ok_iff.1 hmodel).2
  | document hmodel hname hfile => exact hfile

/-- No file of a model is below a directory that does not hold the model. -/
theorem IsSource.not_below {location : Location} {contents : ByteArray}
    (h : disk.IsSource model location contents) (hholds : ¬ disk.HoldsModel model out)
    {place : Location} {entry : Entry} (hout : disk.find out = .ok (place, entry))
    (hbelow : place <+: location) :
    location = place := by
  cases h with
  | file hmodel => exact absurd ⟨_, _, _, _, hmodel, hout, hbelow⟩ hholds
  | document hmodel hname hfile =>
      rcases List.prefix_concat_iff.1 hbelow with hself | hbelow
      · exact hself.symm
      · exact absurd ⟨_, _, _, _, hmodel, hout, hbelow⟩ hholds

/-- Whether something is a directory is seen without a change. -/
theorem run_isDirectory (path : String) :
    (FileSystem.isDirectory path : StateM Disk _).run disk
      = (match disk.find path with
        | .ok (_, .directory) => true
        | .ok (_, .file _) => false
        | .error _ => false, disk) := rfl

/-- The documents in a directory are joined to its path. -/
theorem run_sourceFiles_of_directory {place : Location}
    (hmodel : disk.find model = .ok (place, .directory)) :
    (sourceFiles model : StateM Disk _).run disk
      = (match documentNames (disk.namesBelow place) with
        | [] => .error (.noModels model)
        | documents => .ok (documents.map (Path.join model)), disk) := by
  have hasked : (FileSystem.isDirectory model : StateM Disk _).run disk = (true, disk) := by
    rw [run_isDirectory, hmodel]
  rw [sourceFiles, run_bind_of_eq hasked, if_pos rfl,
    run_bind_of_eq (run_entryNames_of_directory hmodel)]
  dsimp only
  cases documentNames (disk.namesBelow place) <;> rfl

/-- A model that is no directory is its only source. -/
theorem run_sourceFiles_of_other (hmodel : ∀ place, disk.find model ≠ .ok (place, .directory)) :
    (sourceFiles model : StateM Disk _).run disk = (.ok [model], disk) := by
  have hasked : (FileSystem.isDirectory model : StateM Disk _).run disk = (false, disk) := by
    rw [run_isDirectory]
    split
    · rename_i place hfind
      exact absurd hfind (hmodel place)
    · rfl
    · rfl
  rw [sourceFiles, run_bind_of_eq hasked, if_neg Bool.false_ne_true]
  rfl

/-- What is read when a model is loaded are its files. -/
theorem isSource_of_mem_sourceFiles {files : List String} {path : String}
    {location : Location} {contents : ByteArray}
    (hfiles : ((sourceFiles model : StateM Disk _).run disk).1 = .ok files) (hpath : path ∈ files)
    (hfind : disk.find path = .ok (location, .file contents)) :
    disk.IsSource model location contents := by
  by_cases hdirectory : ∃ place, disk.find model = .ok (place, .directory)
  · obtain ⟨place, hmodel⟩ := hdirectory
    rw [run_sourceFiles_of_directory hmodel] at hfiles
    have hjoined : files = (documentNames (disk.namesBelow place)).map (Path.join model) := by
      dsimp only at hfiles
      split at hfiles
      · exact absurd hfiles (by simp)
      · exact (Except.ok.inj hfiles).symm
    rw [hjoined] at hpath
    obtain ⟨name, hname, rfl⟩ := List.mem_map.1 hpath
    obtain ⟨hbelow, hdocument⟩ := List.mem_filter.1 (List.mem_mergeSort.1 hname)
    obtain ⟨hlocate, hfile⟩ := find_eq_ok_iff.1 hfind
    have hplace := place_of_locate (find_eq_ok_iff.1 hmodel).1
    obtain rfl := eq_append_of_locate_join (plainName_of_mem_namesBelow hbelow)
      (fun target htarget => Except.ok.inj (htarget.symm.trans hplace)) hlocate
    exact .document hmodel hdocument hfile
  · rw [run_sourceFiles_of_other fun place hmodel => hdirectory ⟨place, hmodel⟩] at hfiles
    obtain rfl := Except.ok.inj hfiles
    rw [List.mem_singleton.1 hpath] at hfind
    exact .file hfind

/-! ## The steps of a run -/

/-- The command refuses to clear a directory in which the model lies. -/
def Refused (disk : Disk) (model out : String) (clean : Bool) : Prop :=
  clean = true ∧ disk.HoldsModel model out

/-- The order of the steps. -/
theorem generateDirectory_eq (model out : String) (clean : Bool) :
    (generateDirectory model out clean : StateM Disk _)
      = (if clean then holdsModel model out else pure false) >>= fun refused =>
          if refused then pure (.error (.holdsModel out model))
          else loadPath model >>= fun loaded =>
            match loaded with
            | .error e => pure (.error (.load e))
            | .ok g => generateGraph g out clean := by
  unfold generateDirectory
  cases clean <;> rfl

/-- **A refused run changes nothing** and names both paths. -/
theorem run_generateDirectory_of_refused {clean : Bool} (h : disk.Refused model out clean) :
    (generateDirectory model out clean : StateM Disk _).run disk
      = (.error (.holdsModel out model), disk) := by
  obtain ⟨rfl, hholds⟩ := h
  obtain ⟨holds, hasked, hiff⟩ := disk.run_holdsModel model out
  obtain rfl := hiff.2 hholds
  rw [generateDirectory_eq, if_pos rfl, run_bind_of_eq hasked]
  rfl

/-- Where nothing is refused the model is loaded, and the graph that it gives is generated. -/
theorem run_generateDirectory_of_not_refused {clean : Bool} (h : ¬ disk.Refused model out clean) :
    (generateDirectory model out clean : StateM Disk _).run disk
      = match ((loadPath model : StateM Disk _).run disk).1 with
        | .error e => (.error (.load e), disk)
        | .ok g => (generateGraph g out clean : StateM Disk _).run disk := by
  have hasked : (if clean then holdsModel model out else pure false : StateM Disk Bool).run disk
      = (false, disk) := by
    cases clean with
    | false => rfl
    | true =>
        obtain ⟨holds, hasked, hiff⟩ := disk.run_holdsModel model out
        have hnot : holds = false := by
          rw [← Bool.not_eq_true]
          exact fun hholds => h ⟨rfl, hiff.1 hholds⟩
        rw [if_pos rfl, hasked, hnot]
  have hload : (loadPath model : StateM Disk _).run disk
      = (((loadPath model : StateM Disk _).run disk).1, disk) :=
    Prod.ext rfl (leavesAlone_loadPath model disk)
  rw [generateDirectory_eq, run_bind_of_eq hasked, if_neg Bool.false_ne_true, run_bind_of_eq hload]
  cases ((loadPath model : StateM Disk _).run disk).1 <;> rfl

end Disk

/-! ## Whole runs -/

/-- The first step of generating a graph. -/
def clearingStep (out : String) (clean : Bool) : StateM Disk (Except FileFault Unit) :=
  if clean then FileSink.clear out else pure (.ok ())

/-- The second step, which is taken only if the first did not fail. -/
def writingStep (g : Graph) (out : String) :
    Except FileFault Unit → StateM Disk (Except CommandError Unit)
  | .error fault => pure (.error (.notCleared out fault))
  | .ok _ => generateGraph g out false

/-- What is generated without clearing is generated in the same way after it. -/
theorem generateGraph_eq_steps (g : Graph) (out : String) (clean : Bool) :
    (generateGraph g out clean : StateM Disk _) = clearingStep out clean >>= writingStep g out := by
  rw [generateGraph_eq, clearingStep]
  refine bind_congr fun cleared => ?_
  cases cleared <;> rfl

/-- A call of the command that generates a model into a directory. -/
def Generates (arguments : List String) (model out : String) (clean : Bool) : Prop :=
  ∃ invocation, Invocation.ofArguments arguments = .ok invocation ∧ invocation.emit = false
    ∧ invocation.model = model ∧ Path.asDirectory invocation.outputDirectory = out
    ∧ (!invocation.noClean) = clean

/-- A command that fails says so with its exit code, and leaves what the run left. -/
theorem run_runCommand_of_failed {arguments : List String} {model out : String} {clean : Bool}
    {disk disk' : Disk} {failure : CommandError} (h : Generates arguments model out clean)
    (hrun : (generateDirectory model out clean : StateM Disk _).run disk
      = (.error failure, disk')) :
    (runCommand arguments : StateM Disk _).run disk
      = ((⟨1, "", failure.message ++ "\n"⟩, some failure), disk') := by
  obtain ⟨invocation, hinvocation, hemit, rfl, rfl, rfl⟩ := h
  have hexecuted : (execute invocation : StateM Disk _).run disk = (.error failure, disk') := by
    rw [execute, if_neg (by rw [hemit]; exact Bool.false_ne_true), run_bind_of_eq hrun]
    rfl
  rw [runCommand, hinvocation]
  dsimp only
  rw [run_bind_of_eq hexecuted]
  rfl

/-- What a run into a directory may do to a disk. -/
structure RunsSafely (model out : String) (clean : Bool) (disk : Disk) : Prop where
  /-- A directory that holds the model is not cleared. The run fails and changes nothing. -/
  refused : disk.Refused model out clean →
    (generateDirectory model out clean : StateM Disk _).run disk
      = (.error (.holdsModel out model), disk)
  /-- Nor does a run change anything that cannot load the model, whatever the reason. -/
  rejected : ∀ e, ((loadPath model : StateM Disk _).run disk).1 = .error e → ∃ failure,
    (generateDirectory model out clean : StateM Disk _).run disk = (.error failure, disk)
  /-- The exit code of a run that fails is one. -/
  exitCode : ∀ arguments, Generates arguments model out clean → ∀ failure disk',
    (generateDirectory model out clean : StateM Disk _).run disk = (.error failure, disk') →
      (runCommand arguments : StateM Disk _).run disk
        = ((⟨1, "", failure.message ++ "\n"⟩, some failure), disk')
  /-- Every other run clears the disk as it was given, and then writes. -/
  accepted : ¬ disk.Refused model out clean →
    ∀ g, ((loadPath model : StateM Disk _).run disk).1 = .ok g →
    (generateDirectory model out clean : StateM Disk _).run disk
      = (clearingStep out clean >>= writingStep g out).run disk
  /-- The clearing spares the files of the model. -/
  spared : ¬ disk.Refused model out clean →
    ∀ location contents, disk.IsSource model location contents →
    Disk.entry? ((clearingStep out clean).run disk).2 location = some (.file contents)
  /-- These are the files that loading reads. -/
  sources : ∀ files path location contents,
    ((sourceFiles model : StateM Disk _).run disk).1 = .ok files →
    path ∈ files → disk.find path = .ok (location, .file contents) →
    disk.IsSource model location contents

/-- **A rejected run touches nothing, and no run clears away its model**, wherever the two paths
lead. -/
theorem clearing_spares_model (disk : Disk) (model out : String) (clean : Bool) :
    RunsSafely model out clean disk := by
  refine ⟨Disk.run_generateDirectory_of_refused, fun e hload => ?_,
    fun arguments hgenerates failure disk' hrun => run_runCommand_of_failed hgenerates hrun,
    fun hnot g hload => ?_, fun hnot location contents hsource => ?_,
    fun files path location contents => Disk.isSource_of_mem_sourceFiles⟩
  · by_cases hrefused : disk.Refused model out clean
    · exact ⟨_, Disk.run_generateDirectory_of_refused hrefused⟩
    · exact ⟨.load e, by rw [Disk.run_generateDirectory_of_not_refused hrefused, hload]⟩
  · rw [Disk.run_generateDirectory_of_not_refused hnot, hload, ← generateGraph_eq_steps]
  · cases clean with
    | false => exact hsource.entry_eq
    | true =>
        refine Disk.entry?_clear hsource.entry_eq fun place entry hout hbelow => ?_
        exact hsource.not_below (fun hholds => hnot ⟨rfl, hholds⟩) hout hbelow

/-- A disk with a directory of models, which has a document in it. -/
def modelsDisk (document : ByteArray) : Disk :=
  (workHome.put ["work", "m"] .directory).put ["work", "m", "a.json"] (.file document)

/-- A directory of models, and beside it one whose name begins alike. -/
def siblingsDisk : Disk :=
  ((modelsDisk ByteArray.empty).put ["work", "m.out"] .directory).put ["work", "m.out", "stale.rs"]
    (.file ByteArray.empty)

/-- A run into the models is refused. One into the directory beside them clears that and no more.
-/
theorem clearing_spares_model_siblings :
    (generateDirectory "m" "m/" true : StateM Disk _).run siblingsDisk
      = (.error (.holdsModel "m/" "m"), siblingsDisk)
    ∧ Disk.entry? ((clearingStep "m.out" true).run siblingsDisk).2 ["work", "m", "a.json"]
      = some (.file ByteArray.empty)
    ∧ Disk.entry? ((clearingStep "m.out" true).run siblingsDisk).2 ["work", "m.out", "stale.rs"]
      = none := by
  have hmodel : siblingsDisk.find "m" = .ok (["work", "m"], .directory) := rfl
  have hsame : siblingsDisk.find "m/" = .ok (["work", "m"], .directory) := rfl
  have hout : siblingsDisk.find "m.out" = .ok (["work", "m.out"], .directory) := rfl
  have hstale : siblingsDisk.find (Path.join "m.out" "stale.rs")
      = .ok (["work", "m.out", "stale.rs"], .file ByteArray.empty) := rfl
  have hnames : siblingsDisk.namesBelow ["work", "m.out"] = ["stale.rs"] := by decide
  have hsource : siblingsDisk.IsSource "m" (["work", "m"] ++ ["a.json"]) ByteArray.empty :=
    .document hmodel (by decide +kernel) rfl
  refine ⟨?_, ?_, ?_⟩
  · exact (clearing_spares_model siblingsDisk "m" "m/" true).refused
      ⟨rfl, _, _, _, _, hmodel, hsame, List.prefix_rfl⟩
  · refine (clearing_spares_model siblingsDisk "m" "m.out" true).spared ?_ _ _ hsource
    rintro ⟨-, _, _, _, _, hmodel', hout', hbelow⟩
    obtain ⟨rfl, -⟩ := Prod.mk.inj (Except.ok.inj (hmodel.symm.trans hmodel'))
    obtain ⟨rfl, -⟩ := Prod.mk.inj (Except.ok.inj (hout.symm.trans hout'))
    exact absurd hbelow (by decide)
  · rw [clearingStep, if_pos rfl, Disk.run_clear_of_directory hout, hnames,
      Disk.run_removeEntries_cons, hstale]
    exact Disk.entry?_cutOff_of_below (by decide) List.prefix_rfl

end ModelForge
