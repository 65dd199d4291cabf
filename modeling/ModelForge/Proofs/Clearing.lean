/-
`Clearing.lean` -- what clearing a directory does to a disk.

The entries of a directory are removed one by one, each through its path in the directory. A plain
name in a directory leads to a location right below it, so what is cut off is below the directory,
and everything else is left alone (`ClearedBelow`). A disk with fewer directories leads fewer
paths somewhere, but none of them elsewhere; so the directory is still where it was when the next
entry is removed (`ClearedBelow.place_eq`). Where there is no directory, one is created and no
entry is lost.
-/
import ModelForge.Proofs.OutputDirectory

set_option autoImplicit false

namespace ModelForge

/-- A path that leads to a directory may have dots behind its pieces. -/
theorem Path.exists_pieces_eq (path : String) :
    ∃ dots, (∀ piece ∈ dots, piece = ".") ∧ pieces path = directoryPieces path ++ dots := by
  obtain ⟨n, hends⟩ := exists_trimmed path.toList
  have hcut : pieces path
      = (cut (trimmed path.toList)).map pieceText ++ List.replicate n (pieceText []) := by
    rw [pieces_eq, ← List.map_replicate, ← List.map_append, ← cut_append_replicate, ← hends]
  have hdots : ∀ piece ∈ List.replicate n (pieceText []), piece = "." :=
    fun _ h => List.eq_of_mem_replicate h
  rw [hcut, directoryPieces_eq]
  by_cases hroot : trimmed path.toList = []
  · -- the root has no pieces, but a text without characters counts as one
    refine ⟨"." :: List.replicate n (pieceText []), List.forall_mem_cons.2 ⟨rfl, hdots⟩, ?_⟩
    rw [if_pos hroot, hroot]
    rfl
  · exact ⟨_, hdots, by rw [if_neg hroot]⟩

/-- An effect goes on from what its first step answers and leaves. -/
theorem run_bind_of_eq {σ α β : Type} {effect : StateM σ α} {next : α → StateM σ β}
    {state state' : σ} {a : α} (h : effect.run state = (a, state')) :
    (effect >>= next).run state = (next a).run state' := by
  show (next (effect.run state).1).run (effect.run state).2 = _
  rw [h]

namespace Disk

variable {disk before middle after : Disk}

/-! ## Where a path leads -/

/-- To find something is to get to its location and see what is there. -/
theorem find_eq_ok_iff {path : String} {location : Location} {entry : Entry} :
    disk.find path = .ok (location, entry)
      ↔ disk.locate path = .ok location ∧ disk.entry? location = some entry := by
  unfold find
  rw [bind_eq_ok_iff]
  constructor
  · rintro ⟨found, hfound, h⟩
    split at h
    · rename_i hentry
      obtain ⟨rfl, rfl⟩ := Prod.mk.inj (Except.ok.inj h)
      exact ⟨hfound, hentry⟩
    · exact absurd h (by simp)
  · rintro ⟨hfound, hentry⟩
    exact ⟨location, hfound, by rw [hentry]⟩

/-- The location that a path leads to is the place of the directory there. -/
theorem place_of_locate {path : String} {location : Location}
    (h : disk.locate path = .ok location) :
    disk.place path = .ok location := by
  unfold locate at h
  split at h
  · exact absurd h (by simp)
  split at h
  · exact absurd h (by simp)
  obtain ⟨dots, hdots, hpieces⟩ := Path.exists_pieces_eq path
  rw [hpieces] at h
  obtain ⟨target, hplace, hrest⟩ := exists_of_walk_append h
  have hlocation : location = target := by
    rw [eq_of_walk (fun hup => absurd (hdots _ hup) (by decide)) hrest,
      List.filter_eq_nil_iff.2 fun piece hpiece => by simpa using hdots piece hpiece,
      List.append_nil]
  rw [hlocation]
  exact hplace

/-- What has a plain name in a directory is right below it. -/
theorem eq_append_of_locate_join {directory name : String} {place location : Location}
    (hname : Path.PlainName name)
    (hplace : ∀ target, disk.place directory = .ok target → target = place)
    (h : disk.locate (Path.join directory name) = .ok location) : location = place ++ [name] := by
  obtain ⟨target, htarget, hlocation⟩ := exists_place_of_locate hname.descends h
  rw [hlocation, hname.names, hplace target htarget]

/-! ## Cutting off -/

/-- What is not below a location stays when that location is cut off. -/
theorem entry?_cutOff_of_not_below {location other : Location} (h : ¬ location <+: other) :
    entry? (disk.cutOff location) other = disk.entry? other := by
  have hfiltered (entries : List (Location × Entry)) :
      (entries.filter fun e => !location.isPrefixOf e.1).lookup other = entries.lookup other := by
    induction entries with
    | nil => rfl
    | cons first rest ih =>
        by_cases hfirst : location <+: first.1
        · have hne : (other == first.1) = false := beq_eq_false_iff_ne.2 fun heq => h (heq ▸ hfirst)
          rw [List.filter_cons_of_neg (by simpa using hfirst), ih, List.lookup_cons, hne]
        · rw [List.filter_cons_of_pos (by simpa [← Bool.not_eq_true] using hfirst),
            List.lookup_cons, List.lookup_cons, ih]
  unfold entry? cutOff
  rw [hfiltered]

/-- What is below it is gone. -/
theorem entry?_cutOff_of_below {location other : Location} (hroot : location ≠ [])
    (h : location <+: other) :
    entry? (disk.cutOff location) other = none := by
  have hother : other ≠ [] := fun hnil => hroot (List.prefix_nil.1 (hnil ▸ h))
  unfold entry? cutOff
  rw [if_neg hother, List.lookup_eq_none_iff]
  intro entry hentry
  have hkept := (List.mem_filter.1 hentry).2
  rw [bne_iff_ne]
  rintro rfl
  rw [List.isPrefixOf_iff_prefix.2 h] at hkept
  exact absurd hkept (by decide)

/-! ## Clearing a place -/

/-- A disk before and after something below a place was removed. -/
structure ClearedBelow (place : Location) (before after : Disk) : Prop where
  home : after.home = before.home
  kept : ∀ location, (place <+: location → location = place) →
    after.entry? location = before.entry? location
  removed : ∀ location, after.entry? location = before.entry? location
    ∨ after.entry? location = none

variable {place : Location}

theorem ClearedBelow.refl (place : Location) (disk : Disk) : ClearedBelow place disk disk :=
  ⟨rfl, fun _ _ => rfl, fun _ => .inl rfl⟩

/-- Two removals below a place are one. -/
theorem ClearedBelow.trans (hfirst : ClearedBelow place before middle)
    (hsecond : ClearedBelow place middle after) : ClearedBelow place before after where
  home := hsecond.home.trans hfirst.home
  kept location h := (hsecond.kept location h).trans (hfirst.kept location h)
  removed location := by
    rcases hsecond.removed location with hsame | hnone
    · rw [hsame]
      exact hfirst.removed location
    · exact .inr hnone

/-- Seen from behind, a cleared disk has grown. -/
theorem ClearedBelow.grows (h : ClearedBelow place before after) : Grows after before where
  home := h.home.symm
  directories location hdirectory := by
    rw [isDirectoryAt_iff] at hdirectory ⊢
    rcases h.removed location with hsame | hnone
    · rw [← hsame, hdirectory]
    · exact absurd (hnone.symm.trans hdirectory) (by simp)

/-- A directory that is still found is where it was. -/
theorem ClearedBelow.place_eq (h : ClearedBelow place before after) {directory : String}
    (hplace : ∀ target, before.place directory = .ok target → target = place) :
    ∀ target, after.place directory = .ok target → target = place :=
  fun target htarget => hplace target (h.grows.place htarget)

/-- Cutting off a name below a place is such a removal. -/
theorem clearedBelow_cutOff (disk : Disk) (place : Location) (name : String) :
    ClearedBelow place disk (disk.cutOff (place ++ [name])) where
  home := rfl
  kept location h := by
    refine entry?_cutOff_of_not_below fun hbelow => ?_
    -- what is below the name is below the place, and is not the place itself
    have hlocation := h ((List.prefix_append place [name]).trans hbelow)
    have hlength := hbelow.length_le
    rw [hlocation, List.length_append, List.length_singleton] at hlength
    omega
  removed location := by
    by_cases h : place ++ [name] <+: location
    · exact .inr (entry?_cutOff_of_below (by simp) h)
    · exact .inl (entry?_cutOff_of_not_below h)

/-! ## Removing entries -/

/-- Each entry that is found is cut off, whatever it is. The first that is not found ends the
removal. -/
theorem run_removeEntries_cons (disk : Disk) (directory name : String) (rest : List String) :
    (FileSink.removeEntries directory (name :: rest) : StateM Disk _).run disk
      = match disk.find (Path.join directory name) with
        | .ok (location, _) =>
            (FileSink.removeEntries directory rest : StateM Disk _).run (disk.cutOff location)
        | .error fault => (.error fault.toFileFault, disk) := by
  have hasked : (FileSystem.isDirectory (Path.join directory name) : StateM Disk _).run disk
      = (_, disk) := rfl
  rw [FileSink.removeEntries, run_bind_of_eq hasked]
  cases hfind : disk.find (Path.join directory name) with
  | error fault =>
      have hremoved : (FileSystem.removeFile (Path.join directory name) : StateM Disk _).run disk
          = (.error fault.toFileFault, disk) := by
        show change (fun disk => disk.removeFile (Path.join directory name)) disk = _
        simp only [change, removeFile, hfind]
      exact run_bind_of_eq hremoved
  | ok found =>
      obtain ⟨location, entry⟩ := found
      cases entry with
      | directory =>
          have hremoved :
              (FileSystem.removeTree (Path.join directory name) : StateM Disk _).run disk
              = (.ok (), disk.cutOff location) := by
            show change (fun disk => disk.removeTree (Path.join directory name)) disk = _
            simp only [change, removeTree, hfind]
          exact run_bind_of_eq hremoved
      | file contents =>
          have hremoved :
              (FileSystem.removeFile (Path.join directory name) : StateM Disk _).run disk
              = (.ok (), disk.cutOff location) := by
            show change (fun disk => disk.removeFile (Path.join directory name)) disk = _
            simp only [change, removeFile, hfind]
          exact run_bind_of_eq hremoved

/-- Entries of plain names are removed below their directory. -/
theorem clearedBelow_removeEntries {directory : String} {names : List String}
    (hnames : ∀ name ∈ names, Path.PlainName name)
    (hplace : ∀ target, before.place directory = .ok target → target = place) :
    ClearedBelow place before
      ((FileSink.removeEntries directory names : StateM Disk _).run before).2 := by
  induction names generalizing before with
  | nil => exact .refl place before
  | cons name rest ih =>
      rw [List.forall_mem_cons] at hnames
      rw [run_removeEntries_cons]
      cases hfind : before.find (Path.join directory name) with
      | error fault => exact .refl place before
      | ok found =>
          obtain ⟨location, entry⟩ := found
          obtain rfl := eq_append_of_locate_join hnames.1 hplace (find_eq_ok_iff.1 hfind).1
          have hcut := clearedBelow_cutOff before place name
          exact hcut.trans (ih hnames.2 (hcut.place_eq hplace))

/-! ## Clearing a directory -/

/-- What is listed below a location are names of files. -/
theorem plainName_of_mem_namesBelow {location : Location} {name : String}
    (hname : name ∈ disk.namesBelow location) : Path.PlainName name := by
  obtain ⟨e, he, hlast⟩ := List.mem_filterMap.1 hname
  split at hlast
  · rename_i last hends
    split at hlast
    · obtain rfl := Option.some.inj hlast
      exact disk.plain e he _ (List.mem_of_getLast? hends)
    · exact absurd hlast (by simp)
  · exact absurd hlast (by simp)

/-- Whether something is present is seen without a change. -/
theorem run_isPresent (path : String) :
    (FileSystem.isPresent path : StateM Disk _).run disk
      = (match disk.find path with
        | .ok _ => true
        | .error _ => false, disk) := rfl

/-- The names in a directory are listed without a change. -/
theorem run_entryNames_of_directory {path : String}
    (hfind : disk.find path = .ok (place, .directory)) :
    (FileSystem.entryNames path : StateM Disk _).run disk
      = (.ok (disk.namesBelow place), disk) := by
  show (disk.entryNames path, disk) = _
  rw [entryNames, hfind]

/-- A file has no entries. -/
theorem run_entryNames_of_file {path : String} {contents : ByteArray}
    (hfind : disk.find path = .ok (place, .file contents)) :
    (FileSystem.entryNames path : StateM Disk _).run disk = (.error ⟨"Not a directory"⟩, disk) := by
  show (disk.entryNames path, disk) = _
  rw [entryNames, hfind]

/-- To clear a directory is to remove all that it lists. -/
theorem run_clear_of_directory {out : String} (hfind : disk.find out = .ok (place, .directory)) :
    (FileSink.clear out : StateM Disk _).run disk
      = (FileSink.removeEntries out (disk.namesBelow place) : StateM Disk _).run disk := by
  rw [FileSink.clear, run_bind_of_eq (run_isPresent out), hfind, if_pos rfl,
    run_bind_of_eq (run_entryNames_of_directory hfind)]

/-- What is no directory is not cleared. -/
theorem run_clear_of_file {out : String} {contents : ByteArray}
    (hfind : disk.find out = .ok (place, .file contents)) :
    (FileSink.clear out : StateM Disk _).run disk = (.error ⟨"Not a directory"⟩, disk) := by
  rw [FileSink.clear, run_bind_of_eq (run_isPresent out), hfind, if_pos rfl,
    run_bind_of_eq (run_entryNames_of_file hfind)]
  rfl

/-- Where there is nothing a directory is created. -/
theorem run_clear_of_missing {out : String} {fault : PathFault}
    (hfind : disk.find out = .error fault) :
    (FileSink.clear out : StateM Disk _).run disk
      = (FileSystem.createDirectories out : StateM Disk _).run disk := by
  rw [FileSink.clear, run_bind_of_eq (run_isPresent out), hfind, if_neg Bool.false_ne_true]

/-- **Clearing spares what is not below the directory.** -/
theorem entry?_clear {out : String} {location : Location} {contents : ByteArray}
    (hfile : disk.entry? location = some (.file contents))
    (hout : ∀ place entry, disk.find out = .ok (place, entry) →
      place <+: location → location = place) :
    entry? ((FileSink.clear out : StateM Disk _).run disk).2 location = some (.file contents) := by
  cases hfind : disk.find out with
  | error fault =>
      have hcreated := writtenBelow_createAll out [] disk
      rw [run_clear_of_missing hfind, snd_run_createDirectories]
      -- a directory is only created where there was nothing
      cases hcreated.changes location with
      | same hsame => rw [hsame, hfile]
      | created hnone => exact absurd (hnone.symm.trans hfile) (by simp)
      | stored hunit => exact absurd hunit List.not_mem_nil
  | ok found =>
      obtain ⟨place, entry⟩ := found
      cases entry with
      | file contents => rw [run_clear_of_file hfind, hfile]
      | directory =>
          have hplace := place_of_locate (find_eq_ok_iff.1 hfind).1
          have hnames : ∀ name ∈ disk.namesBelow place, Path.PlainName name :=
            fun _ => plainName_of_mem_namesBelow
          have hcleared := clearedBelow_removeEntries hnames
            fun target htarget => Except.ok.inj (htarget.symm.trans hplace)
          rw [run_clear_of_directory hfind,
            hcleared.kept location (hout place .directory hfind), hfile]

end Disk

end ModelForge
