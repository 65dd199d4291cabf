/-
`StoredFiles.lean` -- what the files of a directory hold behind the units that were sealed.

Units of plain names are stored side by side in the directory, at one location for each name. So
storing a unit replaces what was sealed under its name and leaves the other files alone
(`Disk.Holds`). That is kept by every seal, also by one whose file cannot be written, and
therefore by any sequence of actions.
-/
import ModelForge.Proofs.OutputDirectory
import ModelForge.Proofs.SinkSimulation

set_option autoImplicit false

namespace ModelForge

/-! ## The last unit of a name -/

/-- The last of some units that has the given name. -/
def lastNamed? (units : List SourceUnit) (name : String) : Option SourceUnit :=
  units.reverse.find? fun unit => unit.name = name

/-- The last unit of a name is the one that was added last. -/
theorem lastNamed?_concat (units : List SourceUnit) (unit : SourceUnit) (name : String) :
    lastNamed? (units ++ [unit]) name
      = if unit.name = name then some unit else lastNamed? units name := by
  rw [lastNamed?, List.reverse_append, List.reverse_singleton,
    List.singleton_append, List.find?_cons]
  by_cases hname : unit.name = name
  · simp [hname]
  · simp [hname, lastNamed?]

/-- It is one of the units, and has the name. -/
theorem of_lastNamed? {units : List SourceUnit} {name : String} {unit : SourceUnit}
    (h : lastNamed? units name = some unit) : unit ∈ units ∧ unit.name = name := by
  rw [lastNamed?] at h
  have hname := List.find?_some h
  exact ⟨List.mem_reverse.1 (List.mem_of_find?_eq_some h), by simpa using hname⟩

/-- Among distinct names the last unit of a name is the only one. -/
theorem lastNamed?_of_mem {units : List SourceUnit} (hdistinct : (units.map SourceUnit.name).Nodup)
    {unit : SourceUnit} (hunit : unit ∈ units) : lastNamed? units unit.name = some unit := by
  refine find?_key_of_mem SourceUnit.name ?_ (List.mem_reverse.2 hunit)
  rw [List.map_reverse, List.nodup_reverse]
  exact hdistinct

namespace Disk

variable {disk before middle after : Disk} {out : String}
    {units : List SourceUnit} {unit : SourceUnit}

/-! ## Locations of plain names -/

/-- What could be located is found where it was when the disk grows. -/
theorem Grows.locate (hgrows : Grows before after) {path : String} {location : Location}
    (h : before.locate path = .ok location) : after.locate path = .ok location := by
  unfold Disk.locate at h ⊢
  split at h
  · exact absurd h (by simp)
  · rename_i hempty
    rw [if_neg hempty]
    split at h
    · exact absurd h (by simp)
    · rename_i hvalid
      rw [if_neg hvalid, hgrows.start]
      exact hgrows.walk h

/-- Different plain names are at different locations. -/
theorem locate_join_ne {name other : String} (hname : Path.PlainName name)
    (hother : Path.PlainName other) (hne : name ≠ other) {location location' : Location}
    (hlocate : disk.locate (Path.join out name) = .ok location)
    (hlocate' : disk.locate (Path.join out other) = .ok location') : location ≠ location' := by
  obtain ⟨target, hplace, rfl⟩ := exists_place_of_locate hname.descends hlocate
  obtain ⟨target', hplace', rfl⟩ := exists_place_of_locate hother.descends hlocate'
  obtain rfl : target = target' := Except.ok.inj (hplace.symm.trans hplace')
  rw [hname.names, hother.names]
  intro hsame
  exact hne (List.singleton_injective (List.append_cancel_left hsame))

/-- A file that is written is put where its path leads, and never in place of a directory. -/
theorem exists_of_writeText {path text : String} (h : before.writeText path text = .ok after) :
    ∃ location hplain, before.locate path = .ok location ∧ before.isDirectoryAt location = false
      ∧ after = before.put location (.file text.toUTF8) hplain := by
  unfold writeText writeBytes at h
  split at h
  · exact absurd h (by simp)
  · rename_i location hlocate
    split at h
    · exact absurd h (by simp)
    · rename_i hnot
      exact ⟨location, _, hlocate, by simpa using hnot, (Except.ok.inj h).symm⟩

/-- A file is read back as its text. -/
theorem readText_of_file {path text : String} {location : Location}
    (hlocate : disk.locate path = .ok location)
    (hfile : disk.entry? location = some (.file text.toUTF8)) : disk.readText path = .ok text := by
  have hfind : disk.find path = .ok (location, .file text.toUTF8) := by
    simp only [find, hlocate, hfile, bind, Except.bind]
  have htext : String.fromUTF8? text.toUTF8 = some text := dif_pos text.isValidUTF8
  unfold readText
  rw [hfind]
  simp only [htext]

/-! ## Files of sealed units -/

/-- More units allow more to be written. -/
theorem WrittenBelow.mono {files files' : List SourceUnit} (hsub : files ⊆ files')
    (h : WrittenBelow out files before after) : WrittenBelow out files' before after where
  home := h.home
  changes location := by
    cases h.changes location with
    | same hsame => exact .same hsame
    | created hbefore hafter hway => exact .created hbefore hafter hway
    | stored hunit hplace hlocation hbefore hafter =>
        exact .stored (hsub hunit) hplace hlocation hbefore hafter

/-- The directory holds some units, each under its name. -/
structure Holds (out : String) (units : List SourceUnit) (before after : Disk) : Prop where
  plain : ∀ unit ∈ units, Path.PlainName unit.name
  /-- Nothing else has changed. -/
  below : WrittenBelow out units before after
  /-- Of the units of one name, the last is there. -/
  latest : ∀ name unit, lastNamed? units name = some unit →
    ∃ location, after.locate (Path.join out name) = .ok location
      ∧ after.entry? location = some (.file unit.text.toUTF8)

theorem Holds.refl (out : String) (disk : Disk) : Holds out [] disk disk where
  plain := List.forall_mem_nil _
  below := .refl disk
  latest _ _ h := absurd h (by simp [lastNamed?])

/-- The directory may be created, now or again. -/
theorem Holds.created (h : Holds out units before middle) :
    Holds out units before (middle.createAll out).2 where
  plain := h.plain
  below := h.below.trans (writtenBelow_createAll out units middle)
  latest name unit hlast := by
    obtain ⟨location, hlocate, hfile⟩ := h.latest name unit hlast
    have hbelow := writtenBelow_createAll out [] middle
    refine ⟨location, hbelow.grows.locate hlocate, ?_⟩
    -- where there is a file no directory is created
    cases hbelow.changes location with
    | same hsame => rw [hsame, hfile]
    | created hnone => exact absurd (hnone.symm.trans hfile) (by simp)
    | stored hunit => exact absurd hunit List.not_mem_nil

/-- One more unit is stored. -/
theorem Holds.stored (h : Holds out units before middle) (hplain : Path.PlainName unit.name)
    (hwrite : middle.writeText (Path.join out unit.name) unit.text = .ok after) :
    Holds out (units ++ [unit]) before after where
  plain := List.forall_mem_append.2 ⟨h.plain, List.forall_mem_singleton.2 hplain⟩
  below := (h.below.mono (List.subset_append_left units [unit])).trans
    (writtenBelow_writeText (List.mem_append_right _ (List.mem_singleton_self unit))
      hplain.descends hwrite)
  latest name other hlast := by
    obtain ⟨location, hplainAt, hlocate, hnot, rfl⟩ := exists_of_writeText hwrite
    have hgrows := grows_put hnot (.file unit.text.toUTF8) hplainAt
    rw [lastNamed?_concat] at hlast
    split at hlast
    · rename_i hname
      obtain rfl := Option.some.inj hlast
      rw [← hname]
      exact ⟨location, hgrows.locate hlocate, entry?_put_self (ne_nil_of_not_directory hnot) _ _⟩
    · rename_i hname
      obtain ⟨location', hlocate', hfile⟩ := h.latest name other hlast
      obtain ⟨hother, rfl⟩ := of_lastNamed? hlast
      have hne : location' ≠ location :=
        locate_join_ne (h.plain other hother) hplain (Ne.symm hname) hlocate' hlocate
      exact ⟨location', hgrows.locate hlocate', (entry?_put_of_ne hne _ _).trans hfile⟩

/-- What is read from the file of a name is the last unit that was sealed under it. -/
theorem Holds.readText (h : Holds out units before after) {name : String}
    (hlast : lastNamed? units name = some unit) :
    after.readText (Path.join out name) = .ok unit.text := by
  obtain ⟨location, hlocate, hfile⟩ := h.latest name unit hlast
  exact readText_of_file hlocate hfile

/-- Where no unit was sealed, there is a file exactly if there was one before, with the same
contents. -/
theorem Holds.unchanged (h : Holds out units before after) {location : Location}
    (hother : ∀ unit ∈ units, ∀ target, after.place out = .ok target →
      location ≠ target ++ [unit.name])
    (contents : ByteArray) :
    after.entry? location = some (.file contents)
      ↔ before.entry? location = some (.file contents) := by
  cases h.below.changes location with
  | same hsame => rw [hsame]
  | created hbefore hafter => simp [hbefore, hafter]
  | stored hunit hplace hlocation =>
      rw [(h.plain _ hunit).names] at hlocation
      exact absurd hlocation (hother _ hunit _ hplace)

/-! ## Runs -/

/-- What comes of storing a unit on a disk. -/
theorem of_run_store {answer : Except SinkError String}
    (h : (FileSink.store out unit : StateM Disk _).run before = (answer, after)) :
    (∃ path, answer = .ok path
        ∧ (before.createAll out).2.writeText (Path.join out unit.name) unit.text = .ok after)
      ∨ (∃ e, answer = .error e) ∧ after = (before.createAll out).2 := by
  have hcreated := snd_run_createDirectories out before
  rw [FileSink.run_store] at h
  dsimp only at h
  split at h
  · -- the directory cannot be created
    obtain ⟨rfl, rfl⟩ := Prod.mk.inj h
    exact .inr ⟨⟨_, rfl⟩, hcreated⟩
  · rw [hcreated, run_writeText] at h
    cases hwrite : (before.createAll out).2.writeText (Path.join out unit.name) unit.text with
    | error fault =>
        rw [hwrite] at h
        obtain ⟨rfl, rfl⟩ := Prod.mk.inj h
        exact .inr ⟨⟨_, rfl⟩, rfl⟩
    | ok written =>
        rw [hwrite] at h
        obtain ⟨rfl, rfl⟩ := Prod.mk.inj h
        exact .inl ⟨_, rfl, rfl⟩

/-- **Sealing a unit of a plain name keeps the files as they should be.** -/
theorem keptBySealing_holds (hplain : Path.PlainName unit.name) :
    FileSink.KeptBySealing out (fun units disk => Holds out units before disk) unit := by
  intro units state state' h
  constructor
  · intro hstored
    rcases of_run_store hstored with ⟨path, -, hwrite⟩ | ⟨⟨e, hanswer⟩, -⟩
    · exact h.created.stored hplain hwrite
    · cases hanswer
  · intro hlost
    rcases of_run_store hlost with ⟨path, hanswer, -⟩ | ⟨-, rfl⟩
    · cases hanswer
    · exact h.created

end Disk

/-- **Behind any actions, the directory holds the units that were sealed in memory**, as long as
all their files could be written. -/
theorem holds_fileRun {out : String} {actions : List SinkAction} {disk : Disk}
    (hplain : ∀ name ∈ openedNames actions, Path.PlainName name)
    (hlost : NothingLost out actions disk) :
    Disk.Holds out (memoryRun actions).2.units disk (fileRun out actions disk).2 :=
  (fileRun_eq_memoryRun (fun _ hunit => Disk.keptBySealing_holds hunit) hplain
    (.refl out disk) hlost).2

end ModelForge
