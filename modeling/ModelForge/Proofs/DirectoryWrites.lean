/-
`DirectoryWrites.lean` -- what writing below a directory does to a disk.

Two operations are looked at: creating a directory with what is missing on the way to it, and
writing a file whose name descends from the directory. Each leaves every location as it was, makes
a directory where there was nothing, on the way to the directory, or makes a file below the
directory (`Change`). Nothing is removed and a directory stays a directory, so a walk that
succeeded before leads to the same location afterwards (`Grows.walk`); that is why changes by one
operation after the other are changes of the same kind (`WrittenBelow.trans`).
-/
import ModelForge.Files.Disk
import ModelForge.Output.Unit
import ModelForge.Proofs.Paths

set_option autoImplicit false

namespace ModelForge

namespace Disk

variable {disk before middle after : Disk}

/-! ## Entries -/

/-- Putting an entry somewhere leaves what is elsewhere. -/
theorem entry?_put_of_ne {location other : Location} (h : other ≠ location) (entry : Entry)
    (hplain : Path.PlainNames location) :
    entry? (disk.put location entry hplain) other = disk.entry? other := by
  have hkeys : ∀ key, key = location → (other == key) = false := by
    rintro key rfl
    exact beq_eq_false_iff_ne.2 h
  have hfiltered (entries : List (Location × Entry)) :
      (entries.filter fun e => e.1 ≠ location).lookup other = entries.lookup other := by
    induction entries with
    | nil => rfl
    | cons first rest ih =>
        by_cases hfirst : first.1 = location
        · rw [List.filter_cons_of_neg (by simpa using hfirst), ih, List.lookup_cons, hkeys _ hfirst]
        · rw [List.filter_cons_of_pos (by simpa using hfirst), List.lookup_cons,
            ih, List.lookup_cons]
  have hput : (disk.put location entry hplain).entries.lookup other
      = disk.entries.lookup other := by
    rw [put, List.lookup_cons, hkeys _ rfl]
    exact hfiltered disk.entries
  unfold entry?
  rw [hput]

/-- What was put at a location is found there. -/
theorem entry?_put_self {location : Location} (h : location ≠ []) (entry : Entry)
    (hplain : Path.PlainNames location) :
    entry? (disk.put location entry hplain) location = some entry := by
  unfold entry?
  rw [if_neg h, put, List.lookup_cons, beq_self_eq_true]

theorem isDirectoryAt_iff {location : Location} :
    disk.isDirectoryAt location = true ↔ disk.entry? location = some .directory := by
  rw [isDirectoryAt]
  split <;> rename_i hentry <;> simp [hentry]

/-- The root is a directory. -/
theorem ne_nil_of_not_directory {location : Location} (h : disk.isDirectoryAt location = false) :
    location ≠ [] := by
  rintro rfl
  have hroot : disk.isDirectoryAt [] = true := isDirectoryAt_iff.2 (if_pos rfl)
  exact absurd hroot (by rw [h]; exact Bool.false_ne_true)

/-! ## Walks -/

/-- Where a step leads does not depend on the disk, as long as it begins at a directory. -/
theorem step_of_directory {location : Location} (h : disk.isDirectoryAt location = true)
    (piece : String) :
    disk.step location piece
      = if piece = "." then .ok location
        else if piece = ".." then .ok location.dropLast
        else if Path.PlainName piece ∧ piece.utf8ByteSize ≤ maxNameSize then
          .ok (location ++ [piece])
        else .error .invalid := by
  rw [step, isDirectoryAt_iff.1 h]

/-- Steps begin at directories. -/
theorem isDirectoryAt_of_step {location target : Location} {piece : String}
    (h : disk.step location piece = .ok target) : disk.isDirectoryAt location = true := by
  rw [step] at h
  rw [isDirectoryAt_iff]
  split at h
  · exact absurd h (by simp)
  · exact absurd h (by simp)
  · assumption

theorem walk_cons (location : Location) (piece : String) (pieces : List String) :
    disk.walk location (piece :: pieces)
      = (disk.step location piece).bind fun next => disk.walk next pieces := rfl

/-- A walk that arrives has taken its first step. -/
theorem exists_of_walk_cons {location target : Location} {piece : String} {pieces : List String}
    (h : disk.walk location (piece :: pieces) = .ok target) :
    ∃ next, disk.step location piece = .ok next ∧ disk.walk next pieces = .ok target := by
  rw [walk_cons] at h
  cases hstep : disk.step location piece with
  | error fault =>
      rw [hstep] at h
      exact absurd h (by simp [Except.bind])
  | ok next =>
      rw [hstep] at h
      exact ⟨next, rfl, h⟩

/-- A walk along two groups of pieces is two walks. -/
theorem walk_append (location : Location) (first second : List String) :
    disk.walk location (first ++ second)
      = (disk.walk location first).bind fun next => disk.walk next second := by
  rw [walk, List.foldlM_append]
  rfl

/-- So a walk that arrives has passed the end of the first group. -/
theorem exists_of_walk_append {location target : Location} {first second : List String}
    (h : disk.walk location (first ++ second) = .ok target) :
    ∃ next, disk.walk location first = .ok next ∧ disk.walk next second = .ok target := by
  rw [walk_append] at h
  cases hfirst : disk.walk location first with
  | error fault =>
      rw [hfirst] at h
      exact absurd h (by simp [Except.bind])
  | ok next =>
      rw [hfirst] at h
      exact ⟨next, rfl, h⟩

/-- A walk that never goes up adds its names. -/
theorem eq_of_walk {location target : Location} {pieces : List String} (hup : ".." ∉ pieces)
    (h : disk.walk location pieces = .ok target) :
    target = location ++ pieces.filter (· ≠ ".") := by
  induction pieces generalizing location with
  | nil =>
      rw [List.filter_nil, List.append_nil]
      exact (Except.ok.inj h).symm
  | cons piece rest ih =>
      rw [List.mem_cons, not_or] at hup
      obtain ⟨next, hstep, hrest⟩ := exists_of_walk_cons h
      have htarget := ih hup.2 hrest
      -- a dot stays where it is, and what is no dot here is a name
      rw [step_of_directory (isDirectoryAt_of_step hstep)] at hstep
      by_cases hdot : piece = "."
      · rw [if_pos hdot] at hstep
        rw [htarget, ← Except.ok.inj hstep, List.filter_cons_of_neg (by simpa using hdot)]
      · rw [if_neg hdot, if_neg (Ne.symm hup.1)] at hstep
        split at hstep
        · rw [htarget, ← Except.ok.inj hstep, List.filter_cons_of_pos (by simpa using hdot),
            List.append_assoc, List.singleton_append]
        · exact absurd hstep (by simp)

/-- Dots can be left out of a walk. -/
theorem walk_filter_of_walk {location target : Location} {pieces : List String}
    (h : disk.walk location pieces = .ok target) :
    disk.walk location (pieces.filter (· ≠ ".")) = .ok target := by
  induction pieces generalizing location with
  | nil => exact h
  | cons piece rest ih =>
      obtain ⟨next, hstep, hrest⟩ := exists_of_walk_cons h
      by_cases hdot : piece = "."
      · rw [step_of_directory (isDirectoryAt_of_step hstep), if_pos hdot] at hstep
        rw [List.filter_cons_of_neg (by simpa using hdot), Except.ok.inj hstep]
        exact ih hrest
      · rw [List.filter_cons_of_pos (by simpa using hdot), walk_cons, hstep]
        exact ih hrest

/-! ## Growth -/

/-- A disk on which all directories are still there. -/
structure Grows (before after : Disk) : Prop where
  home : after.home = before.home
  directories : ∀ location, before.isDirectoryAt location = true →
    after.isDirectoryAt location = true

/-- **A walk that arrived still arrives** where it did when more directories are there. -/
theorem Grows.walk (hgrows : Grows before after) {location target : Location} {pieces : List String}
    (h : before.walk location pieces = .ok target) : after.walk location pieces = .ok target := by
  induction pieces generalizing location with
  | nil => exact h
  | cons piece rest ih =>
      obtain ⟨next, hstep, hrest⟩ := exists_of_walk_cons h
      have hdirectory := isDirectoryAt_of_step hstep
      rw [step_of_directory hdirectory] at hstep
      rw [walk_cons, step_of_directory (hgrows.directories _ hdirectory), hstep]
      exact ih hrest

/-- A path begins where it did. -/
theorem Grows.start (hgrows : Grows before after) (path : String) :
    after.start path = before.start path := by
  rw [Disk.start, Disk.start, hgrows.home]

/-! ## Places -/

/-- The location of a directory, if its path leads to one. -/
def place (disk : Disk) (directory : String) : Except PathFault Location :=
  disk.walk (disk.start directory) (Path.directoryPieces directory)

/-- A location that the path of a directory passes, or ends at. -/
def OnTheWay (disk : Disk) (directory : String) (location : Location) : Prop :=
  ∃ names, names <+: (Path.directoryPieces directory).filter (· ≠ ".")
    ∧ disk.walk (disk.start directory) names = .ok location

/-- A directory is found where it was. -/
theorem Grows.place (hgrows : Grows before after) {directory : String} {target : Location}
    (h : before.place directory = .ok target) : after.place directory = .ok target := by
  rw [Disk.place, hgrows.start]
  exact hgrows.walk h

/-- What is on the way to a directory is on the way still. -/
theorem Grows.onTheWay (hgrows : Grows before after) {directory : String} {location : Location}
    (h : before.OnTheWay directory location) : after.OnTheWay directory location := by
  obtain ⟨names, hnames, hwalk⟩ := h
  refine ⟨names, hnames, ?_⟩
  rw [hgrows.start]
  exact hgrows.walk hwalk

/-- **What descends from a directory is located below it.** -/
theorem exists_place_of_locate {directory name : String} (hname : Path.Descends name)
    {location : Location} (h : disk.locate (Path.join directory name) = .ok location) :
    ∃ target, disk.place directory = .ok target ∧ location = target ++ Path.names name := by
  rw [locate] at h
  split at h
  · exact absurd h (by simp)
  split at h
  · exact absurd h (by simp)
  obtain ⟨dots, hdots, hpieces⟩ := Path.pieces_join directory hname.relative
  have hstart : disk.start (Path.join directory name) = disk.start directory := by
    rw [start, start, Path.isAbsolute_join hname.relative]
  rw [hpieces, hstart] at h
  -- the walk goes to the directory, then along dots, then along the name
  obtain ⟨next, hfront, hback⟩ := exists_of_walk_append h
  obtain ⟨target, hplace, hrest⟩ := exists_of_walk_append hfront
  refine ⟨target, hplace, ?_⟩
  have hnext : next = target := by
    rw [eq_of_walk (fun hup => absurd (hdots _ hup) (by decide)) hrest,
      List.filter_eq_nil_iff.2 fun piece hpiece => by simpa using hdots piece hpiece,
      List.append_nil]
  rw [eq_of_walk hname.neverUp hback, hnext, Path.names]

/-! ## Changes -/

/-- What may have become of a location while the files of some units were written in a directory. -/
inductive Change (directory : String) (files : List SourceUnit) (before after : Disk)
    (location : Location) : Prop
  | same (h : after.entry? location = before.entry? location)
  | created (hbefore : before.entry? location = none)
      (hafter : after.entry? location = some .directory)
      (hway : after.OnTheWay directory location)
  | stored {unit : SourceUnit} {target : Location} (hunit : unit ∈ files)
      (hplace : after.place directory = .ok target)
      (hlocation : location = target ++ Path.names unit.name)
      (hbefore : before.isDirectoryAt location = false)
      (hafter : after.entry? location = some (.file unit.text.toUTF8))

/-- A disk before and after the files of some units were written in a directory. -/
structure WrittenBelow (directory : String) (files : List SourceUnit) (before after : Disk) :
    Prop where
  home : after.home = before.home
  changes : ∀ location, Change directory files before after location

variable {directory : String} {files : List SourceUnit}

theorem WrittenBelow.refl (disk : Disk) : WrittenBelow directory files disk disk :=
  ⟨rfl, fun _ => .same rfl⟩

/-- A directory stays one. -/
theorem WrittenBelow.grows (h : WrittenBelow directory files before after) :
    Grows before after where
  home := h.home
  directories location hdirectory := by
    rw [isDirectoryAt_iff] at hdirectory ⊢
    cases h.changes location with
    | same hsame => rw [hsame, hdirectory]
    | created hnone hafter => exact hafter
    | stored hunit hplace hlocation hfile =>
        -- a file is only stored where there is no directory
        rw [isDirectoryAt_iff.2 hdirectory] at hfile
        exact absurd hfile (by decide)

/-- Nothing is removed. -/
theorem WrittenBelow.isSome_entry? (h : WrittenBelow directory files before after)
    {location : Location} (hentry : (before.entry? location).isSome = true) :
    (after.entry? location).isSome = true := by
  cases h.changes location with
  | same hsame => rw [hsame, hentry]
  | created hnone hafter => rw [hafter, Option.isSome_some]
  | stored hunit hplace hlocation hfile hafter => rw [hafter, Option.isSome_some]

/-- **Changes follow one another.** -/
theorem WrittenBelow.trans (hfirst : WrittenBelow directory files before middle)
    (hsecond : WrittenBelow directory files middle after) :
    WrittenBelow directory files before after where
  home := hsecond.home.trans hfirst.home
  changes location := by
    cases hsecond.changes location with
    | same hsame =>
        cases hfirst.changes location with
        | same hsame' => exact .same (hsame.trans hsame')
        | created hbefore hmiddle hway =>
            exact .created hbefore (hsame.trans hmiddle) (hsecond.grows.onTheWay hway)
        | stored hunit hplace hlocation hbefore hmiddle =>
            exact .stored hunit (hsecond.grows.place hplace) hlocation hbefore (hsame.trans hmiddle)
    | created hmiddle hafter hway =>
        -- where there is nothing in the middle there was nothing before
        cases hbefore : before.entry? location with
        | none => exact .created hbefore hafter hway
        | some entry =>
            have hsome : (middle.entry? location).isSome = true :=
              hfirst.isSome_entry? (by rw [hbefore, Option.isSome_some])
            rw [hmiddle] at hsome
            exact absurd hsome (by decide)
    | stored hunit hplace hlocation hmiddle hafter =>
        refine .stored hunit hplace hlocation ?_ hafter
        rw [← Bool.not_eq_true] at hmiddle ⊢
        exact fun hdirectory => hmiddle (hfirst.grows.directories location hdirectory)

/-! ## Creating a directory -/

/-- A directory that is created is where its pieces lead, and there was nothing. -/
theorem exists_of_createAt {pieces : List String}
    (h : before.createAt directory pieces = .created after) :
    ∃ target hplain, before.walk (before.start directory) pieces = .ok target
      ∧ before.entry? target = none ∧ after = before.put target .directory hplain := by
  unfold createAt at h
  split at h
  · exact absurd h (by simp)
  · exact absurd h (by simp)
  · rename_i target htarget
    split at h
    · exact absurd h (by simp)
    · rename_i hentry
      exact ⟨target, _, htarget, by simpa using hentry, (Creation.created.inj h).symm⟩

/-- An entry that is put where no directory was takes none away. -/
theorem grows_put {location : Location} (h : before.isDirectoryAt location = false) (entry : Entry)
    (hplain : Path.PlainNames location) : Grows before (before.put location entry hplain) where
  home := rfl
  directories other hother := by
    have hne : other ≠ location := by
      rintro rfl
      rw [h] at hother
      exact absurd hother (by decide)
    rwa [isDirectoryAt_iff, entry?_put_of_ne hne, ← isDirectoryAt_iff]

/-- Putting an entry somewhere changes nothing elsewhere. -/
theorem writtenBelow_put {location : Location} {entry : Entry} {hplain : Path.PlainNames location}
    (h : Change directory files before (before.put location entry hplain) location) :
    WrittenBelow directory files before (before.put location entry hplain) where
  home := rfl
  changes other := by
    by_cases hother : other = location
    · rwa [hother]
    · exact .same (entry?_put_of_ne hother entry hplain)

/-- The pieces of a directory on the way to another one, dots apart. -/
def LeadTo (directory : String) (pieces : List String) : Prop :=
  pieces.filter (· ≠ ".") <+: (Path.directoryPieces directory).filter (· ≠ ".")

/-- A directory that is created on the way to another one is a change of the allowed kind. -/
theorem writtenBelow_createAt {pieces : List String} (hpieces : LeadTo directory pieces)
    (h : before.createAt directory pieces = .created after) :
    WrittenBelow directory files before after := by
  obtain ⟨target, hplain, hwalk, hnone, rfl⟩ := exists_of_createAt h
  have hnot : before.isDirectoryAt target = false := by
    rw [← Bool.not_eq_true, isDirectoryAt_iff, hnone]
    exact (Option.some_ne_none _).symm
  refine writtenBelow_put (.created hnone (entry?_put_self (ne_nil_of_not_directory hnot) _ _) ?_)
  exact (grows_put hnot _ hplain).onTheWay ⟨_, hpieces, walk_filter_of_walk hwalk⟩

theorem writtenBelow_createLast {pieces : List String} (hpieces : LeadTo directory pieces) :
    WrittenBelow directory files before (before.createLast directory pieces).2 := by
  unfold createLast
  split
  · rename_i hcreated
    exact writtenBelow_createAt hpieces hcreated
  · exact .refl _
  · exact .refl _

/-- What is on the way to a directory is created as it is. -/
theorem writtenBelow_createThrough {pieces parents : List String}
    (hpieces : LeadTo directory pieces)
    (hparents : parents.reverse <+: (Path.directoryPieces directory).filter (· ≠ ".")) :
    WrittenBelow directory files before (before.createThrough directory pieces parents).2 := by
  induction parents generalizing pieces with
  | nil => exact writtenBelow_createLast hpieces
  | cons name parents ih =>
      rw [createThrough]
      split
      · rename_i hcreated
        exact writtenBelow_createAt hpieces hcreated
      · exact .refl _
      · -- the parents come first, which have no dots among them and parents of their own
        have hdots : (name :: parents).reverse.filter (· ≠ ".") = (name :: parents).reverse := by
          refine List.filter_eq_self.2 fun piece hpiece => ?_
          exact (List.mem_filter.1 (hparents.subset hpiece)).2
        have hfront : parents.reverse <+: (Path.directoryPieces directory).filter (· ≠ ".") := by
          rw [List.reverse_cons] at hparents
          exact (List.prefix_append _ _).trans hparents
        have hthrough : WrittenBelow directory files before
            (before.createThrough directory (name :: parents).reverse parents).2 :=
          ih (by rwa [LeadTo, hdots]) hfront
        split
        · rename_i middle hmiddle
          rw [hmiddle] at hthrough
          exact hthrough.trans (writtenBelow_createLast hpieces)
        · rename_i fault middle hmiddle
          rwa [hmiddle] at hthrough

/-- **Creating a directory changes nothing but the way to it.** -/
theorem writtenBelow_createAll (directory : String) (files : List SourceUnit) (before : Disk) :
    WrittenBelow directory files before (before.createAll directory).2 := by
  unfold createAll
  split
  · exact .refl _
  split
  · exact .refl _
  dsimp only
  split
  · exact .refl _
  · refine writtenBelow_createThrough (List.prefix_refl _) ?_
    rw [Path.parentNames, List.drop_one, List.tail_reverse, List.reverse_reverse]
    exact List.dropLast_prefix _

/-! ## Writing a file -/

/-- A file that is written below a directory is stored there, and nothing else changes. -/
theorem writtenBelow_writeText {unit : SourceUnit} (hunit : unit ∈ files)
    (hdescends : Path.Descends unit.name)
    (h : before.writeText (Path.join directory unit.name) unit.text = .ok after) :
    WrittenBelow directory files before after := by
  unfold writeText writeBytes at h
  split at h
  · exact absurd h (by simp)
  · rename_i location hlocate
    split at h
    · exact absurd h (by simp)
    · rename_i hnot
      rw [Bool.not_eq_true] at hnot
      obtain ⟨target, hplace, hlocation⟩ := exists_place_of_locate hdescends hlocate
      rw [← Except.ok.inj h]
      refine writtenBelow_put (.stored hunit ((grows_put hnot _ _).place hplace) hlocation hnot ?_)
      exact entry?_put_self (ne_nil_of_not_directory hnot) _ _

end Disk

end ModelForge
