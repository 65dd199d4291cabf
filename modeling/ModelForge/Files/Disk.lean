/-
`Disk.lean` -- a file system in memory.

A disk is a set of entries, each at a location: the names on the way to it from the root, every
one of which a file may have. There are files and directories and no links, so a location is
reached in one way. Paths that do not begin at the root begin at `home`. Resolving a path walks
from directory to directory; only its last name may lead to nothing.
-/
import ModelForge.Files.Path
import ModelForge.Files.System

set_option autoImplicit false

namespace ModelForge

/-! ## Entries -/

/-- The names on the way from the root. -/
abbrev Location := List String

/-- What may be at a location. -/
inductive Entry where
  | directory
  | file (contents : ByteArray)

/-- A file system. The root is a directory without being listed. -/
structure Disk where
  entries : List (Location × Entry)
  home : Location
  plain : ∀ e ∈ entries, Path.PlainNames e.1
  plain_home : Path.PlainNames home

namespace Disk

/-- What is at a location. -/
def entry? (disk : Disk) (location : Location) : Option Entry :=
  if location = [] then some .directory else disk.entries.lookup location

/-- Whether there is a directory at a location. -/
def isDirectoryAt (disk : Disk) (location : Location) : Bool :=
  match disk.entry? location with
  | some .directory => true
  | some (.file _) => false
  | none => false

/-- The disk with an entry at a location, in place of what was there. -/
def put (disk : Disk) (location : Location) (entry : Entry)
    (h : Path.PlainNames location := by decide) : Disk :=
  { disk with
    entries := (location, entry) :: disk.entries.filter fun e => e.1 ≠ location
    plain := List.forall_mem_cons.2 ⟨h, fun e he => disk.plain e (List.mem_filter.1 he).1⟩ }

/-- The disk without what is at a location and below it. -/
def cutOff (disk : Disk) (location : Location) : Disk :=
  { disk with
    entries := disk.entries.filter fun e => !location.isPrefixOf e.1
    plain := fun e he => disk.plain e (List.mem_filter.1 he).1 }

/-- The disk with nothing but the directories on the way to `home`. -/
def atHome (home : Location) (h : Path.PlainNames home := by decide) : Disk where
  entries := (List.range home.length).map fun n => (home.take (n + 1), .directory)
  home := home
  plain := by
    rw [List.forall_mem_map]
    exact fun n _ name hname => h name (List.mem_of_mem_take hname)
  plain_home := h

/-- The names directly below a location. -/
def namesBelow (disk : Disk) (location : Location) : List String :=
  disk.entries.filterMap fun e =>
    match e.1.getLast? with
    | some name => if e.1.dropLast = location then some name else none
    | none => none

/-! ## Resolving paths -/

/-- The longest name of an entry, in bytes. -/
def maxNameSize : Nat := 255

/-- The longest path, in bytes. -/
def maxPathSize : Nat := 4095

/-- Why a path leads nowhere. -/
inductive PathFault where
  /-- A name on the way is not there. -/
  | missing
  /-- Something on the way is no directory, or the path is none that a system takes. -/
  | invalid
  deriving DecidableEq, Repr

/-- The fault in a report. -/
def PathFault.toFileFault : PathFault → FileFault
  | .missing => ⟨"No such file or directory"⟩
  | .invalid => ⟨"Invalid path"⟩

/-- One step of a walk, from a location that has to be a directory. -/
def step (disk : Disk) (location : Location) (piece : String) : Except PathFault Location :=
  match disk.entry? location with
  | none => .error .missing
  | some (.file _) => .error .invalid
  | some .directory =>
      if piece = "." then .ok location
      else if piece = ".." then .ok location.dropLast
      else if Path.PlainName piece ∧ piece.utf8ByteSize ≤ maxNameSize then .ok (location ++ [piece])
      else .error .invalid

/-- The location that some pieces of a path lead to from another location. What is at the last one
is left open. -/
def walk (disk : Disk) (location : Location) (pieces : List String) : Except PathFault Location :=
  pieces.foldlM disk.step location

/-- Where the pieces of a path begin. -/
def start (disk : Disk) (path : String) : Location := if Path.isAbsolute path then [] else disk.home

section PlainLocations

variable {disk : Disk}

/-- A step leads from plain names to plain names, as a location only gets a name that is plain. -/
theorem plain_of_step {location target : Location} {piece : String}
    (hplain : Path.PlainNames location) (h : disk.step location piece = .ok target) :
    Path.PlainNames target := by
  unfold step at h
  split at h
  · exact absurd h (by simp)
  · exact absurd h (by simp)
  split at h
  · exact Except.ok.inj h ▸ hplain
  split at h
  · exact Except.ok.inj h ▸ fun name hname => hplain name (List.dropLast_subset _ hname)
  split at h
  · rename_i hpiece
    exact Except.ok.inj h ▸ List.forall_mem_append.2 ⟨hplain, List.forall_mem_singleton.2 hpiece.1⟩
  · exact absurd h (by simp)

/-- So does a walk. -/
theorem plain_of_walk {location target : Location} {pieces : List String}
    (hplain : Path.PlainNames location) (h : disk.walk location pieces = .ok target) :
    Path.PlainNames target := by
  induction pieces generalizing location with
  | nil => exact Except.ok.inj h ▸ hplain
  | cons piece rest ih =>
      rw [walk, List.foldlM_cons] at h
      cases hstep : disk.step location piece with
      | error fault =>
          rw [hstep] at h
          exact absurd h (by simp [bind, Except.bind])
      | ok next =>
          rw [hstep] at h
          exact ih (plain_of_step hplain hstep) h

theorem plain_start (disk : Disk) (path : String) : Path.PlainNames (disk.start path) := by
  unfold start
  split
  · exact List.forall_mem_nil _
  · exact disk.plain_home

end PlainLocations

/-- The location that a path leads to. What is there is left open. -/
def locate (disk : Disk) (path : String) : Except PathFault Location :=
  if path.isEmpty then .error .missing
  else if '\x00' ∈ path.toList ∨ maxPathSize < path.utf8ByteSize then .error .invalid
  else disk.walk (disk.start path) (Path.pieces path)

/-- Whatever a path says, it leads to plain names. -/
theorem plain_of_locate {disk : Disk} {path : String} {location : Location}
    (h : disk.locate path = .ok location) : Path.PlainNames location := by
  unfold locate at h
  split at h
  · exact absurd h (by simp)
  split at h
  · exact absurd h (by simp)
  · exact plain_of_walk (disk.plain_start path) h

/-- The location that a path leads to, and what is there. -/
def find (disk : Disk) (path : String) : Except PathFault (Location × Entry) := do
  let location ← disk.locate path
  match disk.entry? location with
  | some entry => .ok (location, entry)
  | none => .error .missing

/-! ## Creating directories -/

/-- The outcome of creating one directory. -/
inductive Creation where
  | created (disk : Disk)
  /-- A directory on the way is missing. -/
  | missingParent
  /-- There is something already, or the path cannot be taken. -/
  | refused

/-- Creates one directory at the end of the given pieces, which begin where the path does. A dot
at the end names what is there. -/
def createAt (disk : Disk) (path : String) (pieces : List String) : Creation :=
  match h : disk.walk (disk.start path) pieces with
  | .error .missing => .missingParent
  | .error .invalid => .refused
  | .ok target =>
      if (disk.entry? target).isSome then .refused
      else .created (disk.put target .directory (plain_of_walk (disk.plain_start path) h))

/-- Whether some pieces lead to a directory. -/
def leadsToDirectory (disk : Disk) (path : String) (pieces : List String) : Bool :=
  match disk.walk (disk.start path) pieces with
  | .ok target => disk.isDirectoryAt target
  | .error _ => false

/-- Whether it is a fault that nothing can be created at the end of some pieces: not if a
directory is there already. -/
def settled (disk : Disk) (path : String) (pieces : List String) : Except PathFault Unit :=
  if disk.leadsToDirectory path pieces then .ok () else .error .invalid

/-- Creates the directory at the end of the given pieces. What is missing on the way has been
created already. -/
def createLast (disk : Disk) (path : String) (pieces : List String) :
    Except PathFault Unit × Disk :=
  match disk.createAt path pieces with
  | .created disk' => (.ok (), disk')
  | .missingParent => (.error .missing, disk)
  | .refused => (disk.settled path pieces, disk)

/-- Creates the directory at the end of the given pieces: directly where that is possible, else
after those for the names on the way to it, which are given last name first. What has been created
stays when a later one cannot be. -/
def createThrough (disk : Disk) (path : String) (pieces : List String) :
    List String → Except PathFault Unit × Disk
  | [] => disk.createLast path pieces
  | name :: parents =>
      match disk.createAt path pieces with
      | .created disk' => (.ok (), disk')
      | .refused => (disk.settled path pieces, disk)
      | .missingParent =>
          match disk.createThrough path (name :: parents).reverse parents with
          | (.ok _, disk') => disk'.createLast path pieces
          | (.error fault, disk') => (.error fault, disk')

/-- Creates the directory that a path leads to, and what is missing on the way. -/
def createAll (disk : Disk) (path : String) : Except PathFault Unit × Disk :=
  if path.isEmpty then (.ok (), disk)
  else if '\x00' ∈ path.toList ∨ maxPathSize < path.utf8ByteSize then (.error .invalid, disk)
  else
    let pieces := Path.directoryPieces path
    if pieces.isEmpty then (.ok (), disk)
    else disk.createThrough path pieces (Path.parentNames pieces)

/-! ## Operations -/

/-- The text of the file that a path leads to. -/
def readText (disk : Disk) (path : String) : Except FileFault String :=
  match disk.find path with
  | .ok (_, .file contents) =>
      match String.fromUTF8? contents with
      | some text => .ok text
      | none => .error ⟨"stream did not contain valid UTF-8"⟩
  | .ok (_, .directory) => .error ⟨"Is a directory"⟩
  | .error fault => .error fault.toFileFault

/-- The disk after some bytes have become the contents of the file that a path leads to. -/
def writeBytes (disk : Disk) (path : String) (contents : ByteArray) : Except FileFault Disk :=
  match h : disk.locate path with
  | .error fault => .error fault.toFileFault
  | .ok location =>
      if disk.isDirectoryAt location then .error ⟨"Is a directory"⟩
      else .ok (disk.put location (.file contents) (plain_of_locate h))

/-- The disk after a text has become the contents of the file that a path leads to. -/
def writeText (disk : Disk) (path text : String) : Except FileFault Disk :=
  disk.writeBytes path text.toUTF8

/-- The names in the directory that a path leads to. -/
def entryNames (disk : Disk) (path : String) : Except FileFault (List String) :=
  match disk.find path with
  | .ok (location, .directory) => .ok (disk.namesBelow location)
  | .ok (_, .file _) => .error ⟨"Not a directory"⟩
  | .error fault => .error fault.toFileFault

/-- The disk without the directory that a path leads to. -/
def removeTree (disk : Disk) (path : String) : Except FileFault Disk :=
  match disk.find path with
  | .ok (location, .directory) => .ok (disk.cutOff location)
  | .ok (_, .file _) => .error ⟨"Not a directory"⟩
  | .error fault => .error fault.toFileFault

/-- The disk without the file that a path leads to. -/
def removeFile (disk : Disk) (path : String) : Except FileFault Disk :=
  match disk.find path with
  | .ok (location, .file _) => .ok (disk.cutOff location)
  | .ok (_, .directory) => .error ⟨"Is a directory"⟩
  | .error fault => .error fault.toFileFault

/-- An entry in a listing: its path, and its contents if it is a file. The path of a directory
ends with a separator. -/
def listed (names : List String) : Entry → String × Option ByteArray
  | .directory => ("/".intercalate names ++ "/", none)
  | .file contents => ("/".intercalate names, some contents)

/-- All that is below a location, in the order of the paths. -/
def listing (disk : Disk) (location : Location) : List (String × Option ByteArray) :=
  let below := disk.entries.filter fun e => location.isPrefixOf e.1 && e.1 ≠ location
  (below.map fun e => listed (e.1.drop location.length) e.2).mergeSort fun a b => decide (a.1 ≤ b.1)

/-- An operation in one step that may change the disk. One that fails changes nothing. -/
def change (operation : Disk → Except FileFault Disk) : StateM Disk (Except FileFault Unit) :=
  fun disk =>
    match operation disk with
    | .ok disk' => (.ok (), disk')
    | .error fault => (.error fault, disk)

instance : FileSystem (StateM Disk) where
  isDirectory path := fun disk =>
    (match disk.find path with
      | .ok (_, .directory) => true
      | .ok (_, .file _) => false
      | .error _ => false, disk)
  isPresent path := fun disk =>
    (match disk.find path with
      | .ok _ => true
      | .error _ => false, disk)
  canonical path := fun disk =>
    (match disk.find path with
      | .ok (location, _) => .ok location
      | .error fault => .error fault.toFileFault, disk)
  entryNames path := fun disk => (disk.entryNames path, disk)
  readText path := fun disk => (disk.readText path, disk)
  createDirectories path := fun disk =>
    match disk.createAll path with
    | (.ok _, disk') => (.ok (), disk')
    | (.error fault, disk') => (.error fault.toFileFault, disk')
  writeText path text := change fun disk => disk.writeText path text
  removeTree path := change fun disk => disk.removeTree path
  removeFile path := change fun disk => disk.removeFile path

end Disk

end ModelForge
