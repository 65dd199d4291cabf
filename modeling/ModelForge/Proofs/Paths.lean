/-
`Paths.lean` -- paths of names in a directory.

A path is cut at its separators, so a relative name that is joined to a directory adds its own
pieces behind those of the directory (`pieces_join`). A name without a separator adds one piece,
itself (`PlainName`). The name of a unit has a separator exactly where its namespace has one,
begins with one exactly where its namespace does, and has no piece that leads up, because all dots
of a namespace have been replaced.
-/
import ModelForge.Files.Path
import ModelForge.Generate.Run
import ModelForge.Proofs.Identifiers

set_option autoImplicit false

namespace ModelForge

namespace Path

/-! ## Cutting -/

/-- A separator in front leaves an empty piece. -/
theorem cut_separator (rest : List Char) : cut (separator :: rest) = [] :: cut rest := by
  rw [cut]
  exact if_pos rfl

/-- A piece begins with the first character that is no separator. -/
theorem exists_cut_cons {c : Char} (h : c ≠ separator) (rest : List Char) :
    ∃ piece pieces, cut rest = piece :: pieces ∧ cut (c :: rest) = (c :: piece) :: pieces := by
  have hne : cut rest ≠ [] := by
    cases rest with
    | nil => exact List.cons_ne_nil _ _
    | cons d rest =>
        rw [cut]
        split
        · exact List.cons_ne_nil _ _
        · split <;> exact List.cons_ne_nil _ _
  obtain ⟨piece, pieces, hrest⟩ := List.exists_cons_of_ne_nil hne
  refine ⟨piece, pieces, hrest, ?_⟩
  rw [cut, if_neg h, hrest]

/-- Two texts with a separator between them are cut like each of them. -/
theorem cut_append_separator (front back : List Char) :
    cut (front ++ separator :: back) = cut front ++ cut back := by
  induction front with
  | nil => exact cut_separator back
  | cons c front ih =>
      by_cases hc : c = separator
      · rw [hc, List.cons_append, cut_separator, cut_separator, ih, List.cons_append]
      · -- the first piece is the same with and without what comes behind the separator
        obtain ⟨piece, pieces, hfront, hcons⟩ := exists_cut_cons hc front
        obtain ⟨piece', pieces', hall, hcons'⟩ := exists_cut_cons hc (front ++ separator :: back)
        rw [ih, hfront, List.cons_append] at hall
        obtain ⟨rfl, rfl⟩ := List.cons.inj hall
        rw [List.cons_append, hcons', hcons, List.cons_append]

/-- Without a separator there is one piece, the text itself. -/
theorem cut_of_not_mem {text : List Char} (h : separator ∉ text) : cut text = [text] := by
  induction text with
  | nil => rfl
  | cons c rest ih =>
      rw [List.mem_cons, not_or] at h
      rw [cut, if_neg (Ne.symm h.1), ih h.2]

/-- Separators at the end are followed by pieces without text. -/
theorem cut_append_replicate (text : List Char) (n : Nat) :
    cut (text ++ List.replicate n separator) = cut text ++ List.replicate n [] := by
  induction n with
  | zero => rw [List.replicate_zero, List.replicate_zero, List.append_nil, List.append_nil]
  | succ n ih =>
      rw [List.replicate_succ', List.replicate_succ', ← List.append_assoc,
        cut_append_separator, ih, cut, List.append_assoc]

/-- A piece is part of the path. -/
theorem sublist_of_mem_cut {text piece : List Char} (h : piece ∈ cut text) :
    piece.Sublist text := by
  induction text generalizing piece with
  | nil =>
      rcases List.mem_singleton.1 h with rfl
      exact List.Sublist.slnil
  | cons c rest ih =>
      by_cases hc : c = separator
      · rw [hc, cut_separator] at h
        rcases List.mem_cons.1 h with rfl | h
        · exact List.nil_sublist _
        · exact (ih h).trans (List.sublist_cons_self _ _)
      · obtain ⟨first, pieces, hrest, hcons⟩ := exists_cut_cons hc rest
        rw [hrest] at ih
        rw [hcons] at h
        rcases List.mem_cons.1 h with rfl | h
        · exact (ih List.mem_cons_self).cons_cons c
        · exact (ih (List.mem_cons_of_mem _ h)).trans (List.sublist_cons_self _ _)

/-- Every character but the separators is in a piece. -/
theorem exists_mem_cut {text : List Char} {c : Char} (h : c ∈ text) (hc : c ≠ separator) :
    ∃ piece ∈ cut text, c ∈ piece := by
  induction text with
  | nil => exact absurd h List.not_mem_nil
  | cons d rest ih =>
      by_cases hd : d = separator
      · have hmem : c ∈ rest := (List.mem_cons.1 h).resolve_left fun heq => hc (heq.trans hd)
        obtain ⟨piece, hpiece, hin⟩ := ih hmem
        rw [hd, cut_separator]
        exact ⟨piece, List.mem_cons_of_mem _ hpiece, hin⟩
      · obtain ⟨first, pieces, hrest, hcons⟩ := exists_cut_cons hd rest
        rw [hrest] at ih
        rw [hcons]
        rcases List.mem_cons.1 h with rfl | h
        · exact ⟨_, List.mem_cons_self, List.mem_cons_self⟩
        · obtain ⟨piece, hpiece, hin⟩ := ih h
          rcases List.mem_cons.1 hpiece with rfl | hpiece
          · exact ⟨_, List.mem_cons_self, List.mem_cons_of_mem _ hin⟩
          · exact ⟨piece, List.mem_cons_of_mem _ hpiece, hin⟩

/-! ## Pieces -/

/-- A piece of a path as a text. -/
def pieceText (piece : List Char) : String :=
  if (String.ofList piece).isEmpty then "." else String.ofList piece

/-- An empty piece is written as the directory it is in. -/
theorem toList_pieceText (piece : List Char) :
    (pieceText piece).toList = if piece = [] then ['.'] else piece := by
  have hempty : (String.ofList piece).isEmpty = true ↔ piece = [] := by
    rw [String.isEmpty_iff, ← String.toList_eq_nil_iff, String.toList_ofList]
  rw [pieceText]
  by_cases hpiece : piece = []
  · rw [if_pos (hempty.2 hpiece), if_pos hpiece]
    rfl
  · rw [if_neg (mt hempty.1 hpiece), if_neg hpiece, String.toList_ofList]

/-- The pieces of a path are its parts between separators. -/
theorem pieces_eq (path : String) : pieces path = (cut path.toList).map pieceText := by
  rw [pieces, List.map_map]
  rfl

/-- A path without the separators at its end. -/
def trimmed (path : List Char) : List Char := (path.reverse.dropWhile (· = separator)).reverse

/-- Of a directory only the separators at the end are left out. -/
theorem directoryPieces_eq (path : String) :
    directoryPieces path
      = if trimmed path.toList = [] then [] else (cut (trimmed path.toList)).map pieceText := by
  rw [directoryPieces, trimmed]
  simp only [List.isEmpty_iff, pieces_eq, String.toList_ofList]

/-- Only separators stand behind what is left of a path. -/
theorem exists_trimmed (path : List Char) :
    ∃ n, path = trimmed path ++ List.replicate n separator := by
  have hends : ∀ c ∈ path.reverse.takeWhile fun c => decide (c = separator), c = separator :=
    fun c hc => of_decide_eq_true (List.all_eq_true.1 List.all_takeWhile c hc)
  refine ⟨(path.reverse.takeWhile fun c => decide (c = separator)).length, ?_⟩
  calc path = (path.reverse.takeWhile (fun c => decide (c = separator))
          ++ path.reverse.dropWhile fun c => decide (c = separator)).reverse := by
        rw [List.takeWhile_append_dropWhile, List.reverse_reverse]
    _ = trimmed path ++ (path.reverse.takeWhile fun c => decide (c = separator)).reverse := by
        rw [List.reverse_append, trimmed]
    _ = _ := by
        rw [← List.reverse_replicate, ← List.eq_replicate_of_mem hends]

/-- One more separator at the end does not matter. -/
theorem trimmed_append_separator (path : List Char) :
    trimmed (path ++ [separator]) = trimmed path := by
  rw [trimmed, List.reverse_append, List.reverse_singleton, List.singleton_append,
    List.dropWhile_cons_of_pos (by decide), trimmed]

/-! ## Names in a directory -/

/-- A path is absolute if it begins with the separator. -/
theorem isAbsolute_iff {path : String} :
    isAbsolute path = true ↔ path.toList.head? = some separator := by
  rw [isAbsolute, decide_eq_true_iff]

/-- A relative name stands behind its directory, and behind a separator if the directory has a
name. -/
theorem join_of_relative {directory name : String} (hname : isAbsolute name = false) :
    join directory name
      = if directory = "" then name else asDirectory directory ++ name := by
  rw [join, if_neg (by rw [hname]; exact Bool.false_ne_true), asDirectory]
  by_cases hdirectory : directory = ""
  · rw [if_pos hdirectory, hdirectory]
    exact String.empty_append
  · rw [if_neg hdirectory]
    have hnamed : directory.isEmpty = false := by
      rw [← Bool.not_eq_true, String.isEmpty_iff]
      exact hdirectory
    rw [hnamed, Bool.false_or]
    split <;> rfl

/-- What is in front of the separator is the directory but for separators at its end. -/
theorem exists_asDirectory_eq (directory : String) :
    ∃ front, (asDirectory directory).toList = front ++ [separator]
      ∧ trimmed front = trimmed directory.toList := by
  rw [asDirectory]
  by_cases hends : endsWithSeparator directory = true
  · obtain ⟨front, hfront⟩ := List.getLast?_eq_some_iff.1 (of_decide_eq_true hends)
    rw [if_pos hends, hfront]
    exact ⟨front, rfl, (trimmed_append_separator front).symm⟩
  · rw [if_neg hends]
    exact ⟨directory.toList, String.toList_append, rfl⟩

/-- A relative name leads on from the directory, which may be absolute or not. -/
theorem isAbsolute_join {directory name : String} (hname : isAbsolute name = false) :
    isAbsolute (join directory name) = isAbsolute directory := by
  rw [join_of_relative hname]
  by_cases hdirectory : directory = ""
  · rw [if_pos hdirectory, hname, hdirectory]
    rfl
  · rw [if_neg hdirectory, isAbsolute, isAbsolute, asDirectory]
    obtain ⟨c, rest, hfirst⟩ :=
      List.exists_cons_of_ne_nil fun h => hdirectory (String.toList_eq_nil_iff.1 h)
    split
    · rw [String.toList_append, hfirst]
      rfl
    · rw [String.toList_append, String.toList_append, hfirst]
      rfl

/-- **A relative name adds its pieces to those of the directory.** There may be dots between them.
-/
theorem pieces_join (directory : String) {name : String} (hname : isAbsolute name = false) :
    ∃ dots, (∀ piece ∈ dots, piece = ".")
      ∧ pieces (join directory name) = directoryPieces directory ++ dots ++ pieces name := by
  rw [join_of_relative hname]
  by_cases hdirectory : directory = ""
  · refine ⟨[], List.forall_mem_nil _, ?_⟩
    rw [if_pos hdirectory, hdirectory]
    rfl
  · obtain ⟨front, hjoin, hfront⟩ := exists_asDirectory_eq directory
    obtain ⟨n, hends⟩ := exists_trimmed front
    rw [if_neg hdirectory, pieces_eq, String.toList_append, hjoin, List.append_assoc,
      List.singleton_append, cut_append_separator, hends, cut_append_replicate,
      hfront, List.map_append,
      List.map_append, ← pieces_eq, directoryPieces_eq, List.map_replicate]
    have hdots : ∀ piece ∈ List.replicate n (pieceText []), piece = "." := fun _ h =>
      List.eq_of_mem_replicate h
    by_cases hroot : trimmed directory.toList = []
    · -- the root has no pieces, but the text in front of its separator counts as one
      refine ⟨"." :: List.replicate n (pieceText []), List.forall_mem_cons.2 ⟨rfl, hdots⟩, ?_⟩
      rw [if_pos hroot, hroot]
      rfl
    · exact ⟨_, hdots, by rw [if_neg hroot]⟩

/-! ## Plain names -/

/-- The names on a path. Dots are none. -/
def names (path : String) : List String := (pieces path).filter (· ≠ ".")

/-- A name without a separator is its only piece. -/
theorem pieces_of_not_mem {name : String} (hne : name ≠ "") (h : separator ∉ name.toList) :
    pieces name = [name] := by
  rw [pieces_eq, cut_of_not_mem h, List.map_singleton, pieceText, String.ofList_toList, if_neg]
  rwa [String.isEmpty_iff]

/-- A plain name is relative. -/
theorem PlainName.isAbsolute {name : String} (h : PlainName name) : isAbsolute name = false := by
  rw [← Bool.not_eq_true, isAbsolute_iff]
  exact fun hhead => h.2.2.2 (List.mem_of_mem_head? hhead)

/-- A plain name leads to itself. -/
theorem PlainName.names {name : String} (h : PlainName name) : names name = [name] := by
  rw [Path.names, pieces_of_not_mem h.1 h.2.2.2]
  exact List.filter_cons_of_pos (decide_eq_true h.2.1)

/-- A relative name that leads somewhere, and never up. -/
structure Descends (name : String) : Prop where
  relative : isAbsolute name = false
  neverUp : ".." ∉ pieces name
  leads : names name ≠ []

/-- A plain name leads to an entry of the directory, and not up. -/
theorem PlainName.descends {name : String} (h : PlainName name) : Descends name where
  relative := h.isAbsolute
  neverUp := by
    rw [pieces_of_not_mem h.1 h.2.2.2, List.mem_singleton]
    exact h.2.2.1.symm
  leads := by
    rw [h.names]
    exact List.cons_ne_nil _ _

end Path

/-! ## Names of units -/

/-- The name of a unit has three characters more than its module. -/
theorem toList_unitName (module : String) :
    (unitName module).toList = module.toList ++ ['.', 'r', 's'] := by
  rw [unitName, String.toList_append]
  rfl

/-- A module has the separators of its namespace. -/
theorem separator_mem_moduleName {raw : String} :
    Path.separator ∈ (moduleName raw).toList ↔ Path.separator ∈ raw.toList := by
  rw [toList_moduleName, List.mem_map]
  constructor
  · rintro ⟨c, hc, heq⟩
    split at heq
    · exact absurd heq (by decide)
    · rwa [← heq]
  · exact fun h => ⟨Path.separator, h, rfl⟩

/-- The unit of a module is absolute if the raw name of the namespace is. -/
theorem isAbsolute_unitName_moduleName (raw : String) :
    Path.isAbsolute (unitName (moduleName raw)) = Path.isAbsolute raw := by
  rw [Path.isAbsolute, Path.isAbsolute, toList_unitName, toList_moduleName, decide_eq_decide]
  cases raw.toList with
  | nil => exact iff_of_false (by decide) (by decide)
  | cons c rest =>
      rw [List.map_cons, List.cons_append, List.head?_cons, List.head?_cons, Option.some.injEq,
        Option.some.injEq]
      split
      · rename_i hreplaced
        rcases hreplaced with rfl | rfl <;> exact iff_of_false (by decide) (by decide)
      · rfl

/-- The name of a unit is plain if there is no separator in it. -/
theorem plainName_unitName_iff {module : String} :
    Path.PlainName (unitName module) ↔ Path.separator ∉ module.toList := by
  have hother : ∀ name : String, 'r' ∉ name.toList → unitName module ≠ name := by
    rintro name hname rfl
    rw [toList_unitName] at hname
    exact hname (List.mem_append_right _ (by decide))
  have hseparator : Path.separator ∈ (unitName module).toList ↔ Path.separator ∈ module.toList := by
    rw [toList_unitName, List.mem_append]
    exact or_iff_left (by decide)
  rw [Path.PlainName, hseparator]
  exact ⟨fun h => h.2.2.2, fun h => ⟨hother "" (by decide), hother "." (by decide),
    hother ".." (by decide), h⟩⟩

/-- A module has no dots left, and the name of its unit has one. -/
theorem count_dot_unitName_moduleName (raw : String) :
    (unitName (moduleName raw)).toList.count '.' = 1 := by
  have hmodule : '.' ∉ (moduleName raw).toList := by
    rw [toList_moduleName, List.mem_map]
    rintro ⟨c, -, heq⟩
    split at heq
    · exact absurd heq (by decide)
    · rename_i hkept
      exact hkept (.inr heq)
  rw [toList_unitName, List.count_append, List.count_eq_zero_of_not_mem hmodule]
  rfl

/-- So a relative one never leads up. -/
theorem descends_unitName_moduleName {raw : String} (h : Path.isAbsolute raw = false) :
    Path.Descends (unitName (moduleName raw)) where
  relative := by rw [isAbsolute_unitName_moduleName, h]
  neverUp := by
    rw [Path.pieces_eq, List.mem_map]
    rintro ⟨piece, hpiece, htext⟩
    have hup : piece = ['.', '.'] := by
      have hchars := congrArg String.toList htext
      rw [Path.toList_pieceText] at hchars
      split at hchars
      · exact absurd hchars (by decide)
      · exact hchars
    -- it would take both of its dots from the name of the unit, which has one
    have hcount := (Path.sublist_of_mem_cut hpiece).count_le '.'
    rw [count_dot_unitName_moduleName, hup] at hcount
    exact absurd hcount (by decide)
  leads := by
    -- the piece with the ending in it is no dot
    have hlast : 's' ∈ (unitName (moduleName raw)).toList := by
      rw [toList_unitName]
      exact List.mem_append_right _ (by decide)
    obtain ⟨piece, hpiece, hin⟩ := Path.exists_mem_cut hlast (by decide)
    refine List.ne_nil_of_mem (a := Path.pieceText piece) ?_
    rw [Path.names, Path.pieces_eq]
    refine List.mem_filter.2 ⟨List.mem_map_of_mem hpiece, decide_eq_true fun htext => ?_⟩
    have hchars := congrArg String.toList htext
    rw [Path.toList_pieceText, if_neg (List.ne_nil_of_mem hin)] at hchars
    rw [hchars] at hin
    exact absurd hin (by decide)

end ModelForge
