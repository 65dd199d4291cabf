/-
`Spelling.lean` -- what the spelling of a name is.

A name is spelled in two steps. It is transliterated: characters give way to legal ones, and an
underscore is put in front where the name could not begin otherwise. Then underscores are
appended, as few as it takes to leave the reserved words (`exists_escapeReserved_eq`). Members and
types differ in the characters that stand for one of the name and in the pattern of what comes of
it (`memberSpelling`, `typeSpelling`). Two things are asked of a spelling: it produces what its
pattern allows, and it leaves alone what its pattern allows (`Spelling.Lawful`). The rest follows
from these two, for both spellings at once: the result matches the pattern, and the names that
stay as they are are those that match it and are free (`names_are_spelled`).
-/
import ModelForge.Proofs.Identifiers

set_option autoImplicit false

namespace ModelForge

/-! ## Patterns -/

/-- Ranges of characters, each given by its first and its last one. -/
abbrev CharRanges := List (Char × Char)

/-- A character in one of the ranges. -/
def InRanges (ranges : CharRanges) (c : Char) : Prop := ∃ range ∈ ranges, range.1 ≤ c ∧ c ≤ range.2

instance (ranges : CharRanges) : DecidablePred (InRanges ranges) := fun _ =>
  inferInstanceAs (Decidable (∃ range ∈ ranges, _))

def capitals : CharRanges := [('A', 'Z')]

def smallLetters : CharRanges := [('a', 'z')]

def digits : CharRanges := [('0', '9')]

def underscore : CharRanges := [('_', '_')]

/-- What a name may begin with, and what may follow any number of times. -/
structure NamePattern where
  first : CharRanges
  others : CharRanges

namespace NamePattern

/-- A name of the pattern. -/
def Matches (pattern : NamePattern) (name : String) : Prop :=
  ∃ c rest, name.toList = c :: rest ∧ InRanges pattern.first c
    ∧ ∀ d ∈ rest, InRanges pattern.others d

/-- `[a-z_][a-z0-9_]*` -/
def lowerSnake : NamePattern where
  first := smallLetters ++ underscore
  others := smallLetters ++ underscore ++ digits

/-- `[A-Za-z_][A-Za-z0-9_]*` -/
def anyCase : NamePattern where
  first := capitals ++ smallLetters ++ underscore
  others := capitals ++ smallLetters ++ underscore ++ digits

end NamePattern

/-! ## Spellings -/

/-- How names are spelled: the characters that stand for the one at a position, and the pattern of
what comes of them. -/
structure Spelling where
  characters : Nat → Char → List Char
  pattern : NamePattern

/-- Capitals become small letters, behind an underscore unless they come first. What is no letter,
digit or underscore becomes an underscore. -/
def memberSpelling : Spelling where
  characters i c :=
    if InRanges capitals c then (if i = 0 then [c.toLower] else ['_', c.toLower])
    else if InRanges (smallLetters ++ underscore ++ digits) c then [c]
    else ['_']
  pattern := .lowerSnake

/-- What is no letter, digit or underscore becomes an underscore. -/
def typeSpelling : Spelling where
  characters _ c :=
    if InRanges (capitals ++ smallLetters ++ underscore ++ digits) c then [c] else ['_']
  pattern := .anyCase

/-- Puts an underscore in front of what is empty or begins with a digit. -/
def withUnderscoreInFront : List Char → List Char
  | [] => ['_']
  | c :: rest => if InRanges digits c then '_' :: c :: rest else c :: rest

/-- A name with some underscores behind it. -/
def underscored (name : String) (count : Nat) : String :=
  name ++ String.ofList (List.replicate count '_')

namespace Spelling

/-- A name in legal characters. -/
def transliteration (spelling : Spelling) (raw : String) : String :=
  String.ofList (withUnderscoreInFront (raw.toList.mapIdx spelling.characters).flatten)

/-- What is asked of a spelling: it yields what its pattern allows and leaves that alone, and a
name of its pattern begins with anything that may follow but digits. -/
structure Lawful (spelling : Spelling) : Prop where
  legal : ∀ i c, ∀ d ∈ spelling.characters i c, InRanges spelling.pattern.others d
  kept : ∀ i c, InRanges spelling.pattern.others c → spelling.characters i c = [c]
  first_iff : ∀ c, InRanges spelling.pattern.first c
    ↔ InRanges spelling.pattern.others c ∧ ¬ InRanges digits c
  underscore : InRanges spelling.pattern.first '_'

end Spelling

/-! ## Ranges of characters -/

section

variable {c : Char}

/-- Ranges in a row allow what either of them allows. -/
theorem inRanges_append_iff (ranges more : CharRanges) :
    InRanges (ranges ++ more) c ↔ InRanges ranges c ∨ InRanges more c := by
  simp only [InRanges, List.mem_append, or_and_right, exists_or]

theorem inRanges_capitals_iff : InRanges capitals c ↔ c.isUpper = true := by
  have hupper : c.isUpper = true ↔ 'A' ≤ c ∧ c ≤ 'Z' := decide_eq_true_iff
  simp [InRanges, capitals, hupper]

theorem inRanges_smallLetters_iff : InRanges smallLetters c ↔ c.isLower = true := by
  have hlower : c.isLower = (decide ('a' ≤ c) && decide (c ≤ 'z')) := rfl
  simp [InRanges, smallLetters, hlower]

theorem inRanges_digits_iff : InRanges digits c ↔ c.isDigit = true := by
  simp [InRanges, digits, Char.isDigit, Char.le_def]

theorem isAlpha_iff : c.isAlpha = true ↔ c.isUpper = true ∨ c.isLower = true := Bool.or_eq_true_iff

theorem inRanges_underscore_iff : InRanges underscore c ↔ c = '_' := by
  simp only [InRanges, underscore, List.mem_singleton, exists_eq_left]
  constructor
  · exact fun h => Char.le_antisymm h.2 h.1
  · rintro rfl
    exact ⟨Char.le_refl _, Char.le_refl _⟩

/-- The characters of identifiers are those of the wider pattern. -/
theorem inRanges_anyCase_iff :
    InRanges (capitals ++ smallLetters ++ underscore ++ digits) c ↔ isIdentChar c = true := by
  simp only [inRanges_append_iff, inRanges_capitals_iff, inRanges_smallLetters_iff,
    inRanges_digits_iff, inRanges_underscore_iff, isIdentChar, Char.isAlphanum,
    isAlpha_iff, Bool.or_eq_true,
    decide_eq_true_eq]
  rw [or_right_comm]

/-- A type name may begin with what begins an identifier. -/
theorem inRanges_start_iff :
    InRanges (capitals ++ smallLetters ++ underscore) c ↔ isIdentStart c = true := by
  simp only [inRanges_append_iff, inRanges_capitals_iff, inRanges_smallLetters_iff,
    inRanges_underscore_iff, isIdentStart, isAlpha_iff, Bool.or_eq_true, decide_eq_true_eq]

/-- A name may begin with what may follow, unless it is a digit. -/
theorem not_inRanges_digits (h : InRanges (capitals ++ smallLetters ++ underscore) c) :
    ¬ InRanges digits c := by
  rw [inRanges_digits_iff, isDigit_of_isIdentStart (inRanges_start_iff.1 h)]
  exact Bool.false_ne_true

/-- What is in lower case is no capital. -/
theorem not_inRanges_capitals (h : InRanges (smallLetters ++ underscore ++ digits) c) :
    ¬ InRanges capitals c := by
  have hcapitals : ∀ n ≤ 'Z'.toNat, 'A'.toNat ≤ n →
      ¬ InRanges (smallLetters ++ underscore ++ digits) (Char.ofNat n) := by decide
  rintro ⟨range, hrange, hfirst, hlast⟩
  rw [List.mem_singleton.1 hrange] at hfirst hlast
  refine hcapitals c.toNat hlast hfirst ?_
  rwa [Char.ofNat_toNat]

/-- A capital becomes a small letter. -/
theorem inRanges_toLower (h : InRanges capitals c) : InRanges smallLetters c.toLower := by
  have hcapitals : ∀ n ≤ 'Z'.toNat, 'A'.toNat ≤ n →
      InRanges smallLetters (Char.ofNat n).toLower := by
    decide
  obtain ⟨range, hrange, hfirst, hlast⟩ := h
  rw [List.mem_singleton.1 hrange] at hfirst hlast
  have hlower := hcapitals c.toNat hlast hfirst
  rwa [Char.ofNat_toNat] at hlower

end

/-! ## Both spellings are lawful -/

/-- Members are spelled lawfully. -/
theorem memberSpelling_lawful : memberSpelling.Lawful where
  legal i c d hd := by
    show InRanges (smallLetters ++ underscore ++ digits) d
    have hunderscore : InRanges (smallLetters ++ underscore ++ digits) '_' := by decide
    have hlower (h : InRanges capitals c) :
        InRanges (smallLetters ++ underscore ++ digits) c.toLower :=
      (inRanges_append_iff _ _).2 (.inl ((inRanges_append_iff _ _).2 (.inl (inRanges_toLower h))))
    unfold memberSpelling at hd
    dsimp only at hd
    split at hd
    · rename_i hcapital
      split at hd
      · rw [List.mem_singleton.1 hd]
        exact hlower hcapital
      · rcases List.mem_cons.1 hd with rfl | hd
        · exact hunderscore
        · rw [List.mem_singleton.1 hd]
          exact hlower hcapital
    · split at hd
      · rename_i hlegal
        rwa [List.mem_singleton.1 hd]
      · rwa [List.mem_singleton.1 hd]
  kept i c hc := by
    have hcapital := not_inRanges_capitals hc
    unfold memberSpelling
    dsimp only
    rw [if_neg hcapital]
    exact if_pos hc
  first_iff c := by
    show InRanges (smallLetters ++ underscore) c
      ↔ InRanges (smallLetters ++ underscore ++ digits) c ∧ ¬ InRanges digits c
    rw [inRanges_append_iff _ digits, or_and_right, and_not_self_iff, or_false]
    refine (and_iff_left_of_imp fun h => not_inRanges_digits ?_).symm
    rw [List.append_assoc, inRanges_append_iff]
    exact .inr h
  underscore := by decide

/-- Types are spelled lawfully. -/
theorem typeSpelling_lawful : typeSpelling.Lawful where
  legal i c d hd := by
    unfold typeSpelling at hd
    dsimp only at hd
    split at hd
    · rename_i hlegal
      rwa [List.mem_singleton.1 hd]
    · rw [List.mem_singleton.1 hd]
      decide
  kept i c hc := if_pos hc
  first_iff c := by
    show InRanges (capitals ++ smallLetters ++ underscore) c
      ↔ InRanges (capitals ++ smallLetters ++ underscore ++ digits) c ∧ ¬ InRanges digits c
    rw [inRanges_append_iff _ digits, or_and_right, and_not_self_iff, or_false]
    exact (and_iff_left_of_imp not_inRanges_digits).symm
  underscore := by decide

/-! ## What a lawful spelling does -/

/-- Where the characters do not depend on their places. -/
theorem flatten_mapIdx {characters : Nat → Char → List Char} {atAnyPlace : Char → List Char}
    {cs : List Char} (h : ∀ i, ∀ c ∈ cs, characters i c = atAnyPlace c) :
    (cs.mapIdx characters).flatten = cs.flatMap atAnyPlace := by
  induction cs generalizing characters with
  | nil => rfl
  | cons c rest ih =>
      rw [List.mapIdx_cons, List.flatten_cons, List.flatMap_cons, h 0 c List.mem_cons_self,
        ih fun i d hd => h (i + 1) d (List.mem_cons_of_mem c hd)]

namespace Spelling.Lawful

variable {spelling : Spelling} {raw : String}

/-- What may come first may also follow. -/
theorem inRanges_of_first (h : spelling.Lawful) {c : Char}
    (hc : InRanges spelling.pattern.first c) :
    InRanges spelling.pattern.others c := ((h.first_iff c).1 hc).1

/-- A transliteration has the pattern, whatever underscores are appended to it. -/
theorem matches_underscored (h : spelling.Lawful) (raw : String) (count : Nat) :
    spelling.pattern.Matches (underscored (spelling.transliteration raw) count) := by
  have hlegal : ∀ d ∈ (raw.toList.mapIdx spelling.characters).flatten,
      InRanges spelling.pattern.others d := by
    intro d hd
    obtain ⟨characters, hcharacters, hd⟩ := List.mem_flatten.1 hd
    obtain ⟨i, hi, rfl⟩ := List.mem_mapIdx.1 hcharacters
    exact h.legal _ _ d hd
  have hunderscore := h.inRanges_of_first h.underscore
  -- the underscore in front is a start, and so is what it is not put in front of
  have hstart : ∃ c rest, withUnderscoreInFront (raw.toList.mapIdx spelling.characters).flatten
      = c :: rest
      ∧ InRanges spelling.pattern.first c ∧ ∀ d ∈ rest, InRanges spelling.pattern.others d := by
    cases hcharacters : (raw.toList.mapIdx spelling.characters).flatten with
    | nil => exact ⟨'_', [], rfl, h.underscore, List.forall_mem_nil _⟩
    | cons c rest =>
        rw [hcharacters] at hlegal
        rw [withUnderscoreInFront]
        split
        · exact ⟨'_', c :: rest, rfl, h.underscore, hlegal⟩
        · rename_i hdigit
          rw [List.forall_mem_cons] at hlegal
          exact ⟨c, rest, rfl, (h.first_iff c).2 ⟨hlegal.1, hdigit⟩, hlegal.2⟩
  obtain ⟨c, rest, htext, hc, hrest⟩ := hstart
  refine ⟨c, rest ++ List.replicate count '_', ?_, hc, List.forall_mem_append.2 ⟨hrest, ?_⟩⟩
  · rw [underscored, transliteration, String.toList_append, String.toList_ofList,
      String.toList_ofList, htext, List.cons_append]
  · intro d hd
    rwa [List.eq_of_mem_replicate hd]

/-- A name of the pattern is its own transliteration. -/
theorem transliteration_eq_self (h : spelling.Lawful) (hraw : spelling.pattern.Matches raw) :
    spelling.transliteration raw = raw := by
  obtain ⟨c, rest, htext, hc, hrest⟩ := hraw
  have hlegal : ∀ d ∈ c :: rest, InRanges spelling.pattern.others d :=
    List.forall_mem_cons.2 ⟨h.inRanges_of_first hc, hrest⟩
  have hcharacters : ((c :: rest).mapIdx spelling.characters).flatten = c :: rest := by
    rw [flatten_mapIdx fun i d hd => h.kept i d (hlegal d hd)]
    exact List.flatMap_singleton' _
  have hdigit := ((h.first_iff c).1 hc).2
  rw [transliteration, htext, hcharacters, withUnderscoreInFront, if_neg hdigit, ← htext]
  exact String.ofList_toList

end Spelling.Lawful

/-! ## The spellings of members and types -/

section

variable {cs : List Char}

/-- For legal characters the two ways to say that a name cannot begin so agree. -/
theorem withLegalStart_eq (hcs : ∀ c ∈ cs, isIdentChar c = true) :
    withLegalStart cs = withUnderscoreInFront cs := by
  cases cs with
  | nil => rfl
  | cons c rest =>
      have hlegal := inRanges_anyCase_iff.2 (hcs c List.mem_cons_self)
      have hstart : isIdentStart c = true ↔ ¬ InRanges digits c := by
        rw [← inRanges_start_iff]
        refine ⟨not_inRanges_digits, fun hdigit => ?_⟩
        exact ((inRanges_append_iff _ digits).1 hlegal).resolve_right hdigit
      rw [withLegalStart, withUnderscoreInFront]
      by_cases hdigit : InRanges digits c
      · rw [if_pos hdigit, if_neg fun h => hstart.1 h hdigit]
      · rw [if_neg hdigit, if_pos (hstart.2 hdigit)]

end

/-- Types keep what is legal, wherever it stands. -/
theorem typeSpelling_characters (i : Nat) (c : Char) :
    typeSpelling.characters i c = [legalize c] := by
  unfold typeSpelling legalize
  dsimp only
  by_cases hlegal : isIdentChar c = true
  · rw [if_pos (inRanges_anyCase_iff.2 hlegal), if_pos hlegal]
  · rw [if_neg fun h => hlegal (inRanges_anyCase_iff.1 h), if_neg hlegal]

/-- In a member's name the first character is put in lower case, and the later ones are taken
apart. -/
theorem memberSpelling_characters (i : Nat) (c : Char) :
    memberSpelling.characters i c
      = if i = 0 then [(legalize c).toLower] else snakeChar (legalize c) := by
  have hlegal : isIdentChar c = true
      ↔ InRanges capitals c ∨ InRanges (smallLetters ++ underscore ++ digits) c := by
    rw [← inRanges_anyCase_iff, ← inRanges_append_iff, List.append_assoc, List.append_assoc]
    rfl
  unfold memberSpelling snakeChar legalize
  dsimp only
  by_cases hcapital : InRanges capitals c
  · rw [if_pos hcapital, if_pos (hlegal.2 (.inl hcapital)),
      if_pos (inRanges_capitals_iff.1 hcapital)]
  · have hupper : c.isUpper ≠ true := fun h => hcapital (inRanges_capitals_iff.2 h)
    have hlower : c.toLower = c := dif_neg fun h => hupper (decide_eq_true h)
    rw [if_neg hcapital]
    by_cases hkept : InRanges (smallLetters ++ underscore ++ digits) c
    · rw [if_pos hkept, if_pos (hlegal.2 (.inr hkept)), if_neg hupper, hlower, ite_self]
    · rw [if_neg hkept, if_neg fun h => (hlegal.1 h).elim hcapital hkept]
      exact (ite_self _).symm

/-- The base of a type name is its transliteration. -/
theorem typeBase_eq (raw : String) : typeBase raw = typeSpelling.transliteration raw := by
  have hcharacters : (raw.toList.mapIdx typeSpelling.characters).flatten
      = raw.toList.map legalize := by
    rw [flatten_mapIdx fun i c _ => typeSpelling_characters i c]
    exact List.map_eq_flatMap.symm
  rw [typeBase, Spelling.transliteration, hcharacters,
    withLegalStart_eq fun _ => isIdentChar_of_mem_map_legalize]

/-- The base of a member name is its transliteration. -/
theorem memberBase_eq (raw : String) : memberBase raw = memberSpelling.transliteration raw := by
  have hcharacters : (raw.toList.mapIdx memberSpelling.characters).flatten
      = snakeCase (raw.toList.map legalize) := by
    cases raw.toList with
    | nil => rfl
    | cons c rest =>
        have hlater :=
          flatten_mapIdx fun i (d : Char) (_ : d ∈ rest) => memberSpelling_characters (i + 1) d
        rw [List.mapIdx_cons, List.flatten_cons, hlater, memberSpelling_characters,
          List.map_cons, snakeCase, List.flatMap_map]
        rfl
  rw [memberBase, Spelling.transliteration, hcharacters,
    withLegalStart_eq fun _ => isIdentChar_of_mem_snakeCase
      fun _ => isIdentChar_of_mem_map_legalize]

/-! ## Reserved words -/

theorem underscored_zero (name : String) : underscored name 0 = name := String.append_empty

/-- An underscore at the end counts with the ones behind it. -/
theorem underscored_push (name : String) (count : Nat) :
    underscored (name.push '_') count = underscored name (count + 1) := by
  apply String.toList_injective
  rw [underscored, underscored, String.toList_append, String.toList_append, String.toList_push,
    String.toList_ofList, String.toList_ofList, List.append_assoc]
  rfl

/-- Escaping appends as few underscores as it takes to leave the reserved words. -/
theorem exists_escapeReserved_eq (reserved : WordSet) (name : String) :
    ∃ count, escapeReserved reserved name = underscored name count
      ∧ ∀ fewer < count, underscored name fewer ∈ reserved := by
  fun_induction escapeReserved reserved name with
  | case1 name hreserved ih =>
      obtain ⟨count, hname, hfewer⟩ := ih
      refine ⟨count + 1, by rw [hname, underscored_push], fun fewer h => ?_⟩
      cases fewer with
      | zero => rwa [underscored_zero]
      | succ fewer =>
          rw [← underscored_push]
          exact hfewer fewer (Nat.lt_of_succ_lt_succ h)
  | case2 name hfree =>
      exact ⟨0, (underscored_zero name).symm, fun _ h => absurd h (Nat.not_lt_zero _)⟩

/-! ## The specification -/

/-- What `spell` does, when it spells names with the words of `reserved` left out. -/
structure Spelling.Specifies (spelling : Spelling) (reserved : WordSet) (spell : String → String) :
    Prop where
  /-- A name is its transliteration with underscores behind it, as few as leave the reserved
  words. -/
  least : ∀ raw, ∃ count, spell raw = underscored (spelling.transliteration raw) count
    ∧ underscored (spelling.transliteration raw) count ∉ reserved
    ∧ ∀ fewer < count, underscored (spelling.transliteration raw) fewer ∈ reserved
  /-- What is spelled has the pattern. -/
  matches_pattern : ∀ raw, spelling.pattern.Matches (spell raw)
  /-- What is spelled is not reserved. -/
  free : ∀ raw, spell raw ∉ reserved
  /-- The names of the pattern that are not reserved stay as they are, and no others do. -/
  fixed_iff : ∀ raw, spell raw = raw ↔ spelling.pattern.Matches raw ∧ raw ∉ reserved
  /-- What is spelled stays as it is. -/
  idempotent : ∀ raw, spell (spell raw) = spell raw

/-- A lawful spelling is specified, once what is reserved is escaped. -/
theorem Spelling.Lawful.specifies {spelling : Spelling} (h : spelling.Lawful) (reserved : WordSet) :
    spelling.Specifies reserved
      fun raw => escapeReserved reserved (spelling.transliteration raw) := by
  have hfree (raw : String) := escapeReserved_not_mem reserved (spelling.transliteration raw)
  have hmatches (raw : String) :
      spelling.pattern.Matches (escapeReserved reserved (spelling.transliteration raw)) := by
    obtain ⟨count, hname, -⟩ := exists_escapeReserved_eq reserved (spelling.transliteration raw)
    rw [hname]
    exact h.matches_underscored raw count
  have hfixed (raw : String) (hraw : spelling.pattern.Matches raw) (hreserved : raw ∉ reserved) :
      escapeReserved reserved (spelling.transliteration raw) = raw := by
    rw [h.transliteration_eq_self hraw, escapeReserved, if_neg hreserved]
  refine ⟨fun raw => ?_, hmatches, hfree,
    fun raw => ⟨fun hraw => ?_, fun hraw => hfixed raw hraw.1 hraw.2⟩,
    fun raw => hfixed _ (hmatches raw) (hfree raw)⟩
  · obtain ⟨count, hname, hfewer⟩ :=
      exists_escapeReserved_eq reserved (spelling.transliteration raw)
    exact ⟨count, hname, hname ▸ hfree raw, hfewer⟩
  · exact ⟨hraw ▸ hmatches raw, fun hreserved => hfree raw (hraw.symm ▸ hreserved)⟩

/-- **Both spellings are as specified**, whatever words are reserved: the members' in lower snake
case, and the types' in their own case. -/
theorem names_are_spelled (reserved : WordSet) :
    memberSpelling.Specifies reserved (memberName reserved)
      ∧ typeSpelling.Specifies reserved (typeName reserved) := by
  have hmember : memberName reserved
      = fun raw => escapeReserved reserved (memberSpelling.transliteration raw) := by
    funext raw
    rw [memberName, memberBase_eq]
  have htype : typeName reserved
      = fun raw => escapeReserved reserved (typeSpelling.transliteration raw) := by
    funext raw
    rw [typeName, typeBase_eq]
  rw [hmember, htype]
  exact ⟨memberSpelling_lawful.specifies reserved, typeSpelling_lawful.specifies reserved⟩

end ModelForge
