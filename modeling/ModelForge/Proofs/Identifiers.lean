/-
`Identifiers.lean` -- the characters of identifiers.

A transliteration is made of legal characters (`isIdentChar`), and escaping a reserved word
appends underscores, which are legal. So no name of a member or a type has a character in it that
belongs to the syntax around it.
-/
import ModelForge.Names.Identifier

set_option autoImplicit false

namespace ModelForge

/-- Transliteration gives characters of identifiers. -/
theorem isIdentChar_legalize (c : Char) : isIdentChar (legalize c) = true := by
  unfold legalize
  by_cases h : isIdentChar c = true
  · rw [if_pos h]
    exact h
  · rw [if_neg h]
    rfl

/-- No digit is a start. -/
theorem isDigit_of_isIdentStart {c : Char} (h : isIdentStart c = true) : c.isDigit = false := by
  rw [← Bool.not_eq_true]
  intro hdigit
  rw [Char.isDigit_iff_toNat] at hdigit
  have hdigits : ∀ n ≤ '9'.toNat, '0'.toNat ≤ n → isIdentStart (Char.ofNat n) = false := by decide
  have hstart := hdigits c.toNat hdigit.2 hdigit.1
  rw [Char.ofNat_toNat, h] at hstart
  exact absurd hstart (by decide)

/-- At most an underscore is put in front. -/
theorem mem_withLegalStart {c : Char} {cs : List Char} (h : c ∈ withLegalStart cs) :
    c = '_' ∨ c ∈ cs := by
  cases cs with
  | nil => exact .inl (List.mem_singleton.1 h)
  | cons first rest =>
      rw [withLegalStart] at h
      by_cases hstart : isIdentStart first = true
      · rw [if_pos hstart] at h
        exact .inr h
      · rw [if_neg hstart] at h
        exact List.mem_cons.1 h

/-- Escaping appends underscores and changes nothing else. -/
theorem escapeReserved_eq_append (reserved : WordSet) (name : String) :
    ∃ k, (escapeReserved reserved name).toList = name.toList ++ List.replicate k '_' := by
  fun_induction escapeReserved reserved name with
  | case1 name hreserved ih =>
      obtain ⟨k, ih⟩ := ih
      refine ⟨k + 1, ?_⟩
      rw [ih, String.toList_push, List.append_assoc]
      rfl
  | case2 name hfree => exact ⟨0, (List.append_nil _).symm⟩

/-- Escaping ends at a name that is not reserved. -/
theorem escapeReserved_not_mem (reserved : WordSet) (name : String) :
    escapeReserved reserved name ∉ reserved := by
  fun_induction escapeReserved reserved name with
  | case1 name hreserved ih => exact ih
  | case2 name hfree => exact hfree

/-- A letter in lower case is legal. -/
theorem isIdentChar_of_isLower {c : Char} (h : c.isLower = true) : isIdentChar c = true := by
  show ((c.isUpper || c.isLower || c.isDigit) || decide (c = '_')) = true
  rw [h, Bool.or_true, Bool.true_or, Bool.true_or]

/-- To make them small keeps them so. -/
theorem isIdentChar_toLower {c : Char} (h : isIdentChar c = true) :
    isIdentChar c.toLower = true := by
  unfold Char.toLower
  split
  · rename_i hupper
    obtain ⟨hlow, hhigh⟩ := hupper
    rw [ge_iff_le, UInt32.le_iff_toNat_le] at hlow
    rw [UInt32.le_iff_toNat_le] at hhigh
    have hA : 'A'.val.toNat = 65 := rfl
    have hZ : 'Z'.val.toNat = 90 := rfl
    have ha : 'a'.val.toNat = 97 := rfl
    have hz : 'z'.val.toNat = 122 := rfl
    have hshift : ('a'.val - 'A'.val).toNat = 32 := rfl
    have hsum : (c.val + ('a'.val - 'A'.val)).toNat = c.val.toNat + 32 := by
      rw [UInt32.toNat_add, hshift]
      omega
    apply isIdentChar_of_isLower
    show (decide (c.val + ('a'.val - 'A'.val) ≥ 'a'.val)
      && decide (c.val + ('a'.val - 'A'.val) ≤ 'z'.val)) = true
    rw [Bool.and_eq_true, decide_eq_true_eq, decide_eq_true_eq, ge_iff_le, UInt32.le_iff_toNat_le,
      UInt32.le_iff_toNat_le, hsum]
    omega
  · exact h

/-- Snake case adds underscores only. -/
theorem isIdentChar_of_mem_snakeCase {cs : List Char} (hcs : ∀ c ∈ cs, isIdentChar c = true)
    {c : Char} (h : c ∈ snakeCase cs) : isIdentChar c = true := by
  cases cs with
  | nil => exact absurd h List.not_mem_nil
  | cons first rest =>
      rw [snakeCase, List.mem_cons, List.mem_flatMap] at h
      rcases h with rfl | ⟨d, hd, h⟩
      · exact isIdentChar_toLower (hcs first List.mem_cons_self)
      · have hlegal := hcs d (List.mem_cons_of_mem _ hd)
        unfold snakeChar at h
        split at h
        · rw [List.mem_cons, List.mem_singleton] at h
          rcases h with rfl | rfl
          · rfl
          · exact isIdentChar_toLower hlegal
        · rwa [List.mem_singleton.1 h]

/-- Names of legal characters become identifiers. -/
theorem isIdentChar_of_mem_escaped {reserved : WordSet} {cs : List Char}
    (hcs : ∀ c ∈ cs, isIdentChar c = true) {c : Char}
    (h : c ∈ (escapeReserved reserved (String.ofList (withLegalStart cs))).toList) :
    isIdentChar c = true := by
  obtain ⟨k, hk⟩ := escapeReserved_eq_append reserved (String.ofList (withLegalStart cs))
  rw [hk, List.mem_append, String.toList_ofList] at h
  rcases h with hbase | hescape
  · rcases mem_withLegalStart hbase with rfl | hlegal
    · rfl
    · exact hcs c hlegal
  · rw [(List.mem_replicate.1 hescape).2]
    rfl

theorem isIdentChar_of_mem_map_legalize {raw : List Char} {c : Char} (h : c ∈ raw.map legalize) :
    isIdentChar c = true := by
  obtain ⟨d, -, rfl⟩ := List.mem_map.1 h
  exact isIdentChar_legalize d

/-- Type names are made of characters of identifiers. -/
theorem isIdentChar_of_mem_typeName {reserved : WordSet} {raw : String} {c : Char}
    (h : c ∈ (typeName reserved raw).toList) : isIdentChar c = true :=
  isIdentChar_of_mem_escaped (fun _ => isIdentChar_of_mem_map_legalize) h

/-- So are member names. -/
theorem isIdentChar_of_mem_memberName {reserved : WordSet} {raw : String} {c : Char}
    (h : c ∈ (memberName reserved raw).toList) : isIdentChar c = true :=
  isIdentChar_of_mem_escaped
    (fun _ => isIdentChar_of_mem_snakeCase fun _ => isIdentChar_of_mem_map_legalize) h

/-- A module is not transliterated: two characters are replaced and the others stay. -/
theorem toList_moduleName (raw : String) :
    (moduleName raw).toList = raw.toList.map fun c => if c = '@' ∨ c = '.' then '_' else c :=
  String.toList_ofList

end ModelForge
