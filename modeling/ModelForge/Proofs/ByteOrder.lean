/-
`ByteOrder.lean` -- the order of texts is the order of their bytes.

Names are put in order in several places, and texts are compared character by character there. A
file system or another reader compares bytes. The two orders are the same: of two characters the
greater one has the greater bytes, at the first place where the bytes differ, and no character's
bytes begin those of another one (`encode_append_lt`).
-/

set_option autoImplicit false

namespace ModelForge

/-- The bytes of a text. -/
def bytesOf (text : String) : List UInt8 := text.toByteArray.data.toList

theorem bytesOf_eq_flatMap (text : String) :
    bytesOf text = text.toList.flatMap String.utf8EncodeChar := by
  rw [bytesOf, ← String.utf8Encode_toList, List.utf8Encode]
  simp

/-- The first byte decides, then the others. -/
theorem cons_ofNat_lt_iff {x y : Nat} {s t : List UInt8} :
    UInt8.ofNat x :: s < UInt8.ofNat y :: t ↔ x % 256 < y % 256 ∨ x % 256 = y % 256 ∧ s < t := by
  rw [List.cons_lt_cons_iff, UInt8.lt_iff_toNat_lt, ← UInt8.toNat_inj, UInt8.toNat_ofNat',
    UInt8.toNat_ofNat']

/-- A greater character has greater bytes, whatever follows. -/
theorem encode_append_lt {c d : Char} (h : c < d) (s t : List UInt8) :
    String.utf8EncodeChar c ++ s < String.utf8EncodeChar d ++ t := by
  have hlt : c.val.toNat < d.val.toNat := h
  have hbound : d.val.toNat < 0x110000 := by
    rcases d.valid with hlow | hhigh
    · exact Nat.lt_trans hlow (by decide)
    · exact hhigh.2
  -- the bits of each byte, seen as digits to the base of 64
  have h4096 (n : Nat) : n / 4096 = n / 64 / 64 := (Nat.div_div_eq_div_mul n 64 64).symm
  have h262144 (n : Nat) : n / 262144 = n / 64 / 64 / 64 := by
    rw [Nat.div_div_eq_div_mul, Nat.div_div_eq_div_mul]
  unfold String.utf8EncodeChar
  dsimp only
  simp only [h4096, h262144]
  -- each of the two has one to four bytes
  repeat' split
  all_goals
    simp only [List.cons_append, List.nil_append, cons_ofNat_lt_iff]
    omega

theorem encode_ne_nil (c : Char) : String.utf8EncodeChar c ≠ [] := by
  unfold String.utf8EncodeChar
  dsimp only
  repeat' split
  all_goals exact List.cons_ne_nil _ _

theorem flatMap_encode_lt {cs ds : List Char} (h : cs < ds) :
    cs.flatMap String.utf8EncodeChar < ds.flatMap String.utf8EncodeChar := by
  induction cs generalizing ds with
  | nil =>
      cases ds with
      | nil => exact absurd h (List.lt_irrefl _)
      | cons d ds =>
          obtain ⟨byte, bytes, hbytes⟩ := List.exists_cons_of_ne_nil (encode_ne_nil d)
          rw [List.flatMap_cons, hbytes]
          exact List.nil_lt_cons _ _
  | cons c cs ih =>
      cases ds with
      | nil => exact absurd h (List.not_lt_nil _)
      | cons d ds =>
          rw [List.flatMap_cons, List.flatMap_cons]
          rcases List.cons_lt_cons_iff.1 h with hlt | ⟨rfl, hlt⟩
          · exact encode_append_lt hlt _ _
          · exact List.append_left_lt (ih hlt)

/-- **One text is before another one where its bytes are.** -/
theorem lt_iff_bytesOf_lt {a b : String} : a < b ↔ bytesOf a < bytesOf b := by
  rw [bytesOf_eq_flatMap, bytesOf_eq_flatMap]
  refine ⟨flatMap_encode_lt, fun h => Decidable.byContradiction fun hnot => ?_⟩
  by_cases hback : b < a
  · exact List.lt_asymm h (flatMap_encode_lt hback)
  · have heq : a = b := String.le_antisymm (String.not_lt.1 hback) (String.not_lt.1 hnot)
    rw [heq] at h
    exact List.lt_irrefl _ h

end ModelForge
