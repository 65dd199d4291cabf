/-
`Literals.lean` -- string literals of the generated language, read back.

The reader here knows all escapes of the language, not only the ones that `quoted` writes: named
ones, bytes, code points, and line feeds that join two lines. What it reads is a literal and what
follows it, so that a literal can be read where it stands. The main statement is
`readLiteral?_quoted`: a quoted text is read to its end, and stands for the text.
-/
import ModelForge.Json.Parser
import ModelForge.Text.Quoted

set_option autoImplicit false

namespace ModelForge

open Json.Parser (hexDigit?)

/-! ## Escapes -/

/-- The letters of escapes, each with the character that it stands for. -/
def namedEscapes : List (Char × Char) :=
  [('"', '"'), ('\'', '\''), ('\\', '\\'), ('n', '\n'), ('r', '\r'), ('t', '\t'), ('0', '\x00')]

/-- The number that hexadecimal digits write. -/
def hexNumber? (digits : List Char) : Option Nat :=
  digits.foldlM (fun n c => (hexDigit? c).map fun d => 16 * n + d) 0

/-- The character of a code point that is written with one to six digits. Underscores may stand
between the digits. -/
def codePoint? (written : List Char) : Option Char :=
  let digits := written.filter (· ≠ '_')
  if written.head? = some '_' ∨ digits = [] ∨ 6 < digits.length then none
  else (hexNumber? digits).bind fun n => if n.isValidChar then some (Char.ofNat n) else none

/-- The character of a code point in braces, and what follows. -/
def readCodePoint? : List Char → Option (Char × List Char)
  | [] => none
  | c :: rest =>
      if c = '\x7b' then
        match rest.dropWhile (· ≠ '\x7d') with
        | [] => none
        | _ :: rest' => (codePoint? (rest.takeWhile (· ≠ '\x7d'))).map fun d => (d, rest')
      else none

/-- The character of two hexadecimal digits, and what follows. Bytes that are no ASCII stand for
nothing. -/
def readByte? : List Char → Option (Char × List Char)
  | a :: b :: rest =>
      (hexNumber? [a, b]).bind fun n => if n < 0x80 then some (Char.ofNat n, rest) else none
  | _ => none

/-- What an escape stands for, after the backslash, and what follows. A line feed stands for
nothing, and neither does the blank space behind it. -/
def readEscape? : List Char → Option (List Char × List Char)
  | [] => none
  | c :: rest =>
      match namedEscapes.lookup c with
      | some d => some ([d], rest)
      | none =>
          if c = 'u' then (readCodePoint? rest).map fun (d, rest') => ([d], rest')
          else if c = 'x' then (readByte? rest).map fun (d, rest') => ([d], rest')
          else if c = '\n' then some ([], rest.dropWhile fun d => d ∈ [' ', '\n', '\r', '\t'])
          else none

theorem length_of_readCodePoint? {s rest : List Char} {c : Char}
    (h : readCodePoint? s = some (c, rest)) : rest.length ≤ s.length := by
  cases s with
  | nil => exact absurd h (by simp [readCodePoint?])
  | cons c tail =>
      have hshorter := (List.dropWhile_suffix (· ≠ '\x7d') (l := tail)).length_le
      rw [readCodePoint?] at h
      split at h
      · cases hrest : tail.dropWhile (· ≠ '\x7d') with
        | nil =>
            rw [hrest] at h
            exact absurd h (by simp)
        | cons brace rest' =>
            rw [hrest] at h hshorter
            obtain ⟨d, -, hd⟩ := Option.map_eq_some_iff.1 h
            obtain ⟨-, rfl⟩ := Prod.mk.inj hd
            simp only [List.length_cons] at hshorter ⊢
            omega
      · exact absurd h (by simp)

theorem length_of_readByte? {s rest : List Char} {c : Char} (h : readByte? s = some (c, rest)) :
    rest.length ≤ s.length := by
  unfold readByte? at h
  split at h
  · obtain ⟨n, -, hn⟩ := Option.bind_eq_some_iff.1 h
    split at hn
    · obtain ⟨-, rfl⟩ := Prod.mk.inj (Option.some.inj hn)
      simp only [List.length_cons]
      omega
    · exact absurd hn (by simp)
  · exact absurd h (by simp)

theorem length_of_readEscape? {s stands rest : List Char}
    (h : readEscape? s = some (stands, rest)) :
    rest.length ≤ s.length := by
  unfold readEscape? at h
  split at h
  · exact absurd h (by simp)
  · rename_i c tail
    rw [List.length_cons]
    split at h
    · obtain ⟨-, rfl⟩ := Prod.mk.inj (Option.some.inj h)
      exact Nat.le_succ _
    · split at h
      · obtain ⟨⟨d, rest'⟩, hread, heq⟩ := Option.map_eq_some_iff.1 h
        obtain ⟨-, rfl⟩ := Prod.mk.inj heq
        exact Nat.le_succ_of_le (length_of_readCodePoint? hread)
      · split at h
        · obtain ⟨⟨d, rest'⟩, hread, heq⟩ := Option.map_eq_some_iff.1 h
          obtain ⟨-, rfl⟩ := Prod.mk.inj heq
          exact Nat.le_succ_of_le (length_of_readByte? hread)
        · split at h
          · obtain ⟨-, rfl⟩ := Prod.mk.inj (Option.some.inj h)
            exact Nat.le_succ_of_le (List.dropWhile_suffix _).length_le
          · exact absurd h (by simp)

/-! ## Literals -/

/-- The text of a literal after its opening quote, and what follows the closing one. A carriage
return that is not escaped is not allowed. -/
def readBody? (s : List Char) : Option (List Char × List Char) :=
  match s with
  | [] => none
  | c :: rest =>
      if c = '"' then some ([], rest)
      else if c = '\\' then
        match _escape : readEscape? rest with
        | none => none
        | some (stands, rest') => (readBody? rest').map fun (text, tail) => (stands ++ text, tail)
      else if c = '\r' then none
      else (readBody? rest).map fun (text, tail) => (c :: text, tail)
  termination_by s.length
  decreasing_by
    · have := length_of_readEscape? _escape
      simp only [List.length_cons]
      omega
    · exact Nat.lt_succ_self _

/-- The text that a literal stands for, and what follows the literal. -/
def readLiteral? : List Char → Option (String × List Char)
  | [] => none
  | c :: rest =>
      if c = '"' then (readBody? rest).map fun (text, tail) => (String.ofList text, tail) else none

/-! ## Code points -/

theorem hexDigit?_digitChar : ∀ d < 16, hexDigit? (Nat.digitChar d) = some d := by decide

theorem digitChar_ne : ∀ d < 16, Nat.digitChar d ≠ '_' ∧ Nat.digitChar d ≠ '\x7d' := by decide

/-- Hexadecimal digits are the digits of numbers below the base. -/
theorem exists_of_mem_toDigits {n : Nat} {c : Char} (h : c ∈ Nat.toDigits 16 n) :
    ∃ d < 16, c = Nat.digitChar d := by
  induction n using Nat.strongRecOn with
  | ind n ih =>
      by_cases hn : n < 16
      · rw [Nat.toDigits_of_lt_base hn, List.mem_singleton] at h
        exact ⟨n, hn, h⟩
      · rw [Nat.toDigits_of_base_le (by decide) (Nat.le_of_not_lt hn), List.mem_append,
          List.mem_singleton] at h
        rcases h with hfront | hlast
        · exact ih (n / 16) (by omega) hfront
        · exact ⟨n % 16, Nat.mod_lt _ (by decide), hlast⟩

/-- A number is read back from its hex digits. -/
theorem hexNumber?_toDigits (n : Nat) : hexNumber? (Nat.toDigits 16 n) = some n := by
  induction n using Nat.strongRecOn with
  | ind n ih =>
      by_cases hn : n < 16
      · rw [Nat.toDigits_of_lt_base hn]
        simp [hexNumber?, hexDigit?_digitChar n hn]
      · have hfront := ih (n / 16) (by omega)
        have hlast := hexDigit?_digitChar (n % 16) (Nat.mod_lt _ (by decide))
        unfold hexNumber? at hfront ⊢
        rw [Nat.toDigits_of_base_le (by decide) (Nat.le_of_not_lt hn), List.foldlM_append, hfront]
        simp [hlast]
        omega

/-- The digits of a character stand for the character. -/
theorem codePoint?_toDigits (c : Char) : codePoint? (Nat.toDigits 16 c.toNat) = some c := by
  have hplain : ∀ d ∈ Nat.toDigits 16 c.toNat, d ≠ '_' := by
    intro d hd
    obtain ⟨k, hk, rfl⟩ := exists_of_mem_toDigits hd
    exact (digitChar_ne k hk).1
  have hfilter : (Nat.toDigits 16 c.toNat).filter (· ≠ '_') = Nat.toDigits 16 c.toNat :=
    List.filter_eq_self.2 fun d hd => decide_eq_true (hplain d hd)
  have hhead : (Nat.toDigits 16 c.toNat).head? ≠ some '_' := fun h =>
    hplain '_' (List.mem_of_mem_head? h) rfl
  have hnonempty : Nat.toDigits 16 c.toNat ≠ [] := Nat.toDigits_ne_nil
  -- a code point has at most six digits
  have hvalid : c.toNat.isValidChar := c.valid
  have hlength : (Nat.toDigits 16 c.toNat).length ≤ 6 := by
    rw [Nat.length_toDigits_le_iff (by decide) (by decide)]
    unfold Nat.isValidChar at hvalid
    omega
  rw [codePoint?, hfilter, if_neg, hexNumber?_toDigits, Option.bind_some, if_pos hvalid,
    Char.ofNat_toNat]
  rintro (h | h | h)
  · exact hhead h
  · exact hnonempty h
  · omega

/-- A character is read back from its code point. -/
theorem readEscape?_codePoint (c : Char) (rest : List Char) :
    readEscape? ('u' :: '\x7b' :: (Nat.toDigits 16 c.toNat ++ '\x7d' :: rest))
      = some ([c], rest) := by
  have hdigits : ∀ d ∈ Nat.toDigits 16 c.toNat, decide (d ≠ '\x7d') = true := by
    intro d hd
    obtain ⟨k, hk, rfl⟩ := exists_of_mem_toDigits hd
    exact decide_eq_true (digitChar_ne k hk).2
  have hread : readCodePoint? ('\x7b' :: (Nat.toDigits 16 c.toNat ++ '\x7d' :: rest))
      = some (c, rest) := by
    rw [readCodePoint?, if_pos rfl, List.dropWhile_append_of_pos hdigits,
      List.takeWhile_append_of_pos hdigits, List.dropWhile_cons_of_neg (by simp),
      List.takeWhile_cons_of_neg (by simp), List.append_nil]
    dsimp only
    rw [codePoint?_toDigits]
    rfl
  have hnamed : namedEscapes.lookup 'u' = none := by decide
  simp only [readEscape?, hnamed, if_true, hread, Option.map_some]

/-- A character with an escape of its own is read back from its letter. -/
theorem readEscape?_named {letter c : Char} (h : namedEscapes.lookup letter = some c)
    (rest : List Char) : readEscape? (letter :: rest) = some ([c], rest) := by
  simp only [readEscape?, h]

/-! ## Quoted texts -/

/-- An escape is read as what it stands for, and the reader goes on behind it. -/
theorem readBody?_escape {s stands rest : List Char} (h : readEscape? s = some (stands, rest)) :
    readBody? ('\\' :: s) = (readBody? rest).map fun (text, tail) => (stands ++ text, tail) := by
  rw [readBody?, if_neg (by decide), if_pos rfl]
  split
  · rename_i hnone
    exact absurd (h.symm.trans hnone) (by simp)
  · rename_i hsome
    obtain ⟨rfl, rfl⟩ := Prod.mk.inj (Option.some.inj (hsome.symm.trans h))
    rfl

/-- One character of a literal is read back. -/
theorem readBody?_escapeChar (c : Char) (rest : List Char) :
    readBody? (escapeChar c ++ rest) = (readBody? rest).map
      fun (text, tail) => (c :: text, tail) := by
  have hnamed {letter d : Char} (h : namedEscapes.lookup letter = some d) :
      readBody? (['\\', letter] ++ rest) = (readBody? rest).map
        fun (text, tail) => (d :: text, tail) :=
    readBody?_escape (readEscape?_named h rest)
  unfold escapeChar
  by_cases hquote : c = '"'
  · rw [if_pos hquote, hquote]
    exact hnamed (by decide)
  rw [if_neg hquote]
  by_cases hbackslash : c = '\\'
  · rw [if_pos hbackslash, hbackslash]
    exact hnamed (by decide)
  rw [if_neg hbackslash]
  by_cases hfeed : c = '\n'
  · rw [if_pos hfeed, hfeed]
    exact hnamed (by decide)
  rw [if_neg hfeed]
  by_cases hreturn : c = '\r'
  · rw [if_pos hreturn, hreturn]
    exact hnamed (by decide)
  rw [if_neg hreturn]
  by_cases htab : c = '\t'
  · rw [if_pos htab, htab]
    exact hnamed (by decide)
  rw [if_neg htab]
  by_cases hnull : c = '\x00'
  · rw [if_pos hnull, hnull]
    exact hnamed (by decide)
  rw [if_neg hnull]
  by_cases hplain : isShownPlain c = true
  -- as it is, or by its code point
  · rw [if_pos hplain, List.singleton_append, readBody?, if_neg hquote, if_neg hbackslash,
      if_neg hreturn]
  · rw [if_neg hplain, codePointEscape]
    have hescape := readEscape?_codePoint c rest
    simp only [List.cons_append, List.nil_append, List.append_assoc]
    exact readBody?_escape hescape

/-- **An escaped text is read back**, up to the quote that ends it. -/
theorem readBody?_escapeChars (text rest : List Char) :
    readBody? (escapeChars text ++ '"' :: rest) = some (text, rest) := by
  induction text with
  | nil =>
      rw [escapeChars_nil, List.nil_append, readBody?, if_pos rfl]
  | cons c text ih =>
      rw [escapeChars_cons, List.append_assoc, readBody?_escapeChar, ih]
      rfl

/-- **A quoted text is read back.** The reader stops right behind the literal. -/
theorem readLiteral?_quoted (text : String) (rest : List Char) :
    readLiteral? ((quoted text).toList ++ rest) = some (text, rest) := by
  rw [quoted, String.toList_ofList, List.cons_append, List.cons_append, List.append_assoc,
    List.singleton_append, readLiteral?, if_pos rfl, readBody?_escapeChars, Option.map_some]
  dsimp only
  rw [String.ofList_toList]

/-- Texts are told apart by their literals. -/
theorem quoted_injective : Function.Injective quoted := by
  intro a b h
  have hread := readLiteral?_quoted a []
  rw [h, readLiteral?_quoted, Option.some.injEq] at hread
  exact (Prod.mk.inj hread).1.symm

end ModelForge
