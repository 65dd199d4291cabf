/-
`LineBreaks.lean` -- texts that stay on their line.

What is spelled as an identifier, quoted or written as a number has no line feed and no carriage
return in it, whatever it comes from. The other texts of a model that end up in the source are
taken as they are. So a line is `Unbroken` if these are, and a unit whose lines are unbroken is
cut at its line feeds into the lines that were written (`splitLines_text`).
-/
import ModelForge.Generate.DateTime
import ModelForge.Generate.Decorators
import ModelForge.Proofs.Identifiers
import ModelForge.Proofs.Literals

set_option autoImplicit false

namespace ModelForge

/-! ## Texts -/

/-- A text without a line feed and without a carriage return. -/
def Unbroken (text : String) : Prop := ∀ c ∈ text.toList, c ≠ '\n' ∧ c ≠ '\r'

-- named, because characters are finitely many and could all be gone through instead, which takes
-- too long
instance : DecidablePred Unbroken := fun text =>
  List.decidableBAll (fun c => c ≠ '\n' ∧ c ≠ '\r') text.toList

/-- A text stays on its line if both its halves do. -/
theorem unbroken_append {first second : String} :
    Unbroken (first ++ second) ↔ Unbroken first ∧ Unbroken second := by
  unfold Unbroken
  rw [String.toList_append, List.forall_mem_append]

theorem unbroken_ofList {chars : List Char} :
    Unbroken (String.ofList chars) ↔ ∀ c ∈ chars, c ≠ '\n' ∧ c ≠ '\r' := by
  unfold Unbroken
  rw [String.toList_ofList]

theorem unbroken_join {texts : List String} :
    Unbroken (String.join texts) ↔ ∀ text ∈ texts, Unbroken text := by
  induction texts with
  | nil => exact iff_of_true (by decide) (List.forall_mem_nil _)
  | cons text rest ih => rw [String.join_cons, unbroken_append, ih, List.forall_mem_cons]

/-- Texts that are put in a row stay on one line if each of them does, and what stands between
them. -/
theorem unbroken_intercalate {separator : String} (hseparator : Unbroken separator)
    {texts : List String} :
    Unbroken (separator.intercalate texts) ↔ ∀ text ∈ texts, Unbroken text := by
  induction texts with
  | nil => exact iff_of_true (fun c hc => absurd hc List.not_mem_nil) (List.forall_mem_nil _)
  | cons text rest ih =>
      by_cases hrest : rest = []
      · rw [hrest, String.intercalate_singleton, List.forall_mem_singleton]
      · rw [String.intercalate_cons_of_ne_nil hrest, unbroken_append, unbroken_append,
          and_iff_left hseparator, ih, List.forall_mem_cons]

/-- A line is stored with its indentation in front, which breaks nothing. -/
theorem unbroken_render {line : Line} : Unbroken line.render ↔ Unbroken line.text := by
  have hindent : Unbroken (String.join (List.replicate line.indent Line.levelIndent)) :=
    unbroken_join.2 fun text htext => by
      rw [List.eq_of_mem_replicate htext]
      decide
  unfold Line.render
  split
  · rename_i hempty
    rw [String.isEmpty_iff.1 hempty]
  · rw [unbroken_append, and_iff_right hindent]

/-! ## Spelled texts -/

/-- No character of an identifier breaks a line. -/
theorem ne_break_of_isIdentChar {c : Char} (h : isIdentChar c = true) : c ≠ '\n' ∧ c ≠ '\r' := by
  constructor
  · rintro rfl
    exact absurd h (by decide)
  · rintro rfl
    exact absurd h (by decide)

/-- A type name is sanitized, so it stays on its line. -/
theorem unbroken_typeName (reserved : WordSet) (raw : String) : Unbroken (typeName reserved raw) :=
  fun _ hc => ne_break_of_isIdentChar (isIdentChar_of_mem_typeName hc)

/-- So does the name of a member. -/
theorem unbroken_memberName (reserved : WordSet) (raw : String) :
    Unbroken (memberName reserved raw) :=
  fun _ hc => ne_break_of_isIdentChar (isIdentChar_of_mem_memberName hc)

/-- A module has the breaks of its namespace. -/
theorem unbroken_moduleName {raw : String} : Unbroken (moduleName raw) ↔ Unbroken raw := by
  unfold Unbroken
  rw [toList_moduleName, List.forall_mem_map]
  refine forall₂_congr fun c _ => ?_
  split
  · rename_i hreplaced
    rcases hreplaced with rfl | rfl <;> decide
  · rfl

/-! ## Quoted texts -/

/-- What an escape by code point has around its digits. -/
theorem ne_break_of_mem_opening : ∀ d ∈ ['\\', 'u', '\x7b'], d ≠ '\n' ∧ d ≠ '\r' :=
  List.forall_mem_cons.2 ⟨by decide, List.forall_mem_cons.2 ⟨by decide,
    List.forall_mem_singleton.2 (by decide)⟩⟩

theorem digitChar_ne_break : ∀ d < 16, Nat.digitChar d ≠ '\n' ∧ Nat.digitChar d ≠ '\r' := by decide

/-- Both breaks have an escape of their own. -/
theorem ne_break_of_mem_escapeChar {c d : Char} (h : d ∈ escapeChar c) : d ≠ '\n' ∧ d ≠ '\r' := by
  have hpair : ∀ letter : Char, letter ≠ '\n' ∧ letter ≠ '\r' → d ∈ ['\\', letter] →
      d ≠ '\n' ∧ d ≠ '\r' := by
    intro letter hletter hd
    rcases List.mem_cons.1 hd with rfl | hd
    · decide
    · rwa [List.mem_singleton.1 hd]
  unfold escapeChar at h
  by_cases hquote : c = '"'
  · rw [if_pos hquote] at h
    exact hpair _ (by decide) h
  by_cases hbackslash : c = '\\'
  · rw [if_neg hquote, if_pos hbackslash] at h
    exact hpair _ (by decide) h
  by_cases hfeed : c = '\n'
  · rw [if_neg hquote, if_neg hbackslash, if_pos hfeed] at h
    exact hpair _ (by decide) h
  by_cases hreturn : c = '\r'
  · rw [if_neg hquote, if_neg hbackslash, if_neg hfeed, if_pos hreturn] at h
    exact hpair _ (by decide) h
  rw [if_neg hquote, if_neg hbackslash, if_neg hfeed, if_neg hreturn] at h
  split at h
  · exact hpair _ (by decide) h
  split at h
  · exact hpair _ (by decide) h
  split at h
  · rw [List.mem_singleton.1 h]
    exact ⟨hfeed, hreturn⟩
  · unfold codePointEscape at h
    rw [List.mem_append, List.mem_append] at h
    rcases h with (hopen | hdigit) | hclose
    · exact ne_break_of_mem_opening d hopen
    · obtain ⟨n, hn, rfl⟩ := exists_of_mem_toDigits hdigit
      exact digitChar_ne_break n hn
    · rw [List.mem_singleton.1 hclose]
      decide

/-- **What is quoted stays on its line**, as breaks are escaped. -/
theorem unbroken_quoted (text : String) : Unbroken (quoted text) := by
  unfold quoted
  rw [unbroken_ofList, List.forall_mem_append, List.forall_mem_cons, List.forall_mem_singleton]
  refine ⟨⟨by decide, fun c hc => ?_⟩, by decide⟩
  obtain ⟨d, -, hc⟩ := List.mem_flatMap.1 hc
  exact ne_break_of_mem_escapeChar hc

/-! ## Numbers -/

theorem ne_break_of_mem_toDigits {n : Nat} {c : Char} (h : c ∈ Nat.toDigits 10 n) :
    c ≠ '\n' ∧ c ≠ '\r' := by
  have hdigit : c.isDigit = true := Nat.isDigit_of_mem_toDigits (by decide) (by decide) h
  constructor
  · rintro rfl
    exact absurd hdigit (by decide)
  · rintro rfl
    exact absurd hdigit (by decide)

/-- A number stays on its line. -/
theorem unbroken_toString_nat (n : Nat) : Unbroken (toString n) := by
  rw [Nat.toString_eq_ofList_toDigits, unbroken_ofList]
  exact fun c hc => ne_break_of_mem_toDigits hc

theorem unbroken_toString_int (n : Int) : Unbroken (toString n) := by
  cases n with
  | ofNat m => exact unbroken_toString_nat m
  | negSucc m => exact unbroken_append.2 ⟨by decide, unbroken_toString_nat (m + 1)⟩

theorem unbroken_zeros (n : Nat) : Unbroken (zeros n) := by
  unfold zeros
  rw [unbroken_ofList]
  intro c hc
  rw [List.eq_of_mem_replicate hc]
  decide

/-- So does a decimal that is written out. -/
theorem unbroken_positionalText {style : DecimalStyle} (hsuffix : Unbroken style.wholeSuffix)
    {digits : List Char} (hdigits : ∀ c ∈ digits, c ≠ '\n' ∧ c ≠ '\r') (place : Int) :
    Unbroken (style.positionalText digits place) := by
  unfold DecimalStyle.positionalText
  split
  · simp only [unbroken_append, unbroken_ofList]
    exact ⟨⟨by decide, unbroken_zeros _⟩, hdigits⟩
  · split
    · simp only [unbroken_append, unbroken_ofList]
      exact ⟨⟨hdigits, unbroken_zeros _⟩, hsuffix⟩
    · simp only [unbroken_append, unbroken_ofList]
      exact ⟨⟨fun c hc => hdigits c (List.mem_of_mem_take hc), by decide⟩,
        fun c hc => hdigits c (List.mem_of_mem_drop hc)⟩

/-- And one that is written with an exponent. -/
theorem unbroken_exponentText {digits : List Char} (hdigits : ∀ c ∈ digits, c ≠ '\n' ∧ c ≠ '\r')
    (place : Int) : Unbroken (exponentText digits place) := by
  have hmark : Unbroken (if place - 1 < 0 then "e-" else "e+") := by
    split <;> decide
  unfold exponentText
  simp only [unbroken_append]
  refine ⟨⟨?_, hmark⟩, unbroken_toString_nat _⟩
  split
  · exact unbroken_ofList.2 hdigits
  · simp only [unbroken_append, unbroken_ofList]
    exact ⟨⟨fun c hc => hdigits c (List.mem_of_mem_take hc), by decide⟩,
      fun c hc => hdigits c (List.mem_of_mem_drop hc)⟩

theorem unbroken_decimalText {style : DecimalStyle} (hsuffix : Unbroken style.wholeSuffix)
    (x : Binary64) : Unbroken (style.text x) := by
  have hmagnitude (m : Binary64.Magnitude) : Unbroken (style.magnitudeText m) := by
    unfold DecimalStyle.magnitudeText
    dsimp only
    split
    · exact unbroken_positionalText hsuffix (fun c hc => ne_break_of_mem_toDigits hc) _
    · exact unbroken_exponentText (fun c hc => ne_break_of_mem_toDigits hc) _
  have hnan : Unbroken "NaN" := by decide
  have hinfinite : ∀ negative : Bool, Unbroken (if negative then "-inf" else "inf") := by decide
  unfold DecimalStyle.text
  cases x.value with
  | nan => exact hnan
  | infinite negative => exact hinfinite negative
  | finite negative m =>
      have hunsigned : Unbroken (if m.mantissa = 0 then "0" ++ style.wholeSuffix
          else style.magnitudeText m) := by
        split
        · exact unbroken_append.2 ⟨by decide, hsuffix⟩
        · exact hmagnitude m
      dsimp only
      split
      · exact unbroken_append.2 ⟨by decide, hunsigned⟩
      · exact hunsigned

theorem unbroken_numberArgument (x : Binary64) : Unbroken (numberArgument x) := by
  unfold numberArgument
  split
  · split
    · exact unbroken_toString_int _
    · exact unbroken_decimalText (by decide) x
  · exact unbroken_decimalText (by decide) x

/-! ## Lines of a text -/

/-- A line feed ends the first line. -/
theorem splitLines_append_feed {line : List Char} (h : '\n' ∉ line) (rest : List Char) :
    splitLines (line ++ '\n' :: rest) = line :: splitLines rest := by
  induction line with
  | nil => rw [List.nil_append, splitLines, if_pos rfl]
  | cons c line ih =>
      rw [List.mem_cons, not_or] at h
      rw [List.cons_append, splitLines, if_neg (Ne.symm h.1), ih h.2]

/-- Lines that are put together are cut again where they were. -/
theorem splitLines_textOfLines {lines : List String} (h : ∀ line ∈ lines, '\n' ∉ line.toList)
    (rest : List Char) :
    splitLines ((textOfLines lines).toList ++ rest)
      = lines.map String.toList ++ splitLines rest := by
  induction lines with
  | nil => rfl
  | cons line lines ih =>
      rw [List.forall_mem_cons] at h
      have htext : (textOfLines (line :: lines)).toList ++ rest
          = line.toList ++ '\n' :: ((textOfLines lines).toList ++ rest) := by
        rw [textOfLines, List.map_cons, String.join_cons, String.toList_append,
          String.toList_append, List.append_assoc, List.append_assoc]
        rfl
      rw [htext, splitLines_append_feed h.1, ih h.2, List.map_cons, List.cons_append]

/-- The file of a unit holds its lines, each with its line feed. -/
theorem text_eq_textOfLines {unit : SourceUnit} (h : unit.lines ≠ []) :
    unit.text = textOfLines unit.lines := by
  obtain ⟨name, lines⟩ := unit
  have hlines : ∀ lines : List String, lines ≠ [] →
      "\n".intercalate lines ++ "\n" = textOfLines lines := by
    intro lines hne
    induction lines with
    | nil => exact absurd rfl hne
    | cons line rest ih =>
        rw [textOfLines, List.map_cons, String.join_cons]
        by_cases hrest : rest = []
        · rw [hrest, String.intercalate_singleton, List.map_nil, String.join_nil,
            String.append_empty]
        · rw [String.intercalate_cons_of_ne_nil hrest, String.append_assoc, ih hrest, textOfLines]
  exact hlines lines h

/-- **A unit of unbroken lines is cut back into its lines.** -/
theorem splitLines_text {unit : SourceUnit} (hne : unit.lines ≠ [])
    (h : ∀ line ∈ unit.lines, Unbroken line) :
    splitLines unit.text.toList = unit.lines.map String.toList := by
  have hfeeds : ∀ line ∈ unit.lines, '\n' ∉ line.toList := fun line hline hfeed =>
    (h line hline '\n' hfeed).1 rfl
  have hsplit := splitLines_textOfLines hfeeds []
  rwa [List.append_nil, splitLines, List.append_nil, ← text_eq_textOfLines hne] at hsplit

end ModelForge
