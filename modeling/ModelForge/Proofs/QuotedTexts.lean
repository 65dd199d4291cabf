/-
`QuotedTexts.lean` -- texts of a model that go through the generated source as literals.

A literal ends at its first quote that is not escaped, and a quote is escaped when an odd number
of backslashes stands right in front of it. So what has to be shown of the characters between the
quotes is one thing about backslashes: they come in such numbers that every quote of the text is
behind an odd one and the closing quote is behind an even one (`backslashes_escapeChars`). It is
kept from one character of the text to the next, whichever of its escapes the character has.

What the literals are is one half. The other is where they stand: the name of a field or of a
variant on the wire, the qualified name of a class, the format of date-times, and an argument of a
decorator. Each has a line with a fixed beginning and a fixed end, and what is in between is the
literal (`quoted_texts_survive`).
-/
import Mathlib.Algebra.Ring.Parity
import Mathlib.Data.List.Induction
import ModelForge.Proofs.FixedUnits
import ModelForge.Proofs.KeyedLists
import ModelForge.Proofs.Layout

set_option autoImplicit false

namespace ModelForge

/-! ## Escaped quotes -/

/-- How many backslashes a text ends in. -/
def closingBackslashes (text : List Char) : Nat := (text.reverse.takeWhile (· = '\\')).length

/-- What follows the text is escaped: the text ends in an odd number of backslashes. -/
def EscapesNext (text : List Char) : Prop := Odd (closingBackslashes text)

/-- One more backslash at the end counts. -/
theorem closingBackslashes_backslash (text : List Char) :
    closingBackslashes (text ++ ['\\']) = closingBackslashes text + 1 := by
  simp [closingBackslashes]

/-- Anything else at the end begins a new count. -/
theorem closingBackslashes_other (text : List Char) {c : Char} (hc : c ≠ '\\') :
    closingBackslashes (text ++ [c]) = 0 := by
  simp [closingBackslashes, hc]

/-- Another character in front of all others makes no difference. -/
theorem closingBackslashes_cons {c : Char} (hc : c ≠ '\\') (text : List Char) :
    closingBackslashes (c :: text) = closingBackslashes text := by
  have hstop : [c].takeWhile (fun d => decide (d = '\\')) = [] := by simp [hc]
  rw [closingBackslashes, List.reverse_cons, List.takeWhile_append, hstop]
  split
  · rename_i hall
    rw [List.append_nil, closingBackslashes, hall]
  · rfl

theorem digitChar_ne_quote : ∀ n < 16, Nat.digitChar n ≠ '"' := by decide

/-- The forms of an escaped character. It is the escape of one of the two characters that literals
are made with, or it has no quote and does not end in a backslash. -/
theorem escapeChar_forms (c : Char) :
    escapeChar c = ['\\', '"'] ∨ escapeChar c = ['\\', '\\']
      ∨ '"' ∉ escapeChar c ∧ ∃ front last, escapeChar c = front ++ [last] ∧ last ≠ '\\' := by
  have hnamed {letter : Char} (hquote : letter ≠ '"') (hbackslash : letter ≠ '\\') :
      '"' ∉ ['\\', letter] ∧ ∃ front last, ['\\', letter] = front ++ [last] ∧ last ≠ '\\' := by
    refine ⟨?_, ['\\'], letter, rfl, hbackslash⟩
    simp [Ne.symm hquote]
  unfold escapeChar
  by_cases hquote : c = '"'
  · rw [if_pos hquote]
    exact .inl rfl
  rw [if_neg hquote]
  by_cases hbackslash : c = '\\'
  · rw [if_pos hbackslash]
    exact .inr (.inl rfl)
  rw [if_neg hbackslash]
  refine .inr (.inr ?_)
  -- the named controls, then the character itself, then its code point
  split
  · exact hnamed (by decide) (by decide)
  split
  · exact hnamed (by decide) (by decide)
  split
  · exact hnamed (by decide) (by decide)
  split
  · exact hnamed (by decide) (by decide)
  split
  · refine ⟨fun h => hquote (List.mem_singleton.1 h).symm, [], c, rfl, hbackslash⟩
  · refine ⟨fun h => ?_, ['\\', 'u', '\x7b'] ++ Nat.toDigits 16 c.toNat, '\x7d', rfl, by decide⟩
    rw [codePointEscape, List.mem_append, List.mem_append] at h
    rcases h with (hopen | hdigit) | hclose
    · exact absurd hopen (by decide)
    · obtain ⟨n, hn, hdigit⟩ := exists_of_mem_toDigits hdigit
      exact digitChar_ne_quote n hn hdigit.symm
    · exact absurd hclose (by decide)

/-- **Backslashes come in pairs, but in front of a quote.** Escaped characters end in an even
number of backslashes, and each quote among them has an odd number in front of it. -/
theorem backslashes_escapeChars (text : List Char) :
    Even (closingBackslashes (escapeChars text))
      ∧ ∀ before after, escapeChars text = before ++ '"' :: after → EscapesNext before := by
  -- along the text from its end, for what counts is what stands in front of a character
  induction text using List.reverseRecOn with
  | nil =>
      refine ⟨⟨0, rfl⟩, fun before after h => ?_⟩
      exact absurd h.symm (by simp)
  | append_singleton text c ih =>
      obtain ⟨heven, hodd⟩ := ih
      have hconcat : escapeChars (text ++ [c]) = escapeChars text ++ escapeChar c := by
        rw [escapeChars, List.flatMap_append, List.flatMap_singleton, escapeChars]
      rw [hconcat]
      generalize escapeChars text = front at heven hodd ⊢
      have hforms := escapeChar_forms c
      refine ⟨?_, fun before after h => ?_⟩
      · rcases hforms with hquote | hbackslash | ⟨-, start, last, hlast, hne⟩
        · rw [hquote, ← List.singleton_append, ← List.append_assoc,
            closingBackslashes_other _ (by decide)]
          exact Even.zero
        · rw [hbackslash, ← List.singleton_append, ← List.append_assoc,
            closingBackslashes_backslash, closingBackslashes_backslash, add_assoc]
          exact heven.add (by decide)
        · rw [hlast, ← List.append_assoc, closingBackslashes_other _ hne]
          exact Even.zero
      · -- the quote is in the escape of the last character, or in front of it
        rcases List.append_eq_append_iff.1 h with ⟨inside, rfl, hescape⟩ | ⟨rest, hfront, hrest⟩
        · rcases hforms with hquote | hbackslash | ⟨hnone, -⟩
          · rw [hquote] at hescape
            have hinside : inside = ['\\'] := by
              rcases inside with _ | ⟨a, _ | ⟨b, inside⟩⟩
              · exact absurd hescape (by simp)
              · rw [List.cons_append, List.cons.injEq] at hescape
                rw [← hescape.1]
              · have hlength := congrArg List.length hescape
                simp only [List.length_cons, List.length_append, List.length_nil] at hlength
                omega
            rw [hinside, EscapesNext, closingBackslashes_backslash]
            exact heven.add_one
          · rw [hbackslash] at hescape
            have hmem : '"' ∈ ['\\', '\\'] := hescape ▸ List.mem_append_right _ List.mem_cons_self
            exact absurd hmem (by decide)
          · exact absurd (hescape ▸ List.mem_append_right _ List.mem_cons_self) hnone
        · cases rest with
          | nil =>
              -- no escape begins with a quote
              rw [List.nil_append] at hrest
              rcases hforms with hquote | hbackslash | ⟨hnone, -⟩
              · exact absurd (hrest.trans hquote) (by simp)
              · exact absurd (hrest.trans hbackslash) (by simp)
              · exact absurd (hrest ▸ List.mem_cons_self) hnone
          | cons d rest =>
              rw [List.cons_append, List.cons.injEq] at hrest
              rw [← hrest.1] at hfront
              exact hodd before rest hfront

/-! ## Literals -/

/-- The literal stands for the text. -/
structure Denotes (literal : String) (text : String) : Prop where
  /-- It is between double quotes. -/
  delimited : ∃ inner, literal.toList = '"' :: inner ++ ['"']
  /-- The quotes that are escaped are the ones inside. -/
  quotes : ∀ before after, literal.toList = before ++ '"' :: after →
    (EscapesNext before ↔ before ≠ [] ∧ after ≠ [])
  /-- It stays on its line. -/
  unbroken : Unbroken literal
  /-- It is read to its end, whatever follows, and gives the text. -/
  reads : ∀ rest, readLiteral? (literal.toList ++ rest) = some (text, rest)

/-- **What is quoted denotes the text.** -/
theorem denotes_quoted (text : String) : Denotes (quoted text) text where
  delimited := ⟨escapeChars text.toList, by rw [quoted, String.toList_ofList]⟩
  quotes before after h := by
    obtain ⟨heven, hodd⟩ := backslashes_escapeChars text.toList
    rw [quoted, String.toList_ofList] at h
    cases before with
    | nil => exact iff_of_false (by simp [EscapesNext, closingBackslashes]) (by simp)
    | cons c before =>
        rw [List.cons_append, List.cons_append, List.cons.injEq] at h
        obtain ⟨rfl, h⟩ := h
        rw [EscapesNext, closingBackslashes_cons (by decide)]
        -- the quote is the closing one, or stands among the escaped characters
        rcases List.eq_nil_or_concat after with rfl | ⟨inner, last, rfl⟩
        · obtain ⟨hbefore, -⟩ := List.append_inj' h rfl
          rw [← hbefore]
          exact iff_of_false (Nat.not_odd_iff_even.2 heven) (by simp)
        · rw [List.concat_eq_append, ← List.cons_append, ← List.append_assoc] at h
          obtain ⟨hinner, -⟩ := List.append_inj' h rfl
          exact iff_of_true (hodd before inner hinner) (by simp)
  unbroken := unbroken_quoted text
  reads := readLiteral?_quoted text

/-- A line is a literal for `text` between `front` and `back`. -/
def HoldsLiteral (front text back : String) (line : Line) : Prop :=
  ∃ literal, Denotes literal text ∧ line.text = front ++ literal ++ back

/-- A line with a quoted text between others holds a literal for it. -/
theorem holdsLiteral_quoted {front text back : String} {line : Line}
    (h : line.text = front ++ quoted text ++ back) : HoldsLiteral front text back line :=
  ⟨quoted text, denotes_quoted text, h⟩

/-! ## Where literals stand -/

theorem intercalate_split (separator : String) (before : List String) (text : String)
    (behind : List String) :
    separator.intercalate (before ++ text :: behind)
      = String.join (before.map (· ++ separator)) ++ text
        ++ String.join (behind.map (separator ++ ·)) := by
  have hbehind : separator.intercalate (text :: behind)
      = text ++ String.join (behind.map (separator ++ ·)) := by
    induction behind generalizing text with
    | nil => rw [String.intercalate_singleton, List.map_nil, String.join_nil, String.append_empty]
    | cons next rest ih =>
        rw [String.intercalate_cons_of_ne_nil (List.cons_ne_nil _ _), ih, List.map_cons,
          String.join_cons]
        simp only [String.append_assoc]
  induction before with
  | nil => rw [List.nil_append, hbehind, List.map_nil, String.join_nil, String.empty_append]
  | cons first rest ih =>
      have hne : rest ++ text :: behind ≠ [] :=
        List.append_ne_nil_of_right_ne_nil _ (List.cons_ne_nil _ _)
      rw [List.cons_append, String.intercalate_cons_of_ne_nil hne, ih,
        List.map_cons, String.join_cons]
      simp only [String.append_assoc]

/-- What stands in front of an argument in documentation. -/
def argumentFront (name : String) (before : List Literal) : String :=
  "/// @" ++ name ++ "(" ++ String.join (before.map fun argument => argument.render ++ ", ")

/-- What stands behind it. -/
def argumentBack (behind : List Literal) : String :=
  String.join (behind.map fun argument => ", " ++ argument.render) ++ ")"

/-- The line of a decorator, told from one of its arguments. -/
theorem doc_renderDecorator (name : String) (before : List Literal) (argument : Literal)
    (behind : List Literal) :
    "/// " ++ renderDecorator name (before ++ argument :: behind)
      = argumentFront name before ++ argument.render ++ argumentBack behind := by
  have hrender : renderDecorator name (before ++ argument :: behind)
      = "@" ++ name ++ "("
        ++ ", ".intercalate ((before ++ argument :: behind).map Literal.render) ++ ")" := by
    cases before <;> rfl
  have hmark : "/// @" = "/// " ++ "@" := rfl
  rw [hrender, List.map_append, List.map_cons, intercalate_split, List.map_map, List.map_map,
    argumentFront, argumentBack, hmark]
  simp only [String.append_assoc]
  rfl

/-- Of several decorators with one name the last one is documented. -/
theorem mem_docLines {decorators front back : List Decorator} {d : Decorator}
    (hsplit : decorators = front ++ d :: back) (hlast : ∀ other ∈ back, other.name ≠ d.name)
    (level : Nat) :
    (⟨level, "/// " ++ renderDecorator d.name d.arguments⟩ : Line) ∈ docLines level decorators := by
  have hbehind : (back.map fun other => (other.name, other.arguments)).reverse.lookup d.name
      = none := by
    rw [lookup_eq_none_iff_not_mem]
    intro hmem
    rw [List.map_reverse, List.mem_reverse, List.map_map] at hmem
    obtain ⟨other, hother, hname⟩ := List.mem_map.1 hmem
    exact hlast other hother hname
  have hlookup : (KeyedList.ofList (decorators.map fun d => (d.name, d.arguments))).lookup d.name
      = some d.arguments := by
    rw [KeyedList.lookup_ofList, hsplit, List.map_append, List.map_cons, List.reverse_append,
      List.reverse_cons, List.append_assoc, List.lookup_append, hbehind, Option.none_or,
      List.singleton_append, lookup_cons_eq_ite, if_pos rfl]
  cases decorators with
  | nil => exact absurd hsplit.symm (List.append_ne_nil_of_right_ne_nil _ (List.cons_ne_nil _ _))
  | cons first rest =>
      rw [docLines, decoratorTable?]
      dsimp only
      rw [renderTable, List.map_map]
      exact List.mem_map.2 ⟨(d.name, d.arguments), mem_of_lookup hlookup, rfl⟩

/-- The texts of a model that become literals, and the lines in which these stand. -/
structure SurvivesSource (text : String) : Prop where
  literal : Denotes (quoted text) text
  /-- The name of a field on the wire. -/
  field : ∀ (field : Field) (level : Nat), field.wireName = text →
    ∃ line ∈ ((fieldFragment field).emit level).lines, HoldsLiteral "rename = " text "," line
  /-- The name of a variant on the wire, where the variant is spelled otherwise. -/
  variant : ∀ (options : Options) (value : Property), value.name = text →
    typeName options.reserved text ≠ text →
    ∃ line ∈ ((variantFragment options value).emit 1).lines,
      HoldsLiteral "#[serde(rename = " text ")]" line
  /-- The qualified name of a class, in the constant of its record. -/
  constant : ∀ (options : Options) (naming : String → String) (g : Graph) (d : Declaration),
    d.qualifiedName = text → recordClash? naming g d = none →
    ∃ line ∈ ((recordFragment options naming g d).emit 0).lines,
      HoldsLiteral "pub const CLASS: &str = " text ";" line
  /-- The format of date-times. -/
  format : ∃ line ∈ ((dateTimeFragment text).emit 0).lines,
    HoldsLiteral "const DATETIME_FORMAT: &str = " text ";" line
  /-- An argument of a decorator, the last one of its name. -/
  argument : ∀ (decorators front back : List Decorator) (name : String)
    (before behind : List Literal) (level : Nat),
    decorators = front ++ ⟨name, before ++ .text text :: behind⟩ :: back →
    (∀ other ∈ back, other.name ≠ name) →
    ∃ line ∈ ((decoratorDocs decorators).emit level).lines,
      HoldsLiteral (argumentFront name before) text (argumentBack behind) line

/-- The format stands in a literal of the hooks. -/
theorem holdsLiteral_format (format : String) : ∃ line ∈ ((dateTimeFragment format).emit 0).lines,
    HoldsLiteral "const DATETIME_FORMAT: &str = " format ";" line := by
  obtain ⟨front, back, -, hsplit⟩ := exists_splitLines_dateTimeSource format
  have hmem : (formatLine format).toList ∈ splitLines (dateTimeSource format).toList := by
    rw [hsplit]
    exact List.mem_map_of_mem (List.mem_append_right _ List.mem_cons_self)
  -- the line begins with no space, so that it is at the first level
  have hspaced : Line.ofSpaced (formatLine format).toList = ⟨0, formatLine format⟩ := by
    obtain ⟨tail, htail⟩ := List.head?_eq_some_iff.1 (head_formatLine format)
    rw [Line.ofSpaced, htail, List.takeWhile_cons_of_neg (by decide),
      List.dropWhile_cons_of_neg (by decide), ← htail, String.ofList_toList]
    rfl
  have hline : Line.ofSpaced (formatLine format).toList
      ∈ (splitLines (dateTimeSource format).toList).map Line.ofSpaced := List.mem_map_of_mem hmem
  rw [hspaced] at hline
  have hholds :
      HoldsLiteral "const DATETIME_FORMAT: &str = " format ";" ⟨0, formatLine format⟩ := by
    apply holdsLiteral_quoted
    unfold formatLine
    rfl
  rw [emit_dateTimeFragment]
  dsimp only
  exact ⟨⟨0, formatLine format⟩, hline, hholds⟩

/-- **A quoted text survives the source.** Whatever characters it has, the literal for it is
complete, stays on its line and is read back as the text, in every place where the generator
writes one. -/
theorem quoted_texts_survive (text : String) : SurvivesSource text where
  literal := denotes_quoted text
  field field level hname := by
    have hattribute : "rename = " ++ quoted field.wireName ++ "," ∈ fieldAttributes field :=
      List.mem_append_left _ (List.mem_append_left _ List.mem_cons_self)
    have hline := List.mem_map_of_mem (f := fun text => (⟨level + 1, text⟩ : Line)) hattribute
    rw [hname] at hline
    rw [emit_fieldFragment, fieldLines]
    refine ⟨⟨level + 1, "rename = " ++ quoted text ++ ","⟩, ?_, holdsLiteral_quoted rfl⟩
    exact List.mem_append_left _ (List.mem_append_left _ (List.mem_append_right _ hline))
  variant options value hname hspelled := by
    rw [emit_variantFragment, variantLines, renameLines, hname, if_neg hspelled]
    refine ⟨_, List.mem_append_left _ (List.mem_append_right _ List.mem_cons_self), ?_⟩
    exact holdsLiteral_quoted rfl
  constant options naming g d hname hclash := by
    rw [emit_recordFragment options naming g hclash]
    refine ⟨constantLine d, ?_, holdsLiteral_quoted (by rw [constantLine, hname])⟩
    exact List.mem_append_right _
      (List.mem_cons_of_mem _ (List.mem_append_left _ List.mem_cons_self))
  format := holdsLiteral_format text
  argument decorators front back name before behind level hsplit hlast := by
    rw [emit_decoratorDocs]
    refine ⟨_, mem_docLines hsplit hlast level, holdsLiteral_quoted ?_⟩
    exact doc_renderDecorator name before (.text text) behind

end ModelForge
