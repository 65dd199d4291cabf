/-
`CompactText.lean` -- what is written compactly is read back.

`Json.render` writes a value without blanks and `Json.parse` reads texts. For a value that a text
can give (`Json.readable`: keys ascend, nesting stays within the limit, and there are no numbers
in it) the two are inverse: `Json.parse_render`.

A reading step returns what is left together with a proof that it is shorter. `Yields` hides the
proof, so that each step has one lemma that says which text it reads off and what it leaves.
-/
import Mathlib.Data.Nat.Init
import ModelForge.Json.Parser
import ModelForge.Proofs.KeyedLists

set_option autoImplicit false

namespace ModelForge

namespace Json

/-! ## Readable values -/

mutual

/-- Whether a text gives the value, without numbers, at a place where `depth` more levels may be
nested. -/
def readable (depth : Nat) : Json → Bool
  | .null => true
  | .boolean _ => true
  | .number _ => false
  | .text _ => true
  | .array items =>
      match depth with
      | 0 => false
      | depth + 1 => readableItems depth items
  | .object fields =>
      match depth with
      | 0 => false
      | depth + 1 =>
          decide ((fields.map Prod.fst).Pairwise (· < ·)) && readableFields depth fields

/-- Whether all items of an array are readable. -/
def readableItems (depth : Nat) : List Json → Bool
  | [] => true
  | item :: rest => readable depth item && readableItems depth rest

/-- Whether all values of an object are readable. -/
def readableFields (depth : Nat) : List (String × Json) → Bool
  | [] => true
  | (_, value) :: rest => readable depth value && readableFields depth rest

end

/-! ## Written characters -/

/-- The characters of the items of an array behind one that was written, up to the bracket. -/
def itemsTail : List Json → List Char
  | [] => []
  | item :: rest => ',' :: item.render.toList ++ itemsTail rest

/-- The characters of a field. -/
def fieldChars (field : String × Json) : List Char :=
  (textLiteral field.1).toList ++ ':' :: field.2.render.toList

/-- The characters of the fields of an object behind one that was written, up to the brace. -/
def fieldsTail : List (String × Json) → List Char
  | [] => []
  | field :: rest => ',' :: fieldChars field ++ fieldsTail rest

/-- A text is written between quotes, with its characters escaped. -/
theorem textLiteral_toList (s : String) :
    (textLiteral s).toList = '"' :: (s.toList.flatMap escapedChar ++ ['"']) := by
  rw [textLiteral, String.toList_ofList]
  rfl

/-- Items are written with commas between them. -/
theorem intercalate_renderItems (item : Json) (rest : List Json) :
    (",".intercalate (renderItems (item :: rest))).toList
      = item.render.toList ++ itemsTail rest := by
  induction rest generalizing item with
  | nil => simp [renderItems, itemsTail]
  | cons next rest ih =>
      rw [renderItems, String.intercalate_cons_of_ne_nil (by simp [renderItems]),
        String.toList_append, String.toList_append, ih, itemsTail, List.append_assoc]
      rfl

/-- So are fields. -/
theorem intercalate_renderFields (field : String × Json) (rest : List (String × Json)) :
    (",".intercalate (renderFields (field :: rest))).toList
      = fieldChars field ++ fieldsTail rest := by
  induction rest generalizing field with
  | nil => simp [renderFields, fieldsTail, fieldChars, String.append_assoc]
  | cons next rest ih =>
      rw [renderFields, String.intercalate_cons_of_ne_nil (by simp [renderFields]),
        String.toList_append, String.toList_append, ih, fieldsTail]
      simp [fieldChars, List.append_assoc]

/-- No readable value begins like a blank or like the end of an array. -/
theorem head_render {depth : Nat} {j : Json} (h : j.readable depth = true) :
    ∃ c rest, j.render.toList = c :: rest ∧ Parser.isBlank c = false ∧ c ≠ ']' := by
  cases j with
  | null => exact ⟨'n', _, rfl, rfl, by decide⟩
  | boolean b =>
      cases b with
      | true => exact ⟨'t', _, rfl, rfl, by decide⟩
      | false => exact ⟨'f', _, rfl, rfl, by decide⟩
  | number n => exact absurd h (by simp [readable])
  | text s =>
      rw [render]
      exact ⟨'"', _, textLiteral_toList s, rfl, by decide⟩
  | array items =>
      rw [render, String.toList_append, String.toList_append]
      exact ⟨'[', _, rfl, rfl, by decide⟩
  | object fields =>
      rw [render, String.toList_append, String.toList_append]
      exact ⟨'\x7b', _, rfl, rfl, by decide⟩

/-! ## Reading steps -/

namespace Parser

/-- A reading step reads `a` and leaves `rest`. -/
def Yields {s : List Char} {α : Type} (reading : Reading s α) (a : α) (rest : List Char) : Prop :=
  ∃ shorter, reading = .ok (a, ⟨rest, shorter⟩)

theorem skipBlanks_cons {c : Char} (rest : List Char) (h : isBlank c = false) :
    skipBlanks (c :: rest) = c :: rest := by
  rw [skipBlanks, List.dropWhile_cons, if_neg (by rw [h]; decide)]

theorem skipBlanks_ne_nil {c : Char} {rest : List Char} (h : isBlank c = false) :
    skipBlanks (c :: rest) ≠ [] := by
  rw [skipBlanks_cons rest h]
  exact List.cons_ne_nil c rest

/-- Nothing is skipped in front of a token. -/
theorem skipBlanks_cons_inj {c c' : Char} {rest rest' : List Char} (h : isBlank c = false)
    (hskip : skipBlanks (c :: rest) = c' :: rest') : c = c' ∧ rest = rest' := by
  rw [skipBlanks_cons rest h] at hskip
  exact List.cons.inj hskip

/-- The two hex digits of a control character are read back. -/
theorem hexDigits_of_lt : ∀ n < 0x20,
    hexDigit? (Nat.digitChar (n / 16)) = some (n / 16)
      ∧ hexDigit? (Nat.digitChar (n % 16)) = some (n % 16) := by
  decide

/-- The escape of a control by its number. -/
theorem unicodeEscape_control {c : Char} (h : c.toNat < 0x20) (rest : List Char) :
    Yields (unicodeEscape
      ('0' :: '0' :: Nat.digitChar (c.toNat / 16) :: Nat.digitChar (c.toNat % 16) :: rest)) c
        rest := by
  -- the two digits write the number of the character
  have hvalue : (c.toNat / 16) * 16 + c.toNat % 16 = c.toNat := Nat.div_add_mod' _ _
  have hzero : hexDigit? '0' = some 0 := by decide
  obtain ⟨hhigh, hlow⟩ := hexDigits_of_lt c.toNat h
  have hunit : Yields (hexUnit ('0' :: '0' :: Nat.digitChar (c.toNat / 16)
      :: Nat.digitChar (c.toNat % 16) :: rest)) c.toNat rest := by
    refine ⟨by simp only [List.length_cons]; omega, ?_⟩
    simp only [hexUnit, hzero, hhigh, hlow, Nat.zero_mul, Nat.zero_add, hvalue]
  obtain ⟨hshorter, hunit⟩ := hunit
  refine ⟨hshorter, ?_⟩
  rw [unicodeEscape, hunit]
  -- so small a number is no surrogate
  have hlow : ¬ (0xDC00 ≤ c.toNat ∧ c.toNat ≤ 0xDFFF) := by omega
  have hhigh : c.toNat < 0xD800 ∨ 0xDBFF < c.toNat := by omega
  simp only [if_neg hlow, if_pos hhigh, Char.ofNat_toNat]

/-- A character is written as an escape that stands for it, or as itself. -/
theorem escapedChar_cases (c : Char) :
    (∃ letters, escapedChar c = '\\' :: letters
        ∧ ∀ rest, Yields (escapedCharacter (letters ++ rest)) c rest)
      ∨ escapedChar c = [c] ∧ c ≠ '"' ∧ c ≠ '\\' ∧ ¬ c.toNat < 0x20 := by
  by_cases hquote : c = '"'
  · subst hquote
    exact .inl ⟨['"'], rfl, fun _ => ⟨_, rfl⟩⟩
  by_cases hbackslash : c = '\\'
  · subst hbackslash
    exact .inl ⟨['\\'], rfl, fun _ => ⟨_, rfl⟩⟩
  by_cases hfeed : c = '\n'
  · subst hfeed
    exact .inl ⟨['n'], rfl, fun _ => ⟨_, rfl⟩⟩
  by_cases hreturn : c = '\r'
  · subst hreturn
    exact .inl ⟨['r'], rfl, fun _ => ⟨_, rfl⟩⟩
  by_cases htab : c = '\t'
  · subst htab
    exact .inl ⟨['t'], rfl, fun _ => ⟨_, rfl⟩⟩
  by_cases hback : c = '\x08'
  · subst hback
    exact .inl ⟨['b'], rfl, fun _ => ⟨_, rfl⟩⟩
  by_cases hform : c = '\x0c'
  · subst hform
    exact .inl ⟨['f'], rfl, fun _ => ⟨_, rfl⟩⟩
  -- what is left are the other controls and the characters that stand for themselves
  simp only [escapedChar, if_neg hquote, if_neg hbackslash, if_neg hfeed,
    if_neg hreturn, if_neg htab, if_neg hback, if_neg hform]
  by_cases hcontrol : c.toNat < 0x20
  · rw [if_pos hcontrol]
    refine .inl ⟨_, rfl, fun rest => ?_⟩
    obtain ⟨hleft, heq⟩ := unicodeEscape_control hcontrol rest
    refine ⟨Nat.lt_succ_of_lt hleft, ?_⟩
    simp only [List.cons_append, List.nil_append, escapedCharacter, heq]
    rfl
  · rw [if_neg hcontrol]
    exact .inr ⟨rfl, hquote, hbackslash, hcontrol⟩

/-- A character of a string is read as it was written. -/
theorem stringBody_escapedChar (c : Char) {rest rest' : List Char} {read : List Char} {s : String}
    (h : Yields (stringBody rest (c :: read)) s rest') :
    Yields (stringBody (escapedChar c ++ rest) read) s rest' := by
  obtain ⟨hshorter, h⟩ := h
  rcases escapedChar_cases c with ⟨letters, heq, hescape⟩ | ⟨heq, hquote, hbackslash, hcontrol⟩
  · obtain ⟨hletters, hescape⟩ := hescape rest
    rw [heq, List.cons_append]
    refine ⟨by simp only [List.length_cons]; omega, ?_⟩
    rw [stringBody, if_neg (by decide), if_pos rfl, hescape]
    simp only [h]
    rfl
  · rw [heq, List.cons_append, List.nil_append]
    refine ⟨Nat.lt_succ_of_lt hshorter, ?_⟩
    rw [stringBody, if_neg hquote, if_neg hbackslash, if_neg hcontrol, h]
    rfl

/-- A string is read up to the quote that ends it. -/
theorem stringBody_escaped (letters read rest : List Char) :
    Yields (stringBody (letters.flatMap escapedChar ++ '"' :: rest) read)
      (String.ofList (read.reverse ++ letters)) rest := by
  induction letters generalizing read with
  | nil =>
      rw [List.flatMap_nil, List.nil_append, List.append_nil]
      refine ⟨Nat.lt_succ_self _, ?_⟩
      rw [stringBody, if_pos rfl]
  | cons c letters ih =>
      rw [List.flatMap_cons, List.append_assoc]
      have hread := ih (c :: read)
      rw [List.reverse_cons, List.append_assoc] at hread
      exact stringBody_escapedChar c hread

/-! ## Values -/

/-- The three words are told apart by their first letters. -/
theorem value_words (depth : Nat) (rest : List Char) :
    Yields (value depth ('n' :: 'u' :: 'l' :: 'l' :: rest)) .null rest
      ∧ Yields (value depth ('t' :: 'r' :: 'u' :: 'e' :: rest)) (.boolean true) rest
      ∧ Yields (value depth ('f' :: 'a' :: 'l' :: 's' :: 'e' :: rest)) (.boolean false) rest := by
  refine ⟨⟨by simp only [List.length_cons]; omega, ?_⟩,
    ⟨by simp only [List.length_cons]; omega, ?_⟩, ⟨by simp only [List.length_cons]; omega, ?_⟩⟩
  all_goals
    rw [value]
    split
    · rename_i hskip
      exact absurd hskip (skipBlanks_ne_nil rfl)
    · rename_i hskip
      obtain ⟨rfl, rfl⟩ := skipBlanks_cons_inj rfl hskip
      rfl

/-- A text is read from its quote on. -/
theorem value_text (depth : Nat) {body rest : List Char} {s : String}
    (h : Yields (stringBody body []) s rest) :
    Yields (value depth ('"' :: body)) (.text s) rest := by
  obtain ⟨hshorter, h⟩ := h
  refine ⟨Nat.lt_succ_of_lt hshorter, ?_⟩
  rw [value]
  split
  · rename_i hskip
    exact absurd hskip (skipBlanks_ne_nil rfl)
  · rename_i hskip
    obtain ⟨rfl, rfl⟩ := skipBlanks_cons_inj rfl hskip
    rw [if_neg (by decide), if_neg (by decide), if_neg (by decide), if_pos rfl, h]
    rfl

/-- An array is read from its bracket on, one level deeper. -/
theorem value_array (depth : Nat) {body rest : List Char} {xs : List Json}
    (h : Yields (items depth true body) xs rest) :
    Yields (value (depth + 1) ('[' :: body)) (.array xs) rest := by
  obtain ⟨hshorter, h⟩ := h
  refine ⟨Nat.lt_succ_of_lt hshorter, ?_⟩
  rw [value]
  split
  · rename_i hskip
    exact absurd hskip (skipBlanks_ne_nil rfl)
  · rename_i hskip
    obtain ⟨rfl, rfl⟩ := skipBlanks_cons_inj rfl hskip
    rw [if_neg (by decide), if_neg (by decide), if_neg (by decide), if_neg (by decide),
      if_neg (by decide), if_pos rfl]
    simp only [h]
    rfl

/-- An object is read from its brace on, one level deeper. -/
theorem value_object (depth : Nat) {body rest : List Char} {fields : List (String × Json)}
    (h : Yields (members depth true body) fields rest) :
    Yields (value (depth + 1) ('\x7b' :: body)) (ofFields fields) rest := by
  obtain ⟨hshorter, h⟩ := h
  refine ⟨Nat.lt_succ_of_lt hshorter, ?_⟩
  rw [value]
  split
  · rename_i hskip
    exact absurd hskip (skipBlanks_ne_nil rfl)
  · rename_i hskip
    obtain ⟨rfl, rfl⟩ := skipBlanks_cons_inj rfl hskip
    rw [if_neg (by decide), if_neg (by decide), if_neg (by decide), if_neg (by decide),
      if_neg (by decide), if_neg (by decide), if_pos rfl]
    simp only [h]
    rfl

/-! ## Items and fields -/

/-- A closing bracket ends the items, before the first one or behind another. -/
theorem items_close (depth : Nat) (first : Bool) (rest : List Char) :
    Yields (items depth first (']' :: rest)) [] rest := by
  refine ⟨Nat.lt_succ_self _, ?_⟩
  rw [items]
  split
  · rename_i hskip
    exact absurd hskip (skipBlanks_ne_nil rfl)
  · rename_i hskip
    obtain ⟨rfl, rfl⟩ := skipBlanks_cons_inj rfl hskip
    rfl

/-- The first item stands right behind the bracket. -/
theorem items_first {depth : Nat} {c : Char} {body between rest : List Char} {x : Json}
    {xs : List Json} (hblank : isBlank c = false) (hbracket : c ≠ ']')
    (hx : Yields (value depth (c :: body)) x between)
    (hxs : Yields (items depth false between) xs rest) :
    Yields (items depth true (c :: body)) (x :: xs) rest := by
  obtain ⟨hbetween, hx⟩ := hx
  obtain ⟨hshorter, hxs⟩ := hxs
  refine ⟨by simp only [List.length_cons] at hbetween ⊢; omega, ?_⟩
  rw [items]
  split
  · rename_i hskip
    exact absurd hskip (skipBlanks_ne_nil hblank)
  · rename_i hskip
    obtain ⟨rfl, rfl⟩ := skipBlanks_cons_inj hblank hskip
    rw [if_neg hbracket, if_pos rfl, hx]
    simp only [hxs]
    rfl

/-- Every other item stands behind a comma. -/
theorem items_next {depth : Nat} {c : Char} {body between rest : List Char} {x : Json}
    {xs : List Json} (hblank : isBlank c = false) (hbracket : c ≠ ']')
    (hx : Yields (value depth (c :: body)) x between)
    (hxs : Yields (items depth false between) xs rest) :
    Yields (items depth false (',' :: c :: body)) (x :: xs) rest := by
  obtain ⟨hbetween, hx⟩ := hx
  obtain ⟨hshorter, hxs⟩ := hxs
  refine ⟨by simp only [List.length_cons] at hbetween ⊢; omega, ?_⟩
  rw [items]
  split
  · rename_i hskip
    exact absurd hskip (skipBlanks_ne_nil rfl)
  · rename_i hskip
    obtain ⟨rfl, rfl⟩ := skipBlanks_cons_inj rfl hskip
    -- a comma must not be followed by the end
    have hopen : ¬ (skipBlanks (c :: body)).head? = some ']' := by
      rw [skipBlanks_cons _ hblank, List.head?_cons, Option.some.injEq]
      exact hbracket
    rw [if_neg (by decide), if_neg (by decide), if_pos rfl, if_neg hopen, hx]
    simp only [hxs]
    rfl

/-- A closing brace ends the members. -/
theorem members_close (depth : Nat) (first : Bool) (rest : List Char) :
    Yields (members depth first ('\x7d' :: rest)) [] rest := by
  refine ⟨Nat.lt_succ_self _, ?_⟩
  rw [members]
  split
  · rename_i hskip
    exact absurd hskip (skipBlanks_ne_nil rfl)
  · rename_i hskip
    obtain ⟨rfl, rfl⟩ := skipBlanks_cons_inj rfl hskip
    rfl

/-- The first member follows without a comma. -/
theorem members_first {depth : Nat} {body between rest : List Char} {x : String × Json}
    {xs : List (String × Json)} (hx : Yields (member depth body) x between)
    (hxs : Yields (members depth false between) xs rest) :
    Yields (members depth true ('"' :: body)) (x :: xs) rest := by
  obtain ⟨hbetween, hx⟩ := hx
  obtain ⟨hshorter, hxs⟩ := hxs
  refine ⟨by simp only [List.length_cons]; omega, ?_⟩
  rw [members]
  split
  · rename_i hskip
    exact absurd hskip (skipBlanks_ne_nil rfl)
  · rename_i hskip
    obtain ⟨rfl, rfl⟩ := skipBlanks_cons_inj rfl hskip
    rw [if_neg (by decide), if_pos rfl, if_pos rfl, hx]
    simp only [hxs]
    rfl

/-- Each other one follows a comma. -/
theorem members_next {depth : Nat} {body between rest : List Char} {x : String × Json}
    {xs : List (String × Json)} (hx : Yields (member depth body) x between)
    (hxs : Yields (members depth false between) xs rest) :
    Yields (members depth false (',' :: '"' :: body)) (x :: xs) rest := by
  obtain ⟨hbetween, hx⟩ := hx
  obtain ⟨hshorter, hxs⟩ := hxs
  refine ⟨by simp only [List.length_cons]; omega, ?_⟩
  rw [members]
  split
  · rename_i hskip
    exact absurd hskip (skipBlanks_ne_nil rfl)
  · rename_i hskip
    obtain ⟨rfl, rfl⟩ := skipBlanks_cons_inj rfl hskip
    rw [if_neg (by decide), if_neg (by decide), if_pos rfl]
    -- blanks may stand behind the comma as well
    split
    · rename_i hquote
      exact absurd hquote (skipBlanks_ne_nil rfl)
    · rename_i hquote
      obtain ⟨rfl, rfl⟩ := skipBlanks_cons_inj rfl hquote
      rw [if_pos rfl, hx]
      simp only [hxs]
      rfl

/-- A member is a key, a colon and a value. -/
theorem member_field {depth : Nat} {key : String} {body between rest : List Char} {x : Json}
    (hkey : Yields (stringBody body []) key (':' :: between))
    (hx : Yields (value depth between) x rest) : Yields (member depth body) (key, x) rest := by
  obtain ⟨hbetween, hkey⟩ := hkey
  obtain ⟨hshorter, hx⟩ := hx
  refine ⟨by simp only [List.length_cons] at hbetween; omega, ?_⟩
  rw [member, hkey]
  dsimp only
  split
  · rename_i hskip
    exact absurd hskip (skipBlanks_ne_nil rfl)
  · rename_i hskip
    obtain ⟨rfl, rfl⟩ := skipBlanks_cons_inj rfl hskip
    rw [if_pos rfl, hx]
    rfl

/-! ## Whole values -/

/-- A string is read behind its opening quote. -/
theorem textLiteral_append (s : String) (rest : List Char) :
    ∃ body, (textLiteral s).toList ++ rest = '"' :: body ∧ Yields (stringBody body []) s rest := by
  refine ⟨s.toList.flatMap escapedChar ++ '"' :: rest, ?_, ?_⟩
  · rw [textLiteral_toList]
    simp [List.append_assoc]
  · have := stringBody_escaped s.toList [] rest
    rwa [List.reverse_nil, List.nil_append, String.ofList_toList] at this

mutual

/-- **A readable value is read off the front of any text that begins with it.** -/
theorem value_render {depth : Nat} {j : Json} (h : j.readable depth = true) (rest : List Char) :
    Yields (value depth (j.render.toList ++ rest)) j rest := by
  match j with
  | .null => exact (value_words depth rest).1
  | .boolean true => exact (value_words depth rest).2.1
  | .boolean false => exact (value_words depth rest).2.2
  | .number n => exact absurd h (by simp [readable])
  | .text s =>
      obtain ⟨body, heq, hbody⟩ := textLiteral_append s rest
      rw [render, heq]
      exact value_text depth hbody
  | .array xs =>
      cases depth with
      | zero => exact absurd h (by simp [readable])
      | succ depth =>
          rw [readable] at h
          match xs with
          | [] => exact value_array depth (items_close depth true rest)
          | x :: xs =>
              rw [readableItems, Bool.and_eq_true] at h
              have hxs := items_render h.2 rest
              have hx := value_render h.1 (itemsTail xs ++ ']' :: rest)
              -- the first character decides that there is an item and not the end
              obtain ⟨c, body, heq, hblank, hbracket⟩ := head_render h.1
              have htext : (render (.array (x :: xs))).toList ++ rest
                  = '[' :: (x.render.toList ++ (itemsTail xs ++ ']' :: rest)) := by
                rw [render, String.toList_append, String.toList_append, intercalate_renderItems]
                simp [List.append_assoc]
              rw [htext]
              rw [heq, List.cons_append] at hx ⊢
              exact value_array depth (items_first hblank hbracket hx hxs)
  | .object fields =>
      cases depth with
      | zero => exact absurd h (by simp [readable])
      | succ depth =>
          rw [readable, Bool.and_eq_true, decide_eq_true_eq] at h
          -- the parser sorts the fields once more, which changes nothing
          have hsorted : ofFields fields = .object fields := by
            rw [ofFields, KeyedList.ofList_of_ascending h.1]
          rw [← hsorted]
          match fields with
          | [] => exact value_object depth (members_close depth true rest)
          | (key, x) :: fields =>
              rw [readableFields, Bool.and_eq_true] at h
              have hfields := members_render h.2.2 rest
              have hx := value_render h.2.1 (fieldsTail fields ++ '\x7d' :: rest)
              obtain ⟨body, heq, hkey⟩ := textLiteral_append key
                (':' :: (x.render.toList ++ (fieldsTail fields ++ '\x7d' :: rest)))
              have htext : (render (ofFields ((key, x) :: fields))).toList ++ rest
                  = '\x7b' :: ((textLiteral key).toList
                    ++ ':' :: (x.render.toList ++ (fieldsTail fields ++ '\x7d' :: rest))) := by
                rw [hsorted, render, String.toList_append, String.toList_append,
                  intercalate_renderFields]
                simp [fieldChars, List.append_assoc]
              rw [htext, heq]
              exact value_object depth (members_first (member_field hkey hx) hfields)

/-- The items of an array are read behind one that was read. -/
theorem items_render {depth : Nat} {xs : List Json} (h : readableItems depth xs = true)
    (rest : List Char) : Yields (items depth false (itemsTail xs ++ ']' :: rest)) xs rest := by
  match xs with
  | [] => exact items_close depth false rest
  | x :: xs =>
      rw [readableItems, Bool.and_eq_true] at h
      have hxs := items_render h.2 rest
      have hx := value_render h.1 (itemsTail xs ++ ']' :: rest)
      obtain ⟨c, body, heq, hblank, hbracket⟩ := head_render h.1
      rw [itemsTail, List.append_assoc, List.cons_append]
      rw [heq, List.cons_append] at hx ⊢
      exact items_next hblank hbracket hx hxs

/-- The fields of an object are read behind one that was read. -/
theorem members_render {depth : Nat} {fields : List (String × Json)}
    (h : readableFields depth fields = true) (rest : List Char) :
    Yields (members depth false (fieldsTail fields ++ '\x7d' :: rest)) fields rest := by
  match fields with
  | [] => exact members_close depth false rest
  | (key, x) :: fields =>
      rw [readableFields, Bool.and_eq_true] at h
      have hfields := members_render h.2 rest
      have hx := value_render h.1 (fieldsTail fields ++ '\x7d' :: rest)
      obtain ⟨body, heq, hkey⟩ := textLiteral_append key
        (':' :: (x.render.toList ++ (fieldsTail fields ++ '\x7d' :: rest)))
      have htext : fieldsTail ((key, x) :: fields) ++ '\x7d' :: rest
          = ',' :: ((textLiteral key).toList
            ++ ':' :: (x.render.toList ++ (fieldsTail fields ++ '\x7d' :: rest))) := by
        simp [fieldsTail, fieldChars, List.append_assoc]
      rw [htext, heq]
      exact members_next (member_field hkey hx) hfields

end

end Parser

/-- **Parsing undoes rendering**, for the values that a text without numbers can give. -/
theorem parse_render {j : Json} (h : j.readable Parser.maxDepth = true) :
    parse j.render = .ok j := by
  have hread := Parser.value_render h []
  rw [List.append_nil] at hread
  obtain ⟨hshorter, hread⟩ := hread
  rw [parse, hread]
  rfl

end Json

end ModelForge
