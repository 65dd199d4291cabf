/-
`Parser.lean` -- JSON text to JSON values.

A text fails in one of two ways: it ends inside a value (`truncated`), or it goes on in a way that
no value does (`malformed`). Every reading step returns what is left together with the proof that
it is shorter, and this is what makes the recursion over nested values end.
-/
import ModelForge.Json.Basic

set_option autoImplicit false

namespace ModelForge

/-- How a text fails to be JSON. -/
inductive TextFault where
  /-- The text ends inside a value, or holds none. -/
  | truncated
  /-- The text goes on in a way that no value does; numbers out of range and values nested too deep
  count as such. -/
  | malformed
  deriving DecidableEq

namespace Json.Parser

/-- What is left of `s` after a step that read at least one character. -/
abbrev Rest (s : List Char) := { rest : List Char // rest.length < s.length }

/-- A reading step on `s`. -/
abbrev Reading (s : List Char) (α : Type) := Except TextFault (α × Rest s)

/-- How deep arrays and objects may be nested. -/
def maxDepth : Nat := 127

/-! ## Blanks and words -/

/-- The four characters that may stand between tokens. -/
def isBlank (c : Char) : Bool := c = ' ' || c = '\n' || c = '\t' || c = '\r'

/-- The text without its leading blanks. -/
def skipBlanks (s : List Char) : List Char := s.dropWhile isBlank

/-- Blanks are only left out. -/
theorem length_skipBlanks_le (s : List Char) : (skipBlanks s).length ≤ s.length :=
  (List.dropWhile_suffix isBlank).length_le

/-- The text after the given word. -/
def expectWord :
    List Char → (s : List Char) → Except TextFault { r : List Char // r.length ≤ s.length }
  | [], s => .ok ⟨s, Nat.le_refl _⟩
  | _ :: _, [] => .error .truncated
  | w :: word, c :: s =>
      if w = c then
        (expectWord word s).map fun r => ⟨r.1, Nat.le_succ_of_le r.2⟩
      else .error .malformed

/-! ## Strings -/

/-- The value of a hexadecimal digit of either case. -/
def hexDigit? (c : Char) : Option Nat :=
  if '0' ≤ c ∧ c ≤ '9' then some (c.toNat - '0'.toNat)
  else if 'a' ≤ c ∧ c ≤ 'f' then some (c.toNat - 'a'.toNat + 10)
  else if 'A' ≤ c ∧ c ≤ 'F' then some (c.toNat - 'A'.toNat + 10)
  else none

/-- Four hexadecimal digits. A text with fewer than four bytes left is truncated, whatever they
are. -/
def hexUnit (s : List Char) : Reading s Nat :=
  match s with
  | a :: b :: c :: d :: rest =>
      match hexDigit? a, hexDigit? b, hexDigit? c, hexDigit? d with
      | some a, some b, some c, some d =>
          .ok (((a * 16 + b) * 16 + c) * 16 + d, ⟨rest, by simp only [List.length_cons]; omega⟩)
      | _, _, _, _ => .error .malformed
  | short => if (String.ofList short).utf8ByteSize < 4 then .error .truncated else .error .malformed

/-- The character of a `\u` escape, after the `u`. A leading surrogate needs a trailing one in an
escape of its own right after it. -/
def unicodeEscape (s : List Char) : Reading s Char :=
  match hexUnit s with
  | .error fault => .error fault
  | .ok (unit, ⟨rest, h⟩) =>
      if 0xDC00 ≤ unit ∧ unit ≤ 0xDFFF then .error .malformed
      else if unit < 0xD800 ∨ 0xDBFF < unit then .ok (Char.ofNat unit, ⟨rest, h⟩)
      else match rest, h with
        | [], _ => .error .truncated
        | ['\\'], _ => .error .truncated
        | '\\' :: 'u' :: rest', h => match hexUnit rest' with
            | .error fault => .error fault
            | .ok (low, ⟨rest'', h'⟩) =>
                if 0xDC00 ≤ low ∧ low ≤ 0xDFFF then
                  .ok (Char.ofNat (0x10000 + (unit - 0xD800) * 0x400 + (low - 0xDC00)),
                    ⟨rest'', by simp only [List.length_cons] at h; omega⟩)
                else .error .malformed
        | _, _ => .error .malformed

/-- The character of an escape, after the backslash. -/
def escapedCharacter (s : List Char) : Reading s Char :=
  match s with
  | [] => .error .truncated
  | c :: rest =>
      let plain (d : Char) : Reading (c :: rest) Char := .ok (d, ⟨rest, Nat.lt_succ_self _⟩)
      match c with
      | '"' => plain '"'
      | '\\' => plain '\\'
      | '/' => plain '/'
      | 'b' => plain '\x08'
      | 'f' => plain '\x0c'
      | 'n' => plain '\n'
      | 'r' => plain '\r'
      | 't' => plain '\t'
      | 'u' => (unicodeEscape rest).map fun (d, r) => (d, ⟨r.1, Nat.lt_succ_of_lt r.2⟩)
      | _ => .error .malformed

/-- The rest of a string after its opening quote; `read` holds the characters so far, last one
first. -/
def stringBody (s : List Char) (read : List Char) : Reading s String :=
  match s with
  | [] => .error .truncated
  | c :: rest =>
      if c = '"' then .ok (String.ofList read.reverse, ⟨rest, Nat.lt_succ_self _⟩)
      else if c = '\\' then
        match escapedCharacter rest with
        | .error fault => .error fault
        | .ok (d, ⟨rest', h⟩) =>
            (stringBody rest' (d :: read)).map fun (string, r) =>
              (string, ⟨r.1, by have := r.2; simp only [List.length_cons]; omega⟩)
      else if c.toNat < 0x20 then .error .malformed
      else
        (stringBody rest (c :: read)).map fun (string, r) => (string, ⟨r.1, Nat.lt_succ_of_lt r.2⟩)
  termination_by s.length

/-! ## Numbers

A number without a point and an exponent whose digits fit in 64 bits is an integer. Any other is a
double: as many leading digits as fit in 64 bits are kept, the rest only count as places. -/

/-- The largest significand of a number. -/
def maxSignificand : Nat := twoPow 64 - 1

/-- Appends digits to a significand as long as it fits in 64 bits; the second result is how many
were appended. -/
def appendDigits (significand : Nat) : List Char → Nat × Nat
  | [] => (significand, 0)
  | d :: rest =>
      let next := significand * 10 + (d.toNat - '0'.toNat)
      if next ≤ maxSignificand then
        let (final, count) := appendDigits next rest
        (final, count + 1)
      else (significand, 0)

/-- A number before it is evaluated. -/
structure NumberToken where
  negative : Bool
  wholeDigits : List Char
  fractionDigits : List Char
  /-- The exponent, if one is written. -/
  exponent : Option Int
  /-- Whether a decimal point is written. -/
  hasPoint : Bool

/-- The value of a number; nothing if it is past the largest double. Minus zero and negative
integers of more than 64 bits are doubles. -/
def NumberToken.value? (t : NumberToken) : Option JsonNumber :=
  let (whole, wholeCount) := appendDigits 0 t.wholeDigits
  if t.exponent.isNone && !t.hasPoint && wholeCount = t.wholeDigits.length then
    if !t.negative then some (.integer whole)
    else if 0 < whole ∧ whole ≤ twoPow 63 then some (.integer (-whole))
    else some (.double (Binary64.ofSignedBits true (Binary64.nearestBits whole 1)))
  else
    let (significand, fractionCount) := appendDigits whole t.fractionDigits
    let exponent := (t.wholeDigits.length - wholeCount : Nat) - (fractionCount : Int)
    (Binary64.ofDecimal? t.negative significand (exponent + t.exponent.getD 0)).map .double

/-- The number that decimal digits write. -/
def digitsValue (digits : List Char) : Nat :=
  digits.foldl (fun n d => n * 10 + (d.toNat - '0'.toNat)) 0

/-- Splits a text after its leading digits. -/
def spanDigits (s : List Char) : List Char × List Char :=
  (s.takeWhile Char.isDigit, s.dropWhile Char.isDigit)

/-- At least one digit; the text after them. -/
def someDigits (s : List Char) : Except TextFault (List Char × List Char) :=
  match spanDigits s with
  | ([], []) => .error .truncated
  | ([], _ :: _) => .error .malformed
  | (d :: digits, rest) => .ok (d :: digits, rest)

/-- The digits before the point: a single zero, or digits that begin with another one. -/
def wholePart (s : List Char) : Except TextFault (List Char × List Char) :=
  match someDigits s with
  | .error fault => .error fault
  | .ok ('0' :: _ :: _, _) => .error .malformed
  | .ok (digits, rest) => .ok (digits, rest)

/-- The digits after a point, if there is a point. -/
def fractionPart : List Char → Except TextFault (Option (List Char) × List Char)
  | '.' :: s => (someDigits s).map fun (digits, rest) => (some digits, rest)
  | s => .ok (none, s)

/-- The digits of an exponent with its sign, after its letter. -/
def exponentDigits : List Char → Except TextFault (Int × List Char)
  | '+' :: s => (someDigits s).map fun (digits, rest) => (digitsValue digits, rest)
  | '-' :: s => (someDigits s).map fun (digits, rest) => (-digitsValue digits, rest)
  | s => (someDigits s).map fun (digits, rest) => (digitsValue digits, rest)

/-- An exponent, if there is one. -/
def exponentPart : List Char → Except TextFault (Option Int × List Char)
  | 'e' :: s => (exponentDigits s).map fun (exponent, rest) => (some exponent, rest)
  | 'E' :: s => (exponentDigits s).map fun (exponent, rest) => (some exponent, rest)
  | s => .ok (none, s)

/-- A number after its sign. -/
def number (negative : Bool) (s : List Char) : Except TextFault (JsonNumber × List Char) :=
  match wholePart s with
  | .error fault => .error fault
  | .ok (wholeDigits, afterWhole) =>
      match fractionPart afterWhole with
      | .error fault => .error fault
      | .ok (fraction, afterFraction) =>
          match exponentPart afterFraction with
          | .error fault => .error fault
          | .ok (exponent, rest) =>
              let token : NumberToken :=
                { negative := negative
                  wholeDigits := wholeDigits
                  fractionDigits := fraction.getD []
                  exponent := exponent
                  hasPoint := fraction.isSome }
              match token.value? with
              | some n => .ok (n, rest)
              | none => .error .malformed

/-! ### Numbers take characters -/

/-- Digits take at least one character. -/
theorem length_of_someDigits {s digits rest : List Char} (h : someDigits s = .ok (digits, rest)) :
    rest.length < s.length := by
  unfold someDigits spanDigits at h
  split at h
  · exact absurd h (by simp)
  · exact absurd h (by simp)
  · rename_i d ds rest' heq
    obtain ⟨htake, hdrop⟩ := Prod.mk.inj heq
    obtain ⟨-, rfl⟩ := Prod.mk.inj (Except.ok.inj h)
    have hlen := congrArg List.length (List.takeWhile_append_dropWhile (p := Char.isDigit) (l := s))
    rw [htake, hdrop, List.length_append, List.length_cons] at hlen
    omega

/-- A step made of `someDigits` takes as many characters. -/
theorem length_of_map_someDigits {α : Type} {s rest : List Char} {f : List Char → α} {a : α}
    (h : ((someDigits s).map fun (digits, r) => (f digits, r)) = .ok (a, rest)) :
    rest.length < s.length := by
  cases hd : someDigits s with
  | error fault => rw [hd] at h; exact absurd h (by simp [Except.map])
  | ok result =>
      rw [hd] at h
      obtain ⟨digits, r⟩ := result
      obtain ⟨-, rfl⟩ := Prod.mk.inj (Except.ok.inj h)
      exact length_of_someDigits hd

/-- So does the whole part of a number. -/
theorem length_of_wholePart {s digits rest : List Char} (h : wholePart s = .ok (digits, rest)) :
    rest.length < s.length := by
  unfold wholePart at h
  split at h
  · exact absurd h (by simp)
  · exact absurd h (by simp)
  · rename_i heq
    obtain ⟨rfl, rfl⟩ := Prod.mk.inj (Except.ok.inj h)
    exact length_of_someDigits heq

/-- The fraction may be missing. -/
theorem length_of_fractionPart {s rest : List Char} {digits : Option (List Char)}
    (h : fractionPart s = .ok (digits, rest)) : rest.length ≤ s.length := by
  unfold fractionPart at h
  split at h
  · have := length_of_map_someDigits h
    rw [List.length_cons]
    omega
  · obtain ⟨-, rfl⟩ := Prod.mk.inj (Except.ok.inj h)
    exact Nat.le_refl _

/-- An exponent has at least one digit. -/
theorem length_of_exponentDigits {s rest : List Char} {exponent : Int}
    (h : exponentDigits s = .ok (exponent, rest)) : rest.length < s.length := by
  unfold exponentDigits at h
  split at h
  · have := length_of_map_someDigits (f := fun digits => (digitsValue digits : Int)) h
    rw [List.length_cons]
    omega
  · have := length_of_map_someDigits (f := fun digits => (-digitsValue digits : Int)) h
    rw [List.length_cons]
    omega
  · exact length_of_map_someDigits (f := fun digits => (digitsValue digits : Int)) h

/-- The exponent may be missing. -/
theorem length_of_exponentPart {s rest : List Char} {exponent : Option Int}
    (h : exponentPart s = .ok (exponent, rest)) : rest.length ≤ s.length := by
  have step {t : List Char}
      (h : ((exponentDigits t).map fun (e, r) => (some e, r)) = .ok (exponent, rest)) :
      rest.length < t.length := by
    cases hd : exponentDigits t with
    | error fault => rw [hd] at h; exact absurd h (by simp [Except.map])
    | ok result =>
        rw [hd] at h
        obtain ⟨e, r⟩ := result
        obtain ⟨-, rfl⟩ := Prod.mk.inj (Except.ok.inj h)
        exact length_of_exponentDigits hd
  unfold exponentPart at h
  split at h
  · have := step h
    rw [List.length_cons]
    omega
  · have := step h
    rw [List.length_cons]
    omega
  · obtain ⟨-, rfl⟩ := Prod.mk.inj (Except.ok.inj h)
    exact Nat.le_refl _

/-- A number has at least one digit. -/
theorem length_of_number {negative : Bool} {s rest : List Char} {n : JsonNumber}
    (h : number negative s = .ok (n, rest)) : rest.length < s.length := by
  unfold number at h
  split at h
  · exact absurd h (by simp)
  · rename_i hwhole
    split at h
    · exact absurd h (by simp)
    · rename_i hfraction
      split at h
      · exact absurd h (by simp)
      · rename_i hexponent
        dsimp only at h
        split at h
        · obtain ⟨-, rfl⟩ := Prod.mk.inj (Except.ok.inj h)
          have := length_of_wholePart hwhole
          have := length_of_fractionPart hfraction
          have := length_of_exponentPart hexponent
          omega
        · exact absurd h (by simp)

/-! ## Values -/

/-- A number after its sign, as a reading step. -/
def numberStep (negative : Bool) (s : List Char) : Reading s Json :=
  match h : number negative s with
  | .error fault => .error fault
  | .ok (n, rest) => .ok (.number n, ⟨rest, length_of_number h⟩)

/-- A word of the language, after its first letter. -/
def word (s : List Char) (letters : List Char) (value : Json) : Reading s Json :=
  match s with
  | [] => .error .truncated
  | _ :: rest => (expectWord letters rest).map fun r => (value, ⟨r.1, Nat.lt_succ_of_le r.2⟩)

mutual

/-- A value, after blanks. -/
def value (depth : Nat) (s : List Char) : Reading s Json :=
  have hs := length_skipBlanks_le s
  match h : skipBlanks s with
  | [] => .error .truncated
  | c :: rest =>
      have hrest : rest.length < s.length := by rw [h, List.length_cons] at hs; omega
      let widen {α : Type} (r : Reading (c :: rest) α) : Reading s α :=
        r.map fun (a, t) => (a, ⟨t.1, by have := t.2; rw [h] at hs; omega⟩)
      if c = 'n' then widen (word (c :: rest) ['u', 'l', 'l'] .null)
      else if c = 't' then widen (word (c :: rest) ['r', 'u', 'e'] (.boolean true))
      else if c = 'f' then widen (word (c :: rest) ['a', 'l', 's', 'e'] (.boolean false))
      else if c = '"' then
        (stringBody rest []).map fun (t, r) => (.text t, ⟨r.1, by have := r.2; omega⟩)
      else if c = '-' then
        (numberStep true rest).map fun (n, r) => (n, ⟨r.1, by have := r.2; omega⟩)
      else if c = '[' then
        match depth with
        | 0 => .error .malformed
        | depth + 1 =>
            (items depth true rest).map fun (xs, r) => (.array xs, ⟨r.1, by have := r.2; omega⟩)
      else if c = '\x7b' then
        match depth with
        | 0 => .error .malformed
        | depth + 1 =>
            (members depth true rest).map fun (xs, r) => (ofFields xs, ⟨r.1, by have := r.2; omega⟩)
      else if c.isDigit then widen (numberStep false (c :: rest))
      else .error .malformed
  termination_by (s.length, 0)

/-- The rest of an array after its bracket, or after an item if `first` is false. -/
def items (depth : Nat) (first : Bool) (s : List Char) : Reading s (List Json) :=
  have hs := length_skipBlanks_le s
  match h : skipBlanks s with
  | [] => .error .truncated
  | c :: rest =>
      have hrest : rest.length < s.length := by rw [h, List.length_cons] at hs; omega
      if c = ']' then .ok ([], ⟨rest, hrest⟩)
      else if first then
        match value depth (c :: rest) with
        | .error fault => .error fault
        | .ok (x, ⟨rest', h'⟩) =>
            (items depth false rest').map fun (xs, r) =>
              (x :: xs, ⟨r.1, by have := r.2; rw [h] at hs; omega⟩)
      else if c = ',' then
        if (skipBlanks rest).head? = some ']' then .error .malformed
        else
          match value depth rest with
          | .error fault => .error fault
          | .ok (x, ⟨rest', h'⟩) =>
              (items depth false rest').map fun (xs, r) =>
                (x :: xs, ⟨r.1, by have := r.2; omega⟩)
      else .error .malformed
  termination_by (s.length, 1)
  decreasing_by
    · rw [h] at hs
      rcases Nat.lt_or_eq_of_le hs with hlt | heq
      · exact Prod.Lex.left _ _ hlt
      · rw [heq]; exact Prod.Lex.right _ (by decide)
    · rw [h] at hs
      exact Prod.Lex.left _ _ (by omega)
    · exact Prod.Lex.left _ _ hrest
    · exact Prod.Lex.left _ _ (by omega)

/-- The rest of an object after its brace, or after a member if `first` is false. -/
def members (depth : Nat) (first : Bool) (s : List Char) : Reading s (List (String × Json)) :=
  have hs := length_skipBlanks_le s
  match h : skipBlanks s with
  | [] => .error .truncated
  | c :: rest =>
      have hrest : rest.length < s.length := by rw [h, List.length_cons] at hs; omega
      if c = '\x7d' then .ok ([], ⟨rest, hrest⟩)
      else if first then
        if c = '"' then
          match member depth rest with
          | .error fault => .error fault
          | .ok (x, ⟨rest', h'⟩) =>
              (members depth false rest').map fun (xs, r) =>
                (x :: xs, ⟨r.1, by have := r.2; omega⟩)
        else .error .malformed
      else if c = ',' then
        have hrest' := length_skipBlanks_le rest
        match h'' : skipBlanks rest with
        | [] => .error .truncated
        | quote :: rest'' =>
            if quote = '"' then
              match member depth rest'' with
              | .error fault => .error fault
              | .ok (x, ⟨rest', h'⟩) =>
                  (members depth false rest').map fun (xs, r) =>
                    (x :: xs, ⟨r.1, by
                      have := r.2; rw [h'', List.length_cons] at hrest'; omega⟩)
            else .error .malformed
      else .error .malformed
  termination_by (s.length, 1)
  decreasing_by
    · exact Prod.Lex.left _ _ hrest
    · exact Prod.Lex.left _ _ (by omega)
    · rw [h'', List.length_cons] at hrest'
      exact Prod.Lex.left _ _ (by omega)
    · rw [h'', List.length_cons] at hrest'
      exact Prod.Lex.left _ _ (by omega)

/-- A member of an object, after the opening quote of its key. -/
def member (depth : Nat) (s : List Char) : Reading s (String × Json) :=
  match stringBody s [] with
  | .error fault => .error fault
  | .ok (key, ⟨rest, hkey⟩) =>
      have hrest := length_skipBlanks_le rest
      match h : skipBlanks rest with
      | [] => .error .truncated
      | colon :: rest' =>
          if colon = ':' then
            (value depth rest').map fun (x, r) =>
              ((key, x), ⟨r.1, by have := r.2; rw [h, List.length_cons] at hrest; omega⟩)
          else .error .malformed
  termination_by (s.length, 0)
  decreasing_by
    rw [h, List.length_cons] at hrest
    exact Prod.Lex.left _ _ (by omega)

end

end Json.Parser

/-- The value that a whole text writes. -/
def Json.parse (text : String) : Except TextFault Json :=
  match Json.Parser.value Json.Parser.maxDepth text.toList with
  | .error fault => .error fault
  | .ok (x, ⟨rest, _⟩) =>
      if (Json.Parser.skipBlanks rest).isEmpty then .ok x else .error .malformed

end ModelForge
