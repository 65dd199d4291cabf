/-
`Quoted.lean` -- a text as a string literal of the generated source.

Every name, key and format of a model that ends up inside generated source goes through `quoted`.
A literal shows a character as it is when it has a glyph and stands on its own; the quote, the
backslash and the four named controls have two-character escapes, and all else is written by its
code point.
-/
import ModelForge.Text.CodePoint

set_option autoImplicit false

namespace ModelForge

/-! ## Escapes -/

/-- The code point of `c` in braces, in lower-case hexadecimal without leading zeros. -/
def codePointEscape (c : Char) : List Char :=
  ['\\', 'u', '\x7b'] ++ Nat.toDigits 16 c.toNat ++ ['\x7d']

/-- One character inside a literal. The single quote needs no escape, for the literal is delimited
by double quotes. -/
def escapeChar (c : Char) : List Char :=
  if c = '"' then ['\\', '"']
  else if c = '\\' then ['\\', '\\']
  else if c = '\n' then ['\\', 'n']
  else if c = '\r' then ['\\', 'r']
  else if c = '\t' then ['\\', 't']
  else if c = '\x00' then ['\\', '0']
  else if isShownPlain c then [c]
  else codePointEscape c

/-! ## Literals -/

/-- The characters between the quotes of a literal. -/
def escapeChars (text : List Char) : List Char := text.flatMap escapeChar

@[simp] theorem escapeChars_nil : escapeChars [] = [] := rfl

@[simp] theorem escapeChars_cons (c : Char) (text : List Char) :
    escapeChars (c :: text) = escapeChar c ++ escapeChars text := rfl

/-- A text as a string literal: its escaped characters between double quotes. -/
def quoted (text : String) : String :=
  String.ofList ('"' :: escapeChars text.toList ++ ['"'])

end ModelForge
