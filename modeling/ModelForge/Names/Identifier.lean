/-
`Identifier.lean` -- names of a model as identifiers of the generated source.

Three spellings are kept apart. A member becomes lower snake case (`memberName`), a declaration or
an enum value keeps its case (`typeName`), and a namespace becomes a module name by two
replacements alone (`moduleName`). The first two end in `escapeReserved`, which appends
underscores until the name is not reserved. It comes to an end because each underscore makes the
name longer, and a finite set of words has only finitely many words of that length or more.
-/
import ModelForge.Names.Reserved

set_option autoImplicit false

namespace ModelForge

/-! ## Characters -/

/-- Whether `c` is an ASCII letter, an ASCII digit or the underscore. -/
def isIdentChar (c : Char) : Bool := c.isAlphanum || c = '_'

/-- Whether an identifier may begin with `c`: an ASCII letter or the underscore. -/
def isIdentStart (c : Char) : Bool := c.isAlpha || c = '_'

/-- A character that no identifier holds becomes an underscore. -/
def legalize (c : Char) : Char := if isIdentChar c then c else '_'

/-- Puts an underscore in front of a name that is empty or begins with a digit. -/
def withLegalStart : List Char → List Char
  | [] => ['_']
  | c :: rest => if isIdentStart c then c :: rest else '_' :: c :: rest

/-! ## Transliteration -/

/-- A capital after the first character opens a new word of a snake-case name. -/
def snakeChar (c : Char) : List Char := if c.isUpper then ['_', c.toLower] else [c]

/-- Lower snake case of a name that has only legal characters. -/
def snakeCase : List Char → List Char
  | [] => []
  | c :: rest => c.toLower :: rest.flatMap snakeChar

/-- The transliteration of a member's name. -/
def memberBase (raw : String) : String :=
  String.ofList (withLegalStart (snakeCase (raw.toList.map legalize)))

/-- The transliteration of the name of a declaration or an enum value. -/
def typeBase (raw : String) : String := String.ofList (withLegalStart (raw.toList.map legalize))

/-! ## Reserved words -/

/-- How many of the words have at least the length of `name`. -/
def WordSet.countFrom (reserved : WordSet) (name : String) : Nat :=
  reserved.words.countP fun word => name.length ≤ word.length

theorem WordSet.countFrom_push_lt {reserved : WordSet} {name : String} (h : name ∈ reserved) :
    reserved.countFrom (name.push '_') < reserved.countFrom name := by
  rw [WordSet.mem_def] at h
  simp only [WordSet.countFrom, String.length_push]
  generalize reserved.words = words at h ⊢
  induction words with
  | nil => exact absurd h List.not_mem_nil
  | cons word rest ih =>
      have hmono : rest.countP (fun w => decide (name.length + 1 ≤ w.length))
          ≤ rest.countP (fun w => decide (name.length ≤ w.length)) :=
        List.countP_mono_left fun w _ hw => by
          simp only [decide_eq_true_eq] at hw ⊢
          omega
      simp only [List.countP_cons]
      rcases List.mem_cons.1 h with rfl | h
      · simp only [Nat.le_refl, decide_true, if_true]
        have : ¬ name.length + 1 ≤ name.length := by omega
        simp only [this, decide_false, Bool.false_eq_true, if_false]
        omega
      · have := ih h
        by_cases hlen : name.length + 1 ≤ word.length
        · have : name.length ≤ word.length := by omega
          simp only [hlen, this, decide_true, if_true]
          omega
        · simp only [hlen, decide_false, Bool.false_eq_true, if_false]
          omega

/-- Appends underscores until the name is not reserved. -/
def escapeReserved (reserved : WordSet) (name : String) : String :=
  if name ∈ reserved then escapeReserved reserved (name.push '_') else name
  termination_by reserved.countFrom name
  decreasing_by exact WordSet.countFrom_push_lt ‹_›

/-! ## Identifiers -/

/-- The field name for a member: lower snake case, legal, and not reserved. -/
def memberName (reserved : WordSet) (raw : String) : String :=
  escapeReserved reserved (memberBase raw)

/-- The name for a declaration or an enum value: its own case, legal, and not reserved. -/
def typeName (reserved : WordSet) (raw : String) : String :=
  escapeReserved reserved (typeBase raw)

/-- The module of a namespace: `@` and `.` become underscores and nothing else changes. -/
def moduleName (raw : String) : String :=
  String.ofList (raw.toList.map fun c => if c = '@' ∨ c = '.' then '_' else c)

end ModelForge
