/-
`Clash.lean` -- two names of a model that would become one name.

Spelling a name as an identifier may make two names alike. The names are looked at in order, and the
first one that gets an identifier which is taken is the clash, together with the name that holds it.
-/

set_option autoImplicit false

namespace ModelForge

/-- An identifier, the name that holds it, and the later name that would get it too. -/
structure Clash where
  identifier : String
  first : String
  second : String
  deriving DecidableEq, Repr

/-- The first clash among names with their identifiers, where the names in `taken` come before. An
entry is an identifier and the name it belongs to. -/
def firstClash? (taken : List (String × String)) : List (String × String) → Option Clash
  | [] => none
  | (identifier, name) :: rest =>
      match taken.lookup identifier with
      | some first => some ⟨identifier, first, name⟩
      | none => firstClash? ((identifier, name) :: taken) rest

end ModelForge
