/-
`Cache.lean` -- member names, each computed once.

A cache remembers the first answer for a name. Within one run the reserved words do not change, so
what it remembers is what a fresh computation would give.
-/
import ModelForge.Names.Identifier

set_option autoImplicit false

namespace ModelForge

/-- The member names found so far, by the names of the model they come from. -/
structure NameCache where
  entries : List (String × String)
  deriving Repr

namespace NameCache

/-- The cache that remembers nothing. -/
def empty : NameCache := ⟨[]⟩

/-- The number of names that were asked for. -/
def size (cache : NameCache) : Nat := cache.entries.length

/-- Whether no name was asked for. -/
def isEmpty (cache : NameCache) : Bool := cache.entries.isEmpty

/-- The remembered answer for a name, if there is one. -/
def find? (cache : NameCache) (raw : String) : Option String := cache.entries.lookup raw

/-- The member name for `raw`: the remembered one, else a new one that is remembered. -/
def member (cache : NameCache) (reserved : WordSet) (raw : String) : String × NameCache :=
  match cache.find? raw with
  | some name => (name, cache)
  | none =>
      let name := memberName reserved raw
      (name, ⟨(raw, name) :: cache.entries⟩)

/-- How the cache spells names. -/
def naming (cache : NameCache) (reserved : WordSet) (raw : String) : String :=
  (cache.member reserved raw).1

end NameCache

end ModelForge
