/-
`Reserved.lean` -- words that cannot be identifiers of the generated source.

The keywords are those of the language that is generated, in every edition of it. A run may reserve
further words, so the set of reserved words is a value, `WordSet`.
-/

set_option autoImplicit false

namespace ModelForge

/-! ## The vocabulary -/

/-- The keywords of the generated language: strict ones, reserved ones, and those of later
editions. -/
def keywords : List String :=
  ["as", "break", "const", "continue", "crate", "else", "enum", "extern", "false", "fn", "for",
   "if", "impl", "in", "let", "loop", "match", "mod", "move", "mut", "pub", "ref", "return",
   "static", "struct", "super", "trait", "true", "type", "unsafe", "use", "where", "while",
   "async", "await", "dyn", "abstract", "become", "box", "do", "final", "macro", "override",
   "priv", "typeof", "unsized", "virtual", "yield", "try", "gen", "self", "Self"]

/-- Names that are no keywords and cannot stand alone as a field or variant name all the same. -/
def reservedIdentifiers : List String := ["_"]

/-! ## Sets of words -/

/-- A finite set of words. It is listed without repetition, so it has as many words as it lists. -/
structure WordSet where
  words : List String
  nodup : words.Nodup := by decide
  deriving Repr

namespace WordSet

instance : Membership String WordSet where
  mem set word := word ∈ set.words

instance (word : String) (set : WordSet) : Decidable (word ∈ set) :=
  inferInstanceAs (Decidable (word ∈ set.words))

theorem mem_def {word : String} {set : WordSet} : word ∈ set ↔ word ∈ set.words := Iff.rfl

/-- The set with one more word. A word that is in it already is not listed again. -/
def insert (set : WordSet) (word : String) : WordSet where
  words := set.words.insert word
  nodup := by
    by_cases h : word ∈ set.words
    · rw [List.insert_of_mem h]
      exact set.nodup
    · rw [List.insert_of_not_mem h]
      exact List.nodup_cons.2 ⟨h, set.nodup⟩

/-- The set of the given words. -/
def ofList (words : List String) : WordSet := words.foldl insert { words := [] }

/-- How many words there are. -/
def size (set : WordSet) : Nat := set.words.length

/-- In the set with one more word are that word and the words from before. -/
theorem mem_insert {word other : String} {set : WordSet} :
    word ∈ set.insert other ↔ word = other ∨ word ∈ set := by
  simp [insert, mem_def]

theorem mem_foldl_insert {word : String} (words : List String) (set : WordSet) :
    word ∈ words.foldl insert set ↔ word ∈ words ∨ word ∈ set := by
  induction words generalizing set with
  | nil => simp
  | cons first rest ih =>
      rw [List.foldl_cons, ih, mem_insert, List.mem_cons]
      constructor
      · rintro (h | h | h)
        · exact .inl (.inr h)
        · exact .inl (.inl h)
        · exact .inr h
      · rintro ((h | h) | h)
        · exact .inr (.inl h)
        · exact .inl h
        · exact .inr (.inr h)

/-- In the set of the given words are these words and no others. -/
theorem mem_ofList {word : String} {words : List String} : word ∈ ofList words ↔ word ∈ words := by
  rw [ofList, mem_foldl_insert]
  exact ⟨fun h => h.elim id (fun h => absurd h List.not_mem_nil), .inl⟩

end WordSet

/-- The words that are reserved in every run. -/
def defaultReserved : WordSet := .ofList (keywords ++ reservedIdentifiers)

end ModelForge
