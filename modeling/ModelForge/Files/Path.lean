/-
`Path.lean` -- paths as texts.

A path is kept as the text it was given as, because reports show it that way. What is done to it
without asking the file system is here: joining, reading the ending of a file name, cutting it
into pieces, and telling which names a file may have (`PlainName`).
-/

set_option autoImplicit false

namespace ModelForge

namespace Path

/-- What separates the pieces of a path. -/
def separator : Char := '/'

/-- Whether a path begins at the root. -/
def isAbsolute (path : String) : Bool := path.toList.head? = some separator

/-- Whether a path ends with a separator. -/
def endsWithSeparator (path : String) : Bool := path.toList.getLast? = some separator

/-- The path of a name in a directory. A name that begins at the root is a path already. -/
def join (directory name : String) : String :=
  if isAbsolute name then name
  else if directory.isEmpty || endsWithSeparator directory then directory ++ name
  else directory ++ "/" ++ name

/-- A directory as a path that ends with a separator. -/
def asDirectory (path : String) : String :=
  if endsWithSeparator path then path else path ++ "/"

/-- Whether a file name has the given ending behind a dot, and something in front of the dot. -/
def hasExtension (name ending : String) : Bool :=
  name.endsWith ("." ++ ending) && name ≠ "." ++ ending

/-- The text between separators, cut at each of them. -/
def cut : List Char → List (List Char)
  | [] => [[]]
  | c :: rest =>
      if c = separator then [] :: cut rest
      else match cut rest with
        | [] => [[c]]
        | piece :: pieces => (c :: piece) :: pieces

/-- The pieces of a path. A piece without text stands for the place it is reached at, as a dot
does; so a separator at the end asks for a directory. -/
def pieces (path : String) : List String :=
  ((cut path.toList).map String.ofList).map fun piece => if piece.isEmpty then "." else piece

/-- The pieces of a path that is to become a directory: separators at its end do not count. -/
def directoryPieces (path : String) : List String :=
  let trimmed := (path.toList.reverse.dropWhile (· = separator)).reverse
  if trimmed.isEmpty then [] else pieces (String.ofList trimmed)

/-- The pieces of the directories on the way to the end of some pieces, last name first. Dots
within a path name no directory of their own. -/
def parentNames (pieces : List String) : List String :=
  ((pieces.filter (· ≠ ".")).reverse).drop 1

/-! ## Names -/

/-- The name of a file, as it may stand in a directory. -/
def PlainName (name : String) : Prop :=
  name ≠ "" ∧ name ≠ "." ∧ name ≠ ".." ∧ separator ∉ name.toList

instance : DecidablePred PlainName := fun _ => inferInstanceAs (Decidable (_ ∧ _))

/-- Names on the way from the root, all of which may stand in a directory. -/
def PlainNames (names : List String) : Prop := ∀ name ∈ names, PlainName name

instance : DecidablePred PlainNames := fun names =>
  inferInstanceAs (Decidable (∀ name ∈ names, PlainName name))

end Path

end ModelForge
