/-
`Decorators.lean` -- decorators as documentation of the generated source.

Decorators have no meaning for the generated types and survive as lines of documentation. They are
listed in the order of their names, and of several with one name the last one counts.
-/
import ModelForge.Decimal.Style
import ModelForge.Model.Basic
import ModelForge.Output.Fragment
import ModelForge.Text.KeyOrder
import ModelForge.Text.Quoted

set_option autoImplicit false

namespace ModelForge

/-! ## Arguments -/

/-- Below this magnitude a whole number is written as an integer; from here on not every integer
is a double. -/
def maxExactInteger : Nat := twoPow 53

/-- A number as an argument. Whole numbers have no fraction, and zero has no sign. -/
def numberArgument (x : Binary64) : String :=
  match x.toInt? with
  | some n => if n.natAbs < maxExactInteger then toString n else DecimalStyle.plain.text x
  | none => DecimalStyle.plain.text x

/-- An argument in documentation. -/
def Literal.render : Literal → String
  | .text s => quoted s
  | .number x => numberArgument x
  | .boolean b => if b then "true" else "false"
  | .typeReference name isArray => if isArray then name ++ "[]" else name

/-! ## Decorators by name -/

/-- The arguments of each decorator, in the order of names. A list without decorators has no such
table, which is not the same as an empty one. -/
def decoratorTable? (decorators : List Decorator) : Option (KeyedList (List Literal)) :=
  match decorators with
  | [] => none
  | _ :: _ => some (KeyedList.ofList (decorators.map fun d => (d.name, d.arguments)))

/-- A decorator in documentation. -/
def renderDecorator (name : String) (arguments : List Literal) : String :=
  match arguments with
  | [] => "@" ++ name
  | _ :: _ => "@" ++ name ++ "(" ++ ", ".intercalate (arguments.map Literal.render) ++ ")"

/-- The texts of a table, one for each decorator. -/
def renderTable (table : KeyedList (List Literal)) : List String :=
  table.map fun entry => renderDecorator entry.1 entry.2

/-- The documentation that decorators become. -/
def decoratorDocs (decorators : List Decorator) : Fragment :=
  match decoratorTable? decorators with
  | some table => .all ((renderTable table).map Fragment.doc)
  | none => .nothing

end ModelForge
