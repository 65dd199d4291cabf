/-
`NamespaceUnit.lean` -- the unit of a namespace.

A unit opens with what every unit brings into scope and with what the namespace imports. Its
declarations follow in order. A scalar leaves no trace of its own: what refers to it refers to its
primitive.
-/
import ModelForge.Generate.DateTime
import ModelForge.Generate.Enumeration

set_option autoImplicit false

namespace ModelForge

/-- The namespaces that a namespace imports from, each once, in the order of their first clauses.
Its own name is no import. -/
def Namespace.importSources (ns : Namespace) : List String :=
  ((ns.imports.map Import.source).filter fun source => source ≠ ns.name).eraseDups

/-- The path that brings everything of a module into scope. -/
def wholeModule (module : String) : String := "crate::" ++ module ++ "::*"

/-- What stands in front of the declarations. -/
def unitHeader (ns : Namespace) : Fragment :=
  .line "#![allow(unused_imports)]"
    ++ .use "serde::\x7b Deserialize, Serialize \x7d"
    ++ .use "chrono::\x7b DateTime, TimeZone, Utc \x7d"
    ++ .blank
    ++ .all (ns.importSources.map fun source => .use (wholeModule (moduleName source)))
    ++ .use (wholeModule utilityModule)

/-- What a declaration becomes. -/
def declarationFragment (options : Options) (naming : String → String) (g : Graph)
    (d : Declaration) : Fragment :=
  match d.body with
  | .record .. => recordFragment options naming g d
  | .enumeration values => enumFragment options d values
  | .scalar .. => .nothing

/-- The contents of the unit of a namespace. -/
def namespaceFragment (options : Options) (naming : String → String) (g : Graph) (ns : Namespace) :
    Fragment :=
  unitHeader ns ++ .all (ns.declarations.map (declarationFragment options naming g))

end ModelForge
