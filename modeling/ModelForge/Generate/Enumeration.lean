/-
`Enumeration.lean` -- the closed sum type that an enum becomes.

Each value becomes a variant without data. A variant keeps the spelling of its value where that is
a legal identifier; where it is not, an attribute gives the name on the wire.
-/
import ModelForge.Generate.Record

set_option autoImplicit false

namespace ModelForge

/-- The first two values that would become one variant. -/
def enumClash? (options : Options) (values : List Property) : Option Clash :=
  firstClash? [] (values.map fun value => (typeName options.reserved value.name, value.name))

/-- A variant with its documentation, and its name on the wire where it has to be said. -/
def variantFragment (options : Options) (value : Property) : Fragment :=
  let variant := typeName options.reserved value.name
  decoratorDocs value.decorators
    ++ (if variant = value.name then .nothing
      else .attr ("serde(rename = " ++ quoted value.name ++ ")"))
    ++ .line (variant ++ ",")

/-- The sum type of an enum. An enum with a clash among its values has none. -/
def enumFragment (options : Options) (d : Declaration) (values : List Property) : Fragment :=
  match enumClash? options values with
  | some clash =>
      .abort (.memberCollision d.qualifiedName clash.identifier clash.first clash.second)
  | none =>
      .blank
        ++ decoratorDocs d.decorators
        ++ .derive derivedTraits
        ++ .attr "allow(non_camel_case_types)"
        ++ .block ("pub enum " ++ typeName options.reserved d.name)
            (.all (values.map (variantFragment options)))

end ModelForge
