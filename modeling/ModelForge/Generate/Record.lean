/-
`Record.lean` -- the record that a class becomes.

A record has the discriminator first and then one field for each member of the class, inherited
ones before its own. A field keeps the member's name on the wire and has a spelling of its own in
the source. A field whose class leads back to the record is boxed, for otherwise the record would
contain itself.
-/
import ModelForge.Generate.Decorators
import ModelForge.Generate.Options
import ModelForge.Generate.TypeText
import ModelForge.Model.References
import ModelForge.Names.Clash
import ModelForge.Names.Identifier

set_option autoImplicit false

namespace ModelForge

/-- The traits that every record and every enum derives. -/
def derivedTraits : List String := ["Debug", "Clone", "Serialize", "Deserialize"]

/-- The name on the wire of the discriminator, which holds the qualified name of the class. -/
def discriminatorKey : String := "$class"

/-- The discriminator's field. -/
def discriminatorField : String := "_class"

/-- Members of this name never become fields. -/
def identifierMember : String := "identifier"

/-! ## Fields -/

/-- A field of a record. -/
structure Field where
  wireName : String
  name : String
  typeText : String
  isOptional : Bool
  hooks : Option Hooks
  decorators : List Decorator
  deriving DecidableEq

/-- The field that every record has. -/
def discriminator : Field where
  wireName := discriminatorKey
  name := discriminatorField
  typeText := "String"
  isOptional := false
  hooks := none
  decorators := []

/-- The members of a class that become fields. -/
def Graph.dataMembers (g : Graph) (d : Declaration) : List Member :=
  (g.members d).filter fun m => m.property.name ≠ identifierMember

/-- Whether a field of type `target` is boxed in the record of `owner`. Only a recursive owner has
members that lead back to it, and an array is behind a pointer anyway. -/
def Graph.boxes (g : Graph) (owner : Declaration) (ownerIsRecursive : Bool) (m : Member)
    (target : Declaration) : Bool :=
  ownerIsRecursive && !m.property.isArray && target.isClass && g.leadsBack target owner

/-- The type of a member in the record of `owner`, with its hooks. -/
def memberType (options : Options) (g : Graph) (owner : Declaration) (ownerIsRecursive : Bool)
    (m : Member) : String × Option Hooks :=
  let p := m.property
  match g.memberReferent m with
  | .primitive primitive =>
      (wrapType primitive.typeText p.isArray p.isOptional,
        hooksFor? primitive p.isArray p.isOptional)
  | .declaration target =>
      let name := typeName options.reserved target.name
      let base := if g.boxes owner ownerIsRecursive m target then boxType name else name
      (wrapType base p.isArray p.isOptional, none)
  | .unresolved name => (wrapType name p.isArray p.isOptional, none)

/-- The field of a member under the given name. -/
def memberField (options : Options) (g : Graph) (owner : Declaration) (ownerIsRecursive : Bool)
    (name : String) (m : Member) : Field :=
  let (typeText, hooks) := memberType options g owner ownerIsRecursive m
  { wireName := m.property.name
    name := name
    typeText := typeText
    isOptional := m.property.isOptional
    hooks := hooks
    decorators := m.property.decorators }

/-- The fields of the record of `d`, where `naming` spells the names of members. -/
def recordFields (options : Options) (naming : String → String) (g : Graph) (d : Declaration) :
    List Field :=
  let isRecursive := g.isRecursive d
  discriminator ::
    (g.dataMembers d).map fun m => memberField options g d isRecursive (naming m.property.name) m

/-- The first two members of `d` that would become one field. The discriminator counts as a
member. -/
def recordClash? (naming : String → String) (g : Graph) (d : Declaration) : Option Clash :=
  firstClash? [(discriminatorField, discriminatorKey)]
    ((g.dataMembers d).map fun m => (naming m.property.name, m.property.name))

/-! ## Source -/

/-- The lines inside the attribute of a field. -/
def fieldAttributes (field : Field) : List String :=
  ["rename = " ++ quoted field.wireName ++ ","]
    ++ (if field.isOptional then ["skip_serializing_if = \"Option::is_none\","] else [])
    ++ match field.hooks with
      | none => []
      | some hooks =>
          ["serialize_with = " ++ quoted hooks.serialize ++ ",",
            "deserialize_with = " ++ quoted hooks.deserialize ++ ","]
            ++ if field.isOptional then ["default,"] else []

/-- A field with its documentation and its attribute. -/
def fieldFragment (field : Field) : Fragment :=
  decoratorDocs field.decorators
    ++ .line "#[serde("
    ++ .indent
    ++ .lines (fieldAttributes field)
    ++ .dedent
    ++ .line ")]"
    ++ .line ("pub " ++ field.name ++ ": " ++ field.typeText ++ ",")

/-- The record of a class, and the constant with its qualified name. A class with a clash among its
members has none. -/
def recordFragment (options : Options) (naming : String → String) (g : Graph) (d : Declaration) :
    Fragment :=
  match recordClash? naming g d with
  | some clash =>
      .abort (.memberCollision d.qualifiedName clash.identifier clash.first clash.second)
  | none =>
      let name := typeName options.reserved d.name
      .blank
        ++ decoratorDocs d.decorators
        ++ .derive derivedTraits
        ++ .block ("pub struct " ++ name)
            (.all ((recordFields options naming g d).map fieldFragment))
        ++ .blank
        ++ .block ("impl " ++ name)
            (.line ("pub const CLASS: &str = " ++ quoted d.qualifiedName ++ ";"))

end ModelForge
