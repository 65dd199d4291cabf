/-
`Run.lean` -- a generation run.

A run first decides what there is to write, `plan`, and then writes it, unit by unit. The manifest
comes first and lists the modules; then comes the unit of the date-time hooks, then one unit for
each namespace. The names of the modules are judged before anything is written.
-/
import ModelForge.Generate.NamespaceUnit
import ModelForge.Names.Cache

set_option autoImplicit false

namespace ModelForge

/-! ## Modules -/

/-- The unit that lists the modules. -/
def manifestUnit : String := "mod.rs"

/-- Module names that the generated source uses itself. -/
def ownModules : List String := [utilityModule, "mod"]

/-- The file name of the unit of a module. -/
def unitName (module : String) : String := module ++ ".rs"

/-- The line of the manifest for a module. -/
def manifestLine (module : String) : String := "pub mod " ++ module ++ ";"

/-- What is wrong with the modules of a list of namespaces, where `taken` holds modules with the
namespaces they belong to. The first namespace with a fault decides, and a reserved name comes
before a collision. -/
def moduleFault? (options : Options) (taken : List (String × String)) :
    List Namespace → Option GenerationError
  | [] => none
  | ns :: rest =>
      let module := moduleName ns.name
      if module ∈ ownModules ∨ module ∈ options.reserved then some (.reservedModule ns.name module)
      else match taken.lookup module with
        | some first => some (.moduleCollision module first ns.name)
        | none => moduleFault? options ((module, ns.name) :: taken) rest

/-! ## Plans -/

/-- A unit that is to be written. -/
structure UnitPlan where
  name : String
  content : Fragment

/-- The manifest. -/
def manifestPlan (g : Graph) : UnitPlan where
  name := manifestUnit
  content :=
    .lines ((g.namespaces.map fun ns => manifestLine (moduleName ns.name))
      ++ [manifestLine utilityModule])

/-- The unit of the date-time hooks. -/
def dateTimePlan (options : Options) : UnitPlan where
  name := unitName utilityModule
  content := dateTimeFragment options.dateTimeFormat

/-- The unit of a namespace. -/
def namespacePlan (options : Options) (naming : String → String) (g : Graph) (ns : Namespace) :
    UnitPlan where
  name := unitName (moduleName ns.name)
  content := namespaceFragment options naming g ns

/-- All units of a run, in the order in which they are written. -/
def plan (options : Options) (naming : String → String) (g : Graph) :
    Except GenerationError (List UnitPlan) :=
  match moduleFault? options [] g.namespaces with
  | some e => .error e
  | none =>
      .ok (manifestPlan g :: dateTimePlan options
        :: g.namespaces.map (namespacePlan options naming g))

/-! ## Runs -/

section

variable {m : Type → Type} [Monad m] [Sink m]

/-- Writes units one after the other, up to the first that fails. -/
def writeUnits : List UnitPlan → m (Except GenerationError Unit)
  | [] => pure (.ok ())
  | unit :: rest => do
      match ← unit.content.writeUnit unit.name with
      | .ok _ => writeUnits rest
      | .error e => pure (.error e)

/-- Writes the units of a plan, if there is one. -/
def writePlan : Except GenerationError (List UnitPlan) → m (Except GenerationError Unit)
  | .ok units => writeUnits units
  | .error e => pure (.error e)

/-- Generates a graph into a sink. -/
def generate (options : Options) (g : Graph) : m (Except GenerationError Unit) :=
  writePlan (plan options (memberName options.reserved) g)

end

/-! ## Generators

A generator can run more than once, and keeps the names it has spelled from one run to the next. -/

/-- A graph with the choices for it, and the member names spelled so far. -/
structure Generator where
  graph : Graph
  options : Options
  names : NameCache

namespace Generator

/-- The generator that has not run. -/
def fresh (options : Options) (g : Graph) : Generator := ⟨g, options, .empty⟩

/-- How the generator spells the name of a member. -/
def naming (generator : Generator) : String → String :=
  generator.names.naming generator.options.reserved

end Generator

end ModelForge
