/-
`Generator.lean` -- the run of a generator, which spells names as it comes to them.

A generator writes as it goes: when it comes to a class it spells the members of that class, up to
the first whose identifier is taken, and then it writes the class. So what a generator remembers
behind a run depends on how far the sink has let it come, and the next run starts from there.
-/
import ModelForge.Generate.Run
import ModelForge.Output.Emitter

set_option autoImplicit false

namespace ModelForge

/-! ## Names -/

namespace NameCache

/-- Spells names one after the other, up to the first whose identifier is taken. -/
def spell (cache : NameCache) (reserved : WordSet) (taken : List String) : List String → NameCache
  | [] => cache
  | raw :: rest =>
      let (identifier, next) := cache.member reserved raw
      if identifier ∈ taken then next else next.spell reserved (identifier :: taken) rest

/-- Spells the members of a declaration that become fields. -/
def spellFields (cache : NameCache) (options : Options) (g : Graph) (d : Declaration) : NameCache :=
  if d.isClass then
    cache.spell options.reserved [discriminatorField]
      ((g.dataMembers d).map fun m => m.property.name)
  else cache

end NameCache

/-! ## Writing -/

section

variable {m : Type → Type} [Monad m] [Sink m]

/-- Calls go to the sink. It knows nothing of the names. -/
instance : Sink (StateT NameCache m) where
  perform call := StateT.lift (Sink.perform call)
  abandon := StateT.lift Sink.abandon

/-- Spells the fields of a declaration; how names are spelled from there on. -/
def learnFields (options : Options) (g : Graph) (d : Declaration) :
    StateT NameCache m (String → String) :=
  modifyGet fun cache =>
    let next := cache.spellFields options g d
    (next.naming options.reserved, next)

/-- Writes a declaration, with its fields as they have just been spelled. -/
def writeDeclaration (options : Options) (g : Graph) (d : Declaration) :
    EmitterT (StateT NameCache m) Unit := do
  let naming ← EmitterT.lift (learnFields options g d)
  (declarationFragment options naming g d).exec

/-- Writes declarations one after the other. -/
def writeDeclarations (options : Options) (g : Graph) :
    List Declaration → EmitterT (StateT NameCache m) Unit
  | [] => pure ()
  | d :: rest => do
      writeDeclaration options g d
      writeDeclarations options g rest

/-- Writes the unit of a namespace. -/
def writeNamespace (options : Options) (g : Graph) (ns : Namespace) :
    StateT NameCache m (Except GenerationError Unit) :=
  Sink.withUnit (unitName (moduleName ns.name)) .seal <| EmitterT.answerFrom 0 do
    (unitHeader ns).exec
    writeDeclarations options g ns.declarations

/-- Makes writings one after the other, up to the first that fails. -/
def writeInTurn : List (m (Except GenerationError Unit)) → m (Except GenerationError Unit)
  | [] => pure (.ok ())
  | writing :: rest => do
      match ← writing with
      | .ok _ => writeInTurn rest
      | .error e => pure (.error e)

/-- Writes a unit that has no names to be spelled. -/
def UnitPlan.write (unit : UnitPlan) : m (Except GenerationError Unit) :=
  unit.content.writeUnit unit.name

/-- Generates a graph into a sink. -/
def generateInTurn (options : Options) (g : Graph) :
    StateT NameCache m (Except GenerationError Unit) :=
  match moduleFault? options [] g.namespaces with
  | some e => pure (.error e)
  | none =>
      writeInTurn ((manifestPlan g).write :: (dateTimePlan options).write
        :: g.namespaces.map (writeNamespace options g))

namespace Generator

/-- Generates the graph into a sink, and spells names on the way; the generator behind the run. -/
def run (generator : Generator) : m (Except GenerationError Unit × Generator) := do
  let (outcome, names) ← (generateInTurn generator.options generator.graph).run generator.names
  pure (outcome, { generator with names := names })

/-- Runs one after the other, all of the same generator, whether or not those before have failed.
An effect comes before each of them, which may see to the sink. The outcome of each. -/
def runEach (generator : Generator) : List (m Unit) → m (List (Except GenerationError Unit))
  | [] => pure []
  | prepare :: rest => do
      prepare
      let (outcome, next) ← generator.run
      let outcomes ← next.runEach rest
      pure (outcome :: outcomes)

end Generator

end

end ModelForge
