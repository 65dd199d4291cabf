/-
`RunsInTurn.lean` -- a generator that has run before generates like a new one.

A run that spells names on the way leaves a cache, and which names are in it depends on the
answers of the sink. How the cache spells names does not. A request adds what would have been the
answer anyway, so `NameCache.naming` is the same function behind every request
(`NameCache.naming_member`). That is the invariant. A run with a cache is compared to a run
without one along its effects, and whatever comes behind the two is part of the comparison
(`Tracks`), for the next class and the next run go on with the cache.
-/
import ModelForge.Generate.Generator
import ModelForge.Proofs.Emitting
import ModelForge.Proofs.FirstAnswers

set_option autoImplicit false

namespace ModelForge

/-! ## Caches that spell alike -/

namespace NameCache

/-- To spell names does not change how names are spelled. -/
theorem naming_spell (cache : NameCache) (reserved : WordSet) (taken raws : List String) :
    (cache.spell reserved taken raws).naming reserved = cache.naming reserved := by
  induction raws generalizing cache taken with
  | nil => rfl
  | cons raw rest ih =>
      rw [spell]
      dsimp only
      split
      · exact naming_member cache reserved raw
      · rw [ih, naming_member]

/-- Nor does it to spell the fields of a declaration. -/
theorem naming_spellFields (cache : NameCache) (options : Options) (g : Graph) (d : Declaration) :
    (cache.spellFields options g d).naming options.reserved = cache.naming options.reserved := by
  unfold spellFields
  split
  · exact naming_spell cache options.reserved _ _
  · rfl

end NameCache

/-! ## Effects with a cache and effects without -/

section

variable {m : Type → Type} [Monad m]

/-- The effect with the cache is the effect without it, if the cache spells names in the given
way. Nothing tells them apart that comes behind them and makes no difference between caches that
spell so. -/
def Tracks {α : Type} (reserved : WordSet) (naming : String → String)
    (spelling : StateT NameCache m α) (effect : m α) : Prop :=
  ∀ cache : NameCache, cache.naming reserved = naming →
    ∀ {β : Type} (next : α × NameCache → m β) (next' : α → m β),
      (∀ a after, after.naming reserved = naming → next (a, after) = next' a) →
        spelling.run cache >>= next = effect >>= next'

variable [LawfulMonad m] {α β : Type} {reserved : WordSet} {naming : String → String}

/-- An effect of the sink spells nothing. -/
theorem tracks_lift (effect : m α) : Tracks reserved naming (StateT.lift effect) effect := by
  intro cache hcache γ next next' hnext
  rw [StateT.run_lift, bind_assoc]
  refine bind_congr fun a => ?_
  rw [pure_bind, hnext a cache hcache]

theorem tracks_pure (a : α) : Tracks (m := m) reserved naming (pure a) (pure a) := by
  intro cache hcache γ next next' hnext
  rw [StateT.run_pure, pure_bind, pure_bind, hnext a cache hcache]

/-- Effects in a row can be followed one by one. -/
theorem Tracks.bind {spelling : StateT NameCache m α} {effect : m α}
    {next : α → StateT NameCache m β} {next' : α → m β} (h : Tracks reserved naming spelling effect)
    (hnext : ∀ a, Tracks reserved naming (next a) (next' a)) :
    Tracks reserved naming (spelling >>= next) (effect >>= next') := by
  intro cache hcache γ last last' hlast
  rw [StateT.run_bind, bind_assoc, bind_assoc]
  exact h cache hcache _ _ fun a after hafter => hnext a after hafter last last' hlast

/-- The fields of a declaration are spelled in the given way, and so is everything later. -/
theorem tracks_learnFields (options : Options) (g : Graph) (d : Declaration) :
    Tracks (m := m) options.reserved naming (learnFields options g d) (pure naming) := by
  intro cache hcache γ next next' hnext
  have hafter : (cache.spellFields options g d).naming options.reserved = naming := by
    rw [NameCache.naming_spellFields, hcache]
  have hrun : (learnFields (m := m) options g d).run cache
      = pure (naming, cache.spellFields options g d) := by rw [← hafter]; rfl
  rw [hrun, pure_bind, pure_bind, hnext naming _ hafter]

/-! ## Writing -/

variable [Sink m]

/-- Calls of the sink spell nothing. -/
theorem tracks_performAll (calls : List SinkCall) :
    Tracks (m := m) reserved naming (Sink.performAll calls) (Sink.performAll calls) := by
  induction calls with
  | nil => exact tracks_pure _
  | cons call rest ih =>
      refine (tracks_lift (Sink.perform call)).bind fun answer => ?_
      cases answer with
      | ok _ => exact ih
      | error e => exact tracks_pure _

/-- A unit around both changes nothing. -/
theorem Tracks.withUnit {spelling : StateT NameCache m (Except GenerationError α)}
    {effect : m (Except GenerationError α)} (h : Tracks reserved naming spelling effect)
    (name : String) (closing : Sink.Closing) :
    Tracks reserved naming (Sink.withUnit name closing spelling)
      (Sink.withUnit name closing effect) := by
  refine (tracks_lift (Sink.perform (.openUnit name))).bind fun opened => ?_
  cases opened with
  | error e => exact tracks_pure _
  | ok _ =>
      refine h.bind fun outcome => ?_
      cases outcome with
      | error e => exact (tracks_lift Sink.abandon).bind fun _ => tracks_pure _
      | ok a =>
          match closing with
          | .drop => exact (tracks_lift Sink.abandon).bind fun _ => tracks_pure _
          | .seal =>
              refine (tracks_lift (Sink.perform .closeUnit)).bind fun closed => ?_
              cases closed with
              | ok _ => exact tracks_pure _
              | error e => exact tracks_pure _

/-- Lines are sent without a look at the names, so only what comes next has to be compared. -/
theorem tracks_sendThen (emission : Emission)
    {next : Nat → StateT NameCache m (Except GenerationError α)}
    {next' : Nat → m (Except GenerationError α)}
    (h : ∀ level, Tracks reserved naming (next level) (next' level)) :
    Tracks reserved naming (emission.sendThen next) (emission.sendThen next') := by
  refine (tracks_performAll _).bind fun answer => ?_
  cases answer with
  | error e => exact tracks_pure _
  | ok _ =>
      cases emission.error? with
      | some e => exact tracks_pure _
      | none => exact h emission.level

/-- Text that was decided before spells nothing when it is written. -/
theorem tracks_exec_bind (fragment : Fragment) (level : Nat)
    {next : Unit → EmitterT (StateT NameCache m) α} {next' : Unit → EmitterT m α}
    (h : ∀ level, Tracks reserved naming (EmitterT.answerFrom level (next ()))
      (EmitterT.answerFrom level (next' ()))) :
    Tracks reserved naming (EmitterT.answerFrom level (fragment.exec >>= next))
      (EmitterT.answerFrom level (fragment.exec >>= next')) := by
  rw [Fragment.answerFrom_exec_bind, Fragment.answerFrom_exec_bind]
  exact tracks_sendThen _ h

/-- Nor does a whole unit of it. -/
theorem tracks_write (unit : UnitPlan) : Tracks (m := m) reserved naming unit.write unit.write :=
  have hcontent : Tracks (m := m) reserved naming (unit.content.write 0) (unit.content.write 0) :=
    tracks_sendThen (unit.content.emit 0) fun _ => tracks_pure (.ok ())
  hcontent.withUnit unit.name .seal

/-- Declarations that are spelled and written in turn are written like the fragments of all of
them. -/
theorem tracks_writeDeclarations (options : Options) (g : Graph) (declarations : List Declaration)
    (level : Nat) :
    Tracks (m := m) options.reserved naming
      (EmitterT.answerFrom level (writeDeclarations options g declarations))
      (EmitterT.answerFrom level
        (Fragment.all (declarations.map (declarationFragment options naming g))).exec) := by
  induction declarations generalizing level with
  | nil =>
      have hnothing : ((Fragment.all []).exec : EmitterT m Unit) = pure () := rfl
      rw [writeDeclarations, List.map_nil, hnothing, EmitterT.answerFrom_pure,
        EmitterT.answerFrom_pure]
      exact tracks_pure _
  | cons d rest ih =>
      let others : EmitterT m Unit :=
        (Fragment.all (rest.map (declarationFragment options naming g))).exec
      have hcons : (Fragment.all ((d :: rest).map (declarationFragment options naming g))).exec
          = (declarationFragment options naming g d).exec >>= fun _ => others := rfl
      -- on the right hand side nothing is spelled, so the names are what they are
      have hnames : EmitterT.answerFrom level
            ((declarationFragment options naming g d).exec >>= fun _ => others)
          = pure naming >>= fun spelled => EmitterT.answerFrom level
              ((declarationFragment options spelled g d).exec >>= fun _ => others) :=
        (pure_bind naming fun spelled => EmitterT.answerFrom level
          ((declarationFragment options spelled g d).exec >>= fun _ => others)).symm
      rw [writeDeclarations, writeDeclaration, bind_assoc,
        EmitterT.answerFrom_lift_bind, hcons, hnames]
      exact (tracks_learnFields options g d).bind fun spelled => tracks_exec_bind _ level ih

/-- **A unit whose names are spelled as it is written** is the unit whose names were spelled
before. -/
theorem tracks_writeNamespace (options : Options) (g : Graph) (ns : Namespace) :
    Tracks (m := m) options.reserved naming (writeNamespace options g ns)
      (namespacePlan options naming g ns).write := by
  have hcontent : (namespacePlan options naming g ns).write (m := m)
      = Sink.withUnit (unitName (moduleName ns.name)) .seal
          (EmitterT.answerFrom 0 (namespaceFragment options naming g ns).exec) := by
    rw [Fragment.answerFrom_exec]
    rfl
  rw [hcontent]
  exact (tracks_exec_bind (unitHeader ns) 0
    (tracks_writeDeclarations options g ns.declarations)).withUnit _ _

omit [Sink m] in
/-- Units in turn can be followed one by one. -/
theorem tracks_writeInTurn {spellings : List (StateT NameCache m (Except GenerationError Unit))}
    {writings : List (m (Except GenerationError Unit))}
    (h : List.Forall₂ (Tracks reserved naming) spellings writings) :
    Tracks reserved naming (writeInTurn spellings) (writeInTurn writings) := by
  induction h with
  | nil => exact tracks_pure _
  | cons hfirst _ ih =>
      refine hfirst.bind fun outcome => ?_
      cases outcome with
      | ok _ => exact ih
      | error e => exact tracks_pure _

/-! ## Runs -/

omit [LawfulMonad m] in
/-- Units that were planned are written in turn. -/
theorem writeUnits_eq_writeInTurn (units : List UnitPlan) :
    (writeUnits units : m _) = writeInTurn (units.map UnitPlan.write) := by
  induction units with
  | nil => rfl
  | cons unit rest ih =>
      rw [writeUnits, List.map_cons, writeInTurn, ih]
      rfl

/-- A run with the cache is compared to the run that writes the plan. -/
theorem tracks_generateInTurn (options : Options) (g : Graph) :
    Tracks (m := m) options.reserved naming (generateInTurn options g)
      (writePlan (plan options naming g)) := by
  unfold generateInTurn plan
  cases moduleFault? options [] g.namespaces with
  | some e => exact tracks_pure _
  | none =>
      dsimp only [writePlan]
      rw [writeUnits_eq_writeInTurn, List.map_cons, List.map_cons, List.map_map]
      refine tracks_writeInTurn (.cons (tracks_write _) (.cons (tracks_write _) ?_))
      rw [List.forall₂_map_left_iff, List.forall₂_map_right_iff, List.forall₂_same]
      exact fun ns _ => tracks_writeNamespace options g ns

namespace Generator

/-- All that a run shows of the names that the generator remembers is how the generator spells
names. -/
theorem fst_map_run (generator : Generator) :
    Prod.fst <$> generator.run (m := m)
      = writePlan (plan generator.options generator.naming generator.graph) := by
  have htracks : Tracks (m := m) generator.options.reserved generator.naming _ _ :=
    tracks_generateInTurn generator.options generator.graph
  have hrun := htracks generator.names rfl (fun p => pure p.1) pure fun _ _ _ => rfl
  rw [bind_pure] at hrun
  unfold run
  rw [map_bind, ← hrun]
  simp only [map_pure]

/-- Every run is the run that writes the plan of the first one, whatever became of those before. -/
theorem runEach_eq_mapM (generator : Generator) (preparations : List (m Unit)) :
    generator.runEach preparations = preparations.mapM fun prepare => (do
      prepare
      writePlan (plan generator.options generator.naming generator.graph)) := by
  induction preparations generalizing generator with
  | nil => rfl
  | cons prepare rest ih =>
      rw [runEach, List.mapM_cons, bind_assoc]
      refine bind_congr fun _ => ?_
      rw [run, bind_assoc]
      simp only [pure_bind]
      refine tracks_generateInTurn generator.options generator.graph generator.names rfl _ _
        fun outcome after hafter => ?_
      dsimp only
      rw [ih]
      have hnaming : Generator.naming ⟨generator.graph, generator.options, after⟩
          = generator.naming :=
        hafter
      rw [hnaming]

end Generator

end

/-! ## Generators that have run -/

/-- A generator of the graph generates the same whether or not it has run before. -/
structure GeneratesAgain (options : Options) (g : Graph) : Prop where
  /-- Whatever names are in the cache, spelled with the words of the generator, a run is the one
  without a cache. -/
  reached : ∀ (m : Type → Type) [Monad m] [LawfulMonad m] [Sink m] (raws : List String),
    let cache := NameCache.empty.after (raws.map fun raw => ⟨raw, options.reserved⟩)
    Prod.fst <$> Generator.run (m := m) ⟨g, options, cache⟩ = generate options g
  /-- Runs of one generator, one behind the other, are runs of as many new ones. -/
  again : ∀ (m : Type → Type) [Monad m] [LawfulMonad m] [Sink m] (preparations : List (m Unit)),
    (Generator.fresh options g).runEach preparations = preparations.mapM fun prepare => (do
      prepare
      Prod.fst <$> (Generator.fresh options g).run)

/-- **Any generator of the graph generates as a fresh one does.** -/
theorem generatesAgain (options : Options) (g : Graph) : GeneratesAgain options g := by
  refine ⟨fun m _ _ _ raws => ?_, fun m _ _ _ preparations => ?_⟩
  · dsimp only
    rw [Generator.fst_map_run, generate, Generator.naming, NameCache.naming_after,
      NameCache.naming_empty]
  · rw [Generator.runEach_eq_mapM]
    simp only [Generator.fst_map_run]

/-- **Names from the cache are the names without it.** Whatever is asked for, and with whatever
words, the words of the first request for a name decide for good, and as many names are remembered
as are different. As long as the words stay the same, every answer is therefore what it would be
without a cache. A generator that has run before, to the end or not, then runs like a new one. -/
theorem remembered_names_are_direct :
    (∀ requests : List NameRequest, AnsweredFirst requests)
      ∧ (∀ (reserved : WordSet) (raws : List String),
        NameCache.empty.answers (raws.map fun raw => ⟨raw, reserved⟩)
          = raws.map (memberName reserved))
      ∧ ∀ (options : Options) (g : Graph), GeneratesAgain options g :=
  ⟨answeredFirst, fun reserved raws => NameCache.empty.answers_eq_map_naming reserved raws,
    generatesAgain⟩

end ModelForge
