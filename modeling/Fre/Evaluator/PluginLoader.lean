import Fre.Core.Error
import Fre.Core.Event
import Fre.Core.Verdict
import Fre.Foundation.Machine
import Fre.Foundation.Ownership

/-!
# Evaluator plugins

`PluginLoader::load` opens a shared library and lets it make a table of
functions; `EvaluatorHandle` owns both.  A handle may be moved and assigned, and
its destructor calls `destroy`, deletes the table and closes the library.  What
one construction gets hold of, the table and the library, has one number, and
the log keeps what happens to it.
-/

namespace Fre
namespace Evaluator
namespace PluginLoader

open Foundation Ownership

/-- `FRE_EVALUATOR_ABI_VERSION`. -/
def evaluatorAbiVersion : UInt32 := 1

/-- `fre_evaluator_vtable_t`; of the two functions, whether they are there. -/
structure Vtable where
  abiVersion : UInt32 := evaluatorAbiVersion
  evaluatorId : Option String := none
  evaluate : Bool := true
  destroy : Bool := true
  deriving DecidableEq, Repr

/-- `fre_event_view_t`. -/
structure EventView where
  id : UInt64
  tenantId : String
  entityId : String
  eventType : String
  timestampUs : Int64
  payload : List UInt8
  payloadLen : UInt32
  deriving DecidableEq, Repr

/-- `fre_evaluator_result_t`. -/
structure PluginResult where
  verdict : Verdict := .pass
  isError : Bool := false
  errorCode : EvaluatorErrorCode := .timeout
  evaluatorId : String := ""
  reasonCode : String := ""
  score : Single := .finite 0
  deriving DecidableEq

/-- An opened library: its `fre_create_evaluator`, if the symbol is there. -/
structure SharedLibrary where
  createEvaluator : Option (String → Option Vtable)

/-- What happens to a library and to the table it has made. -/
inductive Effect
  | opened
  | created (vtable : Vtable)
  | read
  | evaluated
  | destroyed
  | deleted
  | closed
  | overwritten
  deriving DecidableEq, Repr

/-- `EvaluatorHandle`: two pointers, each of which may be null. -/
structure EvaluatorHandle where
  vtable : Option (Nat × Vtable) := none
  dlHandle : Option Nat := none
  deriving DecidableEq

/-! ### Handles -/

/-- The call of `destroy`, if it is there. -/
def Vtable.callDestroy (vtable : Vtable) : List Effect :=
  if vtable.destroy then [.destroyed] else []

namespace EvaluatorHandle

/-- The library is closed, if there is one. -/
def close (handle : EvaluatorHandle) : List (Nat × Effect) :=
  match handle.dlHandle with
  | some library => about library [.closed]
  | none => []

/-- `EvaluatorHandle::~EvaluatorHandle`. -/
def destructor (handle : EvaluatorHandle) : List (Nat × Effect) :=
  (match handle.vtable with
    | some (number, vtable) =>
        if vtable.destroy then about number (vtable.callDestroy ++ [.deleted])
        else []
    | none => []) ++ handle.close

/-- What the move assignment does to the members that it overwrites.  The table
is not deleted. -/
def assignOver (handle : EvaluatorHandle) : List (Nat × Effect) :=
  (match handle.vtable with
    | some (number, vtable) => about number vtable.callDestroy
    | none => []) ++ handle.close ++
  match handle.vtable with
  | some (number, _) => about number [.overwritten]
  | none => []

/-- `EvaluatorHandle::evaluator_id`, empty without one. -/
def evaluatorId (handle : EvaluatorHandle) : String × List (Nat × Effect) :=
  match handle.vtable with
  | some (number, vtable) => (vtable.evaluatorId.getD "", about number [.read])
  | none => ("", [])

/-- The event as a plugin sees it. -/
def eventView (event : Event) : EventView where
  id := event.id
  tenantId := event.tenantId
  entityId := event.entityId
  eventType := event.eventType
  timestampUs := event.timestamp / 1000
  payload := event.payload
  payloadLen := UInt32.ofNat event.payload.length

/-- `EvaluatorHandle::evaluate`, with what the plugin returns and writes. -/
def evaluate
    (handle : EvaluatorHandle)
    (event : Event)
    (plugin : EventView → Int32 × PluginResult) :
    Except EvaluatorError EvaluatorResult × List (Nat × Effect) :=
  match handle.vtable with
  | none => (.error ⟨.notInitialized, handle.evaluatorId.1, ""⟩, [])
  | some (number, vtable) =>
      if !vtable.evaluate then
        (.error ⟨.notInitialized, handle.evaluatorId.1, ""⟩,
          about number [.read, .read])
      else
        let (rc, result) := plugin (eventView event)
        if rc ≠ 0 ∨ result.isError then
          (.error ⟨result.errorCode, result.evaluatorId, result.reasonCode⟩,
            about number [.read, .evaluated])
        else
          (.ok
            { evaluatorId := result.evaluatorId
              verdict := result.verdict
              reasonCode :=
                if result.reasonCode.isEmpty then none
                else some result.reasonCode
              score := if result.score = .nan then none else some result.score },
            about number [.read, .evaluated])

end EvaluatorHandle

/-- The error of a failed load. -/
def loadFailed (detail : String) : ConfigError := ⟨.evaluatorLoadFailed, detail⟩

/-- `PluginLoader::load`, given what `dlopen` returns: the handle or the error,
and what happens to the library and its table.  The message about another
version is made after the table was deleted, from what is `stale` in its
place. -/
def load
    (libraryPath configJson : String)
    (library : Except String SharedLibrary)
    (stale : UInt32)
    (number : Nat) : Except ConfigError EvaluatorHandle × List Effect :=
  match library with
  | .error dlerror =>
      (.error (loadFailed ("dlopen '" ++ libraryPath ++ "': " ++ dlerror)), [])
  | .ok library =>
      match library.createEvaluator with
      | none =>
          (.error (loadFailed ("symbol 'fre_create_evaluator' not found in '" ++
            libraryPath ++ "'")), [.opened, .closed])
      | some factory =>
          match factory configJson with
          | none =>
              (.error (loadFailed ("factory returned null for '" ++
                libraryPath ++ "'")), [.opened, .closed])
          | some vtable =>
              if vtable.abiVersion ≠ evaluatorAbiVersion then
                (.error (loadFailed ("plugin ABI version " ++ toString stale ++
                    " != expected " ++ toString evaluatorAbiVersion ++ " in '" ++
                    libraryPath ++ "'")),
                  [.opened, .created vtable, .read] ++ vtable.callDestroy ++
                    [.deleted, .closed, .read])
              else
                (.ok ⟨some (number, vtable), some number⟩,
                  [.opened, .created vtable, .read, .read])

/-- Every error of a load is a failed load and names the library. -/
theorem error_of_load
    {libraryPath configJson : String}
    {library : Except String SharedLibrary}
    {stale : UInt32}
    {number : Nat}
    {error : ConfigError}
    (failed : (load libraryPath configJson library stale number).1 =
      .error error) :
    error.code = .evaluatorLoadFailed ∧
      libraryPath.toList <:+: error.detail.toList := by
  have named (before after : String) :
      libraryPath.toList <:+: (before ++ libraryPath ++ after).toList :=
    ⟨before.toList, after.toList, by simp⟩
  unfold load at failed
  split at failed
  next dlerror =>
    cases failed
    refine ⟨rfl, ?_⟩
    simpa [loadFailed, String.append_assoc] using named "dlopen '" ("': " ++ dlerror)
  next =>
    split at failed
    next =>
      cases failed
      exact ⟨rfl, named _ "'"⟩
    next =>
      split at failed
      next =>
        cases failed
        exact ⟨rfl, named _ "'"⟩
      next =>
        split at failed
        next =>
          cases failed
          exact ⟨rfl, named _ "'"⟩
        next => cases failed

/-! ### Objects -/

/-- What the program does with handles.  `construct` is the constructor of an
embedded plugin, with no library. -/
inductive Action (κ : Type)
  | load
      (object : κ)
      (libraryPath configJson : String)
      (library : Except String SharedLibrary)
      (stale : UInt32)
  | construct (object : κ) (vtable : Option Vtable)
  | moveConstruct (object source : κ)
  | moveAssign (object source : κ)
  | destruct (object : κ)
  | evaluatorId (object : κ)
  | evaluate
      (object : κ)
      (event : Event)
      (plugin : EventView → Int32 × PluginResult)

/-- The living objects, the number of constructions, and the log. -/
structure World (κ : Type) where
  handles : κ → Option EvaluatorHandle := fun _ => none
  next : Nat := 0
  log : List (Nat × Effect) := []

variable {κ : Type}

/-- Store a handle in an object, or end its lifetime. -/
def World.put
    [DecidableEq κ]
    (world : World κ)
    (object : κ)
    (handle : Option EvaluatorHandle) : World κ :=
  { world with handles := Function.update world.handles object handle }

/-- Append to the log. -/
def World.append (world : World κ) (effects : List (Nat × Effect)) : World κ :=
  { world with log := world.log ++ effects }

/-- A construction has taken place. -/
def World.constructed (world : World κ) (effects : List Effect) : World κ :=
  { world with
    next := world.next + 1
    log := world.log ++ about world.next effects }

/-- One action.  An object is constructed where there is none, and used while it
lives. -/
def step
    [DecidableEq κ]
    (world : World κ)
    (action : Action κ) : Option (World κ) :=
  match action with
  | .load object libraryPath configJson library stale =>
      match world.handles object with
      | some _ => none
      | none =>
          let loaded := load libraryPath configJson library stale world.next
          some ((world.constructed loaded.2).put object loaded.1.toOption)
  | .construct object vtable =>
      match world.handles object with
      | some _ => none
      | none =>
          some ((world.constructed (vtable.toList.map Effect.created)).put object
            (some ⟨vtable.map (Prod.mk world.next), none⟩))
  | .moveConstruct object source =>
      match world.handles object, world.handles source with
      | none, some handle =>
          some ((world.put source (some {})).put object (some handle))
      | _, _ => none
  | .moveAssign object source =>
      match world.handles object, world.handles source with
      | some current, some handle =>
          if object = source then some world
          else
            some (((world.append current.assignOver).put source (some {})).put
              object (some handle))
      | _, _ => none
  | .destruct object =>
      (world.handles object).map fun handle =>
        (world.append handle.destructor).put object none
  | .evaluatorId object =>
      (world.handles object).map fun handle =>
        world.append handle.evaluatorId.2
  | .evaluate object event plugin =>
      (world.handles object).map fun handle =>
        world.append (handle.evaluate event plugin).2

/-- The object holds a pointer to what the construction with this number got
hold of. -/
def World.Holds (world : World κ) (object : κ) (number : Nat) : Prop :=
  ∃ handle, world.handles object = some handle ∧
    (handle.dlHandle = some number ∨
      ∃ vtable, handle.vtable = some (number, vtable))

/-! ### The lives of plugins -/

/-- A plugin that is owned by a handle: its table, and whether there is a
library.  Loaded ones have the right version. -/
structure Plugin where
  vtable : Vtable
  loaded : Bool
  accepted : loaded = true → vtable.abiVersion = evaluatorAbiVersion

/-- The handle that owns a plugin, or nothing. -/
def handleOf : Option (Nat × Plugin) → EvaluatorHandle
  | none => {}
  | some (number, plugin) =>
      { vtable := some (number, plugin.vtable)
        dlHandle := if plugin.loaded then some number else none }

/-- How the life of a plugin begins. -/
def Plugin.birth (plugin : Plugin) : List Effect :=
  (if plugin.loaded then [.opened] else []) ++ [.created plugin.vtable]

/-- The library is closed at the end. -/
def Plugin.close (plugin : Plugin) : List Effect :=
  if plugin.loaded then [.closed] else []

/-- Reading the table, or calling `evaluate`. -/
def Effect.isUse : Effect → Bool
  | .read => true
  | .evaluated => true
  | _ => false

/-- While it is owned, a plugin is only used. -/
def Alive (plugin : Plugin) (life : List Effect) : Prop :=
  ∃ uses, life = plugin.birth ++ uses ∧ ∀ effect ∈ uses, effect.isUse = true

/-- The lives that have come to their end. -/
inductive Ended : List Effect → Prop
  | nothing : Ended []
  | noEvaluator : Ended [.opened, .closed]
  | rejected (vtable : Vtable) :
      vtable.abiVersion ≠ evaluatorAbiVersion →
        Ended ([.opened, .created vtable, .read] ++ vtable.callDestroy ++
          [.deleted, .closed, .read])
  | destructed (plugin : Plugin) {life : List Effect} :
      Alive plugin life →
        Ended (life ++ ((if plugin.vtable.destroy then
          plugin.vtable.callDestroy ++ [.deleted] else []) ++ plugin.close))
  | assigned (plugin : Plugin) {life : List Effect} :
      Alive plugin life →
        Ended (life ++ (plugin.vtable.callDestroy ++ plugin.close ++
          [.overwritten]))

theorem alive_birth (plugin : Plugin) : Alive plugin plugin.birth :=
  ⟨[], (List.append_nil _).symm, fun _ member => nomatch member⟩

theorem mem_birth {plugin : Plugin} {effect : Effect} :
    effect ∈ plugin.birth ↔
      (plugin.loaded = true ∧ effect = .opened) ∨
        effect = .created plugin.vtable := by
  unfold Plugin.birth
  cases plugin.loaded <;> simp

/-- A plugin lives on when it is used. -/
theorem Alive.append
    {plugin : Plugin}
    {life uses : List Effect}
    (alive : Alive plugin life)
    (areUses : ∀ effect ∈ uses, effect.isUse = true) :
    Alive plugin (life ++ uses) := by
  obtain ⟨earlier, rfl, earlierUses⟩ := alive
  refine ⟨earlier ++ uses, List.append_assoc .., ?_⟩
  exact List.forall_mem_append.mpr ⟨earlierUses, areUses⟩

/-- What the objects hold is what they own. -/
def Shows (owns : κ → Option (Nat × Plugin))
    (handles : κ → Option EvaluatorHandle) : Prop :=
  ∀ object, (handles object = none ∧ owns object = none) ∨
    handles object = some (handleOf (owns object))

/-- The world can be seen as objects that own plugins, and the lives of all
plugins are as they should be. -/
def World.Sound (world : World κ) : Prop :=
  ∃ owns, Shows owns world.handles ∧
    Ownership.Sound Alive Ended owns world.next world.log

theorem sound_initial : World.Sound ({} : World κ) :=
  ⟨fun _ => none, fun _ => .inl ⟨rfl, rfl⟩, sound_empty⟩

section Shows

variable {owns : κ → Option (Nat × Plugin)}
variable {handles : κ → Option EvaluatorHandle}
variable {object : κ}

theorem Shows.owns_eq_none
    (shows : Shows owns handles)
    (absent : handles object = none) :
    owns object = none := by
  rcases shows object with ⟨-, nothing⟩ | shown
  · exact nothing
  · rw [absent] at shown
    cases shown

theorem Shows.eq_handleOf
    (shows : Shows owns handles)
    {handle : EvaluatorHandle}
    (found : handles object = some handle) :
    handle = handleOf (owns object) := by
  rcases shows object with ⟨absent, -⟩ | shown
  · rw [absent] at found
    cases found
  · rw [found] at shown
    exact Option.some.inj shown

theorem Shows.put
    [DecidableEq κ]
    (shows : Shows owns handles)
    (object : κ)
    (contents : Option (Nat × Plugin)) :
    Shows (Function.update owns object contents)
      (Function.update handles object (some (handleOf contents))) := by
  intro other
  by_cases same : other = object
  · subst other
    rw [Function.update_self, Function.update_self]
    exact .inr rfl
  · rw [Function.update_of_ne same, Function.update_of_ne same]
    exact shows other

theorem Shows.drop
    [DecidableEq κ]
    (shows : Shows owns handles)
    (object : κ) :
    Shows (Function.update owns object none)
      (Function.update handles object none) := by
  intro other
  by_cases same : other = object
  · subst other
    exact .inl ⟨Function.update_self .., Function.update_self ..⟩
  · rw [Function.update_of_ne same, Function.update_of_ne same]
    exact shows other

end Shows

/-! ### One action -/

theorem about_append (thing : Nat) (first second : List Effect) :
    about thing first ++ about thing second = about thing (first ++ second) :=
  List.map_append.symm

theorem close_handleOf (number : Nat) (plugin : Plugin) :
    (handleOf (some (number, plugin))).close = about number plugin.close := by
  unfold EvaluatorHandle.close Plugin.close
  cases loaded : plugin.loaded <;> simp [handleOf, loaded, about]

theorem destructor_handleOf (number : Nat) (plugin : Plugin) :
    (handleOf (some (number, plugin))).destructor =
      about number ((if plugin.vtable.destroy then
        plugin.vtable.callDestroy ++ [.deleted] else []) ++ plugin.close) := by
  rw [EvaluatorHandle.destructor, close_handleOf, ← about_append]
  unfold handleOf
  dsimp only
  split <;> rfl

theorem assignOver_handleOf (number : Nat) (plugin : Plugin) :
    (handleOf (some (number, plugin))).assignOver =
      about number (plugin.vtable.callDestroy ++ plugin.close ++
        [.overwritten]) := by
  rw [EvaluatorHandle.assignOver, close_handleOf, ← about_append,
    ← about_append]
  rfl

/-- What a load leaves: nothing that is still open, or a plugin of the right
version. -/
theorem load_cases
    (libraryPath configJson : String)
    (library : Except String SharedLibrary)
    (stale : UInt32)
    (number : Nat) :
    ((load libraryPath configJson library stale number).1.toOption = none ∧
        Ended (load libraryPath configJson library stale number).2) ∨
      ∃ plugin,
        (load libraryPath configJson library stale number).1.toOption =
          some (handleOf (some (number, plugin))) ∧
        Alive plugin (load libraryPath configJson library stale number).2 := by
  unfold load
  split
  next => exact .inl ⟨rfl, .nothing⟩
  next =>
    split
    next => exact .inl ⟨rfl, .noEvaluator⟩
    next =>
      split
      next => exact .inl ⟨rfl, .noEvaluator⟩
      next vtable _ =>
        split
        next other => exact .inl ⟨rfl, .rejected vtable other⟩
        next accepted =>
          refine .inr ⟨⟨vtable, true, fun _ => not_not.mp accepted⟩, rfl, ?_⟩
          exact ⟨[.read, .read], rfl, by simp [Effect.isUse]⟩

section Step

variable {owns : κ → Option (Nat × Plugin)}
variable {next : Nat} {log : List (Nat × Effect)}

/-- The rule for an object that gives up what it owns, if anything. -/
theorem sound_release
    [DecidableEq κ]
    (sound : Ownership.Sound Alive Ended owns next log)
    (object : κ)
    (effects : Option (Nat × Plugin) → List (Nat × Effect))
    {ending : Plugin → List Effect}
    (nothing : effects none = [])
    (something : ∀ number plugin,
      effects (some (number, plugin)) = about number (ending plugin))
    (ends : ∀ plugin life, Alive plugin life → Ended (life ++ ending plugin)) :
    Ownership.Sound Alive Ended (Function.update owns object none) next
      (log ++ effects (owns object)) := by
  cases owned : owns object with
  | none =>
      rw [nothing, List.append_nil, ← owned, Function.update_eq_self]
      exact sound
  | some contents =>
      obtain ⟨number, plugin⟩ := contents
      rw [something]
      exact sound.release owned (ends plugin _ (sound.alive owned).2)

/-- The rule for an object that uses what it owns, if anything. -/
theorem sound_use
    (sound : Ownership.Sound Alive Ended owns next log)
    (object : κ)
    (effects : Option (Nat × Plugin) → List (Nat × Effect))
    (nothing : effects none = [])
    (something : ∀ number plugin, ∃ uses : List Effect,
      effects (some (number, plugin)) = about number uses ∧
        ∀ effect ∈ uses, effect.isUse = true) :
    Ownership.Sound Alive Ended owns next (log ++ effects (owns object)) := by
  cases owned : owns object with
  | none =>
      rw [nothing, List.append_nil]
      exact sound
  | some contents =>
      obtain ⟨number, plugin⟩ := contents
      obtain ⟨uses, happened, areUses⟩ := something number plugin
      rw [happened]
      exact sound.use owned ((sound.alive owned).2.append areUses)

/-- What `evaluate` does to a plugin is a use of it. -/
theorem effects_evaluate
    (event : Event)
    (answer : EventView → Int32 × PluginResult)
    (number : Nat)
    (plugin : Plugin) :
    ∃ uses : List Effect,
      ((handleOf (some (number, plugin))).evaluate event answer).2 =
          about number uses ∧
        ∀ effect ∈ uses, effect.isUse = true := by
  unfold EvaluatorHandle.evaluate handleOf
  dsimp only
  split
  next => exact ⟨[.read, .read], rfl, by simp [Effect.isUse]⟩
  next =>
    split
    next => exact ⟨[.read, .evaluated], rfl, by simp [Effect.isUse]⟩
    next => exact ⟨[.read, .evaluated], rfl, by simp [Effect.isUse]⟩

end Step

/-- Every action keeps the lives of all plugins as they should be. -/
theorem World.Sound.step
    [DecidableEq κ]
    {world after : World κ}
    {action : Action κ}
    (sound : world.Sound)
    (stepped : step world action = some after) :
    after.Sound := by
  obtain ⟨owns, shows, lives⟩ := sound
  cases action with
  | load object libraryPath configJson library stale =>
      cases absent : world.handles object with
      | some handle => simp [PluginLoader.step, absent] at stepped
      | none =>
          simp only [PluginLoader.step, absent, Option.some.injEq] at stepped
          subst stepped
          have free := shows.owns_eq_none absent
          rcases load_cases libraryPath configJson library stale world.next with
            ⟨failed, ended⟩ | ⟨plugin, loaded, alive⟩
          · refine ⟨Function.update owns object none, ?_, ?_⟩
            · rw [failed]
              exact shows.drop object
            · rw [← free, Function.update_eq_self]
              exact lives.discard ended
          · refine ⟨_, ?_, lives.create free alive⟩
            rw [loaded]
            exact shows.put object (some (world.next, plugin))
  | construct object vtable =>
      cases absent : world.handles object with
      | some handle => simp [PluginLoader.step, absent] at stepped
      | none =>
          simp only [PluginLoader.step, absent, Option.some.injEq] at stepped
          subst stepped
          have free := shows.owns_eq_none absent
          cases vtable with
          | none =>
              refine ⟨Function.update owns object none, shows.put object none, ?_⟩
              rw [← free, Function.update_eq_self]
              exact lives.discard .nothing
          | some vtable =>
              let plugin : Plugin := ⟨vtable, false, fun loaded => nomatch loaded⟩
              exact ⟨_, shows.put object (some (world.next, plugin)),
                lives.create free (alive_birth plugin)⟩
  | moveConstruct object source =>
      cases absent : world.handles object with
      | some handle => simp [PluginLoader.step, absent] at stepped
      | none =>
          cases found : world.handles source with
          | none => simp [PluginLoader.step, absent, found] at stepped
          | some handle =>
              simp only [PluginLoader.step, absent, found,
                Option.some.injEq] at stepped
              subst stepped
              rw [shows.eq_handleOf found]
              exact ⟨_, (shows.put source none).put object (owns source),
                lives.transfer source (shows.owns_eq_none absent)⟩
  | moveAssign object source =>
      cases target : world.handles object with
      | none => simp [PluginLoader.step, target] at stepped
      | some current =>
          cases found : world.handles source with
          | none => simp [PluginLoader.step, target, found] at stepped
          | some handle =>
              simp only [PluginLoader.step, target, found] at stepped
              split at stepped
              next =>
                cases stepped
                exact ⟨owns, shows, lives⟩
              next different =>
                rw [Option.some.injEq] at stepped
                subst stepped
                have released := sound_release lives object
                  (fun owned => (handleOf owned).assignOver) rfl
                  assignOver_handleOf fun plugin _ alive => .assigned plugin alive
                rw [← shows.eq_handleOf target] at released
                have moved := released.transfer source
                  (Function.update_self object none owns)
                rw [Function.update_of_ne (Ne.symm different),
                  Function.update_comm different, Function.update_idem] at moved
                rw [shows.eq_handleOf found]
                exact ⟨_, (shows.put source none).put object (owns source), moved⟩
  | destruct object =>
      obtain ⟨handle, found, rfl⟩ := Option.map_eq_some_iff.mp stepped
      refine ⟨_, shows.drop object, ?_⟩
      rw [shows.eq_handleOf found]
      exact sound_release lives object
        (fun owned => (handleOf owned).destructor) rfl
        destructor_handleOf fun plugin _ alive => .destructed plugin alive
  | evaluatorId object =>
      obtain ⟨handle, found, rfl⟩ := Option.map_eq_some_iff.mp stepped
      refine ⟨owns, shows, ?_⟩
      rw [shows.eq_handleOf found]
      exact sound_use lives object
        (fun owned => (handleOf owned).evaluatorId.2) rfl
        fun number plugin => ⟨[.read], rfl, by simp [Effect.isUse]⟩
  | evaluate object event answer =>
      obtain ⟨handle, found, rfl⟩ := Option.map_eq_some_iff.mp stepped
      refine ⟨owns, shows, ?_⟩
      rw [shows.eq_handleOf found]
      exact sound_use lives object
        (fun owned => ((handleOf owned).evaluate event answer).2) rfl
        (effects_evaluate event answer)

/-! ### What becomes of a plugin -/

/-- The effect is part of the end of a plugin. -/
def Effect.ends : Effect → Bool
  | .destroyed => true
  | .deleted => true
  | .closed => true
  | _ => false

/-- The effect runs code of the library. -/
def Effect.runs : Effect → Bool
  | .created _ => true
  | .evaluated => true
  | .destroyed => true
  | _ => false

/-- The table came from a library and has another version than the host. -/
def Rejected (life : List Effect) : Prop :=
  .opened ∈ life ∧ ∃ vtable, .created vtable ∈ life ∧
    vtable.abiVersion ≠ evaluatorAbiVersion

/-- A plugin that is held has nothing of its end behind it.  Of one that is not
held the library was closed, and `destroy` was called once if it is there.  Its
table was deleted once, except when an assignment has overwritten it, or when it
has no `destroy` and was not rejected: a rejected table is deleted in any case.
When the end has begun, no code of the plugin is run, and only a rejected table is
still read. -/
structure CaredFor (held : Prop) (life : List Effect) : Prop where
  inUse : held → ∀ effect ∈ life, effect.ends = false
  closed : ¬ held → life.count .closed = life.count .opened
  openedOnce : life.count .opened ≤ 1
  destroyed : ¬ held → ∀ vtable, .created vtable ∈ life →
    life.count .destroyed = vtable.destroy.toNat
  deleted : ¬ held → ∀ vtable, .created vtable ∈ life →
    life.count .deleted ≤ 1 ∧ (.deleted ∉ life ↔
      .overwritten ∈ life ∨ (vtable.destroy = false ∧ ¬ Rejected life))
  order : life.Pairwise fun earlier later => earlier.ends = true →
    later.runs = false ∧ (later = .read → Rejected life)

/-- A life that has not begun to end satisfies every order of that kind. -/
theorem pairwise_append_of_not_ends
    {follows : Effect → Effect → Prop}
    {before after : List Effect}
    (notEnds : ∀ effect ∈ before, effect.ends = false)
    (ordered : after.Pairwise fun earlier later =>
      earlier.ends = true → follows earlier later) :
    (before ++ after).Pairwise fun earlier later =>
      earlier.ends = true → follows earlier later := by
  have begins : ∀ earlier ∈ before, earlier.ends = true → False := by
    intro earlier member ends
    rw [notEnds earlier member] at ends
    cases ends
  refine List.pairwise_append.mpr ⟨?_, ordered, ?_⟩
  · refine List.Pairwise.imp_of_mem ?_ (List.pairwise_of_forall fun _ _ => trivial)
    intro earlier later member _ _ ends
    exact absurd ends (begins earlier member)
  · intro earlier member later _ ends
    exact absurd ends (begins earlier member)

/-- What is in the life of a plugin that is owned. -/
structure Alive.Facts (plugin : Plugin) (life : List Effect) : Prop where
  opened : life.count .opened = plugin.loaded.toNat
  created : ∀ vtable, .created vtable ∈ life ↔ vtable = plugin.vtable
  notEnds : ∀ effect ∈ life, effect.ends = false
  notOverwritten : .overwritten ∉ life

theorem Alive.facts
    {plugin : Plugin}
    {life : List Effect}
    (alive : Alive plugin life) :
    Alive.Facts plugin life := by
  obtain ⟨uses, rfl, areUses⟩ := alive
  have notUse {effect : Effect} (other : effect.isUse = false) :
      effect ∉ uses := by
    intro member
    rw [areUses effect member] at other
    cases other
  refine ⟨?_, ?_, ?_, ?_⟩
  · rw [List.count_append, List.count_eq_zero_of_not_mem (notUse rfl)]
    unfold Plugin.birth
    cases plugin.loaded <;> rfl
  · intro vtable
    rw [List.mem_append, or_iff_left (notUse rfl), mem_birth]
    simp
  · intro effect member
    rcases List.mem_append.mp member with born | used
    · rcases mem_birth.mp born with ⟨-, rfl⟩ | rfl <;> rfl
    · have isUse := areUses effect used
      cases effect <;> first | rfl | cases isUse
  · rw [List.mem_append, or_iff_left (notUse rfl), mem_birth]
    simp

theorem Alive.Facts.count_eq_zero
    {plugin : Plugin}
    {life : List Effect}
    (facts : Alive.Facts plugin life)
    {effect : Effect}
    (ends : effect.ends = true) :
    life.count effect = 0 := by
  apply List.count_eq_zero_of_not_mem
  intro member
  rw [facts.notEnds effect member] at ends
  cases ends

/-- A plugin that is held is cared for. -/
theorem Alive.caredFor
    {plugin : Plugin}
    {life : List Effect}
    (alive : Alive plugin life)
    {held : Prop}
    (holds : held) :
    CaredFor held life where
  inUse := fun _ => alive.facts.notEnds
  closed := fun notHeld => absurd holds notHeld
  openedOnce := by
    rw [alive.facts.opened]
    exact Bool.toNat_le _
  destroyed := fun notHeld => absurd holds notHeld
  deleted := fun notHeld => absurd holds notHeld
  order := by
    rw [← List.append_nil life]
    exact pairwise_append_of_not_ends alive.facts.notEnds List.Pairwise.nil

/-- A plugin that was owned is cared for by an ending that closes its library,
calls `destroy` if it is there, and deletes the table unless an assignment
overwrites it. -/
theorem Alive.caredFor_append
    {plugin : Plugin}
    {life : List Effect}
    (alive : Alive plugin life)
    {held : Prop}
    (released : ¬ held)
    {ending : List Effect}
    (begins : ∀ effect ∈ ending, effect ≠ .opened ∧
      ∀ vtable, effect ≠ .created vtable)
    (closed : ending.count .closed = plugin.loaded.toNat)
    (destroyed : ending.count .destroyed = plugin.vtable.destroy.toNat)
    (deleted : ending.count .deleted ≤ 1 ∧ (.deleted ∉ ending ↔
      .overwritten ∈ ending ∨ plugin.vtable.destroy = false))
    (order : ending.Pairwise fun earlier later => earlier.ends = true →
      later.runs = false ∧ later ≠ .read) :
    CaredFor held (life ++ ending) := by
  have facts := alive.facts
  have noOpened : ending.count .opened = 0 :=
    List.count_eq_zero_of_not_mem fun member => (begins _ member).1 rfl
  have only {vtable : Vtable} (made : .created vtable ∈ life ++ ending) :
      vtable = plugin.vtable := by
    rcases List.mem_append.mp made with earlier | later
    · exact (facts.created vtable).mp earlier
    · exact absurd rfl ((begins _ later).2 vtable)
  have accepted : ¬ Rejected (life ++ ending) := by
    rintro ⟨opened, vtable, made, other⟩
    have inLife : .opened ∈ life :=
      (List.mem_append.mp opened).resolve_right fun later =>
        (begins _ later).1 rfl
    have positive : 0 < life.count .opened := List.count_pos_iff.mpr inLife
    have loaded : plugin.loaded = true := by
      rw [facts.opened] at positive
      have atMostOne := Bool.toNat_le plugin.loaded
      exact Bool.toNat_eq_one.mp (by omega)
    rw [only made] at other
    exact other (plugin.accepted loaded)
  refine ⟨fun holds => absurd holds released, fun _ => ?_, ?_, fun _ => ?_,
    fun _ => ?_, ?_⟩
  · rw [List.count_append, List.count_append, facts.count_eq_zero rfl,
      facts.opened, closed, noOpened, Nat.zero_add, Nat.add_zero]
  · rw [List.count_append, facts.opened, noOpened]
    exact Bool.toNat_le _
  · intro vtable made
    rw [only made, List.count_append, facts.count_eq_zero rfl, destroyed,
      Nat.zero_add]
  · intro vtable made
    have notDeleted : .deleted ∉ life :=
      List.count_eq_zero.mp (facts.count_eq_zero rfl)
    rw [only made, List.count_append, facts.count_eq_zero rfl, Nat.zero_add]
    refine ⟨deleted.1, ?_⟩
    simp only [List.mem_append, notDeleted, facts.notOverwritten, false_or,
      accepted, not_false_eq_true, and_true]
    exact deleted.2
  · refine pairwise_append_of_not_ends facts.notEnds (order.imp ?_)
    intro earlier later follows ends
    exact ⟨(follows ends).1, fun isRead => absurd isRead (follows ends).2⟩

/-- A plugin that has come to its end is cared for. -/
theorem Ended.caredFor
    {life : List Effect}
    (ended : Ended life)
    {held : Prop}
    (released : ¬ held) :
    CaredFor held life := by
  cases ended with
  | nothing =>
      refine ⟨fun holds => absurd holds released, fun _ => rfl, Nat.zero_le 1,
        fun _ vtable made => ?_, fun _ vtable made => ?_, List.Pairwise.nil⟩
      · cases made
      · cases made
  | noEvaluator =>
      refine ⟨fun holds => absurd holds released, fun _ => rfl, Nat.le_refl 1,
        fun _ vtable made => ?_, fun _ vtable made => ?_, ?_⟩
      · simp at made
      · simp at made
      · simp [Effect.ends]
  | rejected table other =>
      have rejected : Rejected ([.opened, .created table, .read] ++
          table.callDestroy ++ [.deleted, .closed, .read]) :=
        ⟨by simp, table, by simp, other⟩
      have only {vtable : Vtable}
          (made : .created vtable ∈ [.opened, .created table, .read] ++
            table.callDestroy ++ [.deleted, .closed, .read]) :
          vtable = table := by
        unfold Vtable.callDestroy at made
        split at made <;> simpa using made
      refine ⟨fun holds => absurd holds released, fun _ => ?_, ?_,
        fun _ vtable made => ?_, fun _ vtable made => ?_, ?_⟩
      · unfold Vtable.callDestroy
        cases table.destroy <;> simp
      · unfold Vtable.callDestroy
        cases table.destroy <;> simp
      · rw [only made]
        unfold Vtable.callDestroy
        cases table.destroy <;> simp
      · refine ⟨?_, ?_⟩
        · unfold Vtable.callDestroy
          cases table.destroy <;> simp
        · refine iff_of_false (fun absent => absent (by simp)) ?_
          rintro (overwritten | ⟨-, accepted⟩)
          · unfold Vtable.callDestroy at overwritten
            split at overwritten <;> simp at overwritten
          · exact accepted rejected
      · generalize Rejected _ = isRejected at rejected ⊢
        unfold Vtable.callDestroy
        cases table.destroy <;> simp [Effect.ends, Effect.runs, rejected]
  | destructed plugin alive =>
      refine alive.caredFor_append released ?_ ?_ ?_ ?_ ?_ <;>
        unfold Plugin.close Vtable.callDestroy <;>
        cases plugin.loaded <;> cases plugin.vtable.destroy <;>
        simp [Effect.ends, Effect.runs]
  | assigned plugin alive =>
      refine alive.caredFor_append released ?_ ?_ ?_ ?_ ?_ <;>
        unfold Plugin.close Vtable.callDestroy <;>
        cases plugin.loaded <;> cases plugin.vtable.destroy <;>
        simp [Effect.ends, Effect.runs]

/-- An object holds what it owns. -/
theorem Shows.holds_iff
    {owns : κ → Option (Nat × Plugin)}
    {world : World κ}
    (shows : Shows owns world.handles)
    (object : κ)
    (number : Nat) :
    world.Holds object number ↔
      ∃ plugin, owns object = some (number, plugin) := by
  unfold World.Holds
  rcases shows object with ⟨absent, nothing⟩ | shown
  · simp [absent, nothing]
  · cases owned : owns object with
    | none => simp [shown, owned, handleOf]
    | some contents =>
        obtain ⟨own, plugin⟩ := contents
        simp only [shown, owned, handleOf, Option.some.injEq, ↓existsAndEq,
          true_and, Prod.mk.injEq, exists_and_left, and_true]
        split <;> simp

/-- In every run, whatever objects are constructed, moved, assigned, used and
destroyed in whatever order: what a construction got hold of is never held by
two objects, and it is cared for. -/
theorem plugins_cared_for
    [DecidableEq κ]
    {actions : List (Action κ)}
    {final : World κ}
    (ran : Machine.run step {} actions = some final)
    (number : Nat) :
    (∀ first second, final.Holds first number → final.Holds second number →
      first = second) ∧
      CaredFor (∃ object, final.Holds object number)
        (lifeOf number final.log) := by
  obtain ⟨owns, shows, lives⟩ := Machine.invariant_of_run
    (fun _ _ _ sound stepped => sound.step stepped) sound_initial ran
  simp only [shows.holds_iff]
  refine ⟨?_, ?_⟩
  · rintro first second ⟨plugin, ownsFirst⟩ ⟨other, ownsSecond⟩
    exact lives.unique ownsFirst ownsSecond
  · by_cases held : ∃ object plugin, owns object = some (number, plugin)
    · obtain ⟨object, plugin, owned⟩ := held
      exact (lives.alive owned).2.caredFor ⟨object, plugin, owned⟩
    · have unowned : ∀ object plugin,
          owns object ≠ some (number, plugin) := fun object plugin owned =>
        held ⟨object, plugin, owned⟩
      by_cases below : number < final.next
      · exact (lives.ended below unowned).caredFor held
      · rw [lives.fresh (Nat.le_of_not_lt below)]
        exact Ended.nothing.caredFor held

/-- A library whose evaluators are of the right version. -/
def library : SharedLibrary := ⟨some fun _ => some {}⟩

/-- Two loaded plugins, the first of which is overwritten by the second. -/
def overwriting : List (Action Bool) :=
  [.load false "a.so" "\x7b\x7d" (.ok library) 0,
    .load true "b.so" "\x7b\x7d" (.ok library) 0, .moveAssign false true,
    .destruct true, .destruct false]

/-- The first plugin is torn down by the assignment and its table is not
deleted. -/
theorem plugins_cared_for_overwriting :
    ∃ final, Machine.run step {} overwriting = some final ∧
      lifeOf 0 final.log = [.opened, .created {}, .read, .read, .destroyed,
        .closed, .overwritten] ∧
      CaredFor (∃ object, final.Holds object 0) (lifeOf 0 final.log) := by
  have ran := (Option.some_get (x := Machine.run step {} overwriting)
    (by decide)).symm
  exact ⟨_, ran, by decide, (plugins_cared_for ran 0).2⟩

end PluginLoader
end Evaluator
end Fre
