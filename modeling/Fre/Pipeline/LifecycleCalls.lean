import Fre.Pipeline.Lifecycle
import Fre.Pipeline.PipelineConfig

/-!
# The components behind the public calls

The router and the stages of a pipeline are created by `start`.  Here the public
calls are whole steps, in any order, and what matters of them is which
components they dereference.  A component that was missing when it was
dereferenced is recorded; what a program does after that is not defined.
-/

namespace Fre
namespace Pipeline
namespace LifecycleCalls

open Foundation Lifecycle

/-- The pointers of `Pipeline::Impl`. -/
inductive Component
  | router
  | ingest
  | eval
  | inference
  | policy
  | emit
  deriving DecidableEq, Repr

/-- `Pipeline::Impl`: its state, the components that have been created, and the
coroutines that have been spawned and have not run. -/
structure Impl where
  state : PipelineState := .stopped
  everStarted : Bool := false
  created : List Component := []
  pending : Nat := 0
  missing : List Component := []
  deriving DecidableEq

namespace Impl

/-- Dereference a component. -/
def use (component : Component) (impl : Impl) : Impl :=
  if component ∈ impl.created then impl
  else { impl with missing := impl.missing ++ [component] }

/-- Dereference a component that the code tests for first. -/
def useIfCreated (component : Component) (impl : Impl) : Impl :=
  if component ∈ impl.created then impl.use component else impl

end Impl

/-- The components that `start` creates, in order. -/
def components (config : PipelineConfig) : List Component :=
  [Component.ingest] ++
    (if config.evalConfig.isSome then [Component.eval] else []) ++
    (if config.inferenceConfig.isSome then [Component.inference] else []) ++
    (if config.policyConfig.isSome then [Component.policy] else []) ++
    [Component.emit, Component.router]

/-- `Pipeline::start`. -/
def start (config : PipelineConfig) (impl : Impl) :
    Except PipelineError Unit × Impl :=
  if impl.state = .stopped then
    (.ok (),
      { impl with
        state := .running
        everStarted := true
        created := impl.created ++ components config })
  else (.error ⟨.alreadyRunning, "pipeline is not stopped"⟩, impl)

/-- `Pipeline::submit`, and `Pipeline::submit_sync` without its wait.  The flag
is the answer of the rate limiter. -/
def submit (granted : Bool) (impl : Impl) : Impl :=
  if impl.state = .running then
    let impl := impl.use .router
    if granted then
      let impl := impl.use .router
      { impl with pending := impl.pending + 1 }.use .router
    else impl
  else impl

/-- `Pipeline::submit_sync`.  The flag `stopRequested` is the test of the stop
token on entry. -/
def submitSync (stopRequested granted : Bool) (impl : Impl) : Impl :=
  if stopRequested then impl else submit granted impl

/-- The components that `run_event` dereferences when it goes to its end. -/
def runEvent (impl : Impl) : Impl :=
  ((((({ impl with pending := impl.pending - 1 }.use .ingest).useIfCreated
    .eval).useIfCreated .inference).useIfCreated .policy).use .emit)

/-- `Pipeline::drain`.  A coroutine that has not run when the pool is stopped
never runs. -/
def drain (impl : Impl) : Impl :=
  { impl.use .router with
    state := .stopped
    pending := 0 }

/-- `Pipeline::~Pipeline`. -/
def destroy (impl : Impl) : Impl :=
  if impl.state = .running then drain impl else impl

/-- A public call, or the run of a coroutine. -/
inductive Call
  | start
  | submit (granted : Bool)
  | submitSync (stopRequested granted : Bool)
  | runEvent
  | drain
  | destroy
  deriving DecidableEq, Repr

/-- A pipeline object. -/
structure Object where
  impl : Impl := {}
  destroyed : Bool := false
  deriving DecidableEq

/-- One call, as long as the object lives. -/
def step (config : PipelineConfig) (object : Object) (call : Call) :
    Option Object :=
  if object.destroyed then none
  else
    match call with
    | .start => some { object with impl := (start config object.impl).2 }
    | .submit granted =>
        some { object with impl := submit granted object.impl }
    | .submitSync stopRequested granted =>
        some { object with
          impl := submitSync stopRequested granted object.impl }
    | .runEvent =>
        if object.impl.pending = 0 then none
        else some { object with impl := runEvent object.impl }
    | .drain => some { object with impl := drain object.impl }
    | .destroy => some { impl := destroy object.impl, destroyed := true }

/-- The call is a `start`. -/
def Call.starts : Call → Bool
  | .start => true
  | _ => false

/-- The call is a `drain`. -/
def Call.drains : Call → Bool
  | .drain => true
  | _ => false

/-! ### What a call needs and does -/

namespace Impl

/-- The components are there once the pipeline has been started; before that
there is nothing that could use one. -/
structure Sound (impl : Impl) : Prop where
  started : impl.everStarted = true →
    .router ∈ impl.created ∧ .ingest ∈ impl.created ∧ .emit ∈ impl.created
  fresh : impl.everStarted = false →
    impl.created = [] ∧ impl.state = .stopped ∧ impl.pending = 0

/-- The call keeps the components sound, marks the pipeline as started if it
does so, and finds every component if it needs none or the pipeline has been
started. -/
structure Effect (needs does : Bool) (impl next : Impl) : Prop where
  sound : next.Sound
  marks : next.everStarted = (impl.everStarted || does)
  clean : next.missing = [] ↔
    impl.missing = [] ∧ (needs = true → impl.everStarted = true)

theorem sound_initial : ({} : Impl).Sound := by
  constructor <;> simp

/-- A pipeline that is not stopped has been started. -/
theorem Sound.everStarted_of_state
    {impl : Impl}
    (sound : impl.Sound)
    (notStopped : impl.state ≠ .stopped) :
    impl.everStarted = true := by
  cases started : impl.everStarted with
  | true => rfl
  | false => exact absurd (sound.fresh started).2.1 notStopped

theorem use_of_mem
    {component : Component}
    {impl : Impl}
    (created : component ∈ impl.created) :
    impl.use component = impl :=
  if_pos created

@[simp] theorem useIfCreated_eq (component : Component) (impl : Impl) :
    impl.useIfCreated component = impl := by
  unfold useIfCreated
  split
  next created => exact use_of_mem created
  next => rfl

/-- A call that leaves a sound pipeline as it is. -/
theorem Sound.unchanged
    {impl : Impl}
    (sound : impl.Sound) :
    Effect false false impl impl :=
  ⟨sound, by simp, by simp⟩

/-- A call that only moves the state or the coroutines of a started pipeline. -/
theorem Sound.moved
    {impl : Impl}
    (sound : impl.Sound)
    (isStarted : impl.everStarted = true)
    (state : PipelineState)
    (pending : Nat) :
    Effect false false impl { impl with state, pending } := by
  refine ⟨⟨fun _ => sound.started isStarted, ?_⟩, by simp, by simp⟩
  simp [isStarted]

/-- One effect after another that needs nothing. -/
theorem Effect.andThen
    {needs does : Bool}
    {impl middle next : Impl}
    (first : Effect needs does impl middle)
    (second : Effect false false middle next) :
    Effect needs does impl next := by
  refine ⟨second.sound, ?_, ?_⟩
  · rw [second.marks, first.marks, Bool.or_false]
  · rw [second.clean, first.clean]
    simp

end Impl

open Impl

theorem start_effect
    {impl : Impl}
    (config : PipelineConfig)
    (sound : impl.Sound) :
    Effect false true impl (start config impl).2 := by
  unfold start
  split
  next isStopped =>
    refine ⟨⟨fun _ => ?_, by simp⟩, by simp, by simp⟩
    simp [components]
  next notStopped =>
    have isStarted := sound.everStarted_of_state notStopped
    exact ⟨sound, by simp [isStarted], by simp⟩

/-- `start` succeeds exactly on a stopped pipeline. -/
theorem start_ok_iff
    (config : PipelineConfig)
    (impl : Impl) :
    (start config impl).1 = .ok () ↔ impl.state = .stopped := by
  unfold start
  split
  next isStopped => simp [isStopped]
  next notStopped => simp [notStopped]

theorem submit_effect
    {impl : Impl}
    (granted : Bool)
    (sound : impl.Sound) :
    Effect false false impl (submit granted impl) := by
  unfold submit
  split
  next isRunning =>
    have isStarted := sound.everStarted_of_state (by simp [isRunning])
    have router := (sound.started isStarted).1
    dsimp only
    rw [use_of_mem router, use_of_mem router]
    split
    next =>
      rw [use_of_mem (by simpa using router)]
      exact sound.moved isStarted impl.state (impl.pending + 1)
    next => exact sound.unchanged
  next => exact sound.unchanged

theorem submitSync_effect
    {impl : Impl}
    (stopRequested granted : Bool)
    (sound : impl.Sound) :
    Effect false false impl (submitSync stopRequested granted impl) := by
  unfold submitSync
  split
  next => exact sound.unchanged
  next => exact submit_effect granted sound

theorem runEvent_effect
    {impl : Impl}
    (sound : impl.Sound)
    (spawned : impl.pending ≠ 0) :
    Effect false false impl (runEvent impl) := by
  have isStarted : impl.everStarted = true := by
    cases started : impl.everStarted with
    | true => rfl
    | false => exact absurd (sound.fresh started).2.2 spawned
  obtain ⟨-, ingest, emit⟩ := sound.started isStarted
  have moved := sound.moved isStarted impl.state (impl.pending - 1)
  have useIngest :
      ({ impl with pending := impl.pending - 1 } : Impl).use .ingest =
        { impl with pending := impl.pending - 1 } :=
    use_of_mem ingest
  have useEmit :
      ({ impl with pending := impl.pending - 1 } : Impl).use .emit =
        { impl with pending := impl.pending - 1 } :=
    use_of_mem emit
  unfold runEvent
  rw [useIngest, useIfCreated_eq, useIfCreated_eq, useIfCreated_eq, useEmit]
  exact moved

/-- A drain needs a start before it. -/
theorem drain_effect
    {impl : Impl}
    (sound : impl.Sound) :
    Effect true false impl (drain impl) := by
  unfold drain
  cases isStarted : impl.everStarted with
  | true =>
      rw [use_of_mem (sound.started isStarted).1]
      have moved := sound.moved isStarted .stopped 0
      refine ⟨moved.sound, moved.marks, ?_⟩
      simp [isStarted]
  | false =>
      obtain ⟨nothing, -, -⟩ := sound.fresh isStarted
      refine ⟨⟨?_, ?_⟩, ?_, ?_⟩ <;> simp [use, nothing, isStarted]

theorem destroy_effect
    {impl : Impl}
    (sound : impl.Sound) :
    Effect false false impl (destroy impl) := by
  unfold destroy
  split
  next isRunning =>
    have isStarted := sound.everStarted_of_state (by simp [isRunning])
    have drained := drain_effect sound
    refine ⟨drained.sound, drained.marks, ?_⟩
    rw [drained.clean]
    simp [isStarted]
  next => exact sound.unchanged

/-- Every step has the effect of its call. -/
theorem step_effect
    {config : PipelineConfig}
    {object next : Object}
    {call : Call}
    (sound : object.impl.Sound)
    (stepped : step config object call = some next) :
    Effect call.drains call.starts object.impl next.impl := by
  unfold step at stepped
  split at stepped
  next => cases stepped
  next =>
    cases call with
    | start =>
        cases stepped
        exact start_effect config sound
    | submit granted =>
        cases stepped
        exact submit_effect granted sound
    | submitSync stopRequested granted =>
        cases stepped
        exact submitSync_effect stopRequested granted sound
    | runEvent =>
        dsimp only at stepped
        split at stepped
        next => cases stepped
        next spawned =>
          have effect := runEvent_effect sound spawned
          rw [Option.some.injEq] at stepped
          rw [← stepped]
          exact effect
    | drain =>
        cases stepped
        exact drain_effect sound
    | destroy =>
        cases stepped
        exact destroy_effect sound

/-- When every step has the effect of its action on the pipeline, nothing is
found missing in a run exactly when all that needs a start comes after one. -/
theorem missing_nil_iff
    {σ α : Type}
    {step : σ → α → Option σ}
    {pipeline : σ → Impl}
    {does needs : α → Bool}
    (effect : ∀ state action next,
      (pipeline state).Sound → step state action = some next →
        Effect (needs action) (does action) (pipeline state) (pipeline next))
    {state final : σ}
    {actions : List α}
    (fresh : pipeline state = {})
    (ran : Machine.run step state actions = some final) :
    (pipeline final).missing = [] ↔
      Machine.Follows does needs false actions := by
  have preserved : ∀ state action next, (pipeline state).Sound →
      step state action = some next → (pipeline next).Sound := by
    intro state action next sound stepped
    exact (effect state action next sound stepped).sound
  have marks : ∀ state action next, (pipeline state).Sound →
      step state action = some next →
        (pipeline next).everStarted =
          ((pipeline state).everStarted || does action) := by
    intro state action next sound stepped
    exact (effect state action next sound stepped).marks
  have exactStep : ∀ state action next, (pipeline state).Sound →
      step state action = some next →
        ((pipeline next).missing = [] ↔ (pipeline state).missing = [] ∧
          (needs action = true → (pipeline state).everStarted = true)) := by
    intro state action next sound stepped
    exact (effect state action next sound stepped).clean
  rw [Machine.run_clean_iff preserved marks exactStep
    (fresh ▸ sound_initial) ran, fresh]
  simp

end LifecycleCalls
end Pipeline
end Fre
