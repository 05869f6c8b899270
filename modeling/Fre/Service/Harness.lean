import Fre.Pipeline.LifecycleCalls

/-!
# The service harness

`ServiceHarness` owns a pipeline.  Its `start` starts the pipeline before it
opens the listener, so a failed start may leave the pipeline running; its `stop`
drains the pipeline whether or not it was ever started, and its destructor calls
`stop`.  A listening service also drains on request.
-/

namespace Fre
namespace Service
namespace Harness

open Foundation Pipeline LifecycleCalls

/-- Which of the calls that set up the listener succeed. -/
structure ListenOutcome where
  opened : Bool := true
  bound : Bool := true
  listening : Bool := true
  deriving DecidableEq, Repr

/-- What a connection asks of the pipeline: `POST /events`, with the answer of
the rate limiter, or `POST /pipeline/drain`. -/
inductive Request
  | events (granted : Bool)
  | drain
  deriving DecidableEq, Repr

/-- `ServiceHarness::Impl`. -/
structure ServiceHarness where
  pipeline : Impl := {}
  running : Bool := false
  acceptorOpen : Bool := false
  ioThread : Bool := false
  destroyed : Bool := false
  deriving DecidableEq

/-- `ServiceHarness::start`.  An acceptor that is open cannot be opened
again. -/
def start (config : PipelineConfig) (outcome : ListenOutcome)
    (harness : ServiceHarness) : Bool × ServiceHarness :=
  match LifecycleCalls.start config harness.pipeline with
  | (.error _, pipeline) => (false, { harness with pipeline })
  | (.ok _, pipeline) =>
      if harness.acceptorOpen || !outcome.opened then
        (false, { harness with pipeline })
      else if !outcome.bound || !outcome.listening then
        (false, { harness with pipeline, acceptorOpen := true })
      else
        (true,
          { harness with
            pipeline
            acceptorOpen := true
            running := true
            ioThread := true })

/-- `ServiceHarness::stop`. -/
def stop (harness : ServiceHarness) : ServiceHarness :=
  { harness with
    running := false
    acceptorOpen := false
    ioThread := false
    pipeline := drain harness.pipeline }

/-- `ServiceHarness::~ServiceHarness`, and the destructor of its pipeline. -/
def destroy (harness : ServiceHarness) : ServiceHarness :=
  { stop harness with
    pipeline := LifecycleCalls.destroy (stop harness).pipeline
    destroyed := true }

/-- The part of `handle_connection` that calls the pipeline. -/
def handleConnection (harness : ServiceHarness) : Request → ServiceHarness
  | .events granted =>
      { harness with pipeline := submit granted harness.pipeline }
  | .drain =>
      { harness with running := false, pipeline := drain harness.pipeline }

/-- A public call, a request, or the run of a coroutine. -/
inductive Call
  | start (outcome : ListenOutcome)
  | stop
  | destroy
  | request (request : Request)
  | runEvent
  deriving DecidableEq, Repr

/-- One call, as long as the harness lives.  Connections are accepted while the
harness is running. -/
def step (config : PipelineConfig) (harness : ServiceHarness) (call : Call) :
    Option ServiceHarness :=
  if harness.destroyed then none
  else
    match call with
    | .start outcome => some (start config outcome harness).2
    | .stop => some (stop harness)
    | .destroy => some (destroy harness)
    | .request request =>
        if harness.running then some (handleConnection harness request)
        else none
    | .runEvent =>
        if harness.pipeline.pending = 0 then none
        else some { harness with pipeline := runEvent harness.pipeline }

/-- The call is a `start`. -/
def Call.starts : Call → Bool
  | .start _ => true
  | _ => false

/-- The call drains the pipeline. -/
def Call.drains : Call → Bool
  | .stop => true
  | .destroy => true
  | .request .drain => true
  | _ => false

/-- However the listener comes out, the pipeline is started. -/
@[simp] theorem start_pipeline
    (config : PipelineConfig)
    (outcome : ListenOutcome)
    (harness : ServiceHarness) :
    (start config outcome harness).2.pipeline =
      (LifecycleCalls.start config harness.pipeline).2 := by
  unfold start
  split
  next started =>
    rw [started]
  next started =>
    rw [started]
    split
    · rfl
    · split <;> rfl

/-- Every step has the effect of its call on the pipeline. -/
theorem step_effect
    (config : PipelineConfig)
    (harness : ServiceHarness)
    (call : Call)
    (next : ServiceHarness)
    (sound : harness.pipeline.Sound)
    (stepped : step config harness call = some next) :
    Impl.Effect call.drains call.starts harness.pipeline next.pipeline := by
  unfold step at stepped
  split at stepped
  next => cases stepped
  next =>
    cases call with
    | start outcome =>
        cases stepped
        rw [start_pipeline]
        exact start_effect config sound
    | stop =>
        cases stepped
        exact drain_effect sound
    | destroy =>
        cases stepped
        have drained := drain_effect sound
        exact drained.andThen (destroy_effect drained.sound)
    | request request =>
        dsimp only at stepped
        split at stepped
        next =>
          cases stepped
          cases request with
          | events granted => exact submit_effect granted sound
          | drain => exact drain_effect sound
        next => cases stepped
    | runEvent =>
        dsimp only at stepped
        split at stepped
        next => cases stepped
        next spawned =>
          have effect := runEvent_effect sound spawned
          rw [Option.some.injEq] at stepped
          rw [← stepped]
          exact effect

/-- Lifecycle calls and missing components.  In every sequence of calls of a
pipeline, and of a service, nothing is found missing exactly when every drain
comes after a start; and `start` succeeds exactly on a stopped pipeline. -/
theorem nothing_missing_iff_drains_follow_starts
    (config : PipelineConfig) :
    (∀ calls final,
      Machine.run (LifecycleCalls.step config) {} calls = some final →
        (final.impl.missing = [] ↔
          Machine.Follows LifecycleCalls.Call.starts
            LifecycleCalls.Call.drains false calls)) ∧
      (∀ calls final, Machine.run (step config) {} calls = some final →
        (final.pipeline.missing = [] ↔
          Machine.Follows Call.starts Call.drains false calls)) ∧
      ∀ impl, (LifecycleCalls.start config impl).1 = .ok () ↔
        impl.state = .stopped := by
  refine ⟨?_, ?_, start_ok_iff config⟩
  · intro calls final ran
    exact missing_nil_iff
      (fun _ _ _ sound stepped => LifecycleCalls.step_effect sound stepped)
      rfl ran
  · intro calls final ran
    exact missing_nil_iff (step_effect config) rfl ran

/-- A service that cannot bind its port, is stopped and started again, takes an
event, and is destroyed. -/
def secondStart : List Call :=
  [.start { bound := false }, .stop, .start {}, .request (.events true),
    .runEvent, .destroy]

/-- Nothing is missing in that life. -/
theorem nothing_missing_secondStart :
    ∃ final, Machine.run (step {}) {} secondStart = some final ∧
      final.pipeline.missing = [] := by
  refine ⟨_, (Option.some_get (by decide)).symm, ?_⟩
  exact ((nothing_missing_iff_drains_follow_starts {}).2.1 secondStart _
    (Option.some_get (by decide)).symm).mpr (by decide)

/-- A harness that is destroyed without a start drains a pipeline without a
router; so does a `drain` of a pipeline that was never started. -/
theorem drain_without_start_misses_router :
    (∃ final, Machine.run (step {}) {} [.destroy] = some final ∧
      final.pipeline.missing = [.router]) ∧
      ∃ final, Machine.run (LifecycleCalls.step {}) {} [.drain] = some final ∧
        final.impl.missing = [.router] :=
  ⟨⟨_, rfl, by decide⟩, ⟨_, rfl, by decide⟩⟩

end Harness
end Service
end Fre
