import Fre.Foundation.Handlers
import Fre.Foundation.Json
import Fre.Pipeline.Dispatch
import Fre.Service.Harness
import Fre.Service.HttpRequest
import Fre.Service.RedirectHint

/-!
# The connections of the service

`handle_connection` reads one request from its socket, answers it and closes
the socket.  Of what can be thrown on the way, only an error of the JSON parser
is turned into an answer; everything else is caught at the end, when nothing
has been written.  The client has sent its whole text and does not send more;
the JSON library, the clock and the threads of the pool are parameters.
-/

namespace Fre
namespace Service
namespace Connection

open Foundation Handlers Pipeline Sharding

/-- What is thrown: `json::parse_error`, or another `std::exception`. -/
inductive Exception
  | parseError (what : String)
  | other
  deriving DecidableEq, Repr

/-- `ServiceHarness::Impl`, with the router behind its pipeline. -/
structure Impl where
  harness : Harness.ServiceHarness
  router : TenantRouter
  pipelineId : String
  fleetRouter : Option FleetConfig

/-- What a connection meets: the JSON library, the clock at the calls of the
router, and whether the threads of the pool come to their end. -/
structure Environment where
  parse : String → Except Exception Json
  dump : Json → Except Exception String
  createdNs : UInt64 := 0
  nowNs : UInt64 := 0
  poolJoins : Bool := true

/-- Code that serves a connection. -/
abbrev Handler := Handlers.Handler Exception Impl String

/-! ### Answers -/

/-- `http_response`. -/
def httpResponse (status : Nat) (reason contentType body : String) : String :=
  "HTTP/1.1 " ++ (toString status ++ " " ++ reason ++ "\r\n" ++
    "Content-Type: " ++ contentType ++ "\r\n" ++
    "Content-Length: " ++ toString body.length ++ "\r\n" ++
    "Connection: close\r\n" ++ "\r\n" ++ body)

/-- The answer for a tenant of another instance. -/
def notOwnerResponse (hint : String) : String :=
  "HTTP/1.1 " ++ ("503 Service Unavailable\r\n" ++
    "Content-Type: text/plain\r\n" ++
    "Content-Length: 14\r\n" ++
    (if hint.isEmpty then "" else "X-Fre-Redirect-Hint: " ++ hint ++ "\r\n") ++
    "Connection: close\r\n\r\nnot owner here")

/-- `FleetRouter::topology_json`. -/
def topologyJson (config : FleetConfig) : String :=
  "\x7b" ++ "\"instance_id\":" ++ toString config.instanceId ++ "," ++
    "\"fleet_size\":" ++ toString config.fleetSize ++ "," ++
    "\"instances_per_tenant\":" ++ toString config.instancesPerTenant ++ "\x7d"

/-- The name of a state in the answer to `GET /health`. -/
def stateStr : Lifecycle.PipelineState → String
  | .stopped => "stopped"
  | .starting => "starting"
  | .running => "running"
  | .draining => "draining"

/-- The document of `GET /health`. -/
def health (impl : Impl) : Json :=
  .object
    [("state", .string (stateStr impl.harness.pipeline.state)),
      ("pipeline", .string impl.pipelineId),
      ("degraded", .boolean false)]

/-- The document of `POST /pipeline/drain`. -/
def drained : Json := .object [("status", .string "drained")]

/-! ### Events -/

/-- `Error`, with the alternatives that `submit` returns. -/
inductive Error
  | rateLimit (error : RateLimitError)
  | pipeline (error : PipelineError)
  deriving DecidableEq, Repr

/-- `error_message`. -/
def Error.message : Error → String
  | .rateLimit error => error.message
  | .pipeline error => error.message

/-- `Pipeline::submit`.  It does not return when the cells of the tenant cannot
be assigned, and is not defined when there are none. -/
def submit (environment : Environment) (event : Event) :
    Handler (Except Error Unit) := do
  let impl ← getState
  if impl.harness.pipeline.state ≠ .running then
    return .error (.pipeline
      ⟨.notRunning, "pipeline must be running to submit events"⟩)
  else
    let (tenant, router) ← ofOption
      (impl.router.getOrCreateTenant event.tenantId environment.createdNs)
    let acquire := tenant.tryAcquire event.tenantId environment.nowNs
    let router := router.setTenant event.tenantId acquire.2
    match acquire.1 with
    | .error error =>
        setState { impl with
          harness := Harness.handleConnection impl.harness (.events false)
          router := router }
        return .error (.rateLimit error)
    | .ok _ =>
        let (tenant, router) ← ofOption
          (router.getOrCreateTenant event.tenantId environment.createdNs)
        let strands ← ofOption (Dispatch.cellPtrs router tenant.cellIndices)
        let _ ← ofOption strands.head?
        setState { impl with
          harness := Harness.handleConnection impl.harness (.events true)
          router := router.setTenant event.tenantId tenant.release }
        return .ok ()

/-- A string of a document, or the default when it has none. -/
def stringValue (json : Json) (key default : String) :
    Except Exception String :=
  (json.value Json.getString key default).mapError fun _ => .other

/-- `FleetRouter::owns`, if there is a fleet. -/
def Impl.owns (impl : Impl) (tenantId : String) : Option Bool :=
  match impl.fleetRouter with
  | none => some true
  | some config =>
      FleetRouter.owns impl.router.hash impl.router.fuel config tenantId

/-- `FleetRouter::redirect_hint`, if there is a fleet. -/
def Impl.redirectHint (impl : Impl) (tenantId : String) :
    Option String :=
  match impl.fleetRouter with
  | none => some ""
  | some config =>
      FleetRouter.redirectHint impl.router.hash impl.router.fuel config
        tenantId

/-- The answer to an event that has been read: the gate of the fleet, and the
call of `submit`. -/
def answerEvent (environment : Environment) (event : Event) : Handler Unit := do
  let impl ← getState
  let owned ← ofOption (impl.owns event.tenantId)
  if !owned then
    let hint ← ofOption (impl.redirectHint event.tenantId)
    write (notOwnerResponse hint)
  else
    let result ← submit environment event
    match result with
    | .ok _ => write (httpResponse 202 "Accepted" "text/plain" "")
    | .error error =>
        write (httpResponse 503 "Service Unavailable" "text/plain"
          error.message)

/-- The handler of exceptions around `POST /events`, for `json::parse_error`
only. -/
def catchParseError : Exception → Handler Unit
  | .parseError what => write (httpResponse 400 "Bad Request" "text/plain" what)
  | .other => throw .other

/-- `POST /events`. -/
def postEvents (environment : Environment) (body : String) : Handler Unit :=
  tryCatch (do
      let json ← ofExcept (environment.parse body)
      let tenantId ← ofExcept (stringValue json "tenant_id" "")
      let entityId ← ofExcept (stringValue json "entity_id" "")
      let eventType ← ofExcept (stringValue json "event_type" "event")
      answerEvent environment { tenantId, entityId, eventType })
    catchParseError

/-! ### The other requests -/

/-- `GET /topology`. -/
def getTopology : Handler Unit := do
  let impl ← getState
  let body :=
    match impl.fleetRouter with
    | some config => topologyJson config
    | none => "\x7b\"fleet_routing\":\"disabled\"\x7d"
  write (httpResponse 200 "OK" "application/json" body)

/-- `GET /health`. -/
def getHealth (environment : Environment) : Handler Unit := do
  let impl ← getState
  let body ← ofExcept (environment.dump (health impl))
  write (httpResponse 200 "OK" "application/json" body)

/-- `POST /pipeline/drain`.  `drain` waits at most for its deadline and then for
the threads of the pool. -/
def postDrain (environment : Environment) : Handler Unit := do
  let impl ← getState
  setState { impl with harness.running := false }
  ofOption (if environment.poolJoins then some () else none)
  setState { impl with
    harness := Harness.handleConnection impl.harness .drain }
  let body ← ofExcept (environment.dump drained)
  write (httpResponse 200 "OK" "application/json" body)

/-- The answer to a request that has been read. -/
def dispatch (environment : Environment) (request : HttpRequest) :
    Handler Unit :=
  if request.method = "POST" ∧ request.path = "/events" then
    postEvents environment request.body
  else if request.method = "GET" ∧ request.path = "/topology" then getTopology
  else if request.method = "GET" ∧ request.path = "/health" then
    getHealth environment
  else if request.method = "POST" ∧ request.path = "/pipeline/drain" then
    postDrain environment
  else write (httpResponse 404 "Not Found" "text/plain" "not found")

/-- A request with the body that follows its head on the socket. -/
def withBody (request : HttpRequest) (rest : List Char) : HttpRequest :=
  if 0 < request.contentLength then
    let needed := request.contentLength.toInt.toNat
    { request with body := String.ofList (rest.take needed) }
  else request

/-- The answer to a request whose head has been read. -/
def answerRequest
    (environment : Environment)
    (rawHeaders rest : List Char) : Handler Unit := do
  let parsed ← ofExcept
    ((HttpRequest.parseRequest rawHeaders).mapError fun _ => .other)
  match parsed with
  | none => write (httpResponse 400 "Bad Request" "text/plain" "bad request")
  | some request => dispatch environment (withBody request rest)

/-- The empty line that ends the head of a request. -/
def headEnd : List Char := ['\r', '\n', '\r', '\n']

/-- `ServiceHarness::Impl::handle_connection` on what the client sends. -/
def handleConnection (environment : Environment) (text : List Char) :
    Handler Unit :=
  tryCatch (match Lines.readUntil headEnd text with
      | none => return ()
      | some (rawHeaders, rest) => answerRequest environment rawHeaders rest)
    fun _ => return ()

/-! ### Requests that are answered -/

/-- The text is one of an HTTP response. -/
def IsResponse (text : String) : Prop := ∃ rest, text = "HTTP/1.1 " ++ rest

/-- Exactly one response was written. -/
def OneResponse (session : Session Impl String) : Prop :=
  ∃ response, session.written = [response] ∧ IsResponse response

/-- `handle_connection` returns and has written exactly one response. -/
def AnsweredOnce
    (environment : Environment)
    (impl : Impl)
    (text : List Char) : Prop :=
  Ends (handleConnection environment text) ⟨impl, []⟩
    (fun _ after => OneResponse after) (fun _ _ => False)

/-- The document is an object, and the entry, if there is one, is a string. -/
def StringMember (json : Json) (key : String) : Prop :=
  ∃ entries, json = .object entries ∧
    ∀ found, entries.lookup key = some found → ∃ text, found = .string text

/-- The tenant of a document. -/
def tenantOf (json : Json) : String :=
  match json.entry "tenant_id" with
  | some (.string text) => text
  | _ => ""

/-- A call of `submit` returns: the pipeline is not running, or the cells of the
tenant can be assigned and there is one of them if the call is granted. -/
def Submits
    (environment : Environment)
    (impl : Impl)
    (tenantId : String) : Prop :=
  impl.harness.pipeline.state = .running →
    ∃ tenant router,
      impl.router.getOrCreateTenant tenantId environment.createdNs =
        some (tenant, router) ∧
      ((tenant.tryAcquire tenantId environment.nowNs).1 = .ok () →
        ∃ strand others, Dispatch.cellPtrs impl.router tenant.cellIndices =
          some (strand :: others))

/-- The body of `POST /events` is not a JSON text, or it is an object with
strings whose tenant can be looked up and submitted. -/
def EventsAnswerable
    (environment : Environment)
    (impl : Impl)
    (body : String) : Prop :=
  (∃ what, environment.parse body = .error (.parseError what)) ∨
    ∃ json, environment.parse body = .ok json ∧
      (∀ key ∈ ["tenant_id", "entity_id", "event_type"],
        StringMember json key) ∧
      ∃ owned, impl.owns (tenantOf json) = some owned ∧
        (owned = true → Submits environment impl (tenantOf json))

/-- What a request asks for comes to an end. -/
structure Serves
    (environment : Environment)
    (impl : Impl)
    (line : String × String)
    (body : String) : Prop where
  events : line = ("POST", "/events") → EventsAnswerable environment impl body
  health : line = ("GET", "/health") →
    ∃ text, environment.dump (health impl) = .ok text
  drain : line = ("POST", "/pipeline/drain") →
    environment.poolJoins = true ∧ ∃ text, environment.dump drained = .ok text

/-- Every length in the head is a number, and what the request asks for comes
to an end. -/
structure Answerable
    (environment : Environment)
    (impl : Impl)
    (head rest : List Char) : Prop where
  numbers : ∀ value ∈ HttpRequest.lengthValues head,
    ∃ blanks sign digits after,
      Stoi.StartsWithInt value blanks sign digits after
  serves : Serves environment impl (HttpRequest.requestLine head)
    (String.ofList (rest.take (HttpRequest.declaredLength head).toInt.toNat))

/-! ### The router behind `submit` -/

section Router

variable {router next : TenantRouter}
variable {tenantId : String}
variable {createdNs : UInt64}
variable {tenant : TenantState}

/-- A tenant that was just written is found. -/
theorem getOrCreateTenant_setTenant :
    (router.setTenant tenantId tenant).getOrCreateTenant tenantId createdNs =
      some (tenant, router.setTenant tenantId tenant) := by
  simp [TenantRouter.getOrCreateTenant, TenantRouter.setTenant]

theorem cellPtrs_setTenant (cells : List UInt32) :
    Dispatch.cellPtrs (router.setTenant tenantId tenant) cells =
      Dispatch.cellPtrs router cells := rfl

/-- The strands do not depend on the tenants. -/
theorem cellPtrs_getOrCreateTenant
    (found : router.getOrCreateTenant tenantId createdNs = some (tenant, next))
    (cells : List UInt32) :
    Dispatch.cellPtrs next cells = Dispatch.cellPtrs router cells := by
  unfold TenantRouter.getOrCreateTenant at found
  split at found
  next =>
    cases found
    rfl
  next =>
    obtain ⟨state, -, same⟩ := Option.map_eq_some_iff.mp found
    cases same
    rfl

end Router

/-! ### The handlers -/

theorem isResponse_httpResponse
    (status : Nat)
    (reason contentType body : String) :
    IsResponse (httpResponse status reason contentType body) :=
  ⟨_, rfl⟩

theorem isResponse_notOwnerResponse (hint : String) :
    IsResponse (notOwnerResponse hint) :=
  ⟨_, rfl⟩

theorem not_oneResponse_nil (impl : Impl) : ¬ OneResponse ⟨impl, []⟩ := by
  rintro ⟨response, impossible, -⟩
  cases impossible

/-- A response in a fresh session is the only one. -/
theorem oneResponse_singleton
    {impl : Impl}
    {response : String}
    (isResponse : IsResponse response) :
    OneResponse ⟨impl, [] ++ [response]⟩ :=
  ⟨response, rfl, isResponse⟩

/-- The handler returns or throws with exactly one response. -/
def Answers (handler : Handler Unit) (impl : Impl) : Prop :=
  Ends handler ⟨impl, []⟩ (fun _ after => OneResponse after)
    (fun _ after => OneResponse after)

section Handlers

variable {environment : Environment}
variable {impl : Impl}

theorem answers_write
    {response : String}
    (isResponse : IsResponse response) :
    Answers (write response) impl :=
  oneResponse_singleton isResponse

theorem answers_getTopology : Answers getTopology impl := by
  simp only [Answers, getTopology, ends_bind, ends_getState]
  exact answers_write (isResponse_httpResponse 200 _ _ _)

theorem answers_getHealth_iff :
    Answers (getHealth environment) impl ↔
      ∃ text, environment.dump (health impl) = .ok text := by
  simp only [Answers, getHealth, ends_bind, ends_getState, ends_ofExcept,
    not_oneResponse_nil, and_false, exists_false, or_false]
  refine exists_congr fun text => and_iff_left ?_
  exact answers_write (isResponse_httpResponse 200 _ _ _)

theorem answers_postDrain_iff :
    Answers (postDrain environment) impl ↔
      environment.poolJoins = true ∧
        ∃ text, environment.dump drained = .ok text := by
  simp only [Answers, postDrain, ends_bind, ends_getState, ends_setState,
    ends_ofOption, ends_ofExcept, not_oneResponse_nil, and_false, exists_false,
    or_false]
  cases environment.poolJoins with
  | false => simp
  | true =>
      simp only [if_true, true_and, exists_const]
      refine exists_congr fun text => and_iff_left ?_
      exact answers_write (isResponse_httpResponse 200 _ _ _)

/-- A call of `submit` that returns has written nothing. -/
theorem ends_submit_iff
    {event : Event}
    {returned : Except Error Unit → Session Impl String → Prop}
    {thrown : Exception → Session Impl String → Prop}
    (answered : ∀ result impl, returned result ⟨impl, []⟩) :
    Ends (submit environment event) ⟨impl, []⟩ returned thrown ↔
      Submits environment impl event.tenantId := by
  unfold submit Submits
  simp only [ends_bind, ends_getState]
  by_cases running : impl.harness.pipeline.state = .running
  · simp only [running, ne_eq, not_true_eq_false, if_false, forall_const,
      ends_bind, ends_ofOption]
    rw [Prod.exists]
    refine exists_congr fun tenant => exists_congr fun router =>
      and_congr_right fun found => ?_
    have sameStrands := cellPtrs_getOrCreateTenant found
    cases acquire : (tenant.tryAcquire event.tenantId environment.nowNs).1 with
    | error error =>
        simp only [ends_bind, ends_setState, ends_pure, answered,
          reduceCtorEq, false_implies]
    | ok _ =>
        simp only [ends_bind, ends_ofOption, getOrCreateTenant_setTenant,
          ends_setState, ends_pure, answered, Option.some.injEq,
          exists_eq_left', and_true, Dispatch.cellIndices_tryAcquire,
          cellPtrs_setTenant, sameStrands, true_implies]
        constructor
        · rintro ⟨strands, cells, strand, first⟩
          obtain ⟨others, rfl⟩ := List.head?_eq_some_iff.mp first
          exact ⟨strand, others, cells⟩
        · rintro ⟨strand, others, cells⟩
          exact ⟨strand :: others, cells, strand, rfl⟩
  · simp only [running, ne_eq, not_false_eq_true, if_true, ends_pure, answered,
      false_implies]

/-- A string can be read exactly when the document is an object that has a
string or nothing there. -/
theorem exists_stringValue_iff (json : Json) (key default : String) :
    (∃ text, stringValue json key default = .ok text) ↔ StringMember json key := by
  unfold stringValue StringMember Json.value
  cases json with
  | object entries =>
      simp only [Json.object.injEq, exists_eq_left']
      cases found : entries.lookup key with
      | none => simp [Except.mapError]
      | some member =>
          cases member <;> simp [Json.getString, Except.mapError]
  | null => simp [Except.mapError]
  | boolean value => simp [Except.mapError]
  | integer value => simp [Except.mapError]
  | float value => simp [Except.mapError]
  | string value => simp [Except.mapError]
  | array elements => simp [Except.mapError]

theorem tenantOf_eq
    {json : Json}
    {tenantId : String}
    (read : stringValue json "tenant_id" "" = .ok tenantId) :
    tenantOf json = tenantId := by
  obtain ⟨entries, rfl, strings⟩ :=
    (exists_stringValue_iff json "tenant_id" "").mp ⟨tenantId, read⟩
  unfold stringValue Json.value at read
  unfold tenantOf Json.entry
  cases found : entries.lookup "tenant_id" with
  | none =>
      simp only [found] at read ⊢
      cases read
      rfl
  | some member =>
      obtain ⟨text, rfl⟩ := strings member found
      simp only [found] at read ⊢
      cases read
      rfl

/-- What is thrown while a string is read is not an error of the parser. -/
theorem stringValue_error
    {json : Json}
    {key default : String}
    {exception : Exception}
    (read : stringValue json key default = .error exception) :
    exception = .other := by
  unfold stringValue at read
  cases value : json.value Json.getString key default with
  | ok text =>
      rw [value] at read
      cases read
  | error what =>
      rw [value] at read
      cases read
      rfl

/-- The hint needs the same assignment as the test for the owner. -/
theorem exists_redirectHint
    {tenantId : String}
    {owned : Bool}
    (returned : impl.owns tenantId = some owned) :
    ∃ hint, impl.redirectHint tenantId = some hint := by
  unfold Impl.owns at returned
  unfold Impl.redirectHint
  cases fleet : impl.fleetRouter with
  | none => exact ⟨"", rfl⟩
  | some config =>
      simp only [fleet, FleetRouter.owns] at returned
      simp only [FleetRouter.redirectHint]
      split
      next => exact ⟨"", rfl⟩
      next listed =>
        split at returned
        next alone => exact absurd (by simp [alone]) listed
        next =>
          obtain ⟨owners, assigned, -⟩ := Option.map_eq_some_iff.mp returned
          rw [assigned]
          exact ⟨_, rfl⟩

/-- An event is answered exactly when its tenant can be looked up and
submitted. -/
theorem ends_answerEvent_iff
    {event : Event}
    {thrown : Exception → Session Impl String → Prop} :
    Ends (answerEvent environment event) ⟨impl, []⟩
        (fun _ after => OneResponse after) thrown ↔
      ∃ owned, impl.owns event.tenantId = some owned ∧
        (owned = true → Submits environment impl event.tenantId) := by
  simp only [answerEvent, ends_bind, ends_getState, ends_ofOption]
  refine exists_congr fun owned => and_congr_right fun returned => ?_
  cases owned with
  | false =>
      obtain ⟨hint, hinted⟩ := exists_redirectHint returned
      simp only [Bool.not_false, if_true, ends_bind, ends_ofOption, hinted,
        Option.some.injEq, exists_eq_left', reduceCtorEq, false_implies, iff_true]
      exact oneResponse_singleton (isResponse_notOwnerResponse hint)
  | true =>
      simp only [Bool.not_true, Bool.false_eq_true, if_false, ends_bind,
        true_implies]
      refine ends_submit_iff fun result impl => ?_
      cases result with
      | ok _ => exact oneResponse_singleton (isResponse_httpResponse 202 _ _ _)
      | error error =>
          exact oneResponse_singleton (isResponse_httpResponse 503 _ _ _)

/-- Only an error of the parser is answered when it is caught. -/
theorem answers_catchParseError_iff (exception : Exception) :
    Answers (catchParseError exception) impl ↔
      ∃ what, exception = .parseError what := by
  cases exception with
  | parseError what =>
      have written : Answers (catchParseError (.parseError what)) impl :=
        answers_write (isResponse_httpResponse 400 _ _ _)
      simp [written]
  | other =>
      have nothing : ¬ Answers (catchParseError .other) impl :=
        not_oneResponse_nil impl
      simp [nothing]

/-- A string that cannot be read is not answered. -/
theorem ends_stringValue_iff
    {json : Json}
    {key default : String}
    {returned : String → Session Impl String → Prop} :
    Ends (ofExcept (stringValue json key default)) ⟨impl, []⟩ returned
        (fun exception after => Ends (catchParseError exception) after
          (fun _ after => OneResponse after)
          (fun _ after => OneResponse after)) ↔
      ∃ text, stringValue json key default = .ok text ∧
        returned text ⟨impl, []⟩ := by
  rw [ends_ofExcept]
  refine or_iff_left ?_
  rintro ⟨exception, read, caught⟩
  rw [stringValue_error read] at caught
  exact not_oneResponse_nil impl caught

theorem answers_postEvents_iff (body : String) :
    Answers (postEvents environment body) impl ↔
      EventsAnswerable environment impl body := by
  unfold Answers postEvents EventsAnswerable
  simp only [ends_tryCatch, ends_bind]
  rw [ends_ofExcept, or_comm]
  simp only [ends_stringValue_iff, ends_answerEvent_iff]
  refine or_congr ?_ (exists_congr fun json => and_congr_right fun _ => ?_)
  · constructor
    · rintro ⟨exception, parsed, caught⟩
      obtain ⟨what, rfl⟩ := (answers_catchParseError_iff exception).mp caught
      exact ⟨what, parsed⟩
    · rintro ⟨what, parsed⟩
      exact ⟨_, parsed, (answers_catchParseError_iff _).mpr ⟨what, rfl⟩⟩
  · simp only [List.forall_mem_cons, List.not_mem_nil, false_implies,
      implies_true, and_true, ← exists_stringValue_iff json "tenant_id" "",
      ← exists_stringValue_iff json "entity_id" "",
      ← exists_stringValue_iff json "event_type" "event"]
    constructor
    · rintro ⟨tenantId, tenantRead, entityId, entityRead, eventType, typeRead,
        routed⟩
      rw [tenantOf_eq tenantRead]
      exact ⟨⟨⟨tenantId, tenantRead⟩, ⟨entityId, entityRead⟩,
        ⟨eventType, typeRead⟩⟩, routed⟩
    · rintro ⟨⟨⟨tenantId, tenantRead⟩, ⟨entityId, entityRead⟩,
        ⟨eventType, typeRead⟩⟩, routed⟩
      rw [tenantOf_eq tenantRead] at routed
      exact ⟨tenantId, tenantRead, entityId, entityRead, eventType, typeRead,
        routed⟩

theorem serves_iff (line : String × String) (body : String) :
    Serves environment impl line body ↔
      (line = ("POST", "/events") →
        EventsAnswerable environment impl body) ∧
      (line = ("GET", "/health") →
        ∃ text, environment.dump (health impl) = .ok text) ∧
      (line = ("POST", "/pipeline/drain") → environment.poolJoins = true ∧
        ∃ text, environment.dump drained = .ok text) :=
  ⟨fun serves => ⟨serves.events, serves.health, serves.drain⟩,
    fun ⟨events, health, drain⟩ => ⟨events, health, drain⟩⟩

/-- A request is answered exactly when what it asks for comes to an end. -/
theorem answers_dispatch_iff (request : HttpRequest) :
    Answers (dispatch environment request) impl ↔
      Serves environment impl (request.method, request.path) request.body := by
  unfold dispatch
  simp only [serves_iff, Prod.mk.injEq]
  split
  next isEvents =>
    rw [answers_postEvents_iff]
    simp [isEvents]
  next notEvents =>
    split
    next isTopology =>
      simp [isTopology, answers_getTopology]
    next notTopology =>
      split
      next isHealth =>
        rw [answers_getHealth_iff]
        simp [isHealth]
      next notHealth =>
        split
        next isDrain =>
          rw [answers_postDrain_iff]
          simp [isDrain]
        next notDrain =>
          have written : Answers (write (httpResponse 404 "Not Found"
              "text/plain" "not found")) impl :=
            answers_write (isResponse_httpResponse 404 _ _ _)
          simp only [written, notEvents, notHealth, notDrain, false_implies,
            and_true]

/-- The body of a request is the part of the text that its head declares. -/
theorem body_withBody
    {head : List Char}
    {request : HttpRequest}
    (describes : HttpRequest.Describes head request)
    (rest : List Char) :
    (withBody request rest).body =
      String.ofList
        (rest.take (HttpRequest.declaredLength head).toInt.toNat) := by
  unfold withBody
  rw [describes.length]
  by_cases declared : 0 < HttpRequest.declaredLength head
  · rw [if_pos declared]
  · have none : (HttpRequest.declaredLength head).toInt.toNat = 0 := by
      rw [Int32.lt_iff_toInt_lt] at declared
      exact Int.toNat_of_nonpos (not_lt.mp declared)
    rw [if_neg declared, describes.body declared, none]
    rfl

theorem line_withBody
    {head : List Char}
    {request : HttpRequest}
    (describes : HttpRequest.Describes head request)
    (rest : List Char) :
    ((withBody request rest).method, (withBody request rest).path) =
      HttpRequest.requestLine head := by
  rw [← describes.line]
  unfold withBody
  split <;> rfl

end Handlers

/-- With numbers for the lengths, all depends on what the request asks for. -/
theorem answers_answerRequest_iff
    {environment : Environment}
    {impl : Impl}
    {head rest : List Char}
    (nonempty : head ≠ [])
    (numbers : HttpRequest.AreNumbers (HttpRequest.lengthValues head)) :
    Answers (answerRequest environment head rest) impl ↔
      Serves environment impl (HttpRequest.requestLine head) (String.ofList
        (rest.take (HttpRequest.declaredLength head).toInt.toNat)) := by
  obtain ⟨request, parsed, describes⟩ :=
    HttpRequest.parseRequest_of_numbers nonempty numbers
  rw [← body_withBody describes, ← line_withBody describes rest,
    ← answers_dispatch_iff]
  simp only [Answers, answerRequest, parsed, ends_bind, ends_ofExcept]
  simp [Except.mapError]

/-- A head with a length that is not a number is not answered. -/
theorem not_answers_of_not_numbers
    {environment : Environment}
    {impl : Impl}
    {head rest : List Char}
    (bad : ¬ HttpRequest.AreNumbers (HttpRequest.lengthValues head)) :
    ¬ Answers (answerRequest environment head rest) impl := by
  obtain ⟨failure, parsed⟩ := HttpRequest.parseRequest_of_not_numbers bad
  unfold Answers answerRequest
  rw [parsed, ends_bind, ends_ofExcept]
  rintro (⟨request, impossible, -⟩ | ⟨exception, -, answered⟩)
  · cases impossible
  · exact not_oneResponse_nil impl answered

/-- Whatever is thrown is caught, and then nothing more is written. -/
theorem answeredOnce_iff_answers
    {environment : Environment}
    {impl : Impl}
    {text head rest : List Char}
    (arrived : Lines.readUntil headEnd text = some (head, rest)) :
    AnsweredOnce environment impl text ↔
      Answers (answerRequest environment head rest) impl := by
  unfold AnsweredOnce handleConnection Answers
  rw [arrived]
  simp only [ends_tryCatch, ends_pure]

/-- Every request whose head has arrived is answered with exactly one response
if and only if the lengths in its head are numbers and what it asks for comes
to an end. -/
theorem answered_once_iff
    {environment : Environment}
    {impl : Impl}
    {text head rest : List Char}
    (arrived : Lines.readUntil headEnd text = some (head, rest)) :
    AnsweredOnce environment impl text ↔
      Answerable environment impl head rest := by
  have nonempty : head ≠ [] :=
    Lines.ne_nil_of_readUntil (List.cons_ne_nil _ _) arrived
  rw [answeredOnce_iff_answers arrived]
  by_cases numbers : HttpRequest.AreNumbers (HttpRequest.lengthValues head)
  · rw [answers_answerRequest_iff nonempty numbers]
    refine ⟨fun serves => ⟨fun value member => ?_, serves⟩,
      fun answerable => answerable.serves⟩
    exact (Stoi.exists_stoi_iff value).mp (numbers value member)
  · refine iff_of_false (not_answers_of_not_numbers numbers) fun answerable => ?_
    exact numbers fun value member =>
      (Stoi.exists_stoi_iff value).mpr (answerable.numbers value member)

/-- The head of a request with an event of 35 bytes. -/
def eventHead : List Char :=
  "POST /events HTTP/1.1\r\nContent-Length: 35\r\n\r\n".toList

/-- An event of the tenant `t1`. -/
def eventBody : String :=
  "\x7b\"tenant_id\":\"t1\",\"entity_id\":\"e1\"\x7d"

/-- The document of that event. -/
def eventJson : Json :=
  .object [("tenant_id", .string "t1"), ("entity_id", .string "e1")]

/-- A JSON library that knows the event. -/
def eventEnvironment : Environment where
  parse := fun text =>
    if text = eventBody then .ok eventJson
    else .error (.parseError "[json.exception.parse_error.101] parse error")
  dump := fun _ => .ok "\x7b\x7d"

/-- A service that was just started, without a fleet. -/
def runningImpl : Impl where
  harness := (Harness.start {} {} {}).2
  router := .create (fun _ => 0) 8 {} {}
  pipelineId := "test-service"
  fleetRouter := none

theorem eventsAnswerable_eventBody :
    EventsAnswerable eventEnvironment runningImpl eventBody := by
  have parsed : eventEnvironment.parse eventBody = .ok eventJson := by
    simp [eventEnvironment]
  refine .inr ⟨eventJson, parsed, ?_, true, rfl, fun _ _ => ?_⟩
  · simp only [List.forall_mem_cons, List.not_mem_nil, false_implies,
      implies_true, and_true]
    exact ⟨(exists_stringValue_iff _ _ "").mp ⟨"t1", rfl⟩,
      (exists_stringValue_iff _ _ "").mp ⟨"e1", rfl⟩,
      (exists_stringValue_iff _ _ "event").mp ⟨"event", rfl⟩⟩
  · exact ⟨_, _, rfl, fun _ => ⟨9, [15, 13, 8], by decide +kernel⟩⟩

/-- The event is answered. -/
theorem answered_once_event :
    Lines.readUntil headEnd (eventHead ++ eventBody.toList) =
        some (eventHead, eventBody.toList) ∧
      AnsweredOnce eventEnvironment runningImpl
        (eventHead ++ eventBody.toList) := by
  have arrived : Lines.readUntil headEnd (eventHead ++ eventBody.toList) =
      some (eventHead, eventBody.toList) := by decide +kernel
  have line : HttpRequest.requestLine eventHead = ("POST", "/events") := by
    decide +kernel
  have values : HttpRequest.lengthValues eventHead = [['3', '5']] := by
    decide +kernel
  have body : String.ofList (eventBody.toList.take
      (HttpRequest.declaredLength eventHead).toInt.toNat) = eventBody := by
    decide +kernel
  refine ⟨arrived, (answered_once_iff arrived).mpr ⟨?_, fun _ => ?_, ?_, ?_⟩⟩
  · rw [values, List.forall_mem_singleton, ← Stoi.exists_stoi_iff]
    exact ⟨35, by decide +kernel⟩
  · rw [body]
    exact eventsAnswerable_eventBody
  · simp [line]
  · simp [line]

/-- A request whose length is not a number. -/
def badLength : List Char :=
  "POST /events HTTP/1.1\r\nContent-Length: abc\r\n\r\n".toList

/-- The head of a request with a body of two bytes. -/
def shortHead : List Char :=
  "POST /events HTTP/1.1\r\nContent-Length: 2\r\n\r\n".toList

/-- A length that is not a number, and an array as the body, are not answered,
whatever the state of the service. -/
theorem bad_requests_unanswered :
    (∀ environment impl, ¬ AnsweredOnce environment impl badLength) ∧
      ∀ environment impl, environment.parse "[]" = .ok (.array []) →
        ¬ AnsweredOnce environment impl (shortHead ++ ['[', ']']) := by
  constructor
  · intro environment impl
    have arrived : Lines.readUntil headEnd badLength = some (badLength, []) := by
      decide +kernel
    have values : HttpRequest.lengthValues badLength = [['a', 'b', 'c']] := by
      decide +kernel
    rw [answeredOnce_iff_answers arrived]
    refine not_answers_of_not_numbers fun numbers => ?_
    obtain ⟨number, read⟩ := numbers ['a', 'b', 'c'] (by simp [values])
    cases read
  · intro environment impl parsed
    have arrived : Lines.readUntil headEnd (shortHead ++ ['[', ']']) =
        some (shortHead, ['[', ']']) := by
      decide +kernel
    have line : HttpRequest.requestLine shortHead = ("POST", "/events") := by
      decide +kernel
    have values : HttpRequest.lengthValues shortHead = [['2']] := by
      decide +kernel
    have body : String.ofList (['[', ']'].take
        (HttpRequest.declaredLength shortHead).toInt.toNat) = "[]" := by
      decide +kernel
    have numbers : HttpRequest.AreNumbers (HttpRequest.lengthValues shortHead) := by
      rw [HttpRequest.AreNumbers, values, List.forall_mem_singleton]
      exact ⟨2, by decide +kernel⟩
    rw [answeredOnce_iff_answers arrived,
      answers_answerRequest_iff (by decide +kernel) numbers, body]
    intro serves
    rcases serves.events line with ⟨what, failed⟩ | ⟨json, read, strings, -⟩
    · rw [parsed] at failed
      cases failed
    · rw [parsed] at read
      cases read
      obtain ⟨entries, impossible, -⟩ := strings "tenant_id" (by simp)
      cases impossible

end Connection
end Service
end Fre
