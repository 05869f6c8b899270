import Fre.Service.Messages
import Fre.Service.Program

/-!
# Replies to a client

A client reads the head of a response, takes the status from its first line and
the length of the body and the addresses of the owners from its headers, and
then the body.  Whatever the threads of the program do, it reads what the
service has meant.
-/

namespace Fre
namespace Service
namespace Replies

open Foundation Framing HttpRequest Messages Strtod
open ConnectionThread (Position Response)
open Pipeline (PipelineConfig)

/-- The value of the first header with a name, which is in lower case. -/
def headerValue (name : List Char) (headers : List (List Char)) :
    Option (List Char) :=
  headers.findSome? fun line =>
    (splitHeader line).bind fun (found, value) =>
      if found = name then some value else none

/-- A number without a sign. -/
def readNumber (digits : List Char) : Option Nat :=
  if digits ≠ [] ∧ digits.all Char.isDigit = true then
    some (Nat.ofDigitChars 10 digits 0)
  else none

/-- What a client learns from a response: the status, the addresses of the
owners and the body. -/
structure Reply where
  status : Nat
  hint : Option (List Char) := none
  body : List Char
  deriving DecidableEq

/-- The length of the body in the head of a response. -/
def bodyLength (lines : List (List Char)) : Option Nat :=
  (headerValue "content-length".toList lines.tail).bind readNumber

/-- A client reads a response from a stream. -/
def readReply (stream : List Char) : Option Reply := do
  let (lines, body) ← readMessage '\r' '\n' bodyLength stream
  let status ← readNumber (readWord (readWord (lines.headD [])).2).1
  return {
    status
    hint := headerValue "x-fre-redirect-hint".toList lines.tail
    body }

theorem readNumber_toDigits (number : Nat) :
    readNumber (Nat.toDigits 10 number) = some number := by
  have digits : (Nat.toDigits 10 number).all Char.isDigit = true :=
    List.all_eq_true.mpr fun _ member =>
      Nat.isDigit_of_mem_toDigits (by decide) (by decide) member
  rw [readNumber, if_pos ⟨Nat.toDigits_ne_nil, digits⟩,
    Nat.ofDigitChars_toDigits (by decide) (by decide)]

@[simp] theorem headerValue_nil (wanted : List Char) :
    headerValue wanted [] = none :=
  rfl

theorem headerValue_cons
    {name : List Char}
    (free : ':' ∉ name)
    (wanted value : List Char)
    (headers : List (List Char)) :
    headerValue wanted (headerLine name value :: headers) =
      if name.map Char.toLower = wanted then some (value.dropWhile (· = ' '))
      else headerValue wanted headers := by
  by_cases named : name.map Char.toLower = wanted
  · simp [headerValue, splitHeader_headerLine free, named]
  · simp [headerValue, splitHeader_headerLine free, named]

/-- The body of a response. -/
def body : Response → String
  | .http _ _ _ body => body
  | .notOwner _ => "not owner here"

/-- The first line of a response. -/
def statusLine (status : Nat) (reason : String) : String :=
  "HTTP/1.1 " ++ (toString status ++ " " ++ reason)

/-- The lines of the head of a response after the first. -/
def headers (response : Response) : List (List Char) :=
  let length := Nat.toDigits 10 (body response).length
  match response with
  | .http _ _ contentType _ =>
      [headerLine "Content-Type".toList contentType.toList,
        headerLine "Content-Length".toList length,
        headerLine "Connection".toList "close".toList]
  | .notOwner hint =>
      [headerLine "Content-Type".toList "text/plain".toList,
        headerLine "Content-Length".toList length] ++
      (if hint.isEmpty then []
        else [headerLine "X-Fre-Redirect-Hint".toList hint.toList]) ++
      [headerLine "Connection".toList "close".toList]

/-- The lines of the head of a response. -/
def lines (response : Response) : List (List Char) :=
  match response with
  | .http status reason _ _ =>
      (statusLine status reason).toList :: headers response
  | .notOwner _ =>
      (statusLine 503 "Service Unavailable").toList :: headers response

/-- What a response says. -/
def reply : Response → Reply
  | .http status _ _ body => { status, body := body.toList }
  | .notOwner hint =>
      { status := 503
        hint :=
          if hint.isEmpty then none else some (hint.toList.dropWhile (· = ' '))
        body := "not owner here".toList }

/-- A response is a head and a body. -/
theorem toList_text (response : Response) :
    response.text.toList =
      writeHead '\r' '\n' (lines response) ++ (body response).toList := by
  have status : Nat.toDigits 10 503 = "503".toList := by decide
  have length : Nat.toDigits 10 "not owner here".length = "14".toList := by
    decide
  cases response with
  | http status reason contentType text =>
      simp [Response.text, Connection.httpResponse, lines, headers, body,
        statusLine, writeHead, headerLine]
  | notOwner hint =>
      by_cases noHint : hint = ""
      · simp [Response.text, Connection.notOwnerResponse, lines, headers, body,
          statusLine, writeHead, headerLine, noHint, status, length]
      · simp [Response.text, Connection.notOwnerResponse, lines, headers, body,
          statusLine, writeHead, headerLine, noHint, status, length]

/-- No part of the head of a response ends a line. -/
def Plain : Response → Prop
  | .http _ reason contentType _ =>
      '\n' ∉ reason.toList ∧ '\n' ∉ contentType.toList
  | .notOwner hint => '\n' ∉ hint.toList

theorem headLine_headerLine
    {name value : List Char}
    (nameFree : '\n' ∉ name)
    (valueFree : '\n' ∉ value) :
    HeadLine '\n' (headerLine name value) where
  nonempty := by simp [headerLine]
  free := by simp [headerLine, nameFree, valueFree]

theorem headLine_statusLine
    {reason : String}
    (free : '\n' ∉ reason.toList)
    (status : Nat) :
    HeadLine '\n' (statusLine status reason).toList where
  nonempty := by simp [statusLine]
  free := by
    have digits : '\n' ∉ Nat.toDigits 10 status :=
      Separators.not_mem_toDigits (by decide) status
    simp [statusLine, digits, free]

theorem headLine_lines
    {response : Response}
    (plain : Plain response) :
    ∀ line ∈ lines response, HeadLine '\n' line := by
  have length : HeadLine '\n' (headerLine "Content-Length".toList
      (Nat.toDigits 10 (body response).length)) :=
    headLine_headerLine (by decide) (Separators.not_mem_toDigits (by decide) _)
  have close : HeadLine '\n' (headerLine "Connection".toList "close".toList) :=
    headLine_headerLine (by decide) (by decide)
  cases response with
  | http status reason contentType text =>
      simp only [lines, headers, List.forall_mem_cons]
      refine ⟨headLine_statusLine plain.1 status, ?_, length, close, nofun⟩
      exact headLine_headerLine (by decide) plain.2
  | notOwner hint =>
      simp only [lines, headers, List.forall_mem_append, List.forall_mem_cons]
      refine ⟨headLine_statusLine (by decide) 503, ⟨⟨?_, length, nofun⟩, ?_⟩,
        close, nofun⟩
      · exact headLine_headerLine (by decide) (by decide)
      · split
        · exact nofun
        · rw [List.forall_mem_singleton]
          exact headLine_headerLine (by decide) plain

/-- The status in a first line. -/
theorem readNumber_statusLine
    (status : Nat)
    (reason : String) :
    readNumber (readWord (readWord (statusLine status reason).toList).2).1 =
      some status := by
  have version : IsWord "HTTP/1.1".toList :=
    isWord_of_all (by decide) (by decide)
  have number : IsWord (Nat.toDigits 10 status) :=
    ⟨Nat.toDigits_ne_nil, fun character member =>
      (startsNumber_of_isDigit
        (JsonText.digits_toDigits status character member)).1⟩
  have split : (statusLine status reason).toList =
      "HTTP/1.1".toList ++
        ' ' :: (Nat.toDigits 10 status ++ ' ' :: reason.toList) := by
    simp [statusLine]
  rw [split, readWord_append version, readWord_blank, readWord_append number]
  exact readNumber_toDigits status

/-- A message with a status and a length is read as a response. -/
theorem readReply_writeHead
    {first : List Char}
    {body : String}
    {headers : List (List Char)}
    {status : Nat}
    (allowed : ∀ line ∈ first :: headers, HeadLine '\n' line)
    (hasStatus : readNumber (readWord (readWord first).2).1 = some status)
    (hasLength : headerValue "content-length".toList headers =
      some (Nat.toDigits 10 body.length))
    (after : List Char) :
    readReply
        (writeHead '\r' '\n' (first :: headers) ++ (body.toList ++ after)) =
      some
        { status
          hint := headerValue "x-fre-redirect-hint".toList headers
          body := body.toList } := by
  obtain ⟨firstAllowed, othersAllowed⟩ := List.forall_mem_cons.mp allowed
  have declares : bodyLength (first :: headers) = some body.toList.length := by
    rw [bodyLength, List.tail_cons, hasLength, Option.bind_some,
      readNumber_toDigits, String.length_toList]
  have read : readMessage '\r' '\n' bodyLength
      (writeHead '\r' '\n' (first :: headers) ++ (body.toList ++ after)) =
        some (first :: headers, body.toList) :=
    readMessage_writeHead (by decide) firstAllowed othersAllowed declares after
  rw [readReply, read]
  simp [hasStatus]

/-- The length of its body stands in the head of a response. -/
theorem headerValue_length (response : Response) :
    headerValue "content-length".toList (headers response) =
      some (Nat.toDigits 10 (body response).length) := by
  have typed : "Content-Type".toList.map Char.toLower ≠
      "content-length".toList := by decide
  have named : "Content-Length".toList.map Char.toLower =
      "content-length".toList := by decide
  cases response with
  | http =>
      rw [headers, headerValue_cons (by decide), if_neg typed,
        headerValue_cons (by decide), if_pos named, dropWhile_toDigits]
  | notOwner hint =>
      rw [headers, List.append_assoc, List.cons_append,
        headerValue_cons (by decide), if_neg typed, List.cons_append,
        headerValue_cons (by decide), if_pos named, dropWhile_toDigits]

/-- A client reads what a response says. -/
theorem readReply_text
    {response : Response}
    (plain : Plain response)
    (after : List Char) :
    readReply (response.text.toList ++ after) = some (reply response) := by
  have allowed := headLine_lines plain
  have hasLength := headerValue_length response
  rw [toList_text, List.append_assoc]
  cases response with
  | http status reason contentType text =>
      have read := readReply_writeHead allowed (readNumber_statusLine status _)
        hasLength after
      rw [lines, read]
      simp [headers, headerValue_cons, reply, body]
  | notOwner hint =>
      have read := readReply_writeHead allowed (readNumber_statusLine 503 _)
        hasLength after
      rw [lines, read]
      by_cases noHint : hint = ""
      · simp [headers, headerValue_cons, reply, body, noHint]
      · simp [headers, headerValue_cons, reply, body, noHint]

/-! ### The responses of a program -/

/-- No address of the fleet ends a line. -/
def PlainAddresses (fleetRouter : Option FleetConfig) : Prop :=
  ∀ config, fleetRouter = some config →
    ∀ info ∈ config.topology, '\n' ∉ info.address.toList

/-- A client can rely on the response: its head is plain, and only the answer to
an accepted event has the status of one. -/
structure Reliable (response : Response) : Prop where
  plain : Plain response
  accepted : (reply response).status = 202 → response = .accepted

theorem newline_not_mem_writeAddress
    {topology : List InstanceInfo}
    {out : String × Bool}
    (plain : ∀ info ∈ topology, '\n' ∉ info.address.toList)
    (before : '\n' ∉ out.1.toList)
    (id : UInt32) :
    '\n' ∉ (FleetRouter.writeAddress id topology out).1.toList := by
  induction topology with
  | nil => exact before
  | cons info rest inductionHypothesis =>
      obtain ⟨infoPlain, restPlain⟩ := List.forall_mem_cons.mp plain
      rw [FleetRouter.writeAddress]
      split
      next =>
        dsimp only
        split
        · simp [before, infoPlain]
        · simp [before, infoPlain]
      next => exact inductionHypothesis restPlain

/-- A hint is written from the addresses. -/
theorem newline_not_mem_redirectHint
    {impl : Connection.Impl}
    {tenantId hint : String}
    (plain : PlainAddresses impl.fleetRouter)
    (written : impl.redirectHint tenantId = some hint) :
    '\n' ∉ hint.toList := by
  unfold Connection.Impl.redirectHint at written
  split at written
  next =>
    cases written
    decide
  next config isFleet =>
    unfold FleetRouter.redirectHint at written
    split at written
    next =>
      cases written
      decide
    next =>
      obtain ⟨ownerIds, -, rfl⟩ := Option.map_eq_some_iff.mp written
      have kept : ∀ (ids : List UInt32) (out : String × Bool),
          '\n' ∉ out.1.toList → '\n' ∉ (ids.foldl (fun out id =>
            FleetRouter.writeAddress id config.topology out) out).1.toList := by
        intro ids
        induction ids with
        | nil => exact fun _ before => before
        | cons id rest inductionHypothesis =>
            exact fun out before => inductionHypothesis _
              (newline_not_mem_writeAddress (plain config isFleet) before id)
      exact kept ownerIds ("", true) (by decide)

/-- The response that a thread is about to write or has written. -/
def responseOf : Position → Option Response
  | .answering response => some response
  | .closed response => response
  | _ => none

/-- A client can rely on the response of a thread, if there is one. -/
def ReliableAt (position : Position) : Prop :=
  ∀ response ∈ responseOf position, Reliable response

theorem reliable_accepted : Reliable .accepted :=
  ⟨⟨by decide, by decide⟩, fun _ => rfl⟩

/-- A thread without a response. -/
theorem reliableAt_of_silent
    {position : Position}
    (silent : responseOf position = none) :
    ReliableAt position := by
  intro response answers
  rw [silent] at answers
  cases answers

/-- Responses other than the one to an accepted event. -/
theorem reliableAt_http
    {status : Nat}
    {reason contentType : String}
    (plain : '\n' ∉ reason.toList ∧ '\n' ∉ contentType.toList)
    (other : status ≠ 202)
    (body : String) :
    ReliableAt (.answering (.http status reason contentType body)) := by
  rintro response ⟨⟩
  exact ⟨plain, fun same => absurd same other⟩

theorem reliableAt_afterDump
    (dumped : Except Connection.Exception String) :
    ReliableAt (ConnectionThread.afterDump dumped) := by
  cases dumped with
  | ok body => exact reliableAt_http (by decide) (by decide) body
  | error exception => exact reliableAt_of_silent rfl

section Threads

variable {environment : Connection.Environment}
variable {impl next : Connection.Impl}
variable {position after : Position}

theorem reliableAt_afterEvents
    {body : String}
    (plain : PlainAddresses impl.fleetRouter)
    (read : ConnectionThread.afterEvents environment impl body = some after) :
    ReliableAt after := by
  unfold ConnectionThread.afterEvents at read
  split at read
  · cases read
    exact reliableAt_http (by decide) (by decide) _
  · cases read
    exact reliableAt_of_silent rfl
  · split at read
    next =>
      split at read
      next => cases read
      next =>
        cases read
        exact reliableAt_of_silent rfl
      next =>
        obtain ⟨hint, written, rfl⟩ := Option.map_eq_some_iff.mp read
        rintro response ⟨⟩
        exact ⟨newline_not_mem_redirectHint plain written,
          fun accepted => absurd accepted (by decide : (503 : Nat) ≠ 202)⟩
    next =>
      cases read
      exact reliableAt_of_silent rfl

theorem reliableAt_afterText
    {text : List Char}
    (plain : PlainAddresses impl.fleetRouter)
    (read : ConnectionThread.afterText environment impl text = some after) :
    ReliableAt after := by
  unfold ConnectionThread.afterText at read
  split at read
  · cases read
    exact reliableAt_of_silent rfl
  · split at read
    · cases read
      exact reliableAt_of_silent rfl
    · cases read
      exact reliableAt_http (by decide) (by decide) _
    · unfold ConnectionThread.afterRequest at read
      split at read
      · exact reliableAt_afterEvents plain read
      · split at read
        · cases read
          exact reliableAt_http (by decide) (by decide) _
        · split at read
          · cases read
            exact reliableAt_afterDump _
          · split at read
            · cases read
              exact reliableAt_of_silent rfl
            · cases read
              exact reliableAt_http (by decide) (by decide) _

/-- Every access leaves a thread with a response that a client can rely on. -/
theorem reliableAt_advance
    (plain : PlainAddresses impl.fleetRouter)
    (before : ReliableAt position)
    (advanced : ConnectionThread.advance environment impl position =
      some (next, after)) :
    ReliableAt after := by
  have refused : ∀ error,
      ReliableAt (.answering (ConnectionThread.Response.refused error)) :=
    fun error => reliableAt_http (by decide) (by decide) error.message
  cases position with
  | reading text =>
      simp only [ConnectionThread.advance, Option.map_eq_some_iff,
        Prod.mk.injEq] at advanced
      obtain ⟨opened, read, rfl, rfl⟩ := advanced
      exact reliableAt_afterText plain read
  | submitting event =>
      simp only [ConnectionThread.advance, Option.some.injEq, Prod.mk.injEq]
        at advanced
      obtain ⟨-, rfl⟩ := advanced
      unfold ConnectionThread.loadState
      split
      · exact reliableAt_of_silent rfl
      · exact refused _
  | consuming event =>
      simp only [ConnectionThread.advance, ConnectionThread.consume,
        Option.map_eq_some_iff, Prod.exists, Prod.mk.injEq] at advanced
      obtain ⟨tenant, router, -, -, rfl⟩ := advanced
      split
      · exact reliableAt_of_silent rfl
      · exact refused _
  | entering event =>
      simp only [ConnectionThread.advance, ConnectionThread.enter,
        Option.map_eq_some_iff, Prod.mk.injEq] at advanced
      obtain ⟨tenant, -, -, rfl⟩ := advanced
      split <;> exact reliableAt_of_silent rfl
  | undoing event =>
      simp only [ConnectionThread.advance, ConnectionThread.undo,
        Option.map_eq_some_iff, Prod.mk.injEq] at advanced
      obtain ⟨tenant, -, -, rfl⟩ := advanced
      exact refused _
  | placing event =>
      simp only [ConnectionThread.advance, ConnectionThread.place,
        Option.bind_eq_bind, Option.bind_eq_some_iff, Option.pure_def,
        Option.some.injEq, Prod.exists, Prod.mk.injEq] at advanced
      obtain ⟨tenant, router, -, -, -, -, -, -, rfl⟩ := advanced
      exact reliableAt_of_silent rfl
  | spawning event =>
      cases advanced
      exact reliableAt_of_silent rfl
  | releasing event =>
      cases advanced
      rintro response ⟨⟩
      exact reliable_accepted
  | clearing =>
      cases advanced
      exact reliableAt_of_silent rfl
  | draining =>
      cases advanced
      exact reliableAt_of_silent rfl
  | stopping =>
      simp only [ConnectionThread.advance, Option.ite_none_right_eq_some,
        Option.some.injEq, Prod.mk.injEq] at advanced
      obtain ⟨-, -, rfl⟩ := advanced
      exact reliableAt_afterDump _
  | answering response =>
      cases advanced
      exact before
  | closed response => cases advanced

end Threads

/-- Every response of the program is one that a client can rely on. -/
structure AllReliable (state : Program.State) : Prop where
  plain : PlainAddresses state.impl.fleetRouter
  connections : ∀ position ∈ state.connections, ReliableAt position

theorem allReliable_of_step
    {config : PipelineConfig}
    {state next : Program.State}
    {action : Program.Action}
    (reliable : AllReliable state)
    (stepped : Program.step config state action = some next) :
    AllReliable next := by
  cases Program.stepped_of_step stepped with
  | main sameConnections _ sameFleet =>
      exact ⟨sameFleet ▸ reliable.plain,
        sameConnections ▸ reliable.connections⟩
  | accepted =>
      refine ⟨reliable.plain, fun position member => ?_⟩
      rcases List.mem_append.mp member with old | new
      · exact reliable.connections position old
      · rw [List.mem_singleton] at new
        subst new
        exact reliableAt_of_silent rfl
  | @advanced connection environment impl position after present advanced =>
      have sameFleet := (ConnectionThread.access_of_advance advanced).fleet
      have before :=
        reliable.connections position (List.mem_of_getElem? present)
      refine ⟨sameFleet ▸ reliable.plain, fun other member => ?_⟩
      rcases List.mem_or_eq_of_mem_set member with old | rfl
      · exact reliable.connections other old
      · exact reliableAt_advance reliable.plain before advanced
  | ranEvent _ _ sameConnections _ sameFleet =>
      exact ⟨sameFleet ▸ reliable.plain,
        sameConnections ▸ reliable.connections⟩

/-- However the threads of the program are interleaved, a client reads every
response back, whatever follows it on the stream: the status, the addresses of
the owners without the blanks in front of the first, and the body.  It reads the
status of an accepted event exactly when the connection has given an event to the
pool, and then it has done so once. -/
theorem responses_read_back
    {hash : String → UInt64}
    {fuel : Nat}
    {config : PipelineConfig}
    {fleetRouter : Option FleetConfig}
    {actions : List Program.Action}
    {final : Program.State}
    {connection : Nat}
    {response : Response}
    (plain : PlainAddresses fleetRouter)
    (ran : Machine.run (Program.step config)
      (Program.initial hash fuel config fleetRouter) actions = some final)
    (written : final.connections[connection]? = some (.closed (some response)))
    (after : List Char) :
    ∃ reply, readReply (response.text.toList ++ after) = some reply ∧
      reply = Replies.reply response ∧
      Program.spawned config connection
          (Program.initial hash fuel config fleetRouter) actions =
        if reply.status = 202 then 1 else 0 := by
  have reliable : AllReliable final :=
    Machine.invariant_of_run (fun _ _ _ => allReliable_of_step)
      ⟨plain, fun _ member => absurd member List.not_mem_nil⟩ ran
  have own := reliable.connections _ (List.mem_of_getElem? written) response rfl
  refine ⟨_, readReply_text own.plain after, rfl, ?_⟩
  rw [Program.spawned_eq_acceptedAt ran, Program.acceptedAt_of_getElem? written]
  split
  next isAccepted =>
    rw [own.accepted isAccepted]
    rfl
  next notAccepted =>
    have other : response ≠ .accepted := by
      rintro rfl
      exact notAccepted rfl
    exact congrArg Bool.toNat (decide_eq_false other)

/-- The first of two instances, in a fleet where the second owns all tenants. -/
def firstInstance : FleetConfig where
  fleetSize := 2
  instancesPerTenant := 1
  topology := [⟨0, "a:80"⟩, ⟨1, " b:80"⟩]

/-- A client posts an event to the first instance. -/
def postToFirst : List Program.Action :=
  [.start {}, .check, .accept Program.eventText,
    .advance 0 Connection.eventEnvironment,
    .advance 0 Connection.eventEnvironment]

/-- The run of these steps. -/
def postToFirstRun := Machine.run (Program.step {})
  (Program.initial (fun _ => 0) 8 {} (some firstInstance)) postToFirst

theorem postToFirst_refused :
    ∃ final, postToFirstRun = some final ∧
      final.connections[0]? = some (.closed (some (.notOwner " b:80"))) :=
  ⟨_, rfl, rfl⟩

/-- The client reads the address of the second instance without the blank, and the
first one has given no event to the pool. -/
theorem responses_read_back_postToFirst :
    ∃ reply,
      readReply ((Response.notOwner " b:80").text.toList ++ "HTTP".toList) =
          some reply ∧
        reply.hint = some "b:80".toList ∧
        Program.spawned {} 0
          (Program.initial (fun _ => 0) 8 {} (some firstInstance))
          postToFirst = 0 := by
  have plain : PlainAddresses (some firstInstance) := by
    rintro config ⟨⟩
    decide
  obtain ⟨final, ran, written⟩ := postToFirst_refused
  obtain ⟨reply, read, rfl, spawned⟩ :=
    responses_read_back plain ran written "HTTP".toList
  exact ⟨_, read, by decide, spawned⟩

end Replies
end Service
end Fre
