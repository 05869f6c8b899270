import Fre.Service.Fleet
import Fre.Service.Replies

/-!
# Redirected clients

An instance that does not own the tenant of an event answers with the addresses
of the instances that do.  A client that reads these addresses and sends the
same text to one of them is not redirected again.
-/

namespace Fre
namespace Service
namespace Redirects

open Foundation ConnectionThread Replies
open Connection (Environment Exception Impl)

/-! ### What a connection was asked -/

/-- The tenant of the event that a text posts. -/
def postedTenant (parse : String → Except Exception Json) (text : List Char) :
    Option String :=
  match Lines.readUntil Connection.headEnd text with
  | none => none
  | some (rawHeaders, rest) =>
      match HttpRequest.parseRequest rawHeaders with
      | .ok (some request) =>
          match parse (Connection.withBody request rest).body with
          | .ok json => (Connection.stringValue json "tenant_id" "").toOption
          | .error _ => none
      | _ => none

/-- The thread has not yet read the text of its client. -/
def isReading : Position → Bool
  | .reading _ => true
  | _ => false

/-- The hint with which the thread refuses an event. -/
def refusalOf (position : Position) : Option String :=
  match responseOf position with
  | some (.notOwner hint) => some hint
  | _ => none

section Reading

variable {environment : Environment}
variable {impl : Impl}

theorem notOwner_of_afterEvents
    {body hint : String}
    (read : afterEvents environment impl body =
      some (.answering (.notOwner hint))) :
    ∃ json tenantId,
      environment.parse body = .ok json ∧
        Connection.stringValue json "tenant_id" "" = .ok tenantId ∧
        impl.owns tenantId = some false ∧
        impl.redirectHint tenantId = some hint := by
  unfold afterEvents at read
  split at read
  · cases read
  · cases read
  next json parsed =>
    split at read
    next tenantId entityId eventType isTenant _ _ =>
      split at read
      next => cases read
      next => cases read
      next notOwned =>
        obtain ⟨written, hinted, same⟩ := Option.map_eq_some_iff.mp read
        cases same
        exact ⟨json, tenantId, parsed, isTenant, notOwned, hinted⟩
    next => cases read

/-- A text is refused for the tenant that it posts. -/
theorem notOwner_of_afterText
    {text : List Char}
    {hint : String}
    (read : afterText environment impl text =
      some (.answering (.notOwner hint))) :
    ∃ tenantId, postedTenant environment.parse text = some tenantId ∧
      impl.owns tenantId = some false ∧
      impl.redirectHint tenantId = some hint := by
  unfold afterText at read
  split at read
  · cases read
  next rawHeaders rest found =>
    split at read
    · cases read
    · cases read
    next request parsed =>
      unfold afterRequest at read
      split at read
      · obtain ⟨json, tenantId, isJson, isTenant, refused⟩ :=
          notOwner_of_afterEvents read
        refine ⟨tenantId, ?_, refused⟩
        rw [postedTenant, found]
        simp only [parsed, isJson, isTenant]
        rfl
      · split at read
        · cases read
        · split at read
          · cases dumped : environment.dump (Connection.health impl) with
            | ok body =>
                rw [dumped] at read
                cases read
            | error exception =>
                rw [dumped] at read
                cases read
          · split at read
            · cases read
            · cases read

theorem isReading_of_opened
    {position : Position}
    (opened : Opened impl position) :
    isReading position = false := by
  cases opened with
  | _ => rfl

theorem answering_of_opened
    {position : Position}
    {hint : String}
    (opened : Opened impl position)
    (refuses : refusalOf position = some hint) :
    position = .answering (.notOwner hint) := by
  cases opened with
  | submitting => cases refuses
  | clearing => cases refuses
  | @answering response =>
      cases response with
      | http => cases refuses
      | notOwner =>
          cases refuses
          rfl
  | closed => cases refuses

/-- A thread that is about to refuse an event has just read it, and no thread
reads a second text. -/
theorem refused_of_advance
    {next : Impl}
    {position after : Position}
    (advanced : advance environment impl position = some (next, after)) :
    isReading after = false ∧
      ∀ hint, refusalOf after = some hint →
        refusalOf position = some hint ∨
          ∃ text, position = .reading text ∧
            afterText environment impl text =
              some (.answering (.notOwner hint)) := by
  have silent {later : Position} (notReading : isReading later = false)
      (noRefusal : refusalOf later = none) :
      isReading later = false ∧ ∀ hint, refusalOf later = some hint →
        refusalOf position = some hint ∨
          ∃ text, position = .reading text ∧
            afterText environment impl text =
              some (.answering (.notOwner hint)) := by
    refine ⟨notReading, fun hint refuses => ?_⟩
    rw [noRefusal] at refuses
    cases refuses
  cases position with
  | reading text =>
      simp only [advance, Option.map_eq_some_iff, Prod.mk.injEq] at advanced
      obtain ⟨opened, read, rfl, rfl⟩ := advanced
      have isOpened := opened_of_afterText read
      refine ⟨isReading_of_opened isOpened, fun hint refused => .inr ?_⟩
      refine ⟨text, rfl, ?_⟩
      rw [read, answering_of_opened isOpened refused]
  | submitting event =>
      simp only [advance, Option.some.injEq, Prod.mk.injEq] at advanced
      obtain ⟨-, rfl⟩ := advanced
      unfold loadState
      split <;> exact silent rfl rfl
  | consuming event =>
      simp only [advance, consume, Option.map_eq_some_iff, Prod.exists,
        Prod.mk.injEq] at advanced
      obtain ⟨tenant, router, -, -, rfl⟩ := advanced
      split <;> exact silent rfl rfl
  | entering event =>
      simp only [advance, enter, Option.map_eq_some_iff, Prod.mk.injEq]
        at advanced
      obtain ⟨tenant, -, -, rfl⟩ := advanced
      split <;> exact silent rfl rfl
  | undoing event =>
      simp only [advance, undo, Option.map_eq_some_iff, Prod.mk.injEq]
        at advanced
      obtain ⟨tenant, -, -, rfl⟩ := advanced
      exact silent rfl rfl
  | placing event =>
      simp only [advance, place, Option.bind_eq_bind, Option.bind_eq_some_iff,
        Option.pure_def, Option.some.injEq, Prod.exists, Prod.mk.injEq]
        at advanced
      obtain ⟨tenant, router, -, -, -, -, -, -, rfl⟩ := advanced
      exact silent rfl rfl
  | spawning event =>
      cases advanced
      exact silent rfl rfl
  | releasing event =>
      cases advanced
      exact silent rfl rfl
  | clearing =>
      cases advanced
      exact silent rfl rfl
  | draining =>
      cases advanced
      exact silent rfl rfl
  | stopping =>
      simp only [advance, Option.ite_none_right_eq_some, Option.some.injEq,
        Prod.mk.injEq] at advanced
      obtain ⟨-, -, rfl⟩ := advanced
      cases environment.dump Connection.drained with
      | ok body => exact silent rfl rfl
      | error exception => exact silent rfl rfl
  | answering response =>
      cases advanced
      exact ⟨rfl, fun hint refused => .inl refused⟩
  | closed response => cases advanced

end Reading

/-! ### Runs of one instance -/

/-- The texts of the clients whose connections were accepted. -/
def texts (actions : List Program.Action) : List (List Char) :=
  actions.filterMap fun action =>
    match action with
    | .accept text => some text
    | _ => none

/-- The JSON library reads the texts of all connections in the same way. -/
def SameParse (parse : String → Except Exception Json)
    (actions : List Program.Action) : Prop :=
  ∀ connection environment, .advance connection environment ∈ actions →
    environment.parse = parse

/-- A thread reads the text of its client, and refuses it only with the
addresses of the owners of its tenant. -/
structure Told (hash : String → UInt64) (fuel : Nat) (fleet : FleetConfig)
    (parse : String → Except Exception Json) (text : List Char)
    (position : Position) : Prop where
  reads : ∀ read, position = .reading read → read = text
  refuses : ∀ hint, refusalOf position = some hint →
    ∃ tenantId, postedTenant parse text = some tenantId ∧
      FleetRouter.owns hash fuel fleet tenantId = some false ∧
      FleetRouter.redirectHint hash fuel fleet tenantId = some hint

/-- Every connection has the text of the client that it was accepted for. -/
structure AllTold (hash : String → UInt64) (fuel : Nat) (fleet : FleetConfig)
    (parse : String → Except Exception Json) (before : List Program.Action)
    (state : Program.State) : Prop where
  gated : Fleet.Gated hash fuel fleet state
  length : (texts before).length = state.connections.length
  told : ∀ (index : Nat) (text : List Char) (position : Position),
    (texts before)[index]? = some text →
      state.connections[index]? = some position →
        Told hash fuel fleet parse text position

section Instance

variable {hash : String → UInt64}
variable {fuel : Nat}
variable {fleet : FleetConfig}
variable {parse : String → Except Exception Json}
variable {config : Pipeline.PipelineConfig}
variable {state next : Program.State}
variable {before : List Program.Action}
variable {action : Program.Action}

theorem redirectHint_of_gated
    (gated : Fleet.Gated hash fuel fleet state)
    (tenantId : String) :
    state.impl.redirectHint tenantId =
      FleetRouter.redirectHint hash fuel fleet tenantId := by
  unfold Connection.Impl.redirectHint
  rw [gated.sameFleet, gated.sameHash, gated.sameFuel]

/-- An access of a connection. -/
theorem Told.advance
    {environment : Environment}
    {impl : Impl}
    {text : List Char}
    {position after : Position}
    (told : Told hash fuel fleet parse text position)
    (gated : Fleet.Gated hash fuel fleet state)
    (sameParse : environment.parse = parse)
    (advanced : ConnectionThread.advance environment state.impl position =
      some (impl, after)) :
    Told hash fuel fleet parse text after := by
  obtain ⟨notReading, refuses⟩ := refused_of_advance advanced
  refine ⟨fun read isReading => ?_, ?_⟩
  · rw [isReading] at notReading
    cases notReading
  · intro hint refused
    rcases refuses hint refused with old | ⟨read, isReading, new⟩
    · exact told.refuses hint old
    · obtain rfl := told.reads read isReading
      obtain ⟨tenantId, posted, notOwned, hinted⟩ := notOwner_of_afterText new
      rw [gated.owns] at notOwned
      rw [redirectHint_of_gated gated] at hinted
      exact ⟨tenantId, sameParse ▸ posted, notOwned, hinted⟩

/-- A step that leaves the connections alone. -/
theorem AllTold.of_eq
    (allTold : AllTold hash fuel fleet parse before state)
    (gated : Fleet.Gated hash fuel fleet next)
    (noText : texts [action] = [])
    (sameConnections : next.connections = state.connections) :
    AllTold hash fuel fleet parse (before ++ [action]) next := by
  have sameTexts : texts (before ++ [action]) = texts before := by
    unfold texts at noText ⊢
    rw [List.filterMap_append, noText, List.append_nil]
  constructor
  · exact gated
  · rw [sameTexts, sameConnections]
    exact allTold.length
  · rw [sameTexts, sameConnections]
    exact allTold.told

/-- A step that leaves the connections alone accepts none. -/
theorem texts_of_sameConnections
    (stepped : Program.step config state action = some next)
    (sameConnections : next.connections = state.connections) :
    texts [action] = [] := by
  cases action with
  | accept text =>
      simp only [Program.step, Option.ite_none_right_eq_some,
        Option.some.injEq] at stepped
      obtain ⟨-, rfl⟩ := stepped
      have longer := congrArg List.length sameConnections
      simp at longer
  | _ => rfl

theorem allTold_of_step
    (allTold : AllTold hash fuel fleet parse before state)
    (sameParse : SameParse parse (before ++ [action]))
    (stepped : Program.step config state action = some next) :
    AllTold hash fuel fleet parse (before ++ [action]) next := by
  have gated := Fleet.gated_of_step allTold.gated stepped
  have none := texts_of_sameConnections stepped
  cases Program.stepped_of_step stepped with
  | main sameConnections =>
      exact allTold.of_eq gated (none sameConnections) sameConnections
  | @accepted text listener =>
      have oneMore : texts (before ++ [.accept text]) = texts before ++ [text] := by
        unfold texts
        rw [List.filterMap_append]
        rfl
      constructor
      · exact gated
      · rw [oneMore, List.length_append, List.length_append, allTold.length]
        rfl
      · intro index found position sent present
        rw [oneMore] at sent
        dsimp only at present
        rw [List.getElem?_append] at sent present
        rw [allTold.length] at sent
        split at sent
        next old =>
          rw [if_pos old] at present
          exact allTold.told index found position sent present
        next new =>
          rw [if_neg new] at present
          simp only [List.getElem?_singleton, Option.ite_none_right_eq_some,
            Option.some.injEq] at sent present
          obtain ⟨-, rfl⟩ := sent
          obtain ⟨-, rfl⟩ := present
          refine ⟨fun read isReading => ?_, fun hint refused => ?_⟩
          · cases isReading
            rfl
          · cases refused
  | @advanced connection environment impl position after present advanced =>
      have noText : texts (before ++ [.advance connection environment]) =
          texts before := by
        unfold texts
        rw [List.filterMap_append]
        exact List.append_nil _
      have ownParse := sameParse connection environment (by simp)
      constructor
      · exact gated
      · rw [noText, List.length_set, allTold.length]
      · intro index text other sent found
        rw [noText] at sent
        by_cases same : connection = index
        · subst same
          have told := allTold.told connection text position sent present
          obtain ⟨inRange, -⟩ := List.getElem?_eq_some_iff.mp present
          rw [List.getElem?_set_self inRange, Option.some.injEq] at found
          exact found ▸ told.advance allTold.gated ownParse advanced
        · rw [List.getElem?_set_ne same] at found
          exact allTold.told index text other sent found
  | ranEvent _ _ sameConnections =>
      exact allTold.of_eq gated (none sameConnections) sameConnections

theorem allTold_of_run
    {actions : List Program.Action}
    (sameParse : SameParse parse actions)
    (ran : Machine.run (Program.step config)
      (Program.initial hash fuel config (some fleet)) actions = some state) :
    AllTold hash fuel fleet parse actions state := by
  have preserved : ∀ (before : List Program.Action) (state : Program.State)
      (action : Program.Action) (next : Program.State),
      (SameParse parse before → AllTold hash fuel fleet parse before state) →
        Program.step config state action = some next →
          SameParse parse (before ++ [action]) →
            AllTold hash fuel fleet parse (before ++ [action]) next := by
    intro before state action next told stepped same
    have sameBefore : SameParse parse before :=
      fun connection environment member =>
        same connection environment (List.mem_append_left _ member)
    exact allTold_of_step (told sameBefore) same stepped
  have start : SameParse parse [] → AllTold hash fuel fleet parse []
      (Program.initial hash fuel config (some fleet)) :=
    fun _ => ⟨⟨rfl, rfl, rfl, nofun, nofun⟩, rfl, nofun⟩
  exact Machine.invariant_of_history preserved start ran sameParse

end Instance

/-! ### Clients of a fleet -/

/-- The addresses of a topology can be sent in a hint, and tell the instances
apart. -/
structure WellKnown (topology : List InstanceInfo) : Prop where
  plain : ∀ info ∈ topology, '\n' ∉ info.address.toList
  single : ∀ info ∈ topology, ',' ∉ info.address.toList
  visible : ∀ info ∈ topology, info.address.toList.head? ≠ some ' '
  own : ∀ first ∈ topology, ∀ second ∈ topology,
    first.address = second.address → first.id = second.id

/-- The addresses that a client finds in a hint. -/
def readHint (hint : List Char) : List (List Char) := hint.splitOn ','

/-- A hint of some addresses is read back. -/
theorem readHint_intercalate
    {addresses : List String}
    (nonempty : addresses ≠ [])
    (single : ∀ address ∈ addresses, ',' ∉ address.toList) :
    readHint (",".intercalate addresses).toList =
      addresses.map String.toList := by
  have parts : ∀ part ∈ addresses.map String.toList, ',' ∉ part := by
    intro part member
    obtain ⟨address, isAddress, rfl⟩ := List.mem_map.mp member
    exact single address isAddress
  rw [readHint, String.toList_intercalate]
  exact List.splitOn_intercalate ',' parts (by simpa using nonempty)

/-- A hint has no blank in front when its addresses have none. -/
theorem dropWhile_intercalate
    {addresses : List String}
    (nonempty : ∀ address ∈ addresses, address ≠ "")
    (visible : ∀ address ∈ addresses, address.toList.head? ≠ some ' ') :
    (",".intercalate addresses).toList.dropWhile (· = ' ') =
      (",".intercalate addresses).toList := by
  cases addresses with
  | nil => rfl
  | cons first rest =>
      have firstVisible := visible first List.mem_cons_self
      have firstNonempty := nonempty first List.mem_cons_self
      have starts : ∃ others, (",".intercalate (first :: rest)).toList =
          first.toList ++ others := by
        cases rest with
        | nil => exact ⟨[], by simp⟩
        | cons second rest =>
            have later := List.cons_ne_nil second rest
            refine ⟨("," ++ ",".intercalate (second :: rest)).toList, ?_⟩
            rw [String.intercalate_cons_of_ne_nil later, String.append_assoc,
              String.toList_append]
      obtain ⟨others, split⟩ := starts
      rw [split]
      cases characters : first.toList with
      | nil => exact absurd (String.toList_eq_nil_iff.mp characters) firstNonempty
      | cons character later =>
          rw [characters, List.head?_cons] at firstVisible
          refine List.dropWhile_cons_of_neg fun blank => ?_
          exact firstVisible (congrArg some (of_decide_eq_true blank))

/-- An instance has answered a client that sent a text. -/
def Answered (actions : List (Nat × Program.Action))
    (final : List Program.State) (number : Nat) (text : List Char)
    (response : Response) : Prop :=
  ∃ (state : Program.State) (index : Nat), final[number]? = some state ∧
    (texts (Components.actionsOf number actions))[index]? = some text ∧
    state.connections[index]? = some (.closed (some response))

section Fleet

variable {hash : String → UInt64}
variable {fuel : Nat}
variable {fleet : FleetConfig}
variable {parse : String → Except Exception Json}
variable {configs : Nat → Pipeline.PipelineConfig}
variable {actions : List (Nat × Program.Action)}
variable {final : List Program.State}
variable {number : Nat}
variable {text : List Char}
variable {response : Response}

/-- What an answer is about: its head is plain, and a refusal is one for the
tenant of the text. -/
theorem told_of_answered
    (wellKnown : WellKnown fleet.topology)
    (sameParse : ∀ number, SameParse parse (Components.actionsOf number actions))
    (ran : Machine.run (Fleet.step configs)
      (Fleet.initial hash fuel fleet configs) actions = some final)
    (answered : Answered actions final number text response) :
    Reliable response ∧
      Told hash fuel (FleetRouter.atInstance fleet (UInt32.ofNat number)) parse
        text (.closed (some response)) := by
  obtain ⟨state, index, present, sent, closed⟩ := answered
  have inRange : number < fleet.fleetSize.toNat := by
    obtain ⟨inRange, -⟩ := List.getElem?_eq_some_iff.mp present
    rwa [Fleet.length_of_fleet_run ran] at inRange
  obtain ⟨own, ownPresent, ownRan⟩ := Fleet.exists_run_of_instance ran inRange
  rw [present, Option.some.injEq] at ownPresent
  subst ownPresent
  have plain : PlainAddresses
      (some (FleetRouter.atInstance fleet (UInt32.ofNat number))) := by
    rintro config ⟨⟩
    exact wellKnown.plain
  have reliable : AllReliable state :=
    Machine.invariant_of_run (fun _ _ _ => allReliable_of_step)
      ⟨plain, fun _ member => absurd member List.not_mem_nil⟩ ownRan
  have told := allTold_of_run (sameParse number) ownRan
  refine ⟨?_, told.told index text _ sent closed⟩
  exact reliable.connections _ (List.mem_of_getElem? closed) response rfl

/-- The addresses in a hint are those of owners. -/
theorem owns_of_mem_readHint
    {tenantId hint : String}
    {address : List Char}
    (several : 2 ≤ fleet.fleetSize.toNat)
    (wellKnown : WellKnown fleet.topology)
    (hinted : FleetRouter.redirectHint hash fuel fleet tenantId = some hint)
    (nonempty : hint ≠ "")
    (member : address ∈ readHint (hint.toList.dropWhile (· = ' ')))
    {second : InstanceInfo}
    (listed : second ∈ fleet.topology)
    (isAddress : second.address.toList = address) :
    FleetRouter.owns hash fuel (FleetRouter.atInstance fleet second.id)
      tenantId = some true := by
  have notSingle : ¬(fleet.fleetSize ≤ 1 || fleet.topology.isEmpty) = true := by
    have notEmpty := List.ne_nil_of_mem listed
    have notOne : ¬fleet.fleetSize.toNat ≤ 1 := by omega
    simpa [UInt32.le_iff_toNat_le, notEmpty] using notOne
  have isWritten := hinted
  rw [FleetRouter.redirectHint, if_neg notSingle] at isWritten
  obtain ⟨ownerIds, returned, -⟩ := Option.map_eq_some_iff.mp isWritten
  rw [FleetRouter.redirectHint_eq hash several returned,
    Option.some.injEq] at hinted
  have entries : ∀ item ∈ ownerIds.filterMap
      (FleetRouter.listedAddress fleet.topology),
      item ≠ "" ∧ ∃ id ∈ ownerIds, ∃ info ∈ fleet.topology,
        info.id = id ∧ info.address = item := by
    intro item isItem
    obtain ⟨id, owner, isListed⟩ := List.mem_filterMap.mp isItem
    obtain ⟨isNonempty, entry⟩ := FleetRouter.exists_of_listedAddress isListed
    exact ⟨isNonempty, id, owner, entry⟩
  rw [← hinted, dropWhile_intercalate, readHint_intercalate] at member
  · obtain ⟨item, isItem, isAddress'⟩ := List.mem_map.mp member
    obtain ⟨-, id, owner, info, inTopology, rfl, rfl⟩ := entries item isItem
    have sameAddress : second.address = info.address :=
      String.toList_injective (isAddress.trans isAddress'.symm)
    rw [FleetRouter.owns_atInstance hash fleet tenantId several, returned,
      Option.map_some, wellKnown.own second listed info inTopology sameAddress,
      decide_eq_true owner]
  · rintro none
    rw [none] at hinted
    exact nonempty (by rw [← hinted]; rfl)
  · intro item isItem
    obtain ⟨-, id, owner, info, inTopology, rfl, rfl⟩ := entries item isItem
    exact wellKnown.single info inTopology
  · exact fun item isItem => (entries item isItem).1
  · intro item isItem
    obtain ⟨-, id, owner, info, inTopology, rfl, rfl⟩ := entries item isItem
    exact wellKnown.visible info inTopology

/-- A client that was redirected and sends the same text to an instance with one
of the addresses that it has read is not redirected again, however the threads
of all instances are interleaved. -/
theorem redirect_ends_at_owner
    (several : 2 ≤ fleet.fleetSize.toNat)
    (wellKnown : WellKnown fleet.topology)
    (sameParse : ∀ number, SameParse parse (Components.actionsOf number actions))
    (ran : Machine.run (Fleet.step configs)
      (Fleet.initial hash fuel fleet configs) actions = some final)
    {first second : Nat}
    {refusal answer : Response}
    {reply : Reply}
    {hint address after : List Char}
    (refused : Answered actions final first text refusal)
    (read : readReply (refusal.text.toList ++ after) = some reply)
    (hinted : reply.hint = some hint)
    (isAddress : address ∈ readHint hint)
    (listed : ⟨UInt32.ofNat second, String.ofList address⟩ ∈ fleet.topology)
    (answered : Answered actions final second text answer) :
    ∃ last, readReply (answer.text.toList ++ after) = some last ∧
      last.hint = none := by
  obtain ⟨reliable, toldFirst⟩ := told_of_answered wellKnown sameParse ran refused
  obtain ⟨reliableLast, toldSecond⟩ :=
    told_of_answered wellKnown sameParse ran answered
  refine ⟨_, readReply_text reliableLast.plain after, ?_⟩
  rw [readReply_text reliable.plain, Option.some.injEq] at read
  subst read
  cases refusal with
  | http => cases hinted
  | notOwner written =>
      obtain ⟨tenantId, posted, -, isHint⟩ := toldFirst.refuses written rfl
      simp only [Replies.reply, Option.ite_none_left_eq_some,
        String.isEmpty_iff, Option.some.injEq] at hinted
      obtain ⟨nonempty, rfl⟩ := hinted
      have owned := owns_of_mem_readHint several wellKnown isHint nonempty
        isAddress listed String.toList_ofList
      cases answer with
      | http => rfl
      | notOwner again =>
          obtain ⟨same, postedAgain, notOwned, -⟩ := toldSecond.refuses again rfl
          rw [posted, Option.some.injEq] at postedAgain
          subst postedAgain
          cases owned.symm.trans notOwned

end Fleet

/-- A fleet of two in which the second instance owns all tenants. -/
def two : FleetConfig where
  fleetSize := 2
  instancesPerTenant := 1
  topology := [⟨0, "a:80"⟩, ⟨1, "b:80"⟩]

/-- A client posts an event to the first instance, and then to the second. -/
def postTwice : List (Nat × Program.Action) :=
  (Fleet.readEvent.map fun action => (0, action)) ++
    [(0, .advance 0 Connection.eventEnvironment)] ++
    (Fleet.readEvent.map fun action => (1, action)) ++
    List.replicate 7 (1, .advance 0 Connection.eventEnvironment)

/-- The run of these steps. -/
def postTwiceRun := Machine.run (Fleet.step fun _ => {})
  (Fleet.initial (fun _ => 0) 8 two fun _ => {}) postTwice

/-- The only connection of an instance has written a response. -/
def wrote (response : Response) (state : Program.State) : Bool :=
  match state.connections with
  | [.closed (some written)] => written = response
  | _ => false

theorem answered_of_wrote
    {actions : List (Nat × Program.Action)}
    {final : List Program.State}
    {number : Nat}
    {text : List Char}
    {response : Response}
    (sent : texts (Components.actionsOf number actions) = [text])
    (isWritten : final[number]?.any (wrote response) = true) :
    Answered actions final number text response := by
  obtain ⟨state, present, written⟩ := (Option.any_eq_true _ _).mp isWritten
  refine ⟨state, 0, present, by rw [sent]; rfl, ?_⟩
  unfold wrote at written
  split at written
  next closed =>
    rw [closed, of_decide_eq_true written]
    rfl
  next => cases written

theorem postTwice_answers :
    postTwiceRun.any (fun final =>
      final[0]?.any (wrote (.notOwner "b:80")) &&
        final[1]?.any (wrote .accepted)) = true := by
  decide +kernel

theorem wellKnown_two : WellKnown two.topology where
  plain := by decide
  single := by decide
  visible := by decide
  own := by decide

/-- The second answer is no redirection. -/
theorem redirect_ends_at_owner_postTwice :
    ∃ last, readReply (Response.accepted.text.toList ++ []) = some last ∧
      last.hint = none := by
  obtain ⟨final, ran, answers⟩ := (Option.any_eq_true _ _).mp postTwice_answers
  obtain ⟨refused, answered⟩ := Bool.and_eq_true_iff.mp answers
  have sameParse : ∀ number, SameParse Connection.eventEnvironment.parse
      (Components.actionsOf number postTwice) := by
    intro number connection environment member
    obtain ⟨⟨own, action⟩, kept, rfl⟩ := List.mem_map.mp member
    have posted := List.mem_of_mem_filter kept
    simp [postTwice, Fleet.readEvent] at posted
    obtain ⟨-, -, rfl⟩ | ⟨-, -, rfl⟩ := posted
    · rfl
    · rfl
  have plain : Plain (.notOwner "b:80") := by
    rw [Replies.Plain]
    decide
  have isAddress : "b:80".toList ∈ readHint "b:80".toList := by decide
  have listed : ⟨UInt32.ofNat 1, String.ofList "b:80".toList⟩ ∈ two.topology := by
    decide
  exact redirect_ends_at_owner (by decide) wellKnown_two sameParse ran
    (answered_of_wrote rfl refused) (readReply_text plain []) rfl isAddress listed
    (answered_of_wrote rfl answered)

end Redirects
end Service
end Fre
