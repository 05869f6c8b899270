import Fre.Foundation.JsonText
import Fre.Foundation.Separators
import Fre.Foundation.Utf8
import Fre.Pipeline.RunEvent

/-!
# The audit log

`log_audit` writes one line for each decision, by filling the numbers, the
verdict and the two ids into the text of a JSON object.  The ids are filled in as
they are, so the line means what it should exactly when they are UTF-8 and have
no character that a JSON string must escape.  The text of the line is studied for
ids that are texts; the bytes of other ids cannot be those of a JSON text.
-/

namespace Fre
namespace Pipeline

open Foundation JsonText

/-- The name of the final verdict in the audit log. -/
def auditVerdict : Verdict → String
  | .pass => "pass"
  | .flag => "flag"
  | .block => "block"

/-- A decision as `log_audit` reads it.  An id is any sequence of bytes, as a
`std::string` is. -/
structure AuditRecord where
  eventId : UInt64
  tenantId : List UInt8
  entityId : List UInt8
  finalVerdict : Verdict
  degradedReason : DegradedReason
  elapsedUs : UInt64
  deriving DecidableEq

/-- `Decision::is_degraded`. -/
def AuditRecord.isDegraded (record : AuditRecord) : Bool :=
  record.degradedReason.isDegraded

/-- The bytes of a text of the source. -/
def bytes (text : String) : List UInt8 :=
  Utf8.encode text.toList

/-- The message that `log_audit` passes to the logger. -/
def auditMessage (record : AuditRecord) : List UInt8 :=
  bytes "\x7b\"event_id\":" ++ bytes (toString record.eventId.toNat) ++
    bytes ",\"tenant_id\":\"" ++ record.tenantId ++
    bytes "\",\"entity_id\":\"" ++ record.entityId ++
    bytes "\",\"final_verdict\":\"" ++ bytes (auditVerdict record.finalVerdict) ++
    bytes "\",\"degraded\":" ++ bytes (toString record.isDegraded) ++
    bytes ",\"elapsed_us\":" ++ bytes (toString record.elapsedUs.toNat) ++
    bytes "\x7d"

/-- `log_audit`, on the lines of the audit logger if there is one. -/
def logAudit (logger : Option (List (List UInt8))) (record : AuditRecord) :
    Option (List (List UInt8)) :=
  logger.map fun lines => lines ++ [auditMessage record]

/-- The records agree in what the audit log shows of them. -/
structure SameAudit (first second : AuditRecord) : Prop where
  eventId : first.eventId = second.eventId
  tenantId : first.tenantId = second.tenantId
  entityId : first.entityId = second.entityId
  finalVerdict : first.finalVerdict = second.finalVerdict
  degraded : first.isDegraded = second.isDegraded
  elapsedUs : first.elapsedUs = second.elapsedUs

/-- The members of the object are those of the record, each with its value
wherever its name stands.  The value of an id is the text that has its bytes. -/
structure Shows (members : List (String × Json)) (record : AuditRecord) :
    Prop where
  eventId : ∀ value, ("event_id", value) ∈ members ↔
    value = .integer record.eventId.toNat
  tenantId : ∃ text, bytes text = record.tenantId ∧
    ∀ value, ("tenant_id", value) ∈ members ↔ value = .string text
  entityId : ∃ text, bytes text = record.entityId ∧
    ∀ value, ("entity_id", value) ∈ members ↔ value = .string text
  finalVerdict : ∀ value, ("final_verdict", value) ∈ members ↔
    value = .string (auditVerdict record.finalVerdict)
  degraded : ∀ value, ("degraded", value) ∈ members ↔
    value = .boolean record.isDegraded
  elapsedUs : ∀ value, ("elapsed_us", value) ∈ members ↔
    value = .integer record.elapsedUs.toNat

/-- The message is one line and the bytes of a JSON object that shows the record,
and no other record has it. -/
structure Faithful (record : AuditRecord) : Prop where
  oneLine : 10 ∉ auditMessage record
  shows : ∃ text members, bytes text = auditMessage record ∧
    Denotes text (.object members) ∧ Shows members record
  unique : ∀ other, auditMessage other = auditMessage record →
    SameAudit other record

/-! ### Ids that are texts -/

/-- The decision as `log_audit` reads it, where its ids are texts. -/
def auditRecord (decision : Decision) : AuditRecord :=
  { eventId := decision.eventId
    tenantId := bytes decision.tenantId
    entityId := bytes decision.entityId
    finalVerdict := decision.finalVerdict
    degradedReason := decision.degradedReason
    elapsedUs := decision.elapsedUs }

/-- The text of the message of a decision. -/
def auditText (decision : Decision) : String :=
  "\x7b\"event_id\":" ++ toString decision.eventId.toNat ++
    ",\"tenant_id\":\"" ++ decision.tenantId ++
    "\",\"entity_id\":\"" ++ decision.entityId ++
    "\",\"final_verdict\":\"" ++ auditVerdict decision.finalVerdict ++
    "\",\"degraded\":" ++ toString decision.isDegraded ++
    ",\"elapsed_us\":" ++ toString decision.elapsedUs.toNat ++ "\x7d"

@[simp]
theorem bytes_append
    (first second : String) :
    bytes (first ++ second) = bytes first ++ bytes second := by
  rw [bytes, String.toList_append, Utf8.encode_append]
  rfl

theorem bytes_injective
    {first second : String}
    (same : bytes first = bytes second) :
    first = second :=
  String.toList_injective (Utf8.encode_injective same)

theorem auditMessage_auditRecord
    (decision : Decision) :
    auditMessage (auditRecord decision) = bytes (auditText decision) := by
  unfold auditMessage auditText
  simp only [bytes_append]
  unfold auditRecord AuditRecord.isDegraded Decision.isDegraded
  with_reducible rfl

theorem exists_decision
    {record : AuditRecord}
    (tenant : Utf8.IsText record.tenantId)
    (entity : Utf8.IsText record.entityId) :
    ∃ decision : Decision, auditRecord decision = record := by
  obtain ⟨tenantText, isTenant⟩ := tenant
  obtain ⟨entityText, isEntity⟩ := entity
  refine ⟨{ eventId := record.eventId, tenantId := .ofList tenantText
            entityId := .ofList entityText, finalVerdict := record.finalVerdict
            degradedReason := record.degradedReason
            elapsedUs := record.elapsedUs }, ?_⟩
  simp only [auditRecord, bytes, String.toList_ofList, isTenant,
    isEntity]

/-- The ids of a message that is a text are texts: they stand between quotation
marks. -/
theorem isText_ids
    {record : AuditRecord}
    (isText : Utf8.IsText (auditMessage record)) :
    Utf8.IsText record.tenantId ∧ Utf8.IsText record.entityId := by
  have tenantName : bytes ",\"tenant_id\":\"" =
      bytes ",\"tenant_id\":" ++ [34] := by decide
  have entityName : bytes "\",\"entity_id\":\"" =
      34 :: (bytes ",\"entity_id\":" ++ [34]) := by decide
  have verdictName : bytes "\",\"final_verdict\":\"" =
      34 :: bytes ",\"final_verdict\":\"" := by decide
  have cut : auditMessage record =
      (bytes "\x7b\"event_id\":" ++ bytes (toString record.eventId.toNat) ++
        bytes ",\"tenant_id\":") ++ 34 :: (record.tenantId ++
          34 :: (bytes ",\"entity_id\":" ++ 34 :: (record.entityId ++
            34 :: (bytes ",\"final_verdict\":\"" ++
              bytes (auditVerdict record.finalVerdict) ++
              bytes "\",\"degraded\":" ++ bytes (toString record.isDegraded) ++
              bytes ",\"elapsed_us\":" ++
              bytes (toString record.elapsedUs.toNat) ++ bytes "\x7d")))) := by
    simp only [auditMessage, tenantName, entityName, verdictName,
      List.append_assoc, List.cons_append, List.nil_append]
  rw [cut] at isText
  have fromTenant := (Utf8.isText_of_append_cons (by decide) isText).2
  obtain ⟨tenant, afterTenant⟩ :=
    Utf8.isText_of_append_cons (by decide) fromTenant
  have fromEntity := (Utf8.isText_of_append_cons (by decide) afterTenant).2
  exact ⟨tenant, (Utf8.isText_of_append_cons (by decide) fromEntity).1⟩

/-! ### The characters of the message -/

/-- The message from the final verdict on. -/
def verdictMembers (decision : Decision) : List Char :=
  '"' :: ("final_verdict".toList ++ '"' :: ':' :: '"' ::
    ((auditVerdict decision.finalVerdict).toList ++ '"' :: ',' :: '"' ::
      ("degraded".toList ++ '"' :: ':' ::
        ((toString decision.isDegraded).toList ++ ',' :: '"' ::
          ("elapsed_us".toList ++ '"' :: ':' ::
            (Nat.toDigits 10 decision.elapsedUs.toNat ++ ['\x7d']))))))

/-- The message from the entity id on. -/
def entityMembers (decision : Decision) : List Char :=
  '"' :: ("entity_id".toList ++ '"' :: ':' :: '"' ::
    (decision.entityId.toList ++ '"' :: ',' :: verdictMembers decision))

/-- The message from the tenant id on. -/
def tenantMembers (decision : Decision) : List Char :=
  '"' :: ("tenant_id".toList ++ '"' :: ':' :: '"' ::
    (decision.tenantId.toList ++ '"' :: ',' :: entityMembers decision))

theorem toList_auditText
    (decision : Decision) :
    (auditText decision).toList =
      '\x7b' :: '"' :: ("event_id".toList ++ '"' :: ':' ::
        (Nat.toDigits 10 decision.eventId.toNat ++
          ',' :: tenantMembers decision)) := by
  have eventName : "\x7b\"event_id\":".toList =
      '\x7b' :: '"' :: ("event_id".toList ++ ['"', ':']) := rfl
  have tenantName : ",\"tenant_id\":\"".toList =
      ',' :: '"' :: ("tenant_id".toList ++ ['"', ':', '"']) := rfl
  have entityName : "\",\"entity_id\":\"".toList =
      '"' :: ',' :: '"' :: ("entity_id".toList ++ ['"', ':', '"']) := rfl
  have verdictName : "\",\"final_verdict\":\"".toList =
      '"' :: ',' :: '"' :: ("final_verdict".toList ++ ['"', ':', '"']) := rfl
  have degradedName : "\",\"degraded\":".toList =
      '"' :: ',' :: '"' :: ("degraded".toList ++ ['"', ':']) := rfl
  have elapsedName : ",\"elapsed_us\":".toList =
      ',' :: '"' :: ("elapsed_us".toList ++ ['"', ':']) := rfl
  have closing : "\x7d".toList = ['\x7d'] := rfl
  have numbers : ∀ number : Nat,
      (toString number).toList = Nat.toDigits 10 number := by
    simp
  unfold auditText tenantMembers entityMembers verdictMembers
  simp only [String.toList_append, eventName, tenantName, entityName,
    verdictName, degradedName, elapsedName, closing, numbers, List.append_assoc,
    List.cons_append, List.nil_append]

/-! ### Plain ids -/

/-- The ids of the decision have no character that a JSON string must escape. -/
def PlainTexts (decision : Decision) : Prop :=
  Plain decision.tenantId.toList ∧ Plain decision.entityId.toList

/-- The id is the bytes of a text that has no character which a JSON string must
escape. -/
def PlainId (id : List UInt8) : Prop :=
  ∃ text, Plain text ∧ Utf8.encode text = id

/-- Both ids are plain. -/
def PlainIds (record : AuditRecord) : Prop :=
  PlainId record.tenantId ∧ PlainId record.entityId

theorem plainId_bytes_iff
    (text : String) :
    PlainId (bytes text) ↔ Plain text.toList := by
  constructor
  · rintro ⟨other, plain, same⟩
    rwa [← Utf8.encode_injective same]
  · intro plain
    exact ⟨text.toList, plain, rfl⟩

theorem plainIds_auditRecord_iff
    (decision : Decision) :
    PlainIds (auditRecord decision) ↔ PlainTexts decision :=
  and_congr (plainId_bytes_iff _) (plainId_bytes_iff _)

/-- The ids in the log are those of the event that was submitted. -/
theorem plainIds_iff_of_runStages
    {sort : ActiveDecisionSort}
    {config : PipelineConfig}
    {sync : Bool}
    {event : Event}
    {inputs : RunInputs}
    {decision : Decision}
    (decided : runStages sort config sync event inputs = .decided decision) :
    PlainIds (auditRecord decision) ↔
      Plain event.tenantId.toList ∧ Plain event.entityId.toList := by
  obtain ⟨context, -, rfl⟩ := exists_of_runStages_decided decided
  rw [plainIds_auditRecord_iff, PlainTexts,
    (assemble_ids _ _ _ _ _).1, (assemble_ids _ _ _ _ _).2]
  rfl

theorem plain_auditVerdict
    (verdict : Verdict) :
    Plain (auditVerdict verdict).toList := by
  cases verdict with
  | pass => decide
  | flag => decide
  | block => decide

/-- The members of the message, as they are meant. -/
def auditMembers (decision : Decision) : List (String × Json) :=
  [("event_id", .integer decision.eventId.toNat),
    ("tenant_id", .string decision.tenantId),
    ("entity_id", .string decision.entityId),
    ("final_verdict", .string (auditVerdict decision.finalVerdict)),
    ("degraded", .boolean decision.isDegraded),
    ("elapsed_us", .integer decision.elapsedUs.toNat)]

/-- The names of the members are plain. -/
structure PlainNames : Prop where
  eventId : Plain "event_id".toList
  tenantId : Plain "tenant_id".toList
  entityId : Plain "entity_id".toList
  finalVerdict : Plain "final_verdict".toList
  degraded : Plain "degraded".toList
  elapsedUs : Plain "elapsed_us".toList

theorem plainNames : PlainNames := by
  constructor
  all_goals decide

theorem readMembers_verdictMembers
    (decision : Decision) :
    readMembers 4 (verdictMembers decision) =
      some ((auditMembers decision).drop 3, []) := by
  rw [verdictMembers, readMembers_stringMember 2 plainNames.finalVerdict _
    (plain_auditVerdict _), readMembers_booleanMember 1 plainNames.degraded,
    readMembers_lastNumber 0 plainNames.elapsedUs]
  simp only [Option.bind_some, String.ofList_toList]
  rfl

theorem denotes_auditText
    {decision : Decision}
    (plain : PlainTexts decision) :
    Denotes (auditText decision) (.object (auditMembers decision)) := by
  refine ⟨8, [], ?_, rfl⟩
  rw [toList_auditText, readValue_object,
    readMembers_numberMember 5 plainNames.eventId, tenantMembers,
    readMembers_stringMember 4 plainNames.tenantId _ plain.1, entityMembers,
    readMembers_stringMember 3 plainNames.entityId _ plain.2,
    readMembers_verdictMembers]
  simp only [Option.bind_some, String.ofList_toList]
  rfl

theorem shows_auditMembers
    (decision : Decision) :
    Shows (auditMembers decision) (auditRecord decision) :=
  { eventId := fun value => by simp [auditMembers, auditRecord]
    tenantId := ⟨_, rfl, fun value => by simp [auditMembers]⟩
    entityId := ⟨_, rfl, fun value => by simp [auditMembers]⟩
    finalVerdict := fun value => by simp [auditMembers, auditRecord]
    degraded := fun value => by
      simp [auditMembers, auditRecord, AuditRecord.isDegraded,
        Decision.isDegraded]
    elapsedUs := fun value => by simp [auditMembers, auditRecord] }

/-! ### Messages that are equal -/

theorem plain_toString_bool
    (value : Bool) :
    Plain (toString value).toList := by
  cases value with
  | true => decide
  | false => decide

theorem not_mem_of_plain
    {character : Char}
    {text : List Char}
    (notPlain : isPlain character = false)
    (plain : Plain text) :
    character ∉ text := by
  intro member
  rw [plain character member] at notPlain
  cases notPlain

/-- How often a character that is in none of the names, numbers and words stands
in the message. -/
theorem count_auditText
    {character : Char}
    (notPlain : isPlain character = false)
    (notDigit : ¬ character.isDigit)
    (decision : Decision) :
    (auditText decision).toList.count character =
      decision.tenantId.toList.count character +
        decision.entityId.toList.count character +
        if character = '"' then 18 else 0 := by
  have inPlain : ∀ text, Plain text → text.count character = 0 :=
    fun text plain => List.count_eq_zero.mpr (not_mem_of_plain notPlain plain)
  have inNumber : ∀ number, (Nat.toDigits 10 number).count character = 0 :=
    fun number => List.count_eq_zero.mpr
      (Separators.not_mem_toDigits notDigit number)
  have notMark : ∀ mark, isPlain mark = true → (mark == character) = false := by
    intro mark plain
    refine beq_eq_false_iff_ne.mpr ?_
    rintro rfl
    rw [plain] at notPlain
    cases notPlain
  rw [toList_auditText]
  simp only [tenantMembers, entityMembers, verdictMembers, List.count_append,
    List.count_cons, List.count_nil, inNumber,
    inPlain _ plainNames.eventId, inPlain _ plainNames.tenantId,
    inPlain _ plainNames.entityId, inPlain _ plainNames.finalVerdict,
    inPlain _ plainNames.degraded, inPlain _ plainNames.elapsedUs,
    inPlain _ (plain_auditVerdict _), inPlain _ (plain_toString_bool _),
    notMark ',' (by decide), notMark ':' (by decide),
    notMark '\x7b' (by decide), notMark '\x7d' (by decide),
    Bool.false_eq_true, if_false]
  by_cases quote : character = '"'
  · rw [if_pos (beq_iff_eq.mpr quote.symm), if_pos quote]
    omega
  · rw [if_neg fun same => quote (beq_iff_eq.mp same).symm, if_neg quote]
    omega

theorem newline_not_mem_auditText
    {decision : Decision}
    (plain : PlainTexts decision) :
    '\n' ∉ (auditText decision).toList := by
  refine List.count_eq_zero.mp ?_
  rw [count_auditText (by decide) (by decide),
    List.count_eq_zero.mpr (not_mem_of_plain (by decide) plain.1),
    List.count_eq_zero.mpr (not_mem_of_plain (by decide) plain.2),
    if_neg (by decide)]

theorem auditVerdict_injective
    {first second : Verdict}
    (same : (auditVerdict first).toList = (auditVerdict second).toList) :
    first = second := by
  cases first <;> cases second <;>
    first
    | rfl
    | exact absurd same (by decide)

theorem toString_bool_injective
    {first second : Bool}
    (same : (toString first).toList = (toString second).toList) :
    first = second := by
  cases first <;> cases second <;>
    first
    | rfl
    | exact absurd same (by decide)

/-- A decision with plain ids shares its message only with decisions that look
the same in the log: the quotation marks of the message leave none for the ids
of the other one. -/
theorem sameAudit_of_auditText_eq
    {other decision : Decision}
    (plain : PlainTexts decision)
    (same : auditText other = auditText decision) :
    SameAudit (auditRecord other) (auditRecord decision) := by
  have quoteNotPlain : isPlain '"' = false := by decide
  have noTenantQuote := not_mem_of_plain quoteNotPlain plain.1
  have noEntityQuote := not_mem_of_plain quoteNotPlain plain.2
  have counts := count_auditText quoteNotPlain (by decide) other
  rw [same, count_auditText quoteNotPlain (by decide),
    List.count_eq_zero.mpr noTenantQuote,
    List.count_eq_zero.mpr noEntityQuote] at counts
  have noOtherTenant : '"' ∉ other.tenantId.toList :=
    List.count_eq_zero.mp (by omega)
  have noOtherEntity : '"' ∉ other.entityId.toList :=
    List.count_eq_zero.mp (by omega)
  have texts := congrArg String.toList same
  have inNumber : ∀ number, ',' ∉ Nat.toDigits 10 number :=
    Separators.not_mem_toDigits (by decide)
  have inBoolean : ∀ value : Bool, ',' ∉ (toString value).toList := by
    decide
  simp only [toList_auditText, List.cons.injEq, true_and,
    List.append_cancel_left_eq] at texts
  obtain ⟨sameEvent, texts⟩ :=
    Separators.append_cons_inj (inNumber _) (inNumber _) texts
  simp only [tenantMembers, List.cons.injEq, true_and,
    List.append_cancel_left_eq] at texts
  obtain ⟨sameTenant, texts⟩ :=
    Separators.append_cons_inj noOtherTenant noTenantQuote texts
  simp only [entityMembers, List.cons.injEq, true_and,
    List.append_cancel_left_eq] at texts
  obtain ⟨sameEntity, texts⟩ :=
    Separators.append_cons_inj noOtherEntity noEntityQuote texts
  simp only [verdictMembers, List.cons.injEq, true_and,
    List.append_cancel_left_eq] at texts
  obtain ⟨sameVerdict, texts⟩ :=
    Separators.append_cons_inj
      (not_mem_of_plain quoteNotPlain (plain_auditVerdict _))
      (not_mem_of_plain quoteNotPlain (plain_auditVerdict _)) texts
  simp only [List.cons.injEq, true_and, List.append_cancel_left_eq] at texts
  obtain ⟨sameDegraded, texts⟩ :=
    Separators.append_cons_inj (inBoolean _) (inBoolean _) texts
  simp only [List.cons.injEq, true_and, List.append_cancel_left_eq,
    List.append_cancel_right_eq] at texts
  exact
    { eventId := UInt64.toNat_inj.mp (Separators.toDigits_injective sameEvent)
      tenantId := congrArg Utf8.encode sameTenant
      entityId := congrArg Utf8.encode sameEntity
      finalVerdict := auditVerdict_injective sameVerdict
      degraded := toString_bool_injective sameDegraded
      elapsedUs := UInt64.toNat_inj.mp (Separators.toDigits_injective texts) }

/-! ### Ids that are not plain -/

theorem verdictMembers_eq
    (decision : Decision) :
    verdictMembers decision = '"' :: 'f' :: (verdictMembers decision).drop 2 :=
  rfl

theorem entityMembers_eq
    (decision : Decision) :
    entityMembers decision = '"' :: 'e' :: (entityMembers decision).drop 2 :=
  rfl

/-- A message that shows the decision has plain ids. -/
theorem plainTexts_of_shows
    {decision : Decision}
    {members : List (String × Json)}
    (denotes : Denotes (auditText decision) (.object members))
    (shows : Shows members (auditRecord decision)) :
    PlainTexts decision := by
  obtain ⟨tenantText, sameTenant, isTenant⟩ := shows.tenantId
  obtain rfl := bytes_injective sameTenant
  obtain ⟨entityText, sameEntity, isEntity⟩ := shows.entityId
  obtain rfl := bytes_injective sameEntity
  obtain ⟨fuel, rest, read, -⟩ := denotes
  rw [toList_auditText] at read
  match fuel with
  | 0 => cases read
  | fuel + 1 =>
      rw [readValue_object] at read
      obtain ⟨⟨others, remaining⟩, readsMembers, same⟩ :=
        Option.bind_eq_some_iff.mp read
      cases same
      match fuel with
      | 0 => cases readsMembers
      | 1 =>
          rw [readMembers_member 0 plainNames.eventId] at readsMembers
          cases readsMembers
      | fuel + 2 =>
          rw [readMembers_numberMember fuel plainNames.eventId] at readsMembers
          obtain ⟨⟨afterEvent, remaining⟩, readsTenant, same⟩ :=
            Option.bind_eq_some_iff.mp readsMembers
          cases same
          rw [tenantMembers, entityMembers_eq] at readsTenant
          obtain ⟨plainTenant, _, afterTenant, readsEntity, rfl⟩ :=
            plain_of_readMembers plainNames.tenantId (by decide) (by decide)
              (by decide) readsTenant (by
                intro value member
                rw [String.ofList_toList] at member ⊢
                exact (isTenant value).mp
                  (List.mem_cons_of_mem _ member))
          rw [← entityMembers_eq, entityMembers, verdictMembers_eq]
            at readsEntity
          obtain ⟨plainEntity, -⟩ :=
            plain_of_readMembers plainNames.entityId (by decide) (by decide)
              (by decide) readsEntity (by
                intro value member
                rw [String.ofList_toList] at member ⊢
                exact (isEntity value).mp
                  (List.mem_cons_of_mem _ (List.mem_cons_of_mem _ member)))
          exact ⟨plainTenant, plainEntity⟩

/-- A record with plain ids shares its message only with records that look the
same in the log. -/
theorem sameAudit_of_auditMessage_eq
    {other : AuditRecord}
    {decision : Decision}
    (plain : PlainTexts decision)
    (same : auditMessage other = auditMessage (auditRecord decision)) :
    SameAudit other (auditRecord decision) := by
  rw [auditMessage_auditRecord] at same
  obtain ⟨tenant, entity⟩ := isText_ids ⟨_, same.symm⟩
  obtain ⟨otherDecision, rfl⟩ := exists_decision tenant entity
  rw [auditMessage_auditRecord] at same
  exact sameAudit_of_auditText_eq plain (bytes_injective same)

/-- The audit message is faithful exactly for the records whose ids are UTF-8 and
have no quotation mark, no backslash and no control character. -/
theorem faithful_iff_plainIds
    (record : AuditRecord) :
    Faithful record ↔ PlainIds record := by
  constructor
  · intro faithful
    obtain ⟨text, members, isMessage, denotes, shows⟩ := faithful.shows
    obtain ⟨tenant, isTenant, -⟩ := shows.tenantId
    obtain ⟨entity, isEntity, -⟩ := shows.entityId
    obtain ⟨decision, rfl⟩ := exists_decision ⟨_, isTenant⟩ ⟨_, isEntity⟩
    rw [auditMessage_auditRecord] at isMessage
    obtain rfl := bytes_injective isMessage
    rw [plainIds_auditRecord_iff]
    exact plainTexts_of_shows denotes shows
  · intro plain
    have ⟨⟨_, _, isTenant⟩, _, _, isEntity⟩ := plain
    obtain ⟨decision, rfl⟩ := exists_decision ⟨_, isTenant⟩ ⟨_, isEntity⟩
    have plainTexts := (plainIds_auditRecord_iff decision).mp plain
    refine
      { oneLine := ?_
        shows := ⟨auditText decision, auditMembers decision,
          (auditMessage_auditRecord decision).symm, denotes_auditText plainTexts,
          shows_auditMembers decision⟩
        unique := fun _ same => sameAudit_of_auditMessage_eq plainTexts same }
    intro newline
    rw [auditMessage_auditRecord] at newline
    exact newline_not_mem_auditText plainTexts
      (Utf8.mem_of_mem_encode (by decide) (by decide) newline)

/-- An id that holds the text between the two ids, one with a line break and one
that is not UTF-8. -/
theorem ids_forge_members_and_lines :
    let record (tenantId entityId : List UInt8) : AuditRecord :=
      { eventId := 0, tenantId := tenantId, entityId := entityId
        finalVerdict := .pass, degradedReason := .none, elapsedUs := 0 }
    let first := record (bytes "a\",\"entity_id\":\"b") (bytes "c")
    let second := record (bytes "a") (bytes "b\",\"entity_id\":\"c")
    let third := record (bytes "a") (bytes "b\n")
    let fourth := record [255] (bytes "b")
    auditMessage first = auditMessage second ∧ ¬ SameAudit first second ∧
      ¬ Faithful second ∧ 10 ∈ auditMessage third ∧ ¬ Faithful third ∧
      ¬ Faithful fourth := by
  intro record first second third fourth
  have sameMessage : auditMessage first = auditMessage second := by
    decide +kernel
  have different : ¬ SameAudit first second := by
    intro same
    exact absurd same.tenantId (by decide +kernel)
  have newline : 10 ∈ auditMessage third := by
    decide +kernel
  refine ⟨sameMessage, different,
    fun faithful => different (faithful.unique first sameMessage), newline,
    fun faithful => faithful.oneLine newline, ?_⟩
  intro faithful
  obtain ⟨text, members, -, -, shows⟩ := faithful.shows
  obtain ⟨tenant, isTenant, -⟩ := shows.tenantId
  exact absurd (Utf8.ascii_of_isText_singleton ⟨_, isTenant⟩) (by decide)

end Pipeline
end Fre
