import Fre.Foundation.Strtod
import Fre.Core.Event
import Fre.Core.Verdict
import Mathlib.Data.List.Infix
import Mathlib.Data.Stream.Init

/-!
# Policy rules and their evaluation

`PolicyRule` is a variant with one alternative for each node type of the
source.  The children of `And`, `Or` and `Not` are owning pointers, which may be
null in a rule that was moved from.  A variant without a value is a node of its
own: visiting it throws.  The leaves about the age of an event read the clock
when they are reached, so evaluation takes the readings it is given one by one.
-/

namespace Fre
namespace Policy

open Foundation

/-- `PolicyContext`. -/
structure PolicyContext where
  event : Event
  stageOutputs : List StageOutput
  deriving DecidableEq

/-- The successive readings of the system clock, nanoseconds since the
epoch. -/
abbrev Clock := Stream' Int64

/-- `PolicyRule`.  Durations are milliseconds. -/
inductive PolicyRule
  | stageVerdictIs (stageId : String) (verdict : Verdict)
  | evaluatorScoreAbove (evaluatorId : String) (threshold : Single)
  | tagEquals (key value : String)
  | and (left right : Option PolicyRule)
  | or (left right : Option PolicyRule)
  | not (expr : Option PolicyRule)
  | tagContains (key substring : String)
  | tagStartsWith (key leading : String)
  | tagIn (key : String) (values : List String)
  | tagExists (key : String)
  | tagValueLessThan (key : String) (threshold : Double)
  | tagValueGreaterThan (key : String) (threshold : Double)
  | tagValueBetween (key : String) (lo hi : Double)
  | eventTypeIs (eventType : String)
  | eventTypeIn (eventTypes : List String)
  | tenantIs (tenantId : String)
  | eventOlderThan (duration : Int64)
  | eventNewerThan (duration : Int64)
  | evaluatorScoreBetween (evaluatorId : String) (lo hi : Single)
  | stageIsDegraded (stageId : String)
  | evaluatorWasSkipped (evaluatorId : String)
  | evaluatorReasonIs (evaluatorId reasonCode : String)
  | valueless

/-- The node occurs in the rule. -/
inductive PolicyRule.Occurs (node : PolicyRule) : PolicyRule → Prop
  | here : Occurs node node
  | andLeft {left : PolicyRule} (right : Option PolicyRule) :
      Occurs node left → Occurs node (.and (some left) right)
  | andRight (left : Option PolicyRule) {right : PolicyRule} :
      Occurs node right → Occurs node (.and left (some right))
  | orLeft {left : PolicyRule} (right : Option PolicyRule) :
      Occurs node left → Occurs node (.or (some left) right)
  | orRight (left : Option PolicyRule) {right : PolicyRule} :
      Occurs node right → Occurs node (.or left (some right))
  | not {expr : PolicyRule} :
      Occurs node expr → Occurs node (.not (some expr))

/-- `find_tag`, none for an absent tag. -/
def findTag (event : Event) (key : String) : Option String :=
  (event.tags.find? fun tag => tag.key == key).map Tag.value

/-- The view that `find_tag` returns has no data: the tag is absent, or its
value has none. -/
def findsNoData (event : Event) (key : String) : Bool :=
  (event.tags.find? fun tag => tag.key == key).all Tag.valueIsNull

/-- `parse_double`, none where the source reports a failure.  The buffer has
room for 63 bytes. -/
def parseDouble (text : String) : Option Double :=
  if text.isEmpty then none
  else if 64 ≤ text.utf8ByteSize then none
  else
    match strtod .binary64 text.toList with
    | (value, []) => some value
    | (_, _ :: _) => none

namespace PolicyContext

/-- The results of all stage outputs, in the order the leaves visit them. -/
def results (context : PolicyContext) : List EvaluatorResult :=
  context.stageOutputs.flatMap StageOutput.evaluatorResults

/-- The first output of a stage. -/
def stageOutput (context : PolicyContext) (stageId : String) :
    Option StageOutput :=
  context.stageOutputs.find? fun output => output.stageId == stageId

/-- What a leaf asks of the first tag with its key. -/
def tagSatisfies (context : PolicyContext) (key : String)
    (condition : String → Bool) : Bool :=
  (findTag context.event key).any condition

/-- What a leaf asks of the number in the first tag with its key. -/
def tagNumberSatisfies (context : PolicyContext) (key : String)
    (condition : Double → Bool) : Bool :=
  context.tagSatisfies key fun value => (parseDouble value).any condition

/-- The first result of an evaluator. -/
def firstResult (context : PolicyContext) (evaluatorId : String) :
    Option EvaluatorResult :=
  context.results.find? fun result => result.evaluatorId == evaluatorId

/-- The first score among the results of an evaluator. -/
def firstScore (context : PolicyContext) (evaluatorId : String) :
    Option Single :=
  (context.results.find? fun result =>
    result.evaluatorId == evaluatorId && result.score.isSome).bind
      EvaluatorResult.score

/-- The age of the event at a reading of the clock. -/
def age (context : PolicyContext) (now : Int64) : Int64 :=
  now - context.event.timestamp

end PolicyContext

/-- A duration in nanoseconds. -/
def nanoseconds (milliseconds : Int64) : Int64 := milliseconds * 1000000

namespace RuleEngine

/-- `RuleEngine::evaluate`: the outcome, none if it throws, and the clock
afterwards. -/
def evaluate (context : PolicyContext) :
    PolicyRule → Clock → Option Bool × Clock
  | .stageVerdictIs stageId verdict, clock =>
      (some ((context.stageOutput stageId).any fun output =>
        output.verdict == verdict), clock)
  | .evaluatorScoreAbove evaluatorId threshold, clock =>
      (some (context.results.any fun result =>
        result.evaluatorId == evaluatorId &&
          result.score.any fun score => threshold.le score), clock)
  | .tagEquals key value, clock =>
      (some (context.event.tags.any fun tag =>
        tag.key == key && tag.value == value), clock)
  | .and (some left) (some right), clock =>
      match evaluate context left clock with
      | (some true, rest) => evaluate context right rest
      | (outcome, rest) => (outcome, rest)
  | .and _ _, clock => (some false, clock)
  | .or (some left) (some right), clock =>
      match evaluate context left clock with
      | (some false, rest) => evaluate context right rest
      | (outcome, rest) => (outcome, rest)
  | .or _ _, clock => (some false, clock)
  | .not (some expr), clock =>
      match evaluate context expr clock with
      | (outcome, rest) => (outcome.map (!·), rest)
  | .not none, clock => (some true, clock)
  | .tagContains key substring, clock =>
      (some (!(findsNoData context.event key && key.isEmpty) &&
        context.tagSatisfies key fun value =>
          substring.toList <:+: value.toList), clock)
  | .tagStartsWith key leading, clock =>
      (some (context.tagSatisfies key fun value =>
        leading.toList <+: value.toList), clock)
  | .tagIn key values, clock =>
      (some (context.tagSatisfies key fun value => value ∈ values), clock)
  | .tagExists key, clock =>
      (some (context.event.tags.any fun tag => tag.key == key), clock)
  | .tagValueLessThan key threshold, clock =>
      (some (context.tagNumberSatisfies key fun value =>
        value.lt threshold), clock)
  | .tagValueGreaterThan key threshold, clock =>
      (some (context.tagNumberSatisfies key fun value =>
        threshold.lt value), clock)
  | .tagValueBetween key lo hi, clock =>
      (some (!hi.le lo && context.tagNumberSatisfies key fun value =>
        lo.le value && value.lt hi), clock)
  | .eventTypeIs eventType, clock =>
      (some (context.event.eventType == eventType), clock)
  | .eventTypeIn eventTypes, clock =>
      (some (context.event.eventType ∈ eventTypes), clock)
  | .tenantIs tenantId, clock =>
      (some (context.event.tenantId == tenantId), clock)
  | .eventOlderThan duration, clock =>
      let age := context.age clock.head
      (some (!decide (age ≤ nanoseconds 0) && nanoseconds duration < age),
        clock.tail)
  | .eventNewerThan duration, clock =>
      let age := context.age clock.head
      (some (!decide (age < nanoseconds 0) && age < nanoseconds duration),
        clock.tail)
  | .evaluatorScoreBetween evaluatorId lo hi, clock =>
      (some (!hi.le lo && (context.firstScore evaluatorId).any fun score =>
        lo.le score && score.lt hi), clock)
  | .stageIsDegraded stageId, clock =>
      (some ((context.stageOutput stageId).any fun output =>
        output.degradedReason.isDegraded), clock)
  | .evaluatorWasSkipped evaluatorId, clock =>
      (some ((context.firstResult evaluatorId).any fun result =>
        result.skipped), clock)
  | .evaluatorReasonIs evaluatorId reasonCode, clock =>
      (some ((context.firstResult evaluatorId).any fun result =>
        result.reasonCode == some reasonCode), clock)
  | .valueless, clock => (none, clock)

/-! ### A fixed time -/

/-- Evaluation leaves a clock that stands still as it is. -/
theorem evaluate_const_clock
    (context : PolicyContext)
    (rule : PolicyRule)
    (now : Int64) :
    (evaluate context rule (Stream'.const now)).2 =
      Stream'.const now := by
  generalize fixed : Stream'.const now = clock
  fun_induction evaluate context rule clock with
  | case4 left right clock rest evaluated leftHypothesis rightHypothesis =>
      have unchanged : rest = clock := by
        simpa [evaluated] using leftHypothesis fixed
      rw [rightHypothesis (fixed.trans unchanged.symm), unchanged]
  | case5 left right clock outcome rest other evaluated leftHypothesis =>
      simpa [evaluated] using leftHypothesis fixed
  | case7 left right clock rest evaluated leftHypothesis rightHypothesis =>
      have unchanged : rest = clock := by
        simpa [evaluated] using leftHypothesis fixed
      rw [rightHypothesis (fixed.trans unchanged.symm), unchanged]
  | case8 left right clock outcome rest other evaluated leftHypothesis =>
      simpa [evaluated] using leftHypothesis fixed
  | case10 expr clock outcome rest evaluated inductionHypothesis =>
      simpa [evaluated] using inductionHypothesis fixed
  | case22 duration clock age =>
      rw [← fixed]
      exact Stream'.tail_const now
  | case23 duration clock age =>
      rw [← fixed]
      exact Stream'.tail_const now
  | _ => rfl

/-- The outcome of a rule at one time. -/
def valueAt (context : PolicyContext) (now : Int64) (rule : PolicyRule) :
    Option Bool :=
  (evaluate context rule (Stream'.const now)).1

section ValueAt

variable (context : PolicyContext) (now : Int64) (left right expr : PolicyRule)

theorem valueAt_and :
    valueAt context now (.and (some left) (some right)) =
      if valueAt context now left = some true then valueAt context now right
      else valueAt context now left := by
  have still := evaluate_const_clock context left now
  unfold valueAt
  rw [evaluate]
  split
  next rest evaluated =>
    rw [evaluated] at still ⊢
    rw [if_pos rfl, ← still]
  next outcome rest other evaluated =>
    rw [evaluated]
    rw [if_neg fun isTrue => other isTrue]

theorem valueAt_or :
    valueAt context now (.or (some left) (some right)) =
      if valueAt context now left = some false then valueAt context now right
      else valueAt context now left := by
  have still := evaluate_const_clock context left now
  unfold valueAt
  rw [evaluate]
  split
  next rest evaluated =>
    rw [evaluated] at still ⊢
    rw [if_pos rfl, ← still]
  next outcome rest other evaluated =>
    rw [evaluated]
    rw [if_neg fun isFalse => other isFalse]

theorem valueAt_not :
    valueAt context now (.not (some expr)) =
      (valueAt context now expr).map (!·) := by
  unfold valueAt
  rw [evaluate]

end ValueAt

end RuleEngine
end Policy
end Fre
