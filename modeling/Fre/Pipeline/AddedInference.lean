import Fre.Pipeline.RunEvent
import Fre.Policy.OneInstant
import Fre.Policy.Polarity
import Fre.Stage.PolicyVerdict
import Fre.Stage.RuleOrder

/-!
# A pipeline with an inference stage added

The inference stage runs right before the policy stage, so its output is one
more for the rules to look at.  It can take a block back: a rule that blocks
unless some score is there, or one that lets an event through before a rule
that blocks is reached.  A policy in which such rules do not occur blocks, with
the stage added, whatever it has blocked without.
-/

namespace Fre
namespace Pipeline

open Foundation Policy Stage PolicyStage RuleEngine Undominated

/-! ### Accepted rules do not throw -/

/-- The validation can walk the rule. -/
def Walked (rule : PolicyRule) : Prop := (collectStageRefs rule).isSome = true

theorem walked_operands
    {left right : PolicyRule}
    (walked : (collectBoth (collectStageRefs left)
      (collectStageRefs right)).isSome = true) :
    Walked left ∧ Walked right := by
  obtain ⟨refs, both⟩ := Option.isSome_iff_exists.mp walked
  obtain ⟨leftRefs, rightRefs, leftWalked, rightWalked, -⟩ :=
    collectBoth_eq_some_iff.mp both
  exact ⟨Option.isSome_of_mem leftWalked, Option.isSome_of_mem rightWalked⟩

/-- Such a rule has a value in every context. -/
theorem isSome_evaluate
    {rule : PolicyRule}
    (walked : Walked rule)
    (context : PolicyContext)
    (clock : Clock) :
    (evaluate context rule clock).1.isSome = true := by
  fun_induction evaluate context rule clock with
  | case4 left right clock rest evaluated leftHypothesis rightHypothesis =>
      exact rightHypothesis (walked_operands walked).2
  | case5 left right clock outcome rest other evaluated leftHypothesis =>
      rw [evaluated] at leftHypothesis
      exact leftHypothesis (walked_operands walked).1
  | case7 left right clock rest evaluated leftHypothesis rightHypothesis =>
      exact rightHypothesis (walked_operands walked).2
  | case8 left right clock outcome rest other evaluated leftHypothesis =>
      rw [evaluated] at leftHypothesis
      exact leftHypothesis (walked_operands walked).1
  | case10 expr clock outcome rest evaluated inductionHypothesis =>
      rw [evaluated] at inductionHypothesis
      rw [Option.isSome_map]
      exact inductionHypothesis walked
  | case28 clock => exact absurd walked Bool.false_ne_true
  | _ => rfl

theorem walked_of_validateRules
    {config : PipelineConfig}
    {rules : List PolicyStageRule}
    (passed : validateRules config rules = some none) :
    ∀ psr ∈ rules, Walked psr.rule := by
  induction rules with
  | nil => simp
  | cons psr rest inductionHypothesis =>
      rw [validateRules] at passed
      obtain ⟨error, checked, passed⟩ := Option.bind_eq_some_iff.mp passed
      cases error with
      | some error => simp at passed
      | none =>
          obtain ⟨refs, walked, -⟩ := Option.map_eq_some_iff.mp checked
          exact List.forall_mem_cons.mpr
            ⟨Option.isSome_of_mem walked, inductionHypothesis passed⟩

/-! ### Visits at one time -/

/-- At all readings the nodes of the rule that read the clock have the values
of one time. -/
def SeesOneTime (event : Event) (time : Int64) (clock : Clock)
    (rule : PolicyRule) : Prop :=
  ∀ node, node.Occurs rule → node.readsClock = true → ∀ index,
    valueAt { event, stageOutputs := [] } (clock.get index) node =
      valueAt { event, stageOutputs := [] } time node

/-- Such nodes look at the time of the event alone. -/
theorem valueAt_of_readsClock
    {node : PolicyRule}
    (reads : node.readsClock = true)
    {context other : PolicyContext}
    (sameTime : context.event.timestamp = other.event.timestamp)
    (now : Int64) :
    valueAt context now node = valueAt other now node := by
  unfold valueAt
  cases node with
  | eventOlderThan duration =>
      rw [evaluate, evaluate, PolicyContext.age, PolicyContext.age, sameTime]
  | eventNewerThan duration =>
      rw [evaluate, evaluate, PolicyContext.age, PolicyContext.age, sameTime]
  | _ => exact absurd reads Bool.false_ne_true

/-- The rules with their outcomes. -/
def outcomes (value : PolicyRule → Option Bool)
    (rules : List PolicyStageRule) : List Visit :=
  rules.map fun psr => (psr, value psr.rule)

theorem visits_eq_outcomes
    {context : PolicyContext}
    {event : Event}
    (sameTime : context.event.timestamp = event.timestamp)
    {rules : List PolicyStageRule}
    {time : Int64}
    {clock : Clock}
    (oneTime : ∀ psr ∈ rules, SeesOneTime event time clock psr.rule)
    (start : Nat) :
    visits context rules (clock.drop start) =
      outcomes (valueAt context time) rules := by
  induction rules generalizing start with
  | nil => rfl
  | cons psr rest inductionHypothesis =>
      rw [List.forall_mem_cons] at oneTime
      have first : (evaluate context psr.rule (clock.drop start)).1 =
          valueAt context time psr.rule := by
        apply evaluate_fst_eq_valueAt
        intro index _ node occurs reads
        rw [Stream'.get_drop]
        have blind := @valueAt_of_readsClock node reads context
          { event, stageOutputs := [] } sameTime
        rw [blind, blind]
        exact oneTime.1 node occurs reads (start + index)
      have later := inductionHypothesis oneTime.2
        (start + readings context psr.rule (clock.drop start))
      rw [← Stream'.drop_drop, ← evaluate_snd] at later
      calc visits context (psr :: rest) (clock.drop start)
        _ = (psr, (evaluate context psr.rule (clock.drop start)).1) ::
            visits context rest
              (evaluate context psr.rule (clock.drop start)).2 := rfl
        _ = outcomes (valueAt context time) (psr :: rest) := by
          rw [first, later]
          rfl

/-! ### Rules that block -/

/-- No output that is added can take a block back: the rules that block look at
outputs under an even number of `Not`s, the others under an odd number, and no
incompatible type wins over the type of a rule that blocks. -/
structure KeepsBlocks (registry : Option DecisionTypeRegistry)
    (rules : List PolicyStageRule) : Prop where
  blocking : ∀ psr ∈ rules, psr.actionVerdict = .block →
    psr.rule.allSigned true = true
  others : ∀ psr ∈ rules, psr.actionVerdict ≠ .block →
    psr.rule.allSigned false = true
  undefeated : ∀ used, registry = some used → ∀ psr ∈ rules,
    psr.actionVerdict = .block → ∀ typeId, psr.decisionTypeId = some typeId →
      ∀ winner, ¬ Defeats used winner typeId

/-- A rule that matches among the visits up to the first match is the first
match. -/
theorem mem_untilMatch_iff
    {visited : List Visit}
    {visit : Visit} :
    visit ∈ untilMatch visited ∧ visit.2 = some true ↔
      firstMatching visited = some visit := by
  unfold firstMatching
  induction visited with
  | nil => simp [untilMatch]
  | cons first rest inductionHypothesis =>
      unfold untilMatch
      by_cases matched : first.2 = some true
      · rw [if_pos matched, List.find?_cons_of_pos (by simpa using matched),
          List.mem_singleton, Option.some_inj, eq_comm (a := visit)]
        refine and_iff_left_of_imp ?_
        rintro rfl
        exact matched
      · rw [if_neg matched, List.find?_cons_of_neg (by simpa using matched),
          ← inductionHypothesis, List.mem_cons]
        refine and_congr_left fun isTrue => or_iff_right ?_
        rintro rfl
        exact matched isTrue

section Outcomes

variable {rules : List PolicyStageRule} {before after : PolicyRule → Option Bool}

theorem find?_outcomes_eq_some_iff
    (value : PolicyRule → Option Bool)
    (test : Visit → Bool)
    (visit : Visit) :
    (outcomes value rules).find? test = some visit ↔
      ∃ psr, rules.find? (fun psr => test (psr, value psr.rule)) = some psr ∧
        (psr, value psr.rule) = visit := by
  rw [outcomes, List.find?_map, Option.map_eq_some_iff]
  rfl

/-- Outcomes that change only for the better of the rules that block. -/
structure Tightened (rules : List PolicyStageRule)
    (before after : PolicyRule → Option Bool) : Prop where
  keeps : ∀ psr ∈ rules, psr.actionVerdict = .block →
    before psr.rule = some true → after psr.rule = some true
  adds : ∀ psr ∈ rules, psr.actionVerdict ≠ .block →
    after psr.rule = some true → before psr.rule = some true

/-- The first match of a kind blocks if it has blocked before. -/
theorem Tightened.exists_find?
    (tightened : Tightened rules before after)
    {test : Visit → Bool}
    (kind : PolicyStageRule → Bool)
    (tests : ∀ psr outcome,
      test (psr, outcome) = true ↔ outcome = some true ∧ kind psr = true)
    {visit : Visit}
    (found : (outcomes before rules).find? test = some visit)
    (blocks : visit.1.actionVerdict = .block) :
    ∃ other, (outcomes after rules).find? test = some other ∧
      other.1.actionVerdict = .block := by
  obtain ⟨psr, first, rfl⟩ :=
    (find?_outcomes_eq_some_iff before test visit).mp found
  have stays := @FirstByKey.exists_good_find? _ rules
    (fun psr => test (psr, before psr.rule))
    (fun psr => test (psr, after psr.rule))
    (fun psr => psr.actionVerdict == .block)
  simp only [tests, beq_iff_eq, beq_eq_false_iff_ne] at stays
  obtain ⟨other, firstNow, stillBlocks⟩ := stays
    (fun psr member isBlock ⟨matched, ofKind⟩ =>
      ⟨tightened.keeps psr member isBlock matched, ofKind⟩)
    (fun psr member noBlock ⟨matched, ofKind⟩ =>
      ⟨tightened.adds psr member noBlock matched, ofKind⟩)
    first blocks
  exact ⟨_, (find?_outcomes_eq_some_iff after test _).mpr ⟨other, firstNow, rfl⟩,
    stillBlocks⟩

/-- Then a rule that contributes a block is replaced by another at most. -/
theorem Tightened.exists_contributes
    (tightened : Tightened rules before after)
    {registry : Option DecisionTypeRegistry}
    (keepsBlocks : KeepsBlocks registry rules)
    {visit : Visit}
    (contributes : Contributes registry (outcomes before rules) visit)
    (blocks : visit.1.actionVerdict = .block) :
    ∃ other, Contributes registry (outcomes after rules) other ∧
      other.1.actionVerdict = .block := by
  obtain ⟨made, matched, counted⟩ := contributes
  cases registry with
  | none =>
      obtain ⟨other, first, stillBlocks⟩ := tightened.exists_find?
        (fun _ => true) (by simp) (mem_untilMatch_iff.mp ⟨made, matched⟩) blocks
      obtain ⟨stillMade, stillMatched⟩ := mem_untilMatch_iff.mpr first
      exact ⟨other, ⟨stillMade, stillMatched, trivial⟩, stillBlocks⟩
  | some used =>
      rcases counted with noType | ⟨typeId, first, survives⟩
      · obtain ⟨psr, member, rfl⟩ := List.mem_map.mp made
        have stillMatched := tightened.keeps psr member blocks matched
        exact ⟨_, ⟨List.mem_map_of_mem member, stillMatched, .inl noType⟩, blocks⟩
      · obtain ⟨other, firstNow, stillBlocks⟩ := tightened.exists_find?
          (fun psr => psr.decisionTypeId == some typeId)
          (by simp [matchesType]) first blocks
        have stillMade := List.mem_of_find?_eq_some firstNow
        have isMatch := List.find?_some firstNow
        simp only [matchesType, Bool.and_eq_true, beq_iff_eq] at isMatch
        obtain ⟨-, -, -, -, registered⟩ := survives.1
        obtain ⟨psr, member, rfl⟩ := List.mem_map.mp stillMade
        refine ⟨_, ⟨stillMade, isMatch.1, .inr ⟨typeId, firstNow, ?_, ?_⟩⟩,
          stillBlocks⟩
        · exact ⟨_, stillMade, isMatch.1, isMatch.2, registered⟩
        · intro winner _
          exact keepsBlocks.undefeated used rfl psr member stillBlocks typeId
            isMatch.2 winner

end Outcomes

/-- Rules that keep blocks have tightened outcomes after more outputs. -/
theorem tightened_followedBy
    {registry : Option DecisionTypeRegistry}
    {rules : List PolicyStageRule}
    (keepsBlocks : KeepsBlocks registry rules)
    (walked : ∀ psr ∈ rules, Walked psr.rule)
    (context : PolicyContext)
    (more : List StageOutput)
    (time : Int64) :
    Tightened rules (valueAt context time)
      (valueAt (context.followedBy more) time) where
  keeps := by
    intro psr member isBlock holds
    have stays := PolicyRule.allSigned_followedBy more
      (keepsBlocks.blocking psr member isBlock) holds
    obtain ⟨value, evaluated⟩ := Option.isSome_iff_exists.mp
      (isSome_evaluate (walked psr member) (context.followedBy more)
        (Stream'.const time))
    cases value with
    | true => exact evaluated
    | false => exact absurd evaluated stays
  adds := by
    intro psr member noBlock holds
    obtain ⟨value, evaluated⟩ := Option.isSome_iff_exists.mp
      (isSome_evaluate (walked psr member) context (Stream'.const time))
    cases value with
    | true => exact evaluated
    | false =>
        exact absurd holds (PolicyRule.allSigned_followedBy more
          (keepsBlocks.others psr member noBlock) evaluated)

/-- A block of the policy stage stays when it sees more outputs. -/
theorem process_block_followedBy
    {registry : Option DecisionTypeRegistry}
    {policy : PolicyStageConfig}
    (keepsBlocks : KeepsBlocks (activeRegistry registry policy.rules)
      policy.rules)
    (walked : ∀ psr ∈ policy.rules, Walked psr.rule)
    {context : PolicyContext}
    (event : Event)
    (sameTime : context.event.timestamp = event.timestamp)
    {time : Int64}
    {clock later : Clock}
    (oneTime : ∀ psr ∈ policy.rules, SeesOneTime event time clock psr.rule)
    (laterOneTime : ∀ psr ∈ policy.rules,
      SeesOneTime event time later psr.rule)
    {elapsedUs : UInt64}
    (more : List StageOutput)
    (blocked : (process registry policy context clock elapsedUs).verdict =
      .block)
    (laterUs : UInt64) :
    (process registry policy (context.followedBy more) later laterUs).verdict =
      .block := by
  rw [process_verdict_eq_block_iff] at blocked ⊢
  obtain ⟨visit, contributes, isBlock⟩ := blocked
  have visited := visits_eq_outcomes sameTime oneTime 0
  have visitedLater :=
    @visits_eq_outcomes (context.followedBy more) event sameTime _ _ _ laterOneTime 0
  rw [Stream'.drop_zero] at visited visitedLater
  rw [visited] at contributes
  rw [visitedLater]
  exact (tightened_followedBy keepsBlocks walked context more time)
    |>.exists_contributes keepsBlocks contributes isBlock

/-! ### Two runs -/

theorem finalVerdict_assemble
    (sort : ActiveDecisionSort)
    (config : PipelineConfig)
    (inputs : RunInputs)
    (decision : Decision)
    (outputs : List StageOutput) :
    (assemble sort config inputs decision outputs).finalVerdict =
      Verdict.strictest (outputs.map StageOutput.verdict) := by
  unfold assemble Decision.computeActiveDecisions
  split
  · rfl
  · split <;> rfl

/-- With an inference stage added, the policy stage is called with one more
output. -/
theorem policyContext_withInference
    {config : PipelineConfig}
    (without : config.inferenceConfig = none)
    {inference : InferenceStageConfig}
    {event : Event}
    {inputs : RunInputs}
    {later : Clock}
    {context contextWith : PolicyContext}
    (reached : policyContext config event inputs = some context)
    (reachedWith : policyContext { config with inferenceConfig := some inference }
      event { inputs with policyClock := later } = some contextWith) :
    context.event = event ∧ ∃ more, contextWith = context.followedBy more := by
  obtain ⟨evaluated, inferred, evalDone, inferenceDone, rfl⟩ :=
    policyContext_eq_some_iff.mp reached
  obtain ⟨evaluatedWith, inferredWith, evalDoneWith, -, rfl⟩ :=
    policyContext_eq_some_iff.mp reachedWith
  have sameEval : evaluated = evaluatedWith :=
    Option.some_inj.mp (evalDone.symm.trans evalDoneWith)
  have noInference : inferred = [] := by
    rw [inferenceOutputs, without] at inferenceDone
    exact (Option.some_inj.mp inferenceDone).symm
  subst sameEval noInference
  refine ⟨rfl, inferredWith, ?_⟩
  rw [PolicyContext.followedBy, List.append_nil]
  rfl

/-- An event that a pipeline without an inference stage blocks is blocked with
any inference stage added, if its policy keeps blocks and its rules see one time
in both runs. -/
theorem added_inference_keeps_blocks
    {builder : Builder}
    {config : PipelineConfig}
    (built : builder.build = some (.ok config))
    (without : config.inferenceConfig = none)
    (inference : InferenceStageConfig)
    {sort : ActiveDecisionSort}
    {sync : Bool}
    {event : Event}
    {inputs : RunInputs}
    {later : Clock}
    {time : Int64}
    (keepsBlocks : ∀ policy, config.policyConfig = some policy →
      KeepsBlocks (activeRegistry config.decisionTypeRegistry policy.rules)
        policy.rules)
    (oneTime : ∀ policy, config.policyConfig = some policy →
      ∀ psr ∈ policy.rules, SeesOneTime event time inputs.policyClock psr.rule ∧
        SeesOneTime event time later psr.rule)
    {decision decisionWith : Decision}
    (decided : runStages sort config sync event inputs = .decided decision)
    (decidedWith : runStages sort
      { config with inferenceConfig := some inference } sync event
      { inputs with policyClock := later } = .decided decisionWith)
    (blocked : decision.finalVerdict = .block) :
    decisionWith.finalVerdict = .block := by
  obtain ⟨context, reached, rfl⟩ := exists_of_runStages_decided decided
  obtain ⟨contextWith, reachedWith, rfl⟩ :=
    exists_of_runStages_decided decidedWith
  obtain ⟨isEvent, more, rfl⟩ :=
    policyContext_withInference without reached reachedWith
  rw [finalVerdict_assemble, Verdict.strictest_eq_block_iff, List.map_append,
    List.mem_append] at blocked ⊢
  rcases blocked with early | byPolicy
  · left
    rw [PolicyContext.followedBy, List.map_append]
    exact List.mem_append_left _ early
  · right
    cases configured : config.policyConfig with
    | none => simp [policyOutputs, configured] at byPolicy
    | some policy =>
        rw [policyOutputs, configured, List.map_singleton, List.mem_singleton]
          at byPolicy
        have checked := (Builder.checks_of_build built).2 policy configured
        have stays := process_block_followedBy (keepsBlocks policy configured)
          (walked_of_validateRules checked) event (by rw [isEvent])
          (fun psr member => (oneTime policy configured psr member).1)
          (fun psr member => (oneTime policy configured psr member).2)
          more byPolicy.symm inputs.policyUs
        unfold policyOutputs
        dsimp only
        rw [List.map_singleton, List.mem_singleton]
        exact stays.symm

/-- The rules of a pipeline that flags testers without a high score, and blocks
events that are marked or have a high score. -/
def scoreRules : List PolicyStageRule :=
  [{ rule := .and (some (.tagExists "tester"))
      (some (.not (some (.evaluatorScoreAbove "model" (.finite 0)))))
     actionVerdict := .flag },
    { rule := .or (some (.tagExists "marked"))
        (some (.evaluatorScoreAbove "model" (.finite 0))) }]

/-- A pipeline with these rules. -/
def scoreBuilder : Builder where
  config :=
    { policyConfig := some { rules := scoreRules }
      emitConfig := { targets := 1 } }
  hasEmit := true

/-- A model that lets everything pass. -/
def passingModel : InferenceStageConfig where
  evaluators :=
    [fun _ => .returned { evaluatorId := "model", score := some (.finite 1) }]

/-- An event that is marked. -/
def markedEvent : Event where
  tenantId := "t"
  entityId := "e"
  tags := [{ key := "marked", value := "" }]

theorem keepsBlocks_scoreRules :
    KeepsBlocks (activeRegistry none scoreRules) scoreRules where
  blocking := by decide
  others := by decide
  undefeated := fun _ registered => by cases registered

/-- The rules do not look at the clock. -/
theorem seesOneTime_scoreRules
    (event : Event)
    (time : Int64)
    (clock : Clock) :
    ∀ psr ∈ scoreRules, SeesOneTime event time clock psr.rule := by
  have blind : ∀ psr ∈ scoreRules, ∀ node : PolicyRule, node.Occurs psr.rule →
      node.readsClock = false := by
    simp only [scoreRules, List.forall_mem_cons]
    refine ⟨?flagging, ?blocking, fun _ member => absurd member List.not_mem_nil⟩
    case flagging =>
      intro node occurs
      cases occurs with
      | here => rfl
      | andLeft _ inner =>
          cases inner
          rfl
      | andRight _ inner =>
          cases inner with
          | here => rfl
          | not inner =>
              cases inner
              rfl
    case blocking =>
      intro node occurs
      cases occurs with
      | here => rfl
      | orLeft _ inner =>
          cases inner
          rfl
      | orRight _ inner =>
          cases inner
          rfl
  intro psr member node occurs reads
  rw [blind psr member node occurs] at reads
  cases reads

/-- A marked event stays blocked when the model is added. -/
theorem added_inference_keeps_blocks_marked :
    ∃ decision decisionWith,
      runStages (SortFunction.stable _) scoreBuilder.config false markedEvent {} =
        .decided decision ∧
      runStages (SortFunction.stable _)
        { scoreBuilder.config with inferenceConfig := some passingModel } false
        markedEvent {} = .decided decisionWith ∧
      decision.finalVerdict = .block ∧ decisionWith.finalVerdict = .block := by
  have blocked : ∃ decision, runStages (SortFunction.stable _)
      scoreBuilder.config false markedEvent {} = .decided decision ∧
        decision.finalVerdict = .block :=
    ⟨_, rfl, by decide +kernel⟩
  obtain ⟨decision, decided, isBlock⟩ := blocked
  have decidedWith : ∃ decision, runStages (SortFunction.stable _)
      { scoreBuilder.config with inferenceConfig := some passingModel } false
      markedEvent {} = .decided decision :=
    ⟨_, rfl⟩
  obtain ⟨decisionWith, decidedWith⟩ := decidedWith
  refine ⟨decision, decisionWith, decided, decidedWith, isBlock, ?_⟩
  refine @added_inference_keeps_blocks scoreBuilder scoreBuilder.config rfl rfl
    passingModel (SortFunction.stable _) false markedEvent {} (Stream'.const 0) 0
    ?keeps ?oneTime _ _ decided decidedWith isBlock
  case keeps =>
    intro policy configured
    cases configured
    exact keepsBlocks_scoreRules
  case oneTime =>
    intro policy configured psr member
    cases configured
    exact ⟨seesOneTime_scoreRules markedEvent 0 _ psr member,
      seesOneTime_scoreRules markedEvent 0 _ psr member⟩

end Pipeline
end Fre
