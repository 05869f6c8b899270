import Fre.Policy.RuleEngine
import Mathlib.Order.Basic

/-!
# Rules judged at one instant

Each leaf about the age of an event reads the clock for itself, so the readings
of one evaluation may differ.  When no such leaf of a rule changes its value
between the readings, the outcome is the value of the rule at any of them.  When
one does, there are rules over the same leaves, a contradiction among them, that
come out with a value they have at no time.
-/

namespace Fre
namespace Policy

open RuleEngine

namespace PolicyRule

/-- The node reads the clock. -/
def readsClock : PolicyRule → Bool
  | .eventOlderThan _ => true
  | .eventNewerThan _ => true
  | _ => false

/-- All leaves of the rule that read the clock are among the given ones. -/
def Over (leaves : Set PolicyRule) (rule : PolicyRule) : Prop :=
  ∀ node, node.Occurs rule → node.readsClock = true → node ∈ leaves

/-- `And{Not r, r}`. -/
def contradiction (rule : PolicyRule) : PolicyRule :=
  .and (some (.not (some rule))) (some rule)

/-- `Or{r, Not r}`. -/
def excludedMiddle (rule : PolicyRule) : PolicyRule :=
  .or (some rule) (some (.not (some rule)))

end PolicyRule

namespace RuleEngine

/-- The number of clock readings that an evaluation takes. -/
def readings (context : PolicyContext) : PolicyRule → Clock → Nat
  | .and (some left) (some right), clock =>
      match evaluate context left clock with
      | (some true, rest) =>
          readings context left clock + readings context right rest
      | _ => readings context left clock
  | .or (some left) (some right), clock =>
      match evaluate context left clock with
      | (some false, rest) =>
          readings context left clock + readings context right rest
      | _ => readings context left clock
  | .not (some expr), clock => readings context expr clock
  | .eventOlderThan _, _ => 1
  | .eventNewerThan _, _ => 1
  | _, _ => 0

/-- An evaluation that stops after the left operand takes its readings. -/
theorem readings_and_of_ne
    {context : PolicyContext}
    {left right : PolicyRule}
    {clock : Clock}
    (stops : (evaluate context left clock).1 ≠ some true) :
    readings context (.and (some left) (some right)) clock =
      readings context left clock := by
  rw [readings]
  split
  next rest evaluated =>
    rw [evaluated] at stops
    exact absurd rfl stops
  next => rfl

theorem readings_or_of_ne
    {context : PolicyContext}
    {left right : PolicyRule}
    {clock : Clock}
    (stops : (evaluate context left clock).1 ≠ some false) :
    readings context (.or (some left) (some right)) clock =
      readings context left clock := by
  rw [readings]
  split
  next rest evaluated =>
    rw [evaluated] at stops
    exact absurd rfl stops
  next => rfl

/-- Operands that are not both there: the first one that is missing. -/
theorem missing_operand
    {left right : Option PolicyRule}
    (notBoth : ∀ first second, left = some first → right = some second → False) :
    left = none ∨ ∃ first, left = some first ∧ right = none := by
  cases left with
  | none => exact .inl rfl
  | some first =>
      cases right with
      | none => exact .inr ⟨first, rfl, rfl⟩
      | some second => exact (notBoth first second rfl rfl).elim

/-- An evaluation takes its readings from the front of the clock. -/
theorem evaluate_snd
    (context : PolicyContext)
    (rule : PolicyRule)
    (clock : Clock) :
    (evaluate context rule clock).2 =
      clock.drop (readings context rule clock) := by
  fun_induction evaluate context rule clock with
  | case4 left right clock rest evaluated leftHypothesis rightHypothesis =>
      rw [evaluated] at leftHypothesis
      simp only [readings, evaluated]
      rw [rightHypothesis, ← Stream'.drop_drop, ← leftHypothesis]
  | case5 left right clock outcome rest other evaluated leftHypothesis =>
      rw [readings_and_of_ne (by rwa [evaluated])]
      rw [evaluated] at leftHypothesis
      exact leftHypothesis
  | case7 left right clock rest evaluated leftHypothesis rightHypothesis =>
      rw [evaluated] at leftHypothesis
      simp only [readings, evaluated]
      rw [rightHypothesis, ← Stream'.drop_drop, ← leftHypothesis]
  | case8 left right clock outcome rest other evaluated leftHypothesis =>
      rw [readings_or_of_ne (by rwa [evaluated])]
      rw [evaluated] at leftHypothesis
      exact leftHypothesis
  | case10 expr clock outcome rest evaluated inductionHypothesis =>
      rw [evaluated] at inductionHypothesis
      exact inductionHypothesis
  | case22 duration clock age => rfl
  | case23 duration clock age => rfl
  | case6 left right clock notBoth =>
      obtain rfl | ⟨left, rfl, rfl⟩ := missing_operand notBoth
      · rfl
      · rfl
  | case9 left right clock notBoth =>
      obtain rfl | ⟨left, rfl, rfl⟩ := missing_operand notBoth
      · rfl
      · rfl
  | _ => rfl

/-- The readings after those of one evaluation are those that it leaves. -/
theorem get_readings_add
    (context : PolicyContext)
    (rule : PolicyRule)
    (clock : Clock)
    (index : Nat) :
    clock.get (readings context rule clock + index) =
      (evaluate context rule clock).2.get index := by
  rw [evaluate_snd, Stream'.get_drop]

/-- When every leaf has the same value at all readings as at one time, the rule
has its value at that time. -/
theorem evaluate_fst_eq_valueAt
    {context : PolicyContext}
    {rule : PolicyRule}
    {clock : Clock}
    {time : Int64}
    (agree : ∀ index < readings context rule clock, ∀ node,
      node.Occurs rule → node.readsClock = true →
        valueAt context (clock.get index) node = valueAt context time node) :
    (evaluate context rule clock).1 = valueAt context time rule := by
  fun_induction evaluate context rule clock with
  | case4 left right clock rest evaluated leftHypothesis rightHypothesis =>
      rw [evaluated] at leftHypothesis
      simp only [readings, evaluated] at agree
      have leftTrue := leftHypothesis fun index early node occurs reads =>
        agree index (by omega) node (.andLeft _ occurs) reads
      rw [valueAt_and, ← leftTrue, if_pos rfl]
      apply rightHypothesis
      intro index early node occurs reads
      have later := agree (readings context left clock + index) (by omega) node
        (.andRight _ occurs) reads
      rw [get_readings_add, evaluated] at later
      exact later
  | case5 left right clock outcome rest other evaluated leftHypothesis =>
      rw [readings_and_of_ne (by rwa [evaluated])] at agree
      rw [evaluated] at leftHypothesis
      have leftValue := leftHypothesis fun index early node occurs reads =>
        agree index early node (.andLeft _ occurs) reads
      rw [valueAt_and, ← leftValue, if_neg fun isTrue => other isTrue]
  | case7 left right clock rest evaluated leftHypothesis rightHypothesis =>
      rw [evaluated] at leftHypothesis
      simp only [readings, evaluated] at agree
      have leftFalse := leftHypothesis fun index early node occurs reads =>
        agree index (by omega) node (.orLeft _ occurs) reads
      rw [valueAt_or, ← leftFalse, if_pos rfl]
      apply rightHypothesis
      intro index early node occurs reads
      have later := agree (readings context left clock + index) (by omega) node
        (.orRight _ occurs) reads
      rw [get_readings_add, evaluated] at later
      exact later
  | case8 left right clock outcome rest other evaluated leftHypothesis =>
      rw [readings_or_of_ne (by rwa [evaluated])] at agree
      rw [evaluated] at leftHypothesis
      have leftValue := leftHypothesis fun index early node occurs reads =>
        agree index early node (.orLeft _ occurs) reads
      rw [valueAt_or, ← leftValue, if_neg fun isFalse => other isFalse]
  | case10 expr clock outcome rest evaluated inductionHypothesis =>
      rw [evaluated] at inductionHypothesis
      have exprValue := inductionHypothesis fun index early node occurs reads =>
        agree index early node (.not occurs) reads
      rw [valueAt_not, ← exprValue]
  | case22 duration clock age =>
      exact agree 0 Nat.one_pos _ .here rfl
  | case23 duration clock age =>
      exact agree 0 Nat.one_pos _ .here rfl
  | case6 left right clock notBoth =>
      obtain rfl | ⟨left, rfl, rfl⟩ := missing_operand notBoth
      · rfl
      · rfl
  | case9 left right clock notBoth =>
      obtain rfl | ⟨left, rfl, rfl⟩ := missing_operand notBoth
      · rfl
      · rfl
  | _ => rfl

end RuleEngine

/-! ### Readings within an interval -/

/-- The readings that the evaluation takes do not decrease and lie between two
times. -/
structure Taken (context : PolicyContext) (rule : PolicyRule) (clock : Clock)
    (first last : Int64) : Prop where
  ordered : ∀ early late, early ≤ late →
    late < readings context rule clock → clock.get early ≤ clock.get late
  within : ∀ index < readings context rule clock,
    first ≤ clock.get index ∧ clock.get index ≤ last

/-- The outcome is the value of the rule at a single time between the first and
the last reading. -/
def JudgedAtOneInstant (context : PolicyContext) (rule : PolicyRule)
    (clock : Clock) : Prop :=
  ∃ time,
    (0 < readings context rule clock →
      clock.get 0 ≤ time ∧
        time ≤ clock.get (readings context rule clock - 1)) ∧
    (RuleEngine.evaluate context rule clock).1 = valueAt context time rule

/-- Evaluations of rules over the leaves, with readings in the interval, are
judged at one instant; contradictions do not hold, and excluded middles hold
unless they throw. -/
def JudgesAtOneInstant (context : PolicyContext) (leaves : Set PolicyRule)
    (first last : Int64) : Prop :=
  ∀ rule : PolicyRule, rule.Over leaves →
    (∀ clock, Taken context rule clock first last →
      JudgedAtOneInstant context rule clock) ∧
    (∀ clock, Taken context rule.contradiction clock first last →
      (RuleEngine.evaluate context rule.contradiction clock).1 ≠ some true) ∧
    (∀ clock, Taken context rule.excludedMiddle clock first last →
      (RuleEngine.evaluate context rule.excludedMiddle clock).1 = none ∨
      (RuleEngine.evaluate context rule.excludedMiddle clock).1 = some true)

/-- No leaf that reads the clock changes its value in the interval. -/
def Steady (context : PolicyContext) (leaves : Set PolicyRule)
    (first last : Int64) : Prop :=
  ∀ node ∈ leaves, node.readsClock = true →
    ∀ early late, first ≤ early → early ≤ late → late ≤ last →
      valueAt context early node = valueAt context late node

/-- With steady leaves an evaluation has the value of its first reading. -/
theorem Steady.judgedAtOneInstant
    {context : PolicyContext}
    {leaves : Set PolicyRule}
    {first last : Int64}
    (steady : Steady context leaves first last)
    {rule : PolicyRule}
    (overLeaves : rule.Over leaves)
    {clock : Clock}
    (taken : Taken context rule clock first last) :
    JudgedAtOneInstant context rule clock := by
  refine ⟨clock.get 0, fun positive => ?_, evaluate_fst_eq_valueAt ?_⟩
  · exact ⟨Int64.le_refl _, taken.ordered 0 _ (Nat.zero_le _) (by omega)⟩
  · intro index early node occurs reads
    have start := taken.within 0 (by omega)
    exact (steady node (overLeaves node occurs reads) reads _ _ start.1
      (taken.ordered 0 index (Nat.zero_le _) early)
      (taken.within index early).2).symm

theorem PolicyRule.Over.not
    {leaves : Set PolicyRule}
    {rule : PolicyRule}
    (overLeaves : rule.Over leaves) :
    (PolicyRule.not (some rule)).Over leaves := by
  intro node occurs reads
  cases occurs with
  | here => cases reads
  | not inner => exact overLeaves node inner reads

theorem PolicyRule.Over.contradiction
    {leaves : Set PolicyRule}
    {rule : PolicyRule}
    (overLeaves : rule.Over leaves) :
    rule.contradiction.Over leaves := by
  intro node occurs reads
  cases occurs with
  | here => cases reads
  | andLeft _ inner => exact overLeaves.not node inner reads
  | andRight _ inner => exact overLeaves node inner reads

theorem PolicyRule.Over.excludedMiddle
    {leaves : Set PolicyRule}
    {rule : PolicyRule}
    (overLeaves : rule.Over leaves) :
    rule.excludedMiddle.Over leaves := by
  intro node occurs reads
  cases occurs with
  | here => cases reads
  | orLeft _ inner => exact overLeaves node inner reads
  | orRight _ inner => exact overLeaves.not node inner reads

/-- At one time a contradiction does not hold. -/
theorem valueAt_contradiction
    (context : PolicyContext)
    (time : Int64)
    (rule : PolicyRule) :
    valueAt context time rule.contradiction ≠ some true := by
  rw [PolicyRule.contradiction, valueAt_and, valueAt_not]
  match valueAt context time rule with
  | none => decide
  | some true => decide
  | some false => decide

theorem valueAt_excludedMiddle
    (context : PolicyContext)
    (time : Int64)
    (rule : PolicyRule) :
    valueAt context time rule.excludedMiddle = none ∨
      valueAt context time rule.excludedMiddle = some true := by
  rw [PolicyRule.excludedMiddle, valueAt_or, valueAt_not]
  match valueAt context time rule with
  | none => exact .inl rfl
  | some true => exact .inr rfl
  | some false => exact .inr rfl

theorem Steady.judgesAtOneInstant
    {context : PolicyContext}
    {leaves : Set PolicyRule}
    {first last : Int64}
    (steady : Steady context leaves first last) :
    JudgesAtOneInstant context leaves first last := by
  intro rule overLeaves
  refine ⟨fun clock taken => steady.judgedAtOneInstant overLeaves taken, ?_, ?_⟩
  · intro clock taken
    obtain ⟨time, -, same⟩ :=
      steady.judgedAtOneInstant overLeaves.contradiction taken
    rw [same]
    exact valueAt_contradiction context time rule
  · intro clock taken
    obtain ⟨time, -, same⟩ :=
      steady.judgedAtOneInstant overLeaves.excludedMiddle taken
    rw [same]
    exact valueAt_excludedMiddle context time rule

/-! ### A leaf that changes -/

/-- One reading, then another for ever. -/
def twoReadings (early late : Int64) : Clock :=
  Stream'.cons early (Stream'.const late)

/-- A rule of one leaf reads the clock once. -/
structure ReadsOnce (context : PolicyContext) (rule : PolicyRule) : Prop where
  once : ∀ clock, readings context rule clock = 1
  value : ∀ clock, (RuleEngine.evaluate context rule clock).1 =
    valueAt context clock.head rule

theorem readsOnce_of_readsClock
    {node : PolicyRule}
    (reads : node.readsClock = true)
    (context : PolicyContext) :
    ReadsOnce context node := by
  cases node with
  | eventOlderThan duration => exact ⟨fun _ => rfl, fun _ => rfl⟩
  | eventNewerThan duration => exact ⟨fun _ => rfl, fun _ => rfl⟩
  | _ => exact absurd reads (by simp [PolicyRule.readsClock])

/-- A leaf that reads the clock has a value at every time. -/
theorem exists_valueAt_of_readsClock
    {node : PolicyRule}
    (reads : node.readsClock = true)
    (context : PolicyContext)
    (time : Int64) :
    ∃ value, valueAt context time node = some value := by
  cases node with
  | eventOlderThan duration => exact ⟨_, rfl⟩
  | eventNewerThan duration => exact ⟨_, rfl⟩
  | _ => exact absurd reads (by simp [PolicyRule.readsClock])

theorem ReadsOnce.not
    {context : PolicyContext}
    {rule : PolicyRule}
    (readsOnce : ReadsOnce context rule) :
    ReadsOnce context (.not (some rule)) where
  once clock := readsOnce.once clock
  value clock := by
    rw [valueAt_not, ← readsOnce.value clock, RuleEngine.evaluate]

/-- A rule that becomes true between two readings makes its contradiction come
out true. -/
theorem contradiction_holds
    {context : PolicyContext}
    {rule : PolicyRule}
    (readsOnce : ReadsOnce context rule)
    {early late : Int64}
    (before : valueAt context early rule = some false)
    (after : valueAt context late rule = some true) :
    (RuleEngine.evaluate context rule.contradiction
        (twoReadings early late)).1 = some true ∧
      readings context rule.contradiction (twoReadings early late) = 2 := by
  have leftValue : (RuleEngine.evaluate context (.not (some rule))
      (twoReadings early late)).1 = some true := by
    rw [readsOnce.not.value, valueAt_not]
    change (valueAt context early rule).map (!·) = some true
    rw [before]
    rfl
  have leftRest : (RuleEngine.evaluate context (.not (some rule))
      (twoReadings early late)).2 = Stream'.const late := by
    rw [evaluate_snd, readsOnce.not.once]
    rfl
  have left : RuleEngine.evaluate context (.not (some rule))
      (twoReadings early late) = (some true, Stream'.const late) :=
    Prod.ext leftValue leftRest
  constructor
  · rw [PolicyRule.contradiction, RuleEngine.evaluate, left]
    exact after
  · rw [PolicyRule.contradiction, readings, left]
    dsimp only
    rw [readsOnce.not.once, readsOnce.once]

theorem taken_twoReadings
    {context : PolicyContext}
    {rule : PolicyRule}
    {early late first last : Int64}
    (two : readings context rule (twoReadings early late) = 2)
    (fromFirst : first ≤ early)
    (ordered : early ≤ late)
    (toLast : late ≤ last) :
    Taken context rule (twoReadings early late) first last where
  ordered index later indexLe below := by
    rw [two] at below
    match index, later with
    | 0, 0 => exact Int64.le_refl _
    | 0, _ + 1 => exact ordered
    | _ + 1, _ + 1 => exact Int64.le_refl _
  within index below := by
    rw [two] at below
    match index with
    | 0 => exact ⟨fromFirst, Int64.le_trans ordered toLast⟩
    | _ + 1 => exact ⟨Int64.le_trans fromFirst ordered, toLast⟩

/-- A rule of one reading cannot become true when contradictions do not
hold. -/
theorem JudgesAtOneInstant.stays_false
    {context : PolicyContext}
    {leaves : Set PolicyRule}
    {first last : Int64}
    (judges : JudgesAtOneInstant context leaves first last)
    {rule : PolicyRule}
    (overLeaves : rule.Over leaves)
    (readsOnce : ReadsOnce context rule)
    {early late : Int64}
    (fromFirst : first ≤ early)
    (ordered : early ≤ late)
    (toLast : late ≤ last)
    (before : valueAt context early rule = some false) :
    valueAt context late rule ≠ some true := by
  intro after
  obtain ⟨holds, two⟩ := contradiction_holds readsOnce before after
  exact (judges rule overLeaves).2.1 _
    (taken_twoReadings two fromFirst ordered toLast) holds

theorem over_of_mem
    {leaves : Set PolicyRule}
    {node : PolicyRule}
    (member : node ∈ leaves)
    (reads : node.readsClock = true) :
    node.Over leaves := by
  intro inner occurs innerReads
  cases occurs with
  | here => exact member
  | _ => exact absurd reads (by simp [PolicyRule.readsClock])

/-- All rules over some leaves are judged at one instant, for readings between
two times, exactly when none of these leaves changes its value between them. -/
theorem judged_at_one_instant_iff
    (context : PolicyContext)
    (leaves : Set PolicyRule)
    (first last : Int64) :
    JudgesAtOneInstant context leaves first last ↔
      Steady context leaves first last := by
  constructor
  · intro judges node member reads early late fromFirst ordered toLast
    have overLeaves := over_of_mem member reads
    have readsOnce := readsOnce_of_readsClock reads context
    have staysFalse :=
      judges.stays_false overLeaves readsOnce fromFirst ordered toLast
    have staysTrue :=
      judges.stays_false overLeaves.not readsOnce.not fromFirst ordered toLast
    obtain ⟨before, earlyValue⟩ :=
      exists_valueAt_of_readsClock reads context early
    obtain ⟨after, lateValue⟩ :=
      exists_valueAt_of_readsClock reads context late
    rw [valueAt_not, valueAt_not, earlyValue, lateValue] at staysTrue
    rw [earlyValue, lateValue] at staysFalse
    rw [earlyValue, lateValue]
    match before, after with
    | false, false => rfl
    | true, true => rfl
    | false, true => exact absurd rfl (staysFalse rfl)
    | true, false => exact absurd rfl (staysTrue rfl)
  · exact Steady.judgesAtOneInstant

/-- `And{Not{EventOlderThan{1ms}}, EventOlderThan{1ms}}` comes out true when the
event becomes older than a millisecond between the two readings. -/
theorem event_ages_between_readings :
    let context : PolicyContext :=
      { event := { tenantId := "t", entityId := "e" }, stageOutputs := [] }
    let rule := (PolicyRule.eventOlderThan 1).contradiction
    let clock := twoReadings 1000000 1000001
    (∀ index, clock.get index ≤ clock.get (index + 1)) ∧
      (RuleEngine.evaluate context rule clock).1 = some true ∧
      ¬ JudgedAtOneInstant context rule clock := by
  intro context rule clock
  have before : valueAt context 1000000 (.eventOlderThan 1) = some false := by
    decide
  have after : valueAt context 1000001 (.eventOlderThan 1) = some true := by
    decide
  have holds := (contradiction_holds (readsOnce_of_readsClock rfl context)
    before after).1
  refine ⟨?_, holds, ?_⟩
  · intro index
    match index with
    | 0 => decide
    | _ + 1 => exact Int64.le_refl _
  · rintro ⟨time, -, same⟩
    exact valueAt_contradiction context time _ (same.symm.trans holds)

end Policy
end Fre
