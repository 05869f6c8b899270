import Fre.Policy.RuleEngine

/-!
# Leaves over repeated keys and repeated evaluators

An event may carry several tags with one key, and several results may have one
evaluator id.  `TagEquals`, `TagExists` and `EvaluatorScoreAbove` look at all of
them; the other leaves stop at the first.  They mean "some" all the same exactly
as far as the later ones add nothing to the first.
-/

namespace Fre
namespace Policy

open Foundation

/-- The rule evaluates to true. -/
def Holds (context : PolicyContext) (rule : PolicyRule) (clock : Clock) : Prop :=
  (RuleEngine.evaluate context rule clock).1 = some true

section First

variable {α : Type} {values : List α} {isNamed passes : α → Bool}

theorem exists_find?_eq_some
    (isNamed : α → Bool)
    {value : α}
    (member : value ∈ values)
    (named : isNamed value = true) :
    ∃ first ∈ values, values.find? isNamed = some first ∧
      isNamed first = true := by
  have found : (values.find? isNamed).isSome :=
    List.find?_isSome.mpr ⟨value, member, named⟩
  obtain ⟨first, isFirst⟩ := Option.isSome_iff_exists.mp found
  exact ⟨first, List.mem_of_find?_eq_some isFirst, isFirst,
    List.find?_some isFirst⟩

/-- The first value of a name is a value of that name. -/
theorem exists_of_any_find?
    (firstPasses : (values.find? isNamed).any passes = true) :
    ∃ value ∈ values, isNamed value = true ∧ passes value = true := by
  obtain ⟨value, found, valuePasses⟩ := (Option.any_eq_true _ _).mp firstPasses
  exact ⟨value, List.mem_of_find?_eq_some found, List.find?_some found,
    valuePasses⟩

/-- The first value of a name decides when it passes as soon as some value of
the name does. -/
theorem any_find?_iff
    (firstStands : ∀ value ∈ values, isNamed value = true →
      passes value = true → (values.find? isNamed).any passes = true) :
    (values.find? isNamed).any passes = true ↔
      ∃ value ∈ values, isNamed value = true ∧ passes value = true := by
  constructor
  · exact exists_of_any_find?
  · rintro ⟨value, member, named, valuePasses⟩
    exact firstStands value member named valuePasses

end First

/-! ### Tags -/

/-- The event carries a tag with the key whose value satisfies the
condition. -/
def HasTag (context : PolicyContext) (key : String)
    (condition : String → Prop) : Prop :=
  ∃ tag ∈ context.event.tags, tag.key = key ∧ condition tag.value

/-- The value is a number that satisfies the condition. -/
def IsNumber (condition : Double → Prop) (value : String) : Prop :=
  ∃ number, parseDouble value = some number ∧ condition number

/-- All leaves about the tags with a key mean that the event carries some tag
with the key and a value of their kind. -/
structure TagLeavesAgree (context : PolicyContext) (key : String) : Prop where
  equals : ∀ value clock, Holds context (.tagEquals key value) clock ↔
    HasTag context key fun found => found = value
  contains : ∀ substring clock,
    Holds context (.tagContains key substring) clock ↔
      HasTag context key fun found => substring.toList <:+: found.toList
  startsWith : ∀ leading clock,
    Holds context (.tagStartsWith key leading) clock ↔
      HasTag context key fun found => leading.toList <+: found.toList
  isIn : ∀ values clock, Holds context (.tagIn key values) clock ↔
    HasTag context key fun found => found ∈ values
  present : ∀ clock, Holds context (.tagExists key) clock ↔
    HasTag context key fun _ => True
  lessThan : ∀ threshold clock,
    Holds context (.tagValueLessThan key threshold) clock ↔
      HasTag context key (IsNumber fun number => number.lt threshold = true)
  greaterThan : ∀ threshold clock,
    Holds context (.tagValueGreaterThan key threshold) clock ↔
      HasTag context key (IsNumber fun number => threshold.lt number = true)
  between : ∀ lo hi clock, lo.lt hi = true →
    (Holds context (.tagValueBetween key lo hi) clock ↔
      HasTag context key (IsNumber fun number =>
        lo.le number = true ∧ number.lt hi = true))
  equals_iff_isIn : ∀ value clock,
    Holds context (.tagEquals key value) clock ↔
      Holds context (.tagIn key [value]) clock
  equals_implies : ∀ value clock,
    Holds context (.tagEquals key value) clock →
      Holds context (.tagStartsWith key value) clock ∧
        Holds context (.tagContains key value) clock ∧
        Holds context (.tagExists key) clock

/-- No two tags with the key have different values. -/
def SameValues (context : PolicyContext) (key : String) : Prop :=
  ∀ tag ∈ context.event.tags, ∀ other ∈ context.event.tags,
    tag.key = key → other.key = key → tag.value = other.value

/-- The key is empty and the first tag with it has a value without data. -/
def EmptyKeyWithoutData (context : PolicyContext) (key : String) : Prop :=
  key = "" ∧ ∃ tag, context.event.tags.find? (fun tag => tag.key == key) =
    some tag ∧ tag.valueIsNull = true

theorem tagSatisfies_eq
    (context : PolicyContext)
    (key : String)
    (condition : String → Bool) :
    context.tagSatisfies key condition =
      (context.event.tags.find? fun tag => tag.key == key).any
        fun tag => condition tag.value := by
  rw [PolicyContext.tagSatisfies, findTag, Option.any_map]

/-- With one value for the key the first tag decides. -/
theorem tagSatisfies_iff
    {context : PolicyContext}
    {key : String}
    (sameValues : SameValues context key)
    (condition : String → Bool) :
    context.tagSatisfies key condition = true ↔
      HasTag context key fun value => condition value = true := by
  rw [tagSatisfies_eq, any_find?_iff]
  · simp only [HasTag, beq_iff_eq]
  · intro tag member named passes
    obtain ⟨first, firstMember, found, firstNamed⟩ :=
      exists_find?_eq_some (fun tag : Tag => tag.key == key) member named
    have same := sameValues first firstMember tag member
      (beq_iff_eq.mp firstNamed) (beq_iff_eq.mp named)
    rw [found, Option.any_some, same]
    exact passes

theorem tagNumberSatisfies_iff
    {context : PolicyContext}
    {key : String}
    (sameValues : SameValues context key)
    (condition : Double → Bool) :
    context.tagNumberSatisfies key condition = true ↔
      HasTag context key (IsNumber fun number => condition number = true) := by
  rw [PolicyContext.tagNumberSatisfies, tagSatisfies_iff sameValues]
  simp only [HasTag, IsNumber, Option.any_eq_true]

/-- A tag with the key and data: the first view found has data, or the key is
not empty. -/
theorem not_findsNoData
    {context : PolicyContext}
    {key : String}
    (withData : ¬ EmptyKeyWithoutData context key)
    {condition : String → Prop}
    (hasTag : HasTag context key condition) :
    (findsNoData context.event key && key.isEmpty) = false := by
  obtain ⟨tag, member, named, -⟩ := hasTag
  obtain ⟨first, -, found, -⟩ := exists_find?_eq_some
    (fun tag : Tag => tag.key == key) member (beq_iff_eq.mpr named)
  rw [findsNoData, found, Option.all_some, Bool.and_eq_false_iff]
  by_cases empty : key = ""
  · left
    rw [← Bool.not_eq_true]
    exact fun isNull => withData ⟨empty, first, found, isNull⟩
  · right
    simpa using empty

section TagLeaves

variable {context : PolicyContext} {key : String}
  (sameValues : SameValues context key)

theorem holds_tagEquals_iff (value : String) (clock : Clock) :
    Holds context (.tagEquals key value) clock ↔
      HasTag context key fun found => found = value := by
  simp [Holds, RuleEngine.evaluate, HasTag]

theorem holds_tagExists_iff (clock : Clock) :
    Holds context (.tagExists key) clock ↔ HasTag context key fun _ => True := by
  simp [Holds, RuleEngine.evaluate, HasTag]

include sameValues

theorem holds_tagIn_iff (values : List String) (clock : Clock) :
    Holds context (.tagIn key values) clock ↔
      HasTag context key fun found => found ∈ values := by
  rw [Holds, RuleEngine.evaluate, Option.some_inj, tagSatisfies_iff sameValues]
  simp only [decide_eq_true_eq]

theorem holds_tagStartsWith_iff (leading : String) (clock : Clock) :
    Holds context (.tagStartsWith key leading) clock ↔
      HasTag context key fun found => leading.toList <+: found.toList := by
  rw [Holds, RuleEngine.evaluate, Option.some_inj, tagSatisfies_iff sameValues]
  simp only [decide_eq_true_eq]

theorem holds_tagContains_iff
    (withData : ¬ EmptyKeyWithoutData context key)
    (substring : String)
    (clock : Clock) :
    Holds context (.tagContains key substring) clock ↔
      HasTag context key fun found => substring.toList <:+: found.toList := by
  rw [Holds, RuleEngine.evaluate, Option.some_inj, Bool.and_eq_true,
    tagSatisfies_iff sameValues]
  simp only [decide_eq_true_eq, Bool.not_eq_true', and_iff_right_iff_imp]
  exact not_findsNoData withData

/-- With one value for the key all leaves agree. -/
theorem tagLeavesAgree_of_sameValues
    (withData : ¬ EmptyKeyWithoutData context key) :
    TagLeavesAgree context key where
  equals := holds_tagEquals_iff
  contains := holds_tagContains_iff sameValues withData
  startsWith := holds_tagStartsWith_iff sameValues
  isIn := holds_tagIn_iff sameValues
  present := holds_tagExists_iff
  lessThan threshold clock := by
    rw [Holds, RuleEngine.evaluate, Option.some_inj,
      tagNumberSatisfies_iff sameValues]
  greaterThan threshold clock := by
    rw [Holds, RuleEngine.evaluate, Option.some_inj,
      tagNumberSatisfies_iff sameValues]
  between lo hi clock ordered := by
    rw [Holds, RuleEngine.evaluate, Option.some_inj,
      FloatValue.le_eq_false_of_lt ordered, Bool.not_false, Bool.true_and,
      tagNumberSatisfies_iff sameValues]
    simp only [Bool.and_eq_true]
  equals_iff_isIn value clock := by
    rw [holds_tagEquals_iff, holds_tagIn_iff sameValues]
    simp only [List.mem_singleton]
  equals_implies value clock holds := by
    rw [holds_tagEquals_iff] at holds
    obtain ⟨tag, member, named, rfl⟩ := holds
    refine ⟨?_, ?_, ?_⟩
    · rw [holds_tagStartsWith_iff sameValues]
      exact ⟨tag, member, named, List.prefix_rfl⟩
    · rw [holds_tagContains_iff sameValues withData]
      exact ⟨tag, member, named, List.infix_rfl⟩
    · rw [holds_tagExists_iff]
      exact ⟨tag, member, named, trivial⟩

end TagLeaves

/-- `TagIn` sees the first value alone, so it tells two values apart. -/
theorem TagLeavesAgree.sameValues
    {context : PolicyContext}
    {key : String}
    (agree : TagLeavesAgree context key) :
    SameValues context key := by
  have first_eq : ∀ tag ∈ context.event.tags, tag.key = key →
      findTag context.event key = some tag.value := by
    intro tag member named
    have holds := (agree.isIn [tag.value] (Stream'.const 0)).mpr
      ⟨tag, member, named, List.mem_singleton_self _⟩
    rw [Holds, RuleEngine.evaluate, Option.some_inj,
      PolicyContext.tagSatisfies, Option.any_eq_true] at holds
    obtain ⟨value, found, same⟩ := holds
    rw [found, List.mem_singleton.mp (of_decide_eq_true same)]
  intro tag member other otherMember named otherNamed
  have same := (first_eq tag member named).symm.trans
    (first_eq other otherMember otherNamed)
  exact Option.some_inj.mp same

/-- A view without data under the empty key is hidden from `TagContains`. -/
theorem TagLeavesAgree.withData
    {context : PolicyContext}
    {key : String}
    (agree : TagLeavesAgree context key) :
    ¬ EmptyKeyWithoutData context key := by
  rintro ⟨rfl, tag, found, isNull⟩
  have named : tag.key = "" := by simpa using List.find?_some found
  have holds := (agree.contains "" (Stream'.const 0)).mpr
    ⟨tag, List.mem_of_find?_eq_some found, named, List.nil_infix⟩
  rw [Holds, RuleEngine.evaluate, Option.some_inj, Bool.and_eq_true,
    findsNoData, found, Option.all_some, isNull] at holds
  exact absurd holds.1 (by decide)

/-- The leaves about the tags with a key agree exactly when these tags have one
value, and the key is not empty with a first value without data. -/
theorem tagLeavesAgree_iff
    (context : PolicyContext)
    (key : String) :
    TagLeavesAgree context key ↔
      SameValues context key ∧ ¬ EmptyKeyWithoutData context key := by
  constructor
  · intro agree
    exact ⟨agree.sameValues, agree.withData⟩
  · rintro ⟨sameValues, withData⟩
    exact tagLeavesAgree_of_sameValues sameValues withData

/-- An event with two values for one key. -/
def twoCountries : PolicyContext where
  event :=
    { tenantId := "acme", entityId := "alice"
      tags := [{ key := "country", value := "US" },
        { key := "country", value := "XX" }] }
  stageOutputs := []

/-- The second value is seen by `TagEquals` but neither by `TagIn` nor by
`TagStartsWith` and `TagContains`. -/
theorem repeated_key_splits_leaves :
    Holds twoCountries (.tagEquals "country" "XX") (Stream'.const 0) ∧
      ¬ Holds twoCountries (.tagIn "country" ["XX"]) (Stream'.const 0) ∧
      ¬ Holds twoCountries (.tagStartsWith "country" "XX")
        (Stream'.const 0) ∧
      ¬ Holds twoCountries (.tagContains "country" "XX") (Stream'.const 0) ∧
      ¬ TagLeavesAgree twoCountries "country" := by
  have notIn : ¬ Holds twoCountries (.tagIn "country" ["XX"])
      (Stream'.const 0) := by
    unfold Holds
    decide
  refine ⟨?_, notIn, ?_, ?_, fun agree => ?_⟩
  · unfold Holds
    decide
  · unfold Holds
    decide
  · unfold Holds
    decide
  · exact notIn ((agree.isIn ["XX"] (Stream'.const 0)).mpr
      ⟨_, List.mem_cons_of_mem _ List.mem_cons_self, rfl,
        List.mem_singleton_self _⟩)

/-! ### Evaluator results -/

/-- Some result of the evaluator satisfies the condition. -/
def HasResult (context : PolicyContext) (evaluatorId : String)
    (condition : EvaluatorResult → Prop) : Prop :=
  ∃ output ∈ context.stageOutputs, ∃ result ∈ output.evaluatorResults,
    result.evaluatorId = evaluatorId ∧ condition result

/-- The leaves about an evaluator mean that some result of it is of their
kind. -/
structure EvaluatorLeavesAgree (context : PolicyContext)
    (evaluatorId : String) : Prop where
  scoreBetween : ∀ lo hi clock, lo.lt hi = true →
    (Holds context (.evaluatorScoreBetween evaluatorId lo hi) clock ↔
      HasResult context evaluatorId fun result =>
        ∃ score, result.score = some score ∧ lo.le score = true ∧
          score.lt hi = true)
  wasSkipped : ∀ clock,
    Holds context (.evaluatorWasSkipped evaluatorId) clock ↔
      HasResult context evaluatorId fun result => result.skipped = true
  reasonIs : ∀ reasonCode clock,
    Holds context (.evaluatorReasonIs evaluatorId reasonCode) clock ↔
      HasResult context evaluatorId fun result =>
        result.reasonCode = some reasonCode

/-- The results of the evaluator after the first add nothing: their scores are
the first score, or in no range at all; they are skipped only if the first is;
and their reason codes are that of the first. -/
structure FirstStandsForAll (context : PolicyContext)
    (evaluatorId : String) : Prop where
  scores : ∀ result ∈ context.results, result.evaluatorId = evaluatorId →
    ∀ score, result.score = some score →
      context.firstScore evaluatorId = some score ∨ score = .nan ∨
        score = .infinity false
  skips : ∀ result ∈ context.results, result.evaluatorId = evaluatorId →
    result.skipped = true →
      (context.firstResult evaluatorId).any EvaluatorResult.skipped = true
  reasons : ∀ result ∈ context.results, result.evaluatorId = evaluatorId →
    ∀ reasonCode, result.reasonCode = some reasonCode →
      (context.firstResult evaluatorId).bind EvaluatorResult.reasonCode =
        some reasonCode

theorem hasResult_iff
    (context : PolicyContext)
    (evaluatorId : String)
    (condition : EvaluatorResult → Prop) :
    HasResult context evaluatorId condition ↔
      ∃ result ∈ context.results, result.evaluatorId = evaluatorId ∧
        condition result := by
  simp only [HasResult, PolicyContext.results, List.mem_flatMap]
  constructor
  · rintro ⟨output, outputMember, result, member, named, holds⟩
    exact ⟨result, ⟨output, outputMember, member⟩, named, holds⟩
  · rintro ⟨result, ⟨output, outputMember, member⟩, named, holds⟩
    exact ⟨output, outputMember, result, member, named, holds⟩

theorem holds_scoreBetween_iff
    {lo hi : Single}
    (ordered : lo.lt hi = true)
    (context : PolicyContext)
    (evaluatorId : String)
    (clock : Clock) :
    Holds context (.evaluatorScoreBetween evaluatorId lo hi) clock ↔
      ∃ score, context.firstScore evaluatorId = some score ∧
        lo.le score = true ∧ score.lt hi = true := by
  rw [Holds, RuleEngine.evaluate, Option.some_inj,
    FloatValue.le_eq_false_of_lt ordered, Bool.not_false, Bool.true_and,
    Option.any_eq_true]
  simp only [Bool.and_eq_true]

/-- The first score is a score of the evaluator. -/
theorem exists_of_firstScore
    {context : PolicyContext}
    {evaluatorId : String}
    {score : Single}
    (isFirst : context.firstScore evaluatorId = some score) :
    ∃ result ∈ context.results, result.evaluatorId = evaluatorId ∧
      result.score = some score := by
  obtain ⟨result, found, scored⟩ := Option.bind_eq_some_iff.mp isFirst
  have named : result.evaluatorId = evaluatorId := by
    have both := List.find?_some found
    simp only [Bool.and_eq_true, beq_iff_eq] at both
    exact both.1
  exact ⟨result, List.mem_of_find?_eq_some found, named, scored⟩

theorem not_in_range_of_beyond
    {lo hi score : Single}
    (beyond : score = .nan ∨ score = .infinity false) :
    ¬ (lo.le score = true ∧ score.lt hi = true) := by
  rintro ⟨-, below⟩
  rcases beyond with rfl | rfl
  · simp [FloatValue.lt] at below
  · cases hi <;> simp [FloatValue.lt] at below

/-- When the first result stands for all, the leaves mean some result. -/
theorem evaluatorLeavesAgree_of_first
    {context : PolicyContext}
    {evaluatorId : String}
    (stands : FirstStandsForAll context evaluatorId) :
    EvaluatorLeavesAgree context evaluatorId where
  scoreBetween lo hi clock ordered := by
    rw [holds_scoreBetween_iff ordered, hasResult_iff]
    constructor
    · rintro ⟨score, isFirst, inRange⟩
      obtain ⟨result, member, named, scored⟩ := exists_of_firstScore isFirst
      exact ⟨result, member, named, score, scored, inRange⟩
    · rintro ⟨result, member, named, score, scored, inRange⟩
      rcases stands.scores result member named score scored with
        isFirst | beyond
      · exact ⟨score, isFirst, inRange⟩
      · exact absurd inRange (not_in_range_of_beyond beyond)
  wasSkipped clock := by
    rw [Holds, RuleEngine.evaluate, Option.some_inj, hasResult_iff,
      PolicyContext.firstResult, any_find?_iff]
    · simp only [beq_iff_eq]
    · intro result member named skipped
      exact stands.skips result member (beq_iff_eq.mp named) skipped
  reasonIs reasonCode clock := by
    rw [Holds, RuleEngine.evaluate, Option.some_inj, hasResult_iff,
      PolicyContext.firstResult, any_find?_iff]
    · simp only [beq_iff_eq]
    · intro result member named reason
      have first := stands.reasons result member (beq_iff_eq.mp named)
        reasonCode (beq_iff_eq.mp reason)
      obtain ⟨firstResult, found, same⟩ := Option.bind_eq_some_iff.mp first
      rw [← PolicyContext.firstResult, found, Option.any_some, same]
      exact beq_self_eq_true _

/-- Ranges that begin at a score, up to infinity and up to the first score, tell
it apart from the first. -/
theorem EvaluatorLeavesAgree.firstScore_eq
    {context : PolicyContext}
    {evaluatorId : String}
    (agree : EvaluatorLeavesAgree context evaluatorId)
    {result : EvaluatorResult}
    (member : result ∈ context.results)
    (named : result.evaluatorId = evaluatorId)
    {score : Single}
    (scored : result.score = some score)
    (number : score ≠ .nan)
    (notInfinity : score ≠ .infinity false) :
    context.firstScore evaluatorId = some score := by
  have seen {hi : Single} (ordered : score.lt hi = true) :
      ∃ first, context.firstScore evaluatorId = some first ∧
        score.le first = true ∧ first.lt hi = true := by
    rw [← holds_scoreBetween_iff ordered context evaluatorId (Stream'.const 0),
      agree.scoreBetween _ _ _ ordered, hasResult_iff]
    exact ⟨result, member, named, score, scored, FloatValue.le_self number,
      ordered⟩
  obtain ⟨first, isFirst, above, -⟩ :=
    seen (FloatValue.lt_infinity number notInfinity)
  by_contra different
  have below : score.lt first = true :=
    FloatValue.lt_of_le_of_ne above fun same =>
      different (by rw [isFirst, same])
  obtain ⟨again, isFirstAgain, -, smaller⟩ := seen below
  rw [isFirst, Option.some_inj] at isFirstAgain
  rw [← isFirstAgain, FloatValue.lt_self] at smaller
  exact absurd smaller (by decide)

/-- The leaves about an evaluator look at every result, for all ranges and
reason codes, exactly when the results after the first add nothing. -/
theorem evaluatorLeavesAgree_iff
    (context : PolicyContext)
    (evaluatorId : String) :
    EvaluatorLeavesAgree context evaluatorId ↔
      FirstStandsForAll context evaluatorId := by
  constructor
  · intro agree
    refine ⟨?_, ?_, ?_⟩
    · intro result member named score scored
      by_cases number : score = .nan
      · exact Or.inr (Or.inl number)
      by_cases infinite : score = .infinity false
      · exact Or.inr (Or.inr infinite)
      exact Or.inl (agree.firstScore_eq member named scored number infinite)
    · intro result member named skipped
      have holds := (agree.wasSkipped (Stream'.const 0)).mpr
        ((hasResult_iff _ _ _).mpr ⟨result, member, named, skipped⟩)
      rw [Holds, RuleEngine.evaluate, Option.some_inj] at holds
      exact holds
    · intro result member named reasonCode reason
      have holds := (agree.reasonIs reasonCode (Stream'.const 0)).mpr
        ((hasResult_iff _ _ _).mpr ⟨result, member, named, reason⟩)
      rw [Holds, RuleEngine.evaluate, Option.some_inj,
        Option.any_eq_true] at holds
      obtain ⟨first, found, same⟩ := holds
      rw [found, Option.bind_some]
      exact beq_iff_eq.mp same
  · exact evaluatorLeavesAgree_of_first

/-- Two threshold evaluators in one stage: the second is skipped, has a score
and a reason code. -/
def twoThresholds : PolicyContext where
  event := { tenantId := "acme", entityId := "alice" }
  stageOutputs :=
    [{ stageId := "eval"
       evaluatorResults :=
        [{ evaluatorId := "threshold_evaluator", score := some (.finite 0) },
          { evaluatorId := "threshold_evaluator", score := some (.finite 1)
            skipped := true
            reasonCode := some "threshold_exceeded" }] }]

/-- None of the three leaves sees the second result. -/
theorem second_result_unseen :
    ¬ Holds twoThresholds (.evaluatorScoreBetween "threshold_evaluator"
        (.finite 1) (.finite 2)) (Stream'.const 0) ∧
      ¬ Holds twoThresholds (.evaluatorWasSkipped "threshold_evaluator")
        (Stream'.const 0) ∧
      ¬ Holds twoThresholds (.evaluatorReasonIs "threshold_evaluator"
        "threshold_exceeded") (Stream'.const 0) ∧
      ¬ EvaluatorLeavesAgree twoThresholds "threshold_evaluator" := by
  have notSkipped : ¬ Holds twoThresholds
      (.evaluatorWasSkipped "threshold_evaluator") (Stream'.const 0) := by
    unfold Holds
    decide
  refine ⟨?_, notSkipped, ?_, fun agree => ?_⟩
  · unfold Holds
    decide
  · unfold Holds
    decide
  · exact notSkipped ((agree.wasSkipped (Stream'.const 0)).mpr
      ⟨_, List.mem_cons_self, _, List.mem_cons_of_mem _ List.mem_cons_self,
        rfl, rfl⟩)

end Policy
end Fre
