import Fre.Foundation.Undominated
import Fre.Stage.PolicyStage

/-!
# Resolution of incompatible decision types

On the multi-decision path a type is reported exactly when no type that matched
defeats it.  Defeat is read off the registry: of an incompatible pair the type of
lower precedence loses, and the second type when the precedences are equal.
-/

namespace Fre
namespace Stage
namespace PolicyStage

open Foundation Policy Undominated Relation

/-- The winner of a declared pair defeats the other type. -/
def Defeats (registry : DecisionTypeRegistry) (winner defeated : String) :
    Prop :=
  ∃ first second, registry.find winner = some first ∧
    registry.find defeated = some second ∧
    ((⟨winner, defeated⟩ ∈ registry.incompatible ∧
        first.priority ≤ second.priority) ∨
      (⟨defeated, winner⟩ ∈ registry.incompatible ∧
        first.priority < second.priority))

/-- The registered types of the rules that match. -/
def matchedTypes (registry : DecisionTypeRegistry) (visited : List Visit) :
    Set String :=
  { typeId | ∃ visit ∈ visited, visit.2 = some true ∧
      visit.1.decisionTypeId = some typeId ∧ (registry.find typeId).isSome }

/-! ### Matches -/

theorem matchOf_eq_some_iff
    {registry : DecisionTypeRegistry}
    {psr : PolicyStageRule}
    {typeId : String}
    {candidate : Match} :
    matchOf registry psr typeId = some candidate ↔
      ∃ descriptor, registry.find typeId = some descriptor ∧
        candidate =
          { typeId
            priority := descriptor.priority
            result := { matchResult psr with decisionTypeId := some typeId } } := by
  unfold matchOf
  rw [Option.map_eq_some_iff]
  simp only [eq_comm]

/-- A visit has a match exactly when it matches under a registered type. -/
theorem visitMatch_eq_some_iff
    {registry : DecisionTypeRegistry}
    {visit : Visit}
    {candidate : Match} :
    visitMatch registry visit = some candidate ↔
      visit.2 = some true ∧
        visit.1.decisionTypeId = some candidate.typeId ∧
        matchOf registry visit.1 candidate.typeId = some candidate := by
  unfold visitMatch
  split
  next matched =>
    rw [Option.bind_eq_some_iff]
    constructor
    · rintro ⟨typeId, hasType, given⟩
      obtain ⟨descriptor, found, rfl⟩ := matchOf_eq_some_iff.mp given
      exact ⟨matched, hasType, given⟩
    · rintro ⟨-, hasType, given⟩
      exact ⟨_, hasType, given⟩
  next notMatched => simp [notMatched]

/-- A visit that matches under a registered type has a match of that type. -/
theorem exists_visitMatch
    {registry : DecisionTypeRegistry}
    {visit : Visit}
    {typeId : String}
    (matched : visit.2 = some true)
    (hasType : visit.1.decisionTypeId = some typeId)
    (registered : (registry.find typeId).isSome) :
    ∃ candidate, visitMatch registry visit = some candidate ∧
      candidate.typeId = typeId := by
  obtain ⟨descriptor, found⟩ := Option.isSome_iff_exists.mp registered
  have exists_match : ∃ candidate, candidate.typeId = typeId ∧
      matchOf registry visit.1 typeId = some candidate :=
    ⟨_, rfl, matchOf_eq_some_iff.mpr ⟨descriptor, found, rfl⟩⟩
  obtain ⟨candidate, rfl, given⟩ := exists_match
  exact ⟨candidate,
    visitMatch_eq_some_iff.mpr ⟨matched, hasType, given⟩, rfl⟩

/-- The types of the matches are the matched types. -/
theorem exists_match_iff
    (registry : DecisionTypeRegistry)
    (visited : List Visit)
    (typeId : String) :
    (∃ candidate ∈ visited.filterMap (visitMatch registry),
        candidate.typeId = typeId) ↔
      typeId ∈ matchedTypes registry visited := by
  constructor
  · rintro ⟨candidate, member, rfl⟩
    obtain ⟨visit, visitMember, given⟩ := List.mem_filterMap.mp member
    obtain ⟨matched, hasType, ofType⟩ := visitMatch_eq_some_iff.mp given
    obtain ⟨descriptor, found, -⟩ := matchOf_eq_some_iff.mp ofType
    exact ⟨visit, visitMember, matched, hasType, by rw [found]; rfl⟩
  · rintro ⟨visit, visitMember, matched, hasType, registered⟩
    obtain ⟨candidate, given, ofType⟩ :=
      exists_visitMatch matched hasType registered
    exact ⟨candidate, List.mem_filterMap.mpr ⟨visit, visitMember, given⟩, ofType⟩

theorem fired_iff
    (registry : DecisionTypeRegistry)
    (visited : List Visit)
    (typeId : String) :
    fired (dedup (visited.filterMap (visitMatch registry))) typeId = true ↔
      typeId ∈ matchedTypes registry visited := by
  rw [← exists_match_iff, ← FirstByKey.exists_mem_firstByKey_iff]
  simp [fired, dedup]

/-! ### Losers -/

/-- The loser of a pair is the type that the other one defeats. -/
theorem loser_eq_some_iff
    (registry : DecisionTypeRegistry)
    (pair : IncompatiblePair)
    (defeated : String) :
    loser registry pair = some defeated ↔
      ∃ descA descB, registry.find pair.typeIdA = some descA ∧
        registry.find pair.typeIdB = some descB ∧
        ((descA.priority ≤ descB.priority ∧ pair.typeIdB = defeated) ∨
          (descB.priority < descA.priority ∧ pair.typeIdA = defeated)) := by
  unfold loser
  cases foundA : registry.find pair.typeIdA with
  | none => simp
  | some descA =>
      cases foundB : registry.find pair.typeIdB with
      | none => simp
      | some descB =>
          by_cases ordered : descA.priority ≤ descB.priority
          · simp [ordered, UInt32.not_lt.mpr ordered]
          · simp [ordered, UInt32.not_le.mp ordered]

/-- The losers are the matched types that a matched type defeats. -/
theorem mem_losers_iff
    (registry : DecisionTypeRegistry)
    (visited : List Visit)
    (defeated : String) :
    defeated ∈ losers registry
        (dedup (visited.filterMap (visitMatch registry))) ↔
      ∃ winner, Within (matchedTypes registry visited) (Defeats registry)
        winner defeated := by
  unfold losers
  simp only [List.mem_filterMap, Option.ite_none_right_eq_some,
    Bool.and_eq_true, fired_iff, loser_eq_some_iff]
  constructor
  · rintro ⟨⟨typeIdA, typeIdB⟩, declared, ⟨matchedA, matchedB⟩, descA, descB,
      foundA, foundB, ⟨ordered, rfl⟩ | ⟨ordered, rfl⟩⟩
    · exact ⟨typeIdA, matchedA, matchedB, descA, descB, foundA, foundB,
        Or.inl ⟨declared, ordered⟩⟩
    · exact ⟨typeIdB, matchedB, matchedA, descB, descA, foundB, foundA,
        Or.inr ⟨declared, ordered⟩⟩
  · rintro ⟨winner, matchedWinner, matchedDefeated, first, second, foundFirst,
      foundSecond, ⟨declared, ordered⟩ | ⟨declared, ordered⟩⟩
    · exact ⟨_, declared, ⟨matchedWinner, matchedDefeated⟩, first, second,
        foundFirst, foundSecond, Or.inl ⟨ordered, rfl⟩⟩
    · exact ⟨_, declared, ⟨matchedDefeated, matchedWinner⟩, second, first,
        foundSecond, foundFirst, Or.inr ⟨ordered, rfl⟩⟩

/-! ### Reported types -/

/-- The surviving results: for each matched type that no matched type defeats,
the result of its first match. -/
theorem mem_survivingResults_iff
    (registry : DecisionTypeRegistry)
    (visited : List Visit)
    (result : EvaluatorResult) :
    result ∈ survivingResults registry visited ↔
      ∃ candidate ∈ dedup (visited.filterMap (visitMatch registry)),
        Survives (matchedTypes registry visited) (Defeats registry)
          candidate.typeId ∧ candidate.result = result := by
  simp only [survivingResults, List.mem_map, List.mem_filter, Bool.not_eq_true',
    List.any_eq_false, beq_iff_eq]
  apply exists_congr
  intro candidate
  rw [and_assoc]
  apply and_congr_right
  intro member
  apply and_congr_left
  intro _
  have matched : candidate.typeId ∈ matchedTypes registry visited := by
    rw [← exists_match_iff, ← FirstByKey.exists_mem_firstByKey_iff]
    exact ⟨candidate, member, rfl⟩
  constructor
  · intro notLost
    refine ⟨matched, fun winner winnerMatched defeats => ?_⟩
    exact notLost candidate.typeId ((mem_losers_iff registry visited _).mpr
      ⟨winner, winnerMatched, matched, defeats⟩) rfl
  · rintro survives lost isLost rfl
    obtain ⟨winner, winnerMatched, -, defeats⟩ :=
      (mem_losers_iff registry visited _).mp isLost
    exact survives.2 winner winnerMatched defeats

/-- A match carries its own type. -/
theorem decisionTypeId_of_mem_dedup
    {registry : DecisionTypeRegistry}
    {visited : List Visit}
    {candidate : Match}
    (member : candidate ∈ dedup (visited.filterMap (visitMatch registry))) :
    candidate.result.decisionTypeId = some candidate.typeId := by
  unfold dedup at member
  rw [FirstByKey.mem_firstByKey] at member
  obtain ⟨visit, -, given⟩ :=
    List.mem_filterMap.mp (List.mem_of_find?_eq_some member)
  obtain ⟨-, -, ofType⟩ := visitMatch_eq_some_iff.mp given
  obtain ⟨descriptor, -, same⟩ := matchOf_eq_some_iff.mp ofType
  rw [same]

/-- The visit matches under the type. -/
def matchesType (typeId : String) (visit : Visit) : Bool :=
  visit.2 == some true && visit.1.decisionTypeId == some typeId

/-- Testing the match of a visit for a registered type. -/
theorem any_visitMatch
    {registry : DecisionTypeRegistry}
    {typeId : String}
    (registered : (registry.find typeId).isSome)
    (visit : Visit) :
    (visitMatch registry visit).any (fun existing =>
      existing.typeId == typeId) = matchesType typeId visit := by
  rw [Bool.eq_iff_iff, Option.any_eq_true]
  simp only [matchesType, Bool.and_eq_true, beq_iff_eq]
  constructor
  · rintro ⟨candidate, given, rfl⟩
    obtain ⟨matched, hasType, -⟩ := visitMatch_eq_some_iff.mp given
    exact ⟨matched, hasType⟩
  · rintro ⟨matched, hasType⟩
    exact exists_visitMatch matched hasType registered

/-- The kept matches are those of the first visit that matches under their
type. -/
theorem mem_dedup_iff
    (registry : DecisionTypeRegistry)
    (visited : List Visit)
    (candidate : Match) :
    candidate ∈ dedup (visited.filterMap (visitMatch registry)) ↔
      ∃ visit, visited.find? (matchesType candidate.typeId) = some visit ∧
        visitMatch registry visit = some candidate := by
  unfold dedup
  rw [FirstByKey.mem_firstByKey, List.find?_filterMap, Option.bind_eq_some_iff]
  apply exists_congr
  intro visit
  apply and_congr_left
  intro given
  obtain ⟨-, -, ofType⟩ := visitMatch_eq_some_iff.mp given
  obtain ⟨descriptor, found, -⟩ := matchOf_eq_some_iff.mp ofType
  have sameTest : (fun other => (visitMatch registry other).any fun existing =>
      existing.typeId == candidate.typeId) = matchesType candidate.typeId := by
    funext other
    exact any_visitMatch (by rw [found]; rfl) other
  rw [sameTest]

/-- Nothing is recorded under a type during the evaluation. -/
theorem recordedResult_untyped
    {config : PolicyStageConfig}
    {visit : Visit}
    {result : EvaluatorResult}
    (recorded : recordedResult config visit = some result) :
    result.decisionTypeId = none := by
  unfold recordedResult at recorded
  split at recorded
  · rw [← Option.some_inj.mp recorded]
    rfl
  · rw [← Option.some_inj.mp recorded]
    rfl
  · exact absurd recorded (by simp)

/-- The results with a type are the surviving ones, on both paths. -/
theorem typedResults_process
    (registry : DecisionTypeRegistry)
    (config : PolicyStageConfig)
    (context : PolicyContext)
    (clock : Clock)
    (elapsedUs : UInt64) :
    (process (some registry) config context clock
        elapsedUs).evaluatorResults.filter
          (fun result => result.decisionTypeId.isSome) =
      survivingResults registry (visits context config.rules clock) := by
  have resolved : resolvedResults (activeRegistry (some registry) config.rules)
      (visits context config.rules clock) =
        survivingResults registry (visits context config.rules clock) := by
    cases typed : anyTyped config.rules with
    | false =>
        rw [survivingResults_of_untyped
          (untyped_of_not_anyTyped context clock typed)]
        simp [activeRegistry_some, typed, resolvedResults]
    | true => simp [activeRegistry_some, typed, resolvedResults]
  rw [process_eq]
  dsimp only
  rw [resolved, List.filter_append]
  have noneRecorded : ((recordedVisits
      (activeRegistry (some registry) config.rules)
      (visits context config.rules clock)).filterMap
        (recordedResult config)).filter
          (fun result => result.decisionTypeId.isSome) = [] := by
    rw [List.filter_eq_nil_iff]
    intro result member
    obtain ⟨visit, -, recorded⟩ := List.mem_filterMap.mp member
    simp [recordedResult_untyped recorded]
  rw [noneRecorded, List.nil_append, List.filter_eq_self]
  intro result member
  obtain ⟨candidate, kept, -, rfl⟩ :=
    (mem_survivingResults_iff registry _ result).mp member
  simp [decisionTypeId_of_mem_dedup kept]

/-- The stage reports a decision of the type. -/
def Reports (out : StageOutput) (typeId : String) : Prop :=
  ∃ result ∈ out.evaluatorResults, result.decisionTypeId = some typeId

/-- The reported types are the matched types that no matched type defeats. -/
theorem reports_iff
    (registry : DecisionTypeRegistry)
    (config : PolicyStageConfig)
    (context : PolicyContext)
    (clock : Clock)
    (elapsedUs : UInt64)
    (typeId : String) :
    Reports (process (some registry) config context clock elapsedUs) typeId ↔
      Survives (matchedTypes registry (visits context config.rules clock))
        (Defeats registry) typeId := by
  have typed := typedResults_process registry config context clock elapsedUs
  constructor
  · rintro ⟨result, member, hasType⟩
    have surviving : result ∈ survivingResults registry
        (visits context config.rules clock) := by
      rw [← typed, List.mem_filter]
      exact ⟨member, by rw [hasType]; rfl⟩
    obtain ⟨candidate, kept, survives, rfl⟩ :=
      (mem_survivingResults_iff registry _ result).mp surviving
    rw [decisionTypeId_of_mem_dedup kept, Option.some_inj] at hasType
    rw [← hasType]
    exact survives
  · intro survives
    have matched := survives.1
    rw [← exists_match_iff, ← FirstByKey.exists_mem_firstByKey_iff] at matched
    obtain ⟨candidate, kept, rfl⟩ := matched
    have surviving := (mem_survivingResults_iff registry _ _).mpr
      ⟨candidate, kept, survives, rfl⟩
    rw [← typed, List.mem_filter] at surviving
    exact ⟨candidate.result, surviving.1, decisionTypeId_of_mem_dedup kept⟩

theorem finite_matchedTypes
    (registry : DecisionTypeRegistry)
    (visited : List Visit) :
    (matchedTypes registry visited).Finite := by
  apply (List.finite_toSet
    (visited.filterMap fun visit => visit.1.decisionTypeId)).subset
  rintro typeId ⟨visit, member, -, hasType, -⟩
  exact List.mem_filterMap.mpr ⟨visit, member, hasType⟩

/-! ### Keeping a decision -/

/-- The pair is declared in this order and both types have one priority. -/
def Tied (registry : DecisionTypeRegistry) (first second : String) : Prop :=
  ⟨first, second⟩ ∈ registry.incompatible ∧
    ∃ descFirst descSecond, registry.find first = some descFirst ∧
      registry.find second = some descSecond ∧
      descFirst.priority = descSecond.priority

/-- The registered priority as a rank. -/
def priorityRank (registry : DecisionTypeRegistry) (typeId : String) : Nat :=
  ((registry.find typeId).map fun descriptor =>
    descriptor.priority.toNat).getD 0

theorem Defeats.priorityRank_le
    {registry : DecisionTypeRegistry}
    {winner defeated : String}
    (defeats : Defeats registry winner defeated) :
    priorityRank registry winner ≤ priorityRank registry defeated := by
  obtain ⟨first, second, foundFirst, foundSecond, declared⟩ := defeats
  simp only [priorityRank, foundFirst, foundSecond, Option.map_some,
    Option.getD_some]
  rcases declared with ⟨-, ordered⟩ | ⟨-, ordered⟩
  · exact UInt32.le_iff_toNat_le.mp ordered
  · exact (UInt32.lt_iff_toNat_lt.mp ordered).le

/-- Between types of one rank the first of a declared pair wins. -/
theorem defeats_and_rank_eq_iff_tied
    (registry : DecisionTypeRegistry)
    (first second : String) :
    Defeats registry first second ∧
        priorityRank registry first = priorityRank registry second ↔
      Tied registry first second := by
  constructor
  · rintro ⟨⟨descFirst, descSecond, foundFirst, foundSecond, declared⟩, level⟩
    simp only [priorityRank, foundFirst, foundSecond, Option.map_some,
      Option.getD_some] at level
    have same : descFirst.priority = descSecond.priority :=
      UInt32.toNat_inj.mp level
    rcases declared with ⟨member, -⟩ | ⟨-, ordered⟩
    · exact ⟨member, descFirst, descSecond, foundFirst, foundSecond, same⟩
    · rw [same] at ordered
      exact absurd ordered (UInt32.lt_irrefl _)
  · rintro ⟨member, descFirst, descSecond, foundFirst, foundSecond, same⟩
    refine ⟨⟨descFirst, descSecond, foundFirst, foundSecond,
      Or.inl ⟨member, by rw [same]; exact UInt32.le_refl _⟩⟩, ?_⟩
    simp [priorityRank, foundFirst, foundSecond, same]

/-- The type lies on, or is defeated down from, a cycle of pairs between types
of one priority, all of them among the candidates. -/
def BelowTies (registry : DecisionTypeRegistry) (candidates : Set String)
    (typeId : String) : Prop :=
  ∃ onCycle, TransGen (Within candidates (Tied registry)) onCycle onCycle ∧
    ReflTransGen (Within candidates (Defeats registry)) onCycle typeId

/-- Cycles of defeats are cycles of tied pairs. -/
theorem belowCycle_iff_belowTies
    (registry : DecisionTypeRegistry)
    (candidates : Set String)
    (typeId : String) :
    BelowCycle candidates (Defeats registry) typeId ↔
      BelowTies registry candidates typeId := by
  have sameEdges : (fun left right =>
      Within candidates (Defeats registry) left right ∧
        priorityRank registry left = priorityRank registry right) =
      Within candidates (Tied registry) := by
    funext left right
    simp only [Within, ← defeats_and_rank_eq_iff_tied, and_assoc]
  unfold BelowCycle BelowTies
  apply exists_congr
  intro onCycle
  rw [cycle_iff_tied (priorityRank registry)
    (fun _ _ edge => edge.2.2.priorityRank_le) onCycle, sameEdges]

/-- Some type is reported exactly when some matched type does not lie below a
cycle of tied pairs. -/
theorem exists_reports_iff
    (registry : DecisionTypeRegistry)
    (config : PolicyStageConfig)
    (context : PolicyContext)
    (clock : Clock)
    (elapsedUs : UInt64) :
    (∃ typeId, Reports
        (process (some registry) config context clock elapsedUs) typeId) ↔
      ∃ typeId ∈ matchedTypes registry (visits context config.rules clock),
        ¬ BelowTies registry
          (matchedTypes registry (visits context config.rules clock)) typeId := by
  simp only [reports_iff, ← belowCycle_iff_belowTies]
  exact exists_survives_iff (finite_matchedTypes registry _) (Defeats registry)

/-- When a registered type has matched, a decision is kept: this holds exactly
when no type has matched, or some matched type does not lie below a cycle of
declared pairs between matched types of one priority. -/
theorem keeps_decision_iff
    (registry : DecisionTypeRegistry)
    (config : PolicyStageConfig)
    (context : PolicyContext)
    (clock : Clock)
    (elapsedUs : UInt64) :
    let matched := matchedTypes registry (visits context config.rules clock)
    (matched.Nonempty → ∃ typeId, Reports
        (process (some registry) config context clock elapsedUs) typeId) ↔
      matched = ∅ ∨ ∃ typeId ∈ matched, ¬ BelowTies registry matched typeId := by
  intro matched
  rw [exists_reports_iff]
  constructor
  · intro keeps
    rcases matched.eq_empty_or_nonempty with empty | nonempty
    · exact Or.inl empty
    · exact Or.inr (keeps nonempty)
  · rintro (empty | clear) nonempty
    · exact absurd empty nonempty.ne_empty
    · exact clear

/-- A rule of a type that matches every event. -/
def typedRule (typeId : String) (priority : Int32) : PolicyStageRule where
  rule := .not (some (.tagExists "absent"))
  priority := priority
  ruleId := typeId
  decisionTypeId := some typeId

/-- An event without tags. -/
def plainContext : PolicyContext where
  event := { tenantId := "t", entityId := "e" }
  stageOutputs := []

/-- Two types of one priority whose incompatibility was declared twice, once in
each order. -/
def mutualRegistry : DecisionTypeRegistry where
  types := [{ id := "notify" }, { id := "block" }]
  incompatible := [⟨"block", "notify"⟩, ⟨"notify", "block"⟩]

/-- Both rules match, and no decision is left. -/
theorem mutual_pairs_leave_no_decision :
    mutualRegistry.Filled ∧
      (matchedTypes mutualRegistry (visits plainContext
        [typedRule "block" 0, typedRule "notify" 1]
        (Stream'.const 0))).Nonempty ∧
      ∀ typeId, ¬ Reports (process (some mutualRegistry)
        { rules := [typedRule "block" 0, typedRule "notify" 1] }
        plainContext (Stream'.const 0) 0) typeId := by
  refine ⟨⟨[.addType { id := "block" }, .addType { id := "notify" },
    .addIncompatible "block" "notify", .addIncompatible "notify" "block"],
    by decide⟩, ⟨"block", (typedRule "block" 0, some true), ?_, rfl, rfl,
    by decide⟩, ?_⟩
  · exact List.mem_cons_self
  · rintro typeId ⟨result, member, -⟩
    have empty : (process (some mutualRegistry)
        { rules := [typedRule "block" 0, typedRule "notify" 1] }
        plainContext (Stream'.const 0) 0).evaluatorResults = [] := by decide
    rw [empty] at member
    exact absurd member List.not_mem_nil

/-! ### Suppressed types -/

/-- The two types are declared incompatible and the suppressed one has the
larger priority number. -/
def Suppresses (registry : DecisionTypeRegistry)
    (stronger suppressed : String) : Prop :=
  registry.areIncompatible suppressed stronger = true ∧
    ∃ descStronger descSuppressed,
      registry.find stronger = some descStronger ∧
      registry.find suppressed = some descSuppressed ∧
      descStronger.priority < descSuppressed.priority

section DistinctPriorities

variable {registry : DecisionTypeRegistry}
  (distinctPriorities :
    (registry.types.map DecisionTypeDescriptor.priority).Nodup)
  (distinctPairs : ∀ pair ∈ registry.incompatible,
    pair.typeIdA ≠ pair.typeIdB)

include distinctPriorities in
/-- Two types with one priority are one type. -/
theorem eq_of_priority_eq
    {first second : String}
    {descFirst descSecond : DecisionTypeDescriptor}
    (foundFirst : registry.find first = some descFirst)
    (foundSecond : registry.find second = some descSecond)
    (same : descFirst.priority = descSecond.priority) :
    first = second := by
  have sameDescriptor : descFirst = descSecond :=
    List.inj_on_of_nodup_map distinctPriorities
      (List.mem_of_find?_eq_some foundFirst)
      (List.mem_of_find?_eq_some foundSecond) same
  rw [← DecisionTypeRegistry.find_id foundFirst,
    ← DecisionTypeRegistry.find_id foundSecond, sameDescriptor]

include distinctPriorities distinctPairs in
/-- Without ties only a type of smaller priority number defeats. -/
theorem Defeats.suppresses
    {winner defeated : String}
    (defeats : Defeats registry winner defeated) :
    Suppresses registry winner defeated := by
  obtain ⟨first, second, foundFirst, foundSecond, declared⟩ := defeats
  have incompatible : registry.areIncompatible defeated winner = true := by
    rw [DecisionTypeRegistry.areIncompatible_iff]
    rcases declared with ⟨member, -⟩ | ⟨member, -⟩
    · exact Or.inr member
    · exact Or.inl member
  refine ⟨incompatible, first, second, foundFirst, foundSecond, ?_⟩
  rcases declared with ⟨member, ordered⟩ | ⟨-, ordered⟩
  · apply UInt32.lt_of_le_of_ne ordered
    intro same
    exact distinctPairs _ member
      (eq_of_priority_eq distinctPriorities foundFirst foundSecond same)
  · exact ordered

theorem Suppresses.priorityRank_lt
    {stronger suppressed : String}
    (suppresses : Suppresses registry stronger suppressed) :
    priorityRank registry stronger < priorityRank registry suppressed := by
  obtain ⟨-, descStronger, descSuppressed, foundStronger, foundSuppressed,
    ordered⟩ := suppresses
  simp only [priorityRank, foundStronger, foundSuppressed, Option.map_some,
    Option.getD_some]
  exact UInt32.lt_iff_toNat_lt.mp ordered

include distinctPriorities distinctPairs in
/-- Without ties no type lies below a cycle. -/
theorem not_belowCycle
    (candidates : Set String)
    (typeId : String) :
    ¬ BelowCycle candidates (Defeats registry) typeId := by
  rintro ⟨onCycle, cycle, -⟩
  have climbs : ∀ {first last},
      TransGen (Within candidates (Defeats registry)) first last →
        priorityRank registry first < priorityRank registry last := by
    intro first last chain
    induction chain with
    | single edge =>
        exact (edge.2.2.suppresses distinctPriorities
          distinctPairs).priorityRank_lt
    | tail _ edge inductionHypothesis =>
        exact inductionHypothesis.trans (edge.2.2.suppresses
          distinctPriorities distinctPairs).priorityRank_lt
  exact absurd (climbs cycle) (Nat.lt_irrefl _)

include distinctPriorities distinctPairs in
/-- A matched type that is not reported is suppressed by a matched type of
smaller priority number, and a chain of such suppressions starts at a reported
type. -/
theorem missing_type_is_suppressed
    (config : PolicyStageConfig)
    (context : PolicyContext)
    (clock : Clock)
    (elapsedUs : UInt64)
    (typeId : String)
    (matched : typeId ∈
      matchedTypes registry (visits context config.rules clock))
    (missing : ¬ Reports
      (process (some registry) config context clock elapsedUs) typeId) :
    (∃ stronger ∈ matchedTypes registry (visits context config.rules clock),
      Suppresses registry stronger typeId) ∧
    ∃ reported,
      Reports (process (some registry) config context clock elapsedUs)
        reported ∧
      TransGen (Within
        (matchedTypes registry (visits context config.rules clock))
        (Suppresses registry)) reported typeId := by
  obtain ⟨survivor, survives, chain⟩ := exists_survives_above
    (finite_matchedTypes registry _) matched
    (not_belowCycle distinctPriorities distinctPairs _ typeId)
  have reported := (reports_iff registry config context clock elapsedUs
    survivor).mpr survives
  have suppression : ReflTransGen (Within
      (matchedTypes registry (visits context config.rules clock))
      (Suppresses registry)) survivor typeId :=
    ReflTransGen.mono (fun _ _ edge => ⟨edge.1, edge.2.1,
      edge.2.2.suppresses distinctPriorities distinctPairs⟩) _ _ chain
  rcases reflTransGen_iff_eq_or_transGen.mp suppression with same | proper
  · rw [same] at missing
    exact absurd reported missing
  · obtain ⟨stronger, -, last⟩ := TransGen.tail'_iff.mp proper
    exact ⟨⟨stronger, last.1, last.2.2⟩, survivor, reported, proper⟩

end DistinctPriorities

/-- Three types of which the first two and the last two are incompatible. -/
def chainRegistry : DecisionTypeRegistry where
  types := [{ id := "block", priority := 0 }, { id := "review", priority := 1 },
    { id := "notify", priority := 2 }]
  incompatible := [⟨"block", "review"⟩, ⟨"review", "notify"⟩]

/-- A rule for each of the three types. -/
def chainConfig : PolicyStageConfig where
  rules := [typedRule "block" 0, typedRule "review" 1, typedRule "notify" 2]

/-- Of the chain only the first type is reported. -/
theorem chain_results :
    (process (some chainRegistry) chainConfig plainContext (Stream'.const 0)
      0).evaluatorResults.map EvaluatorResult.decisionTypeId =
        [some "block"] := by
  decide

theorem chain_reports
    {typeId : String}
    (reports : Reports (process (some chainRegistry) chainConfig plainContext
      (Stream'.const 0) 0) typeId) :
    typeId = "block" := by
  obtain ⟨result, member, hasType⟩ := reports
  have listed := List.mem_map_of_mem (f := EvaluatorResult.decisionTypeId) member
  rw [chain_results, hasType] at listed
  simpa using listed

theorem chain_matched :
    "notify" ∈ matchedTypes chainRegistry (visits plainContext
      chainConfig.rules (Stream'.const 0)) :=
  ⟨(typedRule "notify" 2, some true), by
    refine List.mem_cons_of_mem _ (List.mem_cons_of_mem _ ?_)
    exact List.mem_cons_self, rfl, rfl, by decide⟩

/-- The type `notify` is suppressed along a chain that starts at a reported
type. -/
theorem chain_suppresses_notify :
    ∃ reported,
      Reports (process (some chainRegistry) chainConfig plainContext
        (Stream'.const 0) 0) reported ∧
      TransGen (Within (matchedTypes chainRegistry (visits plainContext
        chainConfig.rules (Stream'.const 0)))
        (Suppresses chainRegistry)) reported "notify" :=
  (@missing_type_is_suppressed chainRegistry (by decide)
    (by decide) chainConfig plainContext (Stream'.const 0) 0 "notify"
    chain_matched fun reports =>
      absurd (chain_reports reports) (by decide)).2

/-- The type `notify` has matched and is missing, and no reported type is
declared incompatible with it. -/
theorem suppressed_by_unreported_type :
    chainRegistry.Filled ∧
      (chainRegistry.types.map DecisionTypeDescriptor.priority).Nodup ∧
      (∀ pair ∈ chainRegistry.incompatible, pair.typeIdA ≠ pair.typeIdB) ∧
      "notify" ∈ matchedTypes chainRegistry (visits plainContext
        chainConfig.rules (Stream'.const 0)) ∧
      ¬ Reports (process (some chainRegistry) chainConfig plainContext
        (Stream'.const 0) 0) "notify" ∧
      ∀ reported, Reports (process (some chainRegistry) chainConfig
        plainContext (Stream'.const 0) 0) reported →
          chainRegistry.areIncompatible "notify" reported = false := by
  refine ⟨⟨[.addType { id := "block", priority := 0 },
    .addType { id := "review", priority := 1 },
    .addType { id := "notify", priority := 2 },
    .addIncompatible "block" "review", .addIncompatible "review" "notify"],
    by decide⟩, by decide, by decide, chain_matched, ?_, ?_⟩
  · intro reports
    exact absurd (chain_reports reports) (by decide)
  · intro reported reports
    rw [chain_reports reports]
    decide

end PolicyStage
end Stage
end Fre
