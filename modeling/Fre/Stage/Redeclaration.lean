import Fre.Core.RegistryInvariant
import Fre.Stage.Combinability

/-!
# The order of incompatibility declarations

`are_incompatible` does not look at the order in which a pair was declared, but
the elimination of losers does: on equal priority the second type loses.  A
registry is declared anew by swapping the arguments of calls of
`add_incompatible`, reordering the calls and repeating them.  The reported types
stay the same under all of this exactly when every matched type that is tied
with another matched type is beaten anyway.
-/

namespace Fre

open Foundation

/-- The pair with its types exchanged. -/
def IncompatiblePair.swap (pair : IncompatiblePair) : IncompatiblePair :=
  ⟨pair.typeIdB, pair.typeIdA⟩

namespace DecisionTypeRegistry

/-- The calls of `add_incompatible` for the pairs, in order. -/
def declare (registry : DecisionTypeRegistry)
    (pairs : List IncompatiblePair) : Option DecisionTypeRegistry :=
  Machine.run step registry
    (pairs.map fun pair => .addIncompatible pair.typeIdA pair.typeIdB)

/-- The calls changed by swapping arguments, reordering and repeating. -/
inductive Redeclared : List IncompatiblePair → List IncompatiblePair → Prop
  | swapped (before : List IncompatiblePair) (pair : IncompatiblePair)
      (after : List IncompatiblePair) :
      Redeclared (before ++ pair :: after) (before ++ pair.swap :: after)
  | reordered {pairs others : List IncompatiblePair} :
      pairs.Perm others → Redeclared pairs others
  | repeated (before : List IncompatiblePair) (pair : IncompatiblePair)
      (after : List IncompatiblePair) :
      Redeclared (before ++ pair :: after) (before ++ pair :: pair :: after)
  | trans {pairs others last : List IncompatiblePair} :
      Redeclared pairs others → Redeclared others last → Redeclared pairs last

/-- The pair is declared in one of the two orders. -/
def DeclaredIn (pairs : List IncompatiblePair) (lhs rhs : String) : Prop :=
  ⟨lhs, rhs⟩ ∈ pairs ∨ ⟨rhs, lhs⟩ ∈ pairs

/-- The calls declare the same types incompatible. -/
theorem Redeclared.declaredIn_iff
    {pairs others : List IncompatiblePair}
    (redeclared : Redeclared pairs others)
    (lhs rhs : String) :
    DeclaredIn others lhs rhs ↔ DeclaredIn pairs lhs rhs := by
  induction redeclared with
  | swapped before pair after =>
      obtain ⟨typeIdA, typeIdB⟩ := pair
      simp only [DeclaredIn, IncompatiblePair.swap, List.mem_append,
        List.mem_cons, IncompatiblePair.mk.injEq]
      tauto
  | reordered perm =>
      simp only [DeclaredIn, perm.mem_iff]
  | repeated before pair after =>
      simp only [DeclaredIn, List.mem_append, List.mem_cons]
      tauto
  | trans _ _ first second => exact second.trans first

/-- The pairs may be swapped one by one. -/
theorem Redeclared.map
    {turn : IncompatiblePair → IncompatiblePair}
    (turns : ∀ pair, turn pair = pair ∨ turn pair = pair.swap)
    (pairs : List IncompatiblePair) :
    Redeclared pairs (pairs.map turn) := by
  suffices general : ∀ before,
      Redeclared (before ++ pairs) (before ++ pairs.map turn) from
    general []
  induction pairs with
  | nil => exact fun before => .reordered (List.Perm.refl _)
  | cons pair rest inductionHypothesis =>
      intro before
      have later := inductionHypothesis (before ++ [turn pair])
      rw [List.append_assoc, List.append_assoc] at later
      rcases turns pair with same | swapped
      · rw [same] at later
        rw [List.map_cons, same]
        exact later
      · rw [swapped] at later
        rw [List.map_cons, swapped]
        exact .trans (.swapped before pair rest) later

/-- Calls for registered types succeed and append their pairs. -/
theorem declare_eq_some
    (registry : DecisionTypeRegistry)
    {pairs : List IncompatiblePair}
    (registered : ∀ pair ∈ pairs, (registry.find pair.typeIdA).isSome ∧
      (registry.find pair.typeIdB).isSome) :
    registry.declare pairs =
      some { registry with incompatible := registry.incompatible ++ pairs } := by
  induction pairs generalizing registry with
  | nil => simp [declare]
  | cons pair rest inductionHypothesis =>
      obtain ⟨foundA, foundB⟩ := registered pair List.mem_cons_self
      have stepped : registry.step
          (.addIncompatible pair.typeIdA pair.typeIdB) =
            some { registry with
              incompatible := registry.incompatible ++ [pair] } := by
        simp [step, addIncompatible, Option.isNone_iff_eq_none,
          Option.isSome_iff_ne_none.mp foundA,
          Option.isSome_iff_ne_none.mp foundB, Except.toOption]
      rw [declare, List.map_cons, Machine.run, stepped, Option.bind_some]
      have later := inductionHypothesis
        { registry with incompatible := registry.incompatible ++ [pair] }
        fun other member => registered other (List.mem_cons_of_mem pair member)
      rw [declare] at later
      rw [later, List.append_assoc]
      rfl

/-- The registry with the calls of `add_incompatible` replaced. -/
def withPairs (registry : DecisionTypeRegistry)
    (pairs : List IncompatiblePair) : DecisionTypeRegistry :=
  { registry with incompatible := pairs }

/-- The changed calls succeed on the same types. -/
theorem declare_redeclared
    {registry : DecisionTypeRegistry}
    (pairsRegistered : registry.PairsRegistered)
    {others : List IncompatiblePair}
    (redeclared : Redeclared registry.incompatible others) :
    declare { types := registry.types } others =
      some (registry.withPairs others) := by
  have registered : ∀ pair ∈ others,
      (registry.find pair.typeIdA).isSome ∧
        (registry.find pair.typeIdB).isSome := by
    intro pair member
    have declared : DeclaredIn registry.incompatible pair.typeIdA
        pair.typeIdB :=
      (redeclared.declaredIn_iff _ _).mp (Or.inl member)
    rcases declared with sameOrder | otherOrder
    · exact pairsRegistered _ sameOrder
    · exact (pairsRegistered _ otherOrder).symm
  exact declare_eq_some { types := registry.types } registered

theorem areIncompatible_withPairs_iff
    (registry : DecisionTypeRegistry)
    (pairs : List IncompatiblePair)
    (lhs rhs : String) :
    (registry.withPairs pairs).areIncompatible lhs rhs = true ↔
      DeclaredIn pairs lhs rhs :=
  areIncompatible_iff _ lhs rhs

end DecisionTypeRegistry

namespace Stage
namespace PolicyStage

open Policy Undominated DecisionTypeRegistry

/-! ### Types that are beaten in every order -/

/-- The type is incompatible with a matched type of smaller priority number, or
with itself. -/
def Beaten (registry : DecisionTypeRegistry) (matched : Set String)
    (typeId : String) : Prop :=
  (∃ stronger ∈ matched, Suppresses registry stronger typeId) ∨
    registry.areIncompatible typeId typeId = true

/-- The two types are different, incompatible and of one priority. -/
def Rivals (registry : DecisionTypeRegistry) (first second : String) : Prop :=
  first ≠ second ∧ registry.areIncompatible first second = true ∧
    ∃ descFirst descSecond, registry.find first = some descFirst ∧
      registry.find second = some descSecond ∧
      descFirst.priority = descSecond.priority

/-- Every matched type with a matched rival is beaten. -/
def RivalsBeaten (registry : DecisionTypeRegistry) (matched : Set String) :
    Prop :=
  ∀ first ∈ matched, ∀ second ∈ matched, Rivals registry first second →
    Beaten registry matched first

/-- A matched type that is beaten loses, in whatever order the pairs were
declared. -/
theorem Beaten.exists_defeats
    {registry : DecisionTypeRegistry}
    {matched : Set String}
    {typeId : String}
    (member : typeId ∈ matched)
    (registered : (registry.find typeId).isSome)
    (beaten : Beaten registry matched typeId) :
    ∃ winner ∈ matched, Defeats registry winner typeId := by
  rcases beaten with ⟨stronger, strongerMember, incompatible, descStronger,
    descSuppressed, foundStronger, foundSuppressed, smaller⟩ | itself
  · refine ⟨stronger, strongerMember, descStronger, descSuppressed,
      foundStronger, foundSuppressed, ?_⟩
    rcases (areIncompatible_iff registry _ _).mp incompatible with
      second | first
    · exact Or.inr ⟨second, smaller⟩
    · exact Or.inl ⟨first, UInt32.le_of_lt smaller⟩
  · obtain ⟨descriptor, found⟩ := Option.isSome_iff_exists.mp registered
    refine ⟨typeId, member, descriptor, descriptor, found, found,
      Or.inl ⟨?_, UInt32.le_refl _⟩⟩
    simpa using (areIncompatible_iff registry _ _).mp itself

/-- A type is defeated by a smaller priority number, by itself or by a rival
that was declared before it. -/
theorem Defeats.suppresses_or_tied
    {registry : DecisionTypeRegistry}
    {winner defeated : String}
    (defeats : Defeats registry winner defeated) :
    Suppresses registry winner defeated ∨
      ⟨winner, defeated⟩ ∈ registry.incompatible ∧
        (winner = defeated ∨ Rivals registry defeated winner) := by
  obtain ⟨first, second, foundFirst, foundSecond, declared⟩ := defeats
  rcases declared with ⟨member, ordered⟩ | ⟨member, ordered⟩
  · have incompatible : registry.areIncompatible defeated winner = true :=
      (areIncompatible_iff registry _ _).mpr (Or.inr member)
    by_cases same : first.priority = second.priority
    · refine Or.inr ⟨member, ?_⟩
      by_cases itself : winner = defeated
      · exact Or.inl itself
      · exact Or.inr ⟨Ne.symm itself, incompatible, second, first, foundSecond,
          foundFirst, same.symm⟩
    · exact Or.inl ⟨incompatible, first, second, foundFirst, foundSecond,
        UInt32.lt_of_le_of_ne ordered same⟩
  · exact Or.inl ⟨(areIncompatible_iff registry _ _).mpr (Or.inl member), first,
      second, foundFirst, foundSecond, ordered⟩

/-- When rivals are beaten, the survivors are the matched types that are not
beaten. -/
theorem survives_iff_not_beaten
    {registry : DecisionTypeRegistry}
    {matched : Set String}
    (registered : ∀ typeId ∈ matched, (registry.find typeId).isSome)
    (rivalsBeaten : RivalsBeaten registry matched)
    (typeId : String) :
    Survives matched (Defeats registry) typeId ↔
      typeId ∈ matched ∧ ¬ Beaten registry matched typeId := by
  unfold Survives
  apply and_congr_right
  intro member
  constructor
  · intro undefeated beaten
    obtain ⟨winner, winnerMember, defeats⟩ :=
      beaten.exists_defeats member (registered typeId member)
    exact undefeated winner winnerMember defeats
  · intro notBeaten winner winnerMember defeats
    rcases defeats.suppresses_or_tied with suppresses | ⟨declared, tied⟩
    · exact notBeaten (Or.inl ⟨winner, winnerMember, suppresses⟩)
    · rcases tied with rfl | rivals
      · exact notBeaten (Or.inr
          ((areIncompatible_iff registry _ _).mpr (Or.inl declared)))
      · exact notBeaten (rivalsBeaten typeId member winner winnerMember rivals)

/-! ### Changed declarations -/

/-- Changed calls declare the same types incompatible. -/
theorem areIncompatible_redeclared
    {registry : DecisionTypeRegistry}
    {others : List IncompatiblePair}
    (redeclared : Redeclared registry.incompatible others)
    (lhs rhs : String) :
    (registry.withPairs others).areIncompatible lhs rhs =
      registry.areIncompatible lhs rhs := by
  rw [Bool.eq_iff_iff, areIncompatible_withPairs_iff,
    redeclared.declaredIn_iff]
  exact (areIncompatible_iff registry lhs rhs).symm

theorem beaten_redeclared_iff
    {registry : DecisionTypeRegistry}
    {others : List IncompatiblePair}
    (redeclared : Redeclared registry.incompatible others)
    (matched : Set String)
    (typeId : String) :
    Beaten (registry.withPairs others) matched typeId ↔
      Beaten registry matched typeId := by
  simp only [Beaten, Suppresses, areIncompatible_redeclared redeclared]
  rfl

theorem rivalsBeaten_redeclared_iff
    {registry : DecisionTypeRegistry}
    {others : List IncompatiblePair}
    (redeclared : Redeclared registry.incompatible others)
    (matched : Set String) :
    RivalsBeaten (registry.withPairs others) matched ↔
      RivalsBeaten registry matched := by
  simp only [RivalsBeaten, Rivals, beaten_redeclared_iff redeclared,
    areIncompatible_redeclared redeclared]
  rfl

/-- The pair with the type in front. -/
def inFront (typeId : String) (pair : IncompatiblePair) : IncompatiblePair :=
  if pair.typeIdB = typeId then pair.swap else pair

/-- The pair with the type behind. -/
def behind (typeId : String) (pair : IncompatiblePair) : IncompatiblePair :=
  if pair.typeIdA = typeId then pair.swap else pair

theorem redeclared_inFront
    (typeId : String)
    (pairs : List IncompatiblePair) :
    Redeclared pairs (pairs.map (inFront typeId)) :=
  Redeclared.map (fun _ => (ite_eq_or_eq _ _ _).symm) pairs

theorem redeclared_behind
    (typeId : String)
    (pairs : List IncompatiblePair) :
    Redeclared pairs (pairs.map (behind typeId)) :=
  Redeclared.map (fun _ => (ite_eq_or_eq _ _ _).symm) pairs

/-- A type that is not beaten survives when it stands in front in all its
pairs. -/
theorem survives_inFront
    {registry : DecisionTypeRegistry}
    {matched : Set String}
    {typeId : String}
    (member : typeId ∈ matched)
    (notBeaten : ¬ Beaten registry matched typeId) :
    Survives matched (Defeats (registry.withPairs
      (registry.incompatible.map (inFront typeId)))) typeId := by
  refine ⟨member, fun winner winnerMember defeats => notBeaten ?_⟩
  rw [← beaten_redeclared_iff (redeclared_inFront typeId _)]
  rcases defeats.suppresses_or_tied with suppresses | ⟨declared, -⟩
  · exact Or.inl ⟨winner, winnerMember, suppresses⟩
  · obtain ⟨pair, pairMember, turned⟩ := List.mem_map.mp declared
    have itself : winner = typeId := by
      unfold inFront at turned
      split at turned
      next second =>
        rw [IncompatiblePair.swap, IncompatiblePair.mk.injEq] at turned
        exact turned.1.symm.trans second
      next notSecond =>
        rw [turned] at notSecond
        exact absurd rfl notSecond
    rw [itself] at declared
    exact Or.inr ((areIncompatible_iff _ _ _).mpr (Or.inl declared))

/-- A type with a matched rival loses when it stands behind in all its
pairs. -/
theorem not_survives_behind
    {registry : DecisionTypeRegistry}
    {matched : Set String}
    {typeId rival : String}
    (rivalMember : rival ∈ matched)
    (rivals : Rivals registry typeId rival) :
    ¬ Survives matched (Defeats (registry.withPairs
      (registry.incompatible.map (behind typeId)))) typeId := by
  obtain ⟨different, incompatible, descFirst, descSecond, foundFirst,
    foundSecond, same⟩ := rivals
  intro survives
  refine survives.2 rival rivalMember
    ⟨descSecond, descFirst, foundSecond, foundFirst, Or.inl ⟨?_, ?_⟩⟩
  · rcases (areIncompatible_iff registry _ _).mp incompatible with
      first | second
    · exact List.mem_map.mpr ⟨_, first, by simp [behind, IncompatiblePair.swap]⟩
    · exact List.mem_map.mpr ⟨_, second, by simp [behind, different.symm]⟩
  · rw [same]
    exact UInt32.le_refl _

/-- The reported types are the same whenever calls of `add_incompatible` are
repeated or reordered or have their arguments swapped, exactly when every
matched type that is incompatible with another matched type of its priority is
beaten by a smaller priority number or by itself. -/
theorem survivors_independent_of_declarations_iff
    (registry : DecisionTypeRegistry)
    (filled : registry.Filled)
    (config : PolicyStageConfig)
    (context : PolicyContext)
    (clock : Clock)
    (elapsedUs : UInt64) :
    (∀ others, Redeclared registry.incompatible others →
      ∃ redeclared,
        declare { types := registry.types } others = some redeclared ∧
        ∀ typeId,
          Reports (process (some redeclared) config context clock elapsedUs)
              typeId ↔
            Reports (process (some registry) config context clock elapsedUs)
              typeId) ↔
      RivalsBeaten registry
        (matchedTypes registry (visits context config.rules clock)) := by
  have registered : ∀ typeId ∈ matchedTypes registry
      (visits context config.rules clock), (registry.find typeId).isSome :=
    fun typeId matched => matched.choose_spec.2.2.2
  simp only [reports_iff]
  constructor
  · intro independent first firstMember second secondMember rivals
    by_contra notBeaten
    have declaredAgain (others : List IncompatiblePair)
        (redeclared : Redeclared registry.incompatible others) :=
      declare_redeclared filled.wellFormed.pairsRegistered redeclared
    obtain ⟨front, declaredFront, sameFront⟩ := independent _
      (redeclared_inFront first _)
    obtain ⟨back, declaredBack, sameBack⟩ := independent _
      (redeclared_behind first _)
    rw [declaredAgain _ (redeclared_inFront first _), Option.some.injEq]
      at declaredFront
    rw [declaredAgain _ (redeclared_behind first _), Option.some.injEq]
      at declaredBack
    subst declaredFront declaredBack
    have survives := (sameFront first).mp (survives_inFront firstMember notBeaten)
    exact not_survives_behind secondMember rivals ((sameBack first).mpr survives)
  · intro rivalsBeaten others redeclared
    refine ⟨_, declare_redeclared filled.wellFormed.pairsRegistered redeclared,
      fun typeId => ?_⟩
    rw [survives_iff_not_beaten registered rivalsBeaten]
    have again := (rivalsBeaten_redeclared_iff redeclared _).mpr rivalsBeaten
    have registeredAgain : ∀ typeId ∈ matchedTypes registry
        (visits context config.rules clock),
        ((registry.withPairs others).find typeId).isSome := registered
    refine (survives_iff_not_beaten registeredAgain again typeId).trans ?_
    exact and_congr_right fun _ =>
      not_congr (beaten_redeclared_iff redeclared _ typeId)

/-- A rule for each of two types, that of `beta` first. -/
def alphaBetaConfig : PolicyStageConfig where
  rules := [typedRule "beta" 1, typedRule "alpha" 2]

/-- The incompatible types `alpha` and `beta` of different priorities. -/
def rankedRegistry : DecisionTypeRegistry where
  types := [{ id := "alpha", priority := 10 }, { id := "beta", priority := 20 }]
  incompatible := [⟨"alpha", "beta"⟩]

theorem rankedRegistry_filled : rankedRegistry.Filled :=
  ⟨[.addType { id := "alpha", priority := 10 },
    .addType { id := "beta", priority := 20 },
    .addIncompatible "alpha" "beta"], by decide⟩

/-- With different priorities the arguments may be swapped. -/
theorem ranked_pair_swapped :
    ∃ redeclared,
      declare { types := rankedRegistry.types } [⟨"beta", "alpha"⟩] =
          some redeclared ∧
        ∀ typeId,
          Reports (process (some redeclared) alphaBetaConfig plainContext
              (Stream'.const 0) 0) typeId ↔
            Reports (process (some rankedRegistry) alphaBetaConfig plainContext
              (Stream'.const 0) 0) typeId := by
  refine (survivors_independent_of_declarations_iff rankedRegistry
    rankedRegistry_filled alphaBetaConfig plainContext (Stream'.const 0) 0).mpr
    ?_ _ (.swapped [] ⟨"alpha", "beta"⟩ [])
  rintro first - second - ⟨different, -, descFirst, descSecond, foundFirst,
    foundSecond, same⟩
  have distinct : (rankedRegistry.types.map
      DecisionTypeDescriptor.priority).Nodup := by decide
  exact absurd (eq_of_priority_eq distinct foundFirst foundSecond same) different

/-- The incompatible types `alpha` and `beta` of one priority. -/
def tiedRegistry (pair : IncompatiblePair) : DecisionTypeRegistry where
  types := [{ id := "beta", priority := 10 }, { id := "alpha", priority := 10 }]
  incompatible := [pair]

/-- With equal priorities `alpha` is reported when it is declared first, and
`beta` is when the arguments are swapped, although both registries declare the
same types incompatible. -/
theorem tied_pair_swapped :
    (tiedRegistry ⟨"alpha", "beta"⟩).Filled ∧
      Redeclared [⟨"alpha", "beta"⟩] [⟨"beta", "alpha"⟩] ∧
      declare { types := (tiedRegistry ⟨"alpha", "beta"⟩).types }
          [⟨"beta", "alpha"⟩] = some (tiedRegistry ⟨"beta", "alpha"⟩) ∧
      (process (some (tiedRegistry ⟨"alpha", "beta"⟩)) alphaBetaConfig
        plainContext (Stream'.const 0) 0).evaluatorResults.map
          EvaluatorResult.decisionTypeId = [some "alpha"] ∧
      (process (some (tiedRegistry ⟨"beta", "alpha"⟩)) alphaBetaConfig
        plainContext (Stream'.const 0) 0).evaluatorResults.map
          EvaluatorResult.decisionTypeId = [some "beta"] :=
  ⟨⟨[.addType { id := "alpha", priority := 10 },
      .addType { id := "beta", priority := 10 },
      .addIncompatible "alpha" "beta"], by decide⟩,
    .swapped [] ⟨"alpha", "beta"⟩ [], by decide, by decide, by decide⟩

end PolicyStage
end Stage
end Fre
