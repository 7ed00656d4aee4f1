import Carryforth.Semantic.Score
import Carryforth.Semantic.Source

/-!
# Semantic graph queries: score explanations

A score comes with the evidence it was computed from: the similarity to the problem, and for every
context coordinate the gain over it.  An explanation is valid if its formula gives its final score.
-/

namespace Carryforth

namespace Semantic

open Fallible ProjectContext

def wSecondEnvironment : Score := ⟨250000, by decide⟩

def contextKindWeight : ProjectContextCoordinate → Score
  | .projectViewObject .work _ => .one
  | .projectViewObject .issue _ | .projectViewObject .requirement _ => ⟨900000, by decide⟩
  | .projectViewObject .role _ => ⟨600000, by decide⟩
  | _ => ⟨500000, half_le_scoreScale⟩

/-! ## Evidence -/

structure ConditionedEvidence where
  contextCoordinate : ProjectContextCoordinate
  contextKindWeight : Score
  conditionedScore : Score
  rawGain : Score
  weightedGain : Score
deriving DecidableEq, Repr

def ConditionedEvidence.new (contextCoordinate : ProjectContextCoordinate)
    (problemScore conditionedScore : Score) : ConditionedEvidence :=
  let rawGain : Score :=
    ⟨conditionedScore.raw - problemScore.raw, (Nat.sub_le _ _).trans conditionedScore.bounded⟩
  { contextCoordinate
    contextKindWeight := Semantic.contextKindWeight contextCoordinate
    conditionedScore
    rawGain
    weightedGain := mulScore (Semantic.contextKindWeight contextCoordinate) rawGain }

structure EnvironmentScoreExplanation where
  conditionedEvidence : List ConditionedEvidence
  highestGain : Score
  secondHighestGain : Score
  environmentGain : Score
deriving DecidableEq, Repr

/-- By coordinate, the strongest evidence first. -/
def compareEvidence : ConditionedEvidence → ConditionedEvidence → Ordering :=
  compareLex (compareOn (·.contextCoordinate))
    (compareLex (fun left right => compare right.weightedGain left.weightedGain)
      fun left right => compare right.conditionedScore left.conditionedScore)

/-- The strongest gain first, then by coordinate. -/
def compareGain : ConditionedEvidence → ConditionedEvidence → Ordering :=
  compareLex (fun left right => compare right.weightedGain left.weightedGain)
    (compareOn (·.contextCoordinate))

/-- The strongest evidence of every coordinate, and the bounded sum of the two highest gains. -/
def environmentGain (evidence : List ConditionedEvidence) : EnvironmentScoreExplanation :=
  let evidence := evidence.insertionSort fun left right => compareEvidence left right ≠ .gt
  let evidence := evidence.destutter fun left right =>
    left.contextCoordinate ≠ right.contextCoordinate
  let evidence := evidence.insertionSort fun left right => compareGain left right ≠ .gt
  let highestGain := evidence[0]?.elim Score.zero (·.weightedGain)
  let secondHighestGain := evidence[1]?.elim Score.zero (·.weightedGain)
  { conditionedEvidence := evidence
    highestGain
    secondHighestGain
    environmentGain :=
      ⟨u32 (min (highestGain.raw + (mulScore wSecondEnvironment secondHighestGain).raw) scoreScale),
        (u32_le _).trans (min_le_right _ _)⟩ }

/-! ## Explanations -/

inductive SemanticScoreRole
  | candidate
  | relationRoot
  | relationDocument
  | targetCoordinate
  | transition
deriving DecidableEq, Repr

inductive ScorePenaltyKind
  | hop
deriving DecidableEq, Repr

structure ScorePenalty where
  kind : ScorePenaltyKind
  amount : Score
deriving DecidableEq, Repr

structure ScoreExplanation where
  scoreRole : SemanticScoreRole
  problemScore : Score
  conditionedEvidence : List ConditionedEvidence
  highestGain : Score
  secondHighestGain : Score
  environmentGain : Score
  anchorGain : AnchorGain
  localCoherence : Option Score
  documentScore : Option Score
  targetCoordinateScore : Option Score
  transitionScore : Option Score
  penalties : List ScorePenalty
  finalScore : Score
deriving DecidableEq, Repr

namespace ScoreExplanation

def expected (explanation : ScoreExplanation) : QueryContractResult Score :=
  match explanation.scoreRole with
  | .candidate | .relationRoot =>
    .ok (candidateScore explanation.problemScore explanation.environmentGain explanation.anchorGain)
  | .relationDocument =>
    .ok (Semantic.documentScore explanation.problemScore explanation.environmentGain
      explanation.localCoherence)
  | .targetCoordinate => do
    let coherence ← okOr explanation.localCoherence
      (.invalidState "target score explanation lacks relation coherence")
    return Semantic.targetCoordinateScore explanation.problemScore explanation.environmentGain
      coherence
  | .transition => do
    let document ← okOr explanation.documentScore
      (.invalidState "transition explanation lacks document score")
    let target ← okOr explanation.targetCoordinateScore
      (.invalidState "transition explanation lacks target score")
    return harmonicScore document target

def validate (explanation : ScoreExplanation) : QueryContractResult Unit := do
  ensure (¬∃ evidence ∈ explanation.conditionedEvidence,
      evidence ≠ .new evidence.contextCoordinate explanation.problemScore evidence.conditionedScore)
    (.invalidState "conditioned score evidence is internally inconsistent")
  let environment := Semantic.environmentGain explanation.conditionedEvidence
  ensure (explanation.conditionedEvidence = environment.conditionedEvidence ∧
      explanation.highestGain = environment.highestGain ∧
      explanation.secondHighestGain = environment.secondHighestGain ∧
      explanation.environmentGain = environment.environmentGain ∧
      explanation.penalties = [])
    (.invalidState "environment score evidence or penalties are inconsistent")
  let expected ← explanation.expected
  ensure (expected = explanation.finalScore)
    (.invalidState "score explanation does not recompute final score")

end ScoreExplanation

end Semantic

end Carryforth
