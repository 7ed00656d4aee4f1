import Carryforth.Lib.Beam
import Carryforth.Semantic.Frontier

/-!
# Semantic graph queries: the successors of a prefix

Of the successors of one prefix only the best few are kept.  The accumulator takes them one by one;
what it keeps, and what it answers for each, is what sorting all of them would give.
-/

namespace Carryforth

namespace Semantic

open Fallible ProjectContext

structure BoundedSuccessorAccumulator where
  beamWidth : Nat
  successors : List FrontierPathState
  observedSuppressedSuccessor : Bool
deriving DecidableEq

/-- Prefixes in order. -/
def PathStateLe (left right : FrontierPathState) : Prop := comparePathStates left right ≠ .gt

instance : DecidableRel PathStateLe := fun _ _ => inferInstanceAs (Decidable (_ ≠ _))

namespace BoundedSuccessorAccumulator

def new (beamWidth : Nat) : QueryContractResult BoundedSuccessorAccumulator := do
  ensure (¬(beamWidth = 0 ∨ maxBeamWidth < beamWidth))
    (.invalidState "successor accumulator beam width is outside the closed cap")
  return { beamWidth, successors := [], observedSuppressedSuccessor := false }

/-- The answer says whether the successor is kept. -/
def admitSuccessor (accumulator : BoundedSuccessorAccumulator) (successor : FrontierPathState) :
    QueryContractResult (BoundedSuccessorAccumulator × Bool) :=
  let sorted := (accumulator.successors ++ [successor]).insertionSort PathStateLe
  let accumulator :=
    if accumulator.beamWidth < sorted.length then
      { accumulator with successors := sorted.dropLast, observedSuppressedSuccessor := true }
    else { accumulator with successors := sorted }
  .ok (accumulator,
    accumulator.successors.any fun state => state.provenanceKey = successor.provenanceKey)

def intoSuccessors (accumulator : BoundedSuccessorAccumulator) : List FrontierPathState :=
  accumulator.successors

/-- One successor after the other, with the answers. -/
def admitAll (accumulator : BoundedSuccessorAccumulator) :
    List FrontierPathState → QueryContractResult (BoundedSuccessorAccumulator × List Bool)
  | [] => .ok (accumulator, [])
  | successor :: successors => do
    let (accumulator, retained) ← accumulator.admitSuccessor successor
    let (accumulator, answers) ← accumulator.admitAll successors
    return (accumulator, retained :: answers)

end BoundedSuccessorAccumulator

/-! ## The order of prefixes -/

instance : Std.TransCmp comparePathStates :=
  have : Std.TransCmp fun left right : FrontierPathState =>
      compare right.schedulingPriority left.schedulingPriority :=
    @Std.TransCmp.opposite _ (compareOn FrontierPathState.schedulingPriority) _
  inferInstanceAs (Std.TransCmp (compareLex
    (fun left right : FrontierPathState =>
      compare right.schedulingPriority left.schedulingPriority)
    (compareOn FrontierPathState.provenanceKey)))

instance : Std.Total PathStateLe :=
  inferInstanceAs (Std.Total fun left right => comparePathStates left right ≠ .gt)

instance : IsTrans FrontierPathState PathStateLe :=
  inferInstanceAs (IsTrans FrontierPathState fun left right => comparePathStates left right ≠ .gt)

/-- Prefixes with different identities are told apart by the order. -/
theorem separates_of_distinct {states : List FrontierPathState}
    (distinct : (states.map (·.identity)).Nodup) : CanonicalSort.Separates PathStateLe states := by
  intro a ha b hb ab ba
  unfold PathStateLe at ab ba
  rw [ne_eq, ← Ordering.isLE_iff_ne_gt] at ab ba
  have same := Std.OrientedCmp.isLE_antisymm ab ba
  unfold comparePathStates at same
  rw [Ordering.then_eq_eq] at same
  exact List.inj_on_of_nodup_map distinct ha hb
    (provenanceKey_eq_iff.1 (Std.LawfulEqCmp.eq_of_compare same.2))

namespace BoundedSuccessorAccumulator

variable {accumulator : BoundedSuccessorAccumulator} {seen successors : List FrontierPathState}
  {successor : FrontierPathState}

/-- The accumulator after the successors in `seen`. -/
structure Holds (width : Nat) (seen : List FrontierPathState)
    (accumulator : BoundedSuccessorAccumulator) : Prop where
  beamWidth : accumulator.beamWidth = width
  successors : accumulator.successors = Beam.best PathStateLe width seen
  suppressed : accumulator.observedSuppressedSuccessor = decide (width < seen.length)

variable {beamWidth : Nat}

theorem any_key_iff (distinct : (seen.map (·.identity)).Nodup) (mem : successor ∈ seen) :
    (Beam.best PathStateLe beamWidth seen).any
        (fun state => state.provenanceKey = successor.provenanceKey) =
      decide (successor ∈ Beam.best PathStateLe beamWidth seen) := by
  rw [Bool.eq_iff_iff, List.any_eq_true, decide_eq_true_eq]
  constructor
  · rintro ⟨state, kept, same⟩
    have equal := List.inj_on_of_nodup_map distinct (Beam.mem_of_mem_best kept) mem
      (provenanceKey_eq_iff.1 (of_decide_eq_true same))
    exact equal ▸ kept
  · exact fun kept => ⟨successor, kept, decide_eq_true rfl⟩

theorem Holds.admitSuccessor (holds : Holds beamWidth seen accumulator)
    (distinct : ((seen ++ [successor]).map (·.identity)).Nodup) :
    ∃ accumulator', accumulator.admitSuccessor successor = .ok (accumulator',
        decide (successor ∈ Beam.best PathStateLe beamWidth (seen ++ [successor]))) ∧
      Holds beamWidth (seen ++ [successor]) accumulator' := by
  have step : Beam.enter PathStateLe beamWidth (Beam.best PathStateLe beamWidth seen) successor =
      Beam.best PathStateLe beamWidth (seen ++ [successor]) :=
    Beam.enter_best (separates_of_distinct distinct)
  have answer : (Beam.best PathStateLe beamWidth (seen ++ [successor])).any
      (fun state => state.provenanceKey = successor.provenanceKey) =
        decide (successor ∈ Beam.best PathStateLe beamWidth (seen ++ [successor])) :=
    any_key_iff distinct (List.mem_append_right seen List.mem_cons_self)
  have length : ((accumulator.successors ++ [successor]).insertionSort PathStateLe).length =
      min beamWidth seen.length + 1 := by
    rw [List.length_insertionSort, holds.successors, List.length_append, Beam.length_best,
      List.length_singleton]
  rw [← holds.successors] at step
  unfold Beam.enter at step
  simp only [length] at step
  refine ⟨⟨beamWidth, Beam.best PathStateLe beamWidth (seen ++ [successor]),
    decide (beamWidth < (seen ++ [successor]).length)⟩, ?_, rfl, rfl, rfl⟩
  unfold BoundedSuccessorAccumulator.admitSuccessor
  simp only [length, holds.beamWidth, List.length_append, List.length_singleton]
  by_cases full : beamWidth < min beamWidth seen.length + 1
  · have many : beamWidth < seen.length + 1 := by omega
    rw [if_pos full] at step ⊢
    rw [step, answer, decide_eq_true many]
  · have few : ¬beamWidth < seen.length + 1 := by omega
    have suppressed : accumulator.observedSuppressedSuccessor = false := by
      rw [holds.suppressed, decide_eq_false (by omega)]
    rw [if_neg full] at step ⊢
    rw [step, answer, suppressed, decide_eq_false few]

/-- All admissions: the answers say of each successor whether it was among the best so far. -/
theorem Holds.admitAll (holds : Holds beamWidth seen accumulator)
    (distinct : ((seen ++ successors).map (·.identity)).Nodup) :
    ∃ accumulator' answers, accumulator.admitAll successors = .ok (accumulator', answers) ∧
      Holds beamWidth (seen ++ successors) accumulator' ∧ answers.length = successors.length ∧
      ∀ i (bound : i < successors.length), answers[i]? = some (decide (successors[i] ∈
        Beam.best PathStateLe beamWidth (seen ++ successors.take (i + 1)))) := by
  induction successors generalizing seen accumulator with
  | nil =>
    refine ⟨accumulator, [], rfl, ?_, rfl, fun i bound => nomatch bound⟩
    rwa [List.append_nil]
  | cons successor successors ih =>
    have assoc : seen ++ successor :: successors = (seen ++ [successor]) ++ successors := by simp
    rw [assoc] at distinct ⊢
    have prior : ((seen ++ [successor]).map (·.identity)).Nodup :=
      distinct.sublist ((List.sublist_append_left _ _).map _)
    obtain ⟨next, admitted, holds⟩ := holds.admitSuccessor prior
    obtain ⟨last, answers, run, holds, length, each⟩ := ih holds distinct
    refine ⟨last, decide (successor ∈ Beam.best PathStateLe beamWidth (seen ++ [successor])) :: answers,
      ?_, holds, by rw [List.length_cons, length, List.length_cons], ?_⟩
    · unfold BoundedSuccessorAccumulator.admitAll
      rw [admitted]
      dsimp only [ok_bind]
      rw [run]
      rfl
    · rintro (_ | i) bound
      · rfl
      · have answer := each i (Nat.lt_of_succ_lt_succ bound)
        rw [List.append_assoc] at answer
        exact answer

theorem new_eq_ok (positive : 1 ≤ beamWidth) (capped : beamWidth ≤ maxBeamWidth) :
    new beamWidth = .ok ⟨beamWidth, [], false⟩ := by
  unfold new
  rw [ensure_of (by omega), ok_bind]
  rfl

theorem holds_new : Holds beamWidth [] ⟨beamWidth, [], false⟩ :=
  ⟨rfl, by simp [Beam.best], by simp⟩

end BoundedSuccessorAccumulator

/-- Admitting successors one by one keeps the best ones in order, whatever the order of admission;
suppression is noticed exactly if there were too many, every answer says whether the successor is
among the best so far, and the order tells successors apart because their keys do. -/
theorem boundedSuccessorAccumulator_best (beamWidth : Nat) (positive : 1 ≤ beamWidth)
    (capped : beamWidth ≤ maxBeamWidth) (successors : List FrontierPathState)
    (distinct : (successors.map (·.identity)).Nodup) :
    (∃ start accumulator answers, BoundedSuccessorAccumulator.new beamWidth = .ok start ∧
      start.admitAll successors = .ok (accumulator, answers) ∧
      accumulator.intoSuccessors = (successors.insertionSort PathStateLe).take beamWidth ∧
      (∀ successors', successors.Perm successors' → ∃ accumulator' answers',
        start.admitAll successors' = .ok (accumulator', answers') ∧
          accumulator'.intoSuccessors = accumulator.intoSuccessors) ∧
      (accumulator.observedSuppressedSuccessor = true ↔ beamWidth < successors.length) ∧
      answers.length = successors.length ∧
      ∀ i (bound : i < successors.length), answers[i]? = some (decide (successors[i] ∈
        ((successors.take (i + 1)).insertionSort PathStateLe).take beamWidth))) ∧
    ∀ left right : FrontierPathState,
      left.provenanceKey = right.provenanceKey ↔ left.identity = right.identity := by
  refine ⟨?_, fun _ _ => provenanceKey_eq_iff⟩
  obtain ⟨accumulator, answers, run, holds, length, each⟩ :=
    (BoundedSuccessorAccumulator.holds_new :
        BoundedSuccessorAccumulator.Holds beamWidth [] _).admitAll distinct
  refine ⟨_, accumulator, answers, BoundedSuccessorAccumulator.new_eq_ok positive capped, run,
    holds.successors, fun successors' perm => ?_, ?_, length, each⟩
  · obtain ⟨accumulator', answers', run', holds', -⟩ :=
      (BoundedSuccessorAccumulator.holds_new :
        BoundedSuccessorAccumulator.Holds beamWidth [] _).admitAll
        ((perm.map _).nodup_iff.1 distinct)
    exact ⟨accumulator', answers', run', holds'.successors.trans
      ((Beam.best_of_perm (separates_of_distinct distinct) perm).symm.trans holds.successors.symm)⟩
  · rw [holds.suppressed, decide_eq_true_eq]
    rfl

/-- A score from the similarity to the problem and full coherence. -/
def sampleExplanation (scoreRole : SemanticScoreRole) (problemScore : Score) : ScoreExplanation :=
  { scoreRole
    problemScore
    conditionedEvidence := []
    highestGain := .zero
    secondHighestGain := .zero
    environmentGain := .zero
    anchorGain := .none
    localCoherence := some .one
    documentScore := none
    targetCoordinateScore := none
    transitionScore := none
    penalties := []
    finalScore := targetCoordinateScore problemScore .zero .one }

/-- From one Document to a Meeting, through another Document that is bound to both. -/
def sampleHop (meetingId : Uuid) (score : Score) : SemanticHyperedgeHop :=
  let binding : ProjectContextBindingProvenance := ⟨1, 11, 12⟩
  let reached := targetCoordinateScore score .zero .one
  { ordinal := 0
    enteredFromCoordinate := some (.document 1)
    edge := ⟨7, [.document 1, .meeting 2, .meeting 3, .meeting 4], ⟨1, 11⟩, [⟨9, binding⟩]⟩
    selectedRelationDocument := ⟨9, binding, reached, sampleExplanation .relationDocument score⟩
    continuedToCoordinate := ⟨.meeting meetingId, reached, sampleExplanation .targetCoordinate score⟩
    transitionScore := harmonicScore reached reached }

def sampleSuccessor (meetingId : Uuid) (score : Score) : FrontierPathState :=
  { FrontierPathState.seed 0 (.coordinate (.document 1)) (some .one) with
    hops := [sampleHop meetingId score]
    currentCoordinate := some (.meeting meetingId)
    visitedCoordinates := {.document 1, .meeting meetingId}
    visitedEdges := {7}
    pathScore := ((pathScore (some .one) [(sampleHop meetingId score).transitionScore]).toOption.map
      PathScoreExplanation.finalScore).join }

/-- Three ways to go on, of which two are kept. -/
def sampleSuccessors : List FrontierPathState :=
  [sampleSuccessor 2 ⟨620000, by decide⟩, sampleSuccessor 3 ⟨720000, by decide⟩,
    sampleSuccessor 4 ⟨620000, by decide⟩]

theorem boundedSuccessorAccumulator_best_sampleSuccessors :
    (∃ start accumulator answers, BoundedSuccessorAccumulator.new 2 = .ok start ∧
      start.admitAll sampleSuccessors = .ok (accumulator, answers) ∧
      accumulator.intoSuccessors = (sampleSuccessors.insertionSort PathStateLe).take 2 ∧
      (∀ successors', sampleSuccessors.Perm successors' → ∃ accumulator' answers',
        start.admitAll successors' = .ok (accumulator', answers') ∧
          accumulator'.intoSuccessors = accumulator.intoSuccessors) ∧
      (accumulator.observedSuppressedSuccessor = true ↔ 2 < sampleSuccessors.length) ∧
      answers.length = sampleSuccessors.length ∧
      ∀ i (bound : i < sampleSuccessors.length), answers[i]? = some (decide (sampleSuccessors[i] ∈
        ((sampleSuccessors.take (i + 1)).insertionSort PathStateLe).take 2))) ∧
    ∀ left right : FrontierPathState,
      left.provenanceKey = right.provenanceKey ↔ left.identity = right.identity :=
  boundedSuccessorAccumulator_best 2 (by decide) (by decide) sampleSuccessors (by decide)

end Semantic

end Carryforth
