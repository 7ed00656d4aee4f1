import Carryforth.Lib.Fallible
import Carryforth.Lib.FixedPoint

/-!
# Semantic graph queries: fixed-point scores

A score is an integer between zero and one million.  The combinators round each division half up and
cast the result back to 32 bits; a path score is a discounted mean of the scores along a path, less a
penalty for each hop.
-/

namespace Carryforth

namespace Semantic

open Fallible

/-! ## Machine arithmetic

Unchecked operations wrap.  Products of two scores, taken in 128 bits, are far from the limit and are
written without it. -/

def u32 (n : Nat) : Nat := n % 2 ^ 32
def u64 (n : Nat) : Nat := n % 2 ^ 64
def u128 (n : Nat) : Nat := n % 2 ^ 128

theorem u32_le (n : Nat) : u32 n ≤ n := Nat.mod_le _ _
theorem u32_of_lt {n : Nat} (lt : n < 2 ^ 32) : u32 n = n := Nat.mod_eq_of_lt lt
theorem u64_of_lt {n : Nat} (lt : n < 2 ^ 64) : u64 n = n := Nat.mod_eq_of_lt lt
theorem u128_of_lt {n : Nat} (lt : n < 2 ^ 128) : u128 n = n := Nat.mod_eq_of_lt lt

/-! ## Scores -/

/-- The integer that stands for one. -/
def scoreScale : Nat := 1000000

inductive ScoreError
  | outOfRange (value : Nat)
  | nonFiniteDistance
  | arithmeticOverflow
deriving DecidableEq, Repr

structure Score where
  raw : Nat
  bounded : raw ≤ scoreScale
deriving DecidableEq, Repr

namespace Score

def zero : Score := ⟨0, by decide⟩
def one : Score := ⟨scoreScale, le_rfl⟩

def new (value : Nat) : Except ScoreError Score :=
  if h : value ≤ scoreScale then .ok ⟨value, h⟩ else .error (.outOfRange value)

def complement (score : Score) : Score := ⟨scoreScale - score.raw, Nat.sub_le _ _⟩

theorem raw_injective : Function.Injective raw := by
  intro a b same
  cases a
  cases b
  cases same
  rfl

instance : Ord Score := ⟨compareOn raw⟩

instance : LinearOrder Score := LinearOrder.liftWithOrd' raw raw_injective fun _ _ => rfl

theorem le_iff {a b : Score} : a ≤ b ↔ a.raw ≤ b.raw := Iff.rfl

end Score

def wCandidateProblem : Score := ⟨750000, by decide⟩
def wCandidateEnvironment : Score := ⟨200000, by decide⟩
def wCandidateAnchor : Score := ⟨50000, by decide⟩
def wDocumentProblem : Score := ⟨700000, by decide⟩
def wDocumentEnvironment : Score := ⟨200000, by decide⟩
def wDocumentCoherence : Score := ⟨100000, by decide⟩
def wRootRelevance : Score := ⟨850000, by decide⟩
def wRootDiversity : Score := ⟨150000, by decide⟩
def discountFactor : Score := ⟨850000, by decide⟩
/-- The problem relevance below which no automatic root starts. -/
def baseEntryFloor : Score := ⟨550000, by decide⟩
def hopPenalty : Score := ⟨25000, by decide⟩

theorem half_le_scoreScale : 500000 ≤ scoreScale := by decide

/-! ## Rounded division -/

def roundDiv (numerator denominator : Nat) : Nat :=
  u128 (numerator + denominator / 2) / denominator

theorem roundDiv_le_exact (n d : Nat) : roundDiv n d ≤ FixedPoint.roundDiv n d :=
  Nat.div_le_div_right (Nat.mod_le _ _)

theorem roundDiv_eq {n d : Nat} (small : n + d / 2 < 2 ^ 128) :
    roundDiv n d = FixedPoint.roundDiv n d := by
  unfold roundDiv
  rw [u128_of_lt small]
  rfl

/-- The quotient of a numerator that is at most as large as the denominator, on the scale. -/
def Score.rounded (numerator denominator : Nat) (within : numerator ≤ scoreScale * denominator) :
    Score :=
  ⟨u32 (roundDiv numerator denominator),
    (u32_le _).trans ((roundDiv_le_exact _ _).trans (FixedPoint.roundDiv_le within))⟩

/-- The addition does not wrap and the cast does not truncate. -/
theorem Score.rounded_raw {n d : Nat} {within : n ≤ scoreScale * d} (small : d ≤ 2 ^ 100) :
    (Score.rounded n d within).raw = FixedPoint.roundDiv n d := by
  have le : FixedPoint.roundDiv n d ≤ scoreScale := FixedPoint.roundDiv_le within
  change u32 (roundDiv n d) = FixedPoint.roundDiv n d
  rw [roundDiv_eq, u32_of_lt]
  · unfold scoreScale at le
    omega
  · unfold scoreScale at within
    omega

/-! ## Combinators -/

def mulScore (left right : Score) : Score :=
  .rounded (left.raw * right.raw) scoreScale (Nat.mul_le_mul left.bounded right.bounded)

/-- Individually rounded terms, added in 64 bits and clamped to one. -/
def weightedScore (terms : List (Score × Score)) : Score :=
  ⟨u32 (min (u64 (terms.map fun (weight, score) => (mulScore weight score).raw).sum) scoreScale),
    (u32_le _).trans (min_le_right _ _)⟩

theorem harmonic_within (left right : Score) :
    2 * left.raw * right.raw ≤ scoreScale * (left.raw + right.raw) := by
  have first : left.raw * right.raw ≤ scoreScale * right.raw :=
    Nat.mul_le_mul_right _ left.bounded
  have second : left.raw * right.raw ≤ left.raw * scoreScale :=
    Nat.mul_le_mul_left _ right.bounded
  linarith

def harmonicScore (left right : Score) : Score :=
  if left = .zero ∨ right = .zero then .zero
  else .rounded (2 * left.raw * right.raw) (left.raw + right.raw) (harmonic_within left right)

/-- How a candidate is anchored to the explicit initial coordinates. -/
inductive AnchorGain
  | none
  | sameHyperedge
  | explicitInitial
deriving DecidableEq, Repr

def AnchorGain.score : AnchorGain → Score
  | .none => .zero
  | .sameHyperedge => ⟨500000, by decide⟩
  | .explicitInitial => .one

def candidateScore (problem environment : Score) (anchor : AnchorGain) : Score :=
  weightedScore [(wCandidateProblem, problem), (wCandidateEnvironment, environment),
    (wCandidateAnchor, anchor.score)]

theorem document_within (problem environment : Score) :
    7 * problem.raw + 2 * environment.raw ≤ scoreScale * 9 := by
  have first := problem.bounded
  have second := environment.bounded
  omega

/-- The score of a relation Document.  Without coherence the other two weights are renormalized. -/
def documentScore (problem environment : Score) : Option Score → Score
  | some coherence =>
    weightedScore [(wDocumentProblem, problem), (wDocumentEnvironment, environment),
      (wDocumentCoherence, coherence)]
  | none =>
    .rounded (7 * problem.raw + 2 * environment.raw) 9 (document_within problem environment)

def targetCoordinateScore (problem environment relationDocumentCoherence : Score) : Score :=
  weightedScore [(wDocumentProblem, problem), (wDocumentEnvironment, environment),
    (wDocumentCoherence, relationDocumentCoherence)]

def rootDiversityPriority (relevance redundancy : Score) : Score :=
  weightedScore [(wRootRelevance, relevance), (wRootDiversity, redundancy.complement)]

/-! ## What the combinators compute -/

section Combinators

variable {left left' right right' : Score} {terms terms' : List (Score × Score)}

theorem mulScore_raw (left right : Score) :
    (mulScore left right).raw = FixedPoint.roundDiv (left.raw * right.raw) scoreScale :=
  Score.rounded_raw (by decide)

theorem mulScore_mono (le : left ≤ left') (le' : right ≤ right') :
    mulScore left right ≤ mulScore left' right' := by
  rw [Score.le_iff, mulScore_raw, mulScore_raw]
  exact FixedPoint.roundDiv_mono (Nat.mul_le_mul le le')

def weightedTerms (terms : List (Score × Score)) : List Nat :=
  terms.map fun (weight, score) => FixedPoint.roundDiv (weight.raw * score.raw) scoreScale

theorem sum_weightedTerms_le (terms : List (Score × Score)) :
    (weightedTerms terms).sum ≤ terms.length * scoreScale := by
  induction terms with
  | nil => simp [weightedTerms]
  | cons term terms ih =>
    have bounded := (mulScore term.1 term.2).bounded
    rw [mulScore_raw] at bounded
    simp only [weightedTerms, List.map_cons, List.sum_cons, List.length_cons, Nat.succ_mul] at ih ⊢
    omega

/-- A sum of at most `2 ^ 44` terms, which fill a 47-bit address space, does not wrap. -/
theorem weightedScore_raw (few : terms.length ≤ 2 ^ 44) :
    (weightedScore terms).raw = min (weightedTerms terms).sum scoreScale := by
  have total : (weightedTerms terms).sum < 2 ^ 64 := by
    have le := sum_weightedTerms_le terms
    unfold scoreScale at le
    omega
  have clamped : min (weightedTerms terms).sum scoreScale < 2 ^ 32 := by
    unfold scoreScale
    omega
  simp only [weightedScore, mulScore_raw]
  change u32 (min (u64 (weightedTerms terms).sum) scoreScale) = _
  rw [u64_of_lt total, u32_of_lt clamped]

def TermsLe : List (Score × Score) → List (Score × Score) → Prop :=
  List.Forall₂ fun term term' => term.1 ≤ term'.1 ∧ term.2 ≤ term'.2

theorem sum_weightedTerms_mono (le : TermsLe terms terms') :
    (weightedTerms terms).sum ≤ (weightedTerms terms').sum := by
  induction le with
  | nil => exact le_rfl
  | cons first _ ih =>
    simp only [weightedTerms, List.map_cons, List.sum_cons] at ih ⊢
    exact Nat.add_le_add (FixedPoint.roundDiv_mono (Nat.mul_le_mul first.1 first.2)) ih

theorem weightedScore_mono (few : terms.length ≤ 2 ^ 44) (le : TermsLe terms terms') :
    weightedScore terms ≤ weightedScore terms' := by
  rw [Score.le_iff, weightedScore_raw few, weightedScore_raw (List.Forall₂.length_eq le ▸ few)]
  exact min_le_min_right _ (sum_weightedTerms_mono le)

theorem raw_pos_of_ne_zero {score : Score} (nonzero : score ≠ .zero) : 0 < score.raw :=
  Nat.pos_of_ne_zero fun zero => nonzero (Score.raw_injective zero)

theorem harmonicScore_raw (left right : Score) :
    (harmonicScore left right).raw =
      if left = .zero ∨ right = .zero then 0
      else FixedPoint.roundDiv (2 * left.raw * right.raw) (left.raw + right.raw) := by
  unfold harmonicScore
  split
  · rfl
  · refine Score.rounded_raw ?_
    have first := left.bounded
    have second := right.bounded
    unfold scoreScale at first second
    omega

theorem harmonicScore_comm (left right : Score) :
    harmonicScore left right = harmonicScore right left := by
  apply Score.raw_injective
  rw [harmonicScore_raw, harmonicScore_raw, Nat.add_comm, mul_assoc, mul_comm left.raw, ← mul_assoc]
  simp only [or_comm]

theorem harmonicScore_mono_left (le : left ≤ left') :
    harmonicScore left right ≤ harmonicScore left' right := by
  rw [Score.le_iff, harmonicScore_raw, harmonicScore_raw]
  by_cases absorbed : left = .zero ∨ right = .zero
  · simp [absorbed]
  · have pos := raw_pos_of_ne_zero (fun h => absorbed (.inl h))
    have pos' := raw_pos_of_ne_zero (fun h => absorbed (.inr h))
    have grown : left' ≠ .zero := fun zero => by
      have large : left.raw ≤ left'.raw := le
      rw [zero] at large
      exact absurd (pos.trans_le large) (by decide)
    rw [if_neg absorbed, if_neg (by tauto)]
    exact FixedPoint.roundDiv_harmonic_mono pos pos' le

theorem harmonicScore_mono (le : left ≤ left') (le' : right ≤ right') :
    harmonicScore left right ≤ harmonicScore left' right' := by
  refine (harmonicScore_mono_left le).trans ?_
  rw [harmonicScore_comm left', harmonicScore_comm left']
  exact harmonicScore_mono_left le'

theorem harmonicScore_between_of_le (le : left ≤ right) :
    left ≤ harmonicScore left right ∧ harmonicScore left right ≤ right := by
  rw [Score.le_iff, Score.le_iff, harmonicScore_raw]
  by_cases zero : left = .zero
  · rw [zero]
    simp [Score.zero]
  · have pos := raw_pos_of_ne_zero zero
    have pos' : right ≠ .zero := fun zero' => by
      have large : left.raw ≤ right.raw := le
      rw [zero'] at large
      exact absurd (pos.trans_le large) (by decide)
    rw [if_neg (by tauto)]
    exact FixedPoint.roundDiv_harmonic_between pos le

theorem harmonicScore_between (left right : Score) :
    min left right ≤ harmonicScore left right ∧ harmonicScore left right ≤ max left right := by
  rcases le_total left right with le | le
  · rw [min_eq_left le, max_eq_right le]
    exact harmonicScore_between_of_le le
  · rw [min_eq_right le, max_eq_left le, harmonicScore_comm]
    exact harmonicScore_between_of_le le

theorem documentScore_none_raw (problem environment : Score) :
    (documentScore problem environment none).raw =
      FixedPoint.roundDiv (7 * problem.raw + 2 * environment.raw) 9 := by
  unfold documentScore
  exact Score.rounded_raw (by decide)

theorem documentScore_none_between (problem environment : Score) :
    min problem environment ≤ documentScore problem environment none ∧
      documentScore problem environment none ≤ max problem environment := by
  rcases le_total problem environment with le | le
  all_goals
    first | rw [min_eq_left le, max_eq_right le] | rw [min_eq_right le, max_eq_left le]
    rw [Score.le_iff, Score.le_iff, documentScore_none_raw]
    rw [Score.le_iff] at le
    exact ⟨FixedPoint.le_roundDiv (by decide) (by omega), FixedPoint.roundDiv_le (by omega)⟩

theorem documentScore_none_mono {problem problem' environment environment' : Score}
    (le : problem ≤ problem') (le' : environment ≤ environment') :
    documentScore problem environment none ≤ documentScore problem' environment' none := by
  rw [Score.le_iff] at le le'
  rw [Score.le_iff, documentScore_none_raw, documentScore_none_raw]
  exact FixedPoint.roundDiv_mono (by omega)

theorem weightedScore_three_mono {w₁ w₂ w₃ a a' b b' c c' : Score} (first : a ≤ a')
    (second : b ≤ b') (third : c ≤ c') :
    weightedScore [(w₁, a), (w₂, b), (w₃, c)] ≤ weightedScore [(w₁, a'), (w₂, b'), (w₃, c')] :=
  weightedScore_mono (by simp)
    (.cons ⟨le_rfl, first⟩ (.cons ⟨le_rfl, second⟩ (.cons ⟨le_rfl, third⟩ .nil)))

end Combinators

/-! ## Paths -/

/-- The weights of the hops: each is the last one, discounted and rounded. -/
def discountWeights : Score → List Score → List Score
  | _, [] => []
  | weight, _ :: transitions =>
    weight :: discountWeights (mulScore weight discountFactor) transitions

structure WeightedSum where
  numerator : Nat
  denominator : Nat
  within : numerator ≤ scoreScale * denominator

namespace WeightedSum

def empty : WeightedSum := ⟨0, 0, le_rfl⟩

theorem within_add (sum : WeightedSum) (score weight : Score) :
    sum.numerator + score.raw * weight.raw ≤ scoreScale * (sum.denominator + weight.raw) := by
  rw [Nat.mul_add]
  exact Nat.add_le_add sum.within (Nat.mul_le_mul_right _ score.bounded)

/-- Both additions are checked. -/
def add (sum : WeightedSum) (score weight : Score) : Except ScoreError WeightedSum := do
  ensure (sum.numerator + score.raw * weight.raw < 2 ^ 128) .arithmeticOverflow
  ensure (sum.denominator + weight.raw < 2 ^ 128) .arithmeticOverflow
  return ⟨sum.numerator + score.raw * weight.raw, sum.denominator + weight.raw,
    within_add sum score weight⟩

/-- The mean, absent if nothing was added. -/
def mean (sum : WeightedSum) : Option Score :=
  if sum.denominator = 0 then none
  else some (.rounded sum.numerator sum.denominator sum.within)

end WeightedSum

structure PathScoreExplanation where
  rootScore : Option Score
  transitionScores : List Score
  discountWeights : List Score
  weightedPathQuality : Option Score
  hopPenalty : Score
  finalScore : Option Score
deriving DecidableEq, Repr

/-- A missing root is omitted from both sums. -/
def pathSum (root : Option Score) (transitions : List Score) : Except ScoreError WeightedSum := do
  let sum ←
    match root with
    | some root => WeightedSum.empty.add root .one
    | none => .ok .empty
  (transitions.zip (discountWeights .one transitions)).foldlM
    (fun sum (transition, discount) => sum.add transition discount) sum

def pathScore (root : Option Score) (transitions : List Score) :
    Except ScoreError PathScoreExplanation := do
  let sum ← pathSum root transitions
  ensure (transitions.length * hopPenalty.raw < 2 ^ 128) .arithmeticOverflow
  let penalty : Score :=
    ⟨u32 (min (transitions.length * hopPenalty.raw) scoreScale), (u32_le _).trans (min_le_right _ _)⟩
  return {
    rootScore := root
    transitionScores := transitions
    discountWeights := discountWeights .one transitions
    weightedPathQuality := sum.mean
    hopPenalty := penalty
    finalScore := sum.mean.map fun quality =>
      ⟨quality.raw - penalty.raw, (Nat.sub_le _ _).trans quality.bounded⟩ }

/-! ## Discount weights -/

/-- Rounding stops the discount before it reaches zero. -/
theorem mulScore_discountFactor_pos {weight : Score} (pos : 0 < weight.raw) :
    0 < (mulScore weight discountFactor).raw := by
  rw [mulScore_raw]
  refine (FixedPoint.le_roundDiv_iff (by decide)).2 ?_
  change 2 * (1 * 1000000) ≤ 2 * (weight.raw * 850000) + 1000000
  omega

theorem mulScore_discountFactor_le (weight : Score) : mulScore weight discountFactor ≤ weight := by
  rw [Score.le_iff, mulScore_raw]
  exact FixedPoint.roundDiv_le (Nat.mul_le_mul_left _ discountFactor.bounded)

theorem length_discountWeights (weight : Score) (transitions : List Score) :
    (discountWeights weight transitions).length = transitions.length := by
  induction transitions generalizing weight with
  | nil => rfl
  | cons _ transitions ih => simp only [discountWeights, List.length_cons, ih]

theorem discountWeights_pos {weight : Score} (pos : 0 < weight.raw) (transitions : List Score) :
    ∀ discount ∈ discountWeights weight transitions, 0 < discount.raw := by
  induction transitions generalizing weight with
  | nil => exact fun _ mem => nomatch mem
  | cons _ transitions ih =>
    simp only [discountWeights, List.mem_cons, forall_eq_or_imp]
    exact ⟨pos, ih (mulScore_discountFactor_pos pos)⟩

theorem discountWeights_le (weight : Score) (transitions : List Score) :
    ∀ discount ∈ discountWeights weight transitions, discount ≤ weight := by
  induction transitions generalizing weight with
  | nil => exact fun _ mem => nomatch mem
  | cons _ transitions ih =>
    simp only [discountWeights, List.mem_cons, forall_eq_or_imp]
    exact ⟨le_rfl, fun discount mem => (ih _ discount mem).trans (mulScore_discountFactor_le weight)⟩

theorem discountWeights_nonincreasing (weight : Score) (transitions : List Score) :
    (discountWeights weight transitions).Pairwise (· ≥ ·) := by
  induction transitions generalizing weight with
  | nil => exact .nil
  | cons _ transitions ih =>
    refine .cons (fun discount mem => ?_) (ih _)
    exact (discountWeights_le _ transitions discount mem).trans (mulScore_discountFactor_le weight)

/-! ## Path sums -/

namespace WeightedSum

variable {sum sum' : WeightedSum} {terms : List (Score × Score)} {low high : Nat}

theorem add_eq_ok {score weight : Score} :
    sum.add score weight = .ok sum' ↔
      sum.numerator + score.raw * weight.raw < 2 ^ 128 ∧ sum.denominator + weight.raw < 2 ^ 128 ∧
        sum' = ⟨sum.numerator + score.raw * weight.raw, sum.denominator + weight.raw,
          within_add sum score weight⟩ := by
  simp only [add, bind_eq_ok, exists_unit, ensure_eq_ok, pure_eq_ok, eq_comm (b := sum')]

/-- A sum of `n` terms is still small; then the next checked additions succeed. -/
def Small (n : Nat) (sum : WeightedSum) : Prop := sum.denominator ≤ n * scoreScale

theorem Small.add {n : Nat} (small : sum.Small n) (few : n ≤ 2 ^ 64) (score weight : Score) :
    ∃ sum', sum.add score weight = .ok sum' ∧ sum'.Small (n + 1) := by
  have total : sum.denominator + weight.raw ≤ (n + 1) * scoreScale := by
    rw [Nat.succ_mul]
    exact Nat.add_le_add small weight.bounded
  have within := within_add sum score weight
  refine ⟨_, add_eq_ok.2 ⟨?_, ?_, rfl⟩, total⟩
  · unfold scoreScale at total within
    omega
  · unfold scoreScale at total
    omega

theorem Small.foldlM {n : Nat} (small : sum.Small n) (few : n + terms.length ≤ 2 ^ 64 + 1) :
    ∃ sum', terms.foldlM (fun sum (score, weight) => sum.add score weight) sum = .ok sum' ∧
      sum'.Small (n + terms.length) := by
  induction terms generalizing sum n with
  | nil => exact ⟨sum, rfl, small⟩
  | cons term terms ih =>
    rw [List.length_cons] at few
    obtain ⟨next, added, small'⟩ := small.add (by omega) term.1 term.2
    obtain ⟨sum', folded, small''⟩ := ih small' (by omega)
    refine ⟨sum', ?_, ?_⟩
    · rw [List.foldlM_cons]
      exact bind_eq_ok.2 ⟨next, added, folded⟩
    · rwa [List.length_cons, Nat.add_comm terms.length, ← Nat.add_assoc]

/-- The mean of the sum is at least `low` and at most `high`. -/
structure Between (low high : Nat) (sum : WeightedSum) : Prop where
  low_le : low * sum.denominator ≤ sum.numerator
  le_high : sum.numerator ≤ high * sum.denominator

theorem between_empty : empty.Between low high := ⟨le_rfl, le_rfl⟩

theorem Between.add {score weight : Score} (between : sum.Between low high) (lower : low ≤ score.raw)
    (upper : score.raw ≤ high) (added : sum.add score weight = .ok sum') :
    sum'.Between low high := by
  obtain ⟨-, -, rfl⟩ := add_eq_ok.1 added
  have le := Nat.mul_le_mul_right weight.raw lower
  have le' := Nat.mul_le_mul_right weight.raw upper
  constructor <;> dsimp only <;> rw [Nat.mul_add]
  · exact Nat.add_le_add between.low_le le
  · exact Nat.add_le_add between.le_high le'

theorem Between.foldlM (between : sum.Between low high)
    (bounds : ∀ term ∈ terms, low ≤ term.1.raw ∧ term.1.raw ≤ high)
    (folded : terms.foldlM (fun sum (score, weight) => sum.add score weight) sum = .ok sum') :
    sum'.Between low high :=
  foldlM_invariant (Between low high)
    (fun _ term _ mem between added => between.add (bounds term mem).1 (bounds term mem).2 added)
    between folded

/-- Nothing was added exactly if the weights add up to zero. -/
theorem foldlM_denominator_eq_zero (pos : ∀ term ∈ terms, 0 < term.2.raw)
    (folded : terms.foldlM (fun sum (score, weight) => sum.add score weight) sum = .ok sum') :
    sum'.denominator = 0 ↔ sum.denominator = 0 ∧ terms = [] := by
  induction terms generalizing sum with
  | nil =>
    cases folded
    simp
  | cons term terms ih =>
    rw [List.foldlM_cons] at folded
    obtain ⟨next, added, folded⟩ := bind_eq_ok.1 folded
    obtain ⟨-, -, rfl⟩ := add_eq_ok.1 added
    have first := pos term List.mem_cons_self
    rw [ih (fun term mem => pos term (List.mem_cons_of_mem _ mem)) folded]
    simp only [List.cons_ne_nil, and_false, iff_false, not_and]
    omega

theorem mean_eq_none_iff : sum.mean = none ↔ sum.denominator = 0 := by
  unfold mean
  split <;> simp_all

theorem Between.mean {quality : Score} (between : sum.Between low high)
    (small : sum.denominator ≤ 2 ^ 100) (mean : sum.mean = some quality) :
    low ≤ quality.raw ∧ quality.raw ≤ high := by
  have pos : sum.denominator ≠ 0 := fun zero => by
    rw [mean_eq_none_iff.2 zero] at mean
    cases mean
  rw [WeightedSum.mean, if_neg pos] at mean
  cases mean
  rw [Score.rounded_raw small]
  exact ⟨FixedPoint.le_roundDiv (Nat.pos_of_ne_zero pos) between.low_le,
    FixedPoint.roundDiv_le between.le_high⟩

end WeightedSum

def pathTerms (root : Option Score) (transitions : List Score) : List (Score × Score) :=
  root.toList.map (·, Score.one) ++ transitions.zip (discountWeights .one transitions)

section Path

variable (root : Option Score) (transitions : List Score)

theorem pathSum_eq :
    pathSum root transitions =
      (pathTerms root transitions).foldlM (fun sum (score, weight) => sum.add score weight)
        .empty := by
  unfold pathSum pathTerms
  cases root with
  | none => simp only [Option.toList_none, List.map_nil, List.nil_append, ok_bind]
  | some root =>
    simp only [Option.toList_some, List.map_cons, List.map_nil, List.cons_append, List.nil_append,
      List.foldlM_cons]

theorem map_fst_pathTerms :
    (pathTerms root transitions).map Prod.fst = root.toList ++ transitions := by
  unfold pathTerms
  rw [List.map_append, List.map_map,
    List.map_fst_zip (length_discountWeights .one transitions).ge]
  congr 1
  exact List.map_id _

theorem length_pathTerms_le : (pathTerms root transitions).length ≤ transitions.length + 1 := by
  rw [← List.length_map (f := Prod.fst), map_fst_pathTerms]
  cases root <;> simp

theorem pathTerms_pos : ∀ term ∈ pathTerms root transitions, 0 < term.2.raw := by
  rintro ⟨score, weight⟩ mem
  rcases List.mem_append.1 mem with mem | mem
  · obtain ⟨_, -, same⟩ := List.mem_map.1 mem
    cases same
    exact (by decide : 0 < Score.one.raw)
  · exact discountWeights_pos (by decide) transitions weight (List.of_mem_zip mem).2

/-- The weighted quality lies between any bounds on the scores, and hence between two of them. -/
theorem quality_between {scores : List Score} {quality : Score}
    (bounds : ∀ low high, (∀ score ∈ scores, low ≤ score.raw ∧ score.raw ≤ high) →
      low ≤ quality.raw ∧ quality.raw ≤ high) (nonempty : scores ≠ []) :
    (∃ low ∈ scores, low ≤ quality) ∧ ∃ high ∈ scores, quality ≤ high := by
  constructor
  · by_contra above
    have larger : ∀ score ∈ scores, quality.raw + 1 ≤ score.raw ∧ score.raw ≤ scoreScale :=
      fun score mem => ⟨Nat.lt_of_not_le fun le => above ⟨score, mem, le⟩, score.bounded⟩
    have := (bounds _ _ larger).1
    omega
  · by_contra below
    obtain ⟨first, mem⟩ := List.exists_mem_of_ne_nil _ nonempty
    have lower : ∀ score ∈ scores, score.raw < quality.raw :=
      fun score mem => Nat.lt_of_not_le fun le => below ⟨score, mem, le⟩
    have smaller : ∀ score ∈ scores, 0 ≤ score.raw ∧ score.raw ≤ quality.raw - 1 :=
      fun score mem => ⟨Nat.zero_le _, Nat.le_sub_one_of_lt (lower score mem)⟩
    have le := (bounds _ _ smaller).2
    have lt := lower first mem
    omega

end Path

structure PathScoreExplanation.Explains (root : Option Score) (transitions : List Score)
    (explanation : PathScoreExplanation) : Prop where
  rootScore : explanation.rootScore = root
  transitionScores : explanation.transitionScores = transitions
  length_weights : explanation.discountWeights.length = transitions.length
  weights_pos : ∀ weight ∈ explanation.discountWeights, 0 < weight.raw
  weights_nonincreasing : explanation.discountWeights.Pairwise (· ≥ ·)
  quality_isSome :
    explanation.weightedPathQuality.isSome = true ↔ root.isSome = true ∨ transitions ≠ []
  quality_between : ∀ quality, explanation.weightedPathQuality = some quality →
    (∃ low ∈ root.toList ++ transitions, low ≤ quality) ∧
      ∃ high ∈ root.toList ++ transitions, quality ≤ high
  penalty : explanation.hopPenalty.raw = min (25000 * transitions.length) 1000000
  final : explanation.finalScore.map Score.raw =
    explanation.weightedPathQuality.map fun quality =>
      quality.raw - min (25000 * transitions.length) 1000000

theorem pathScore_explains (root : Option Score) (transitions : List Score)
    (few : transitions.length < 2 ^ 64) :
    ∃ explanation, pathScore root transitions = .ok explanation ∧
      explanation.Explains root transitions := by
  have count := length_pathTerms_le root transitions
  have empty : WeightedSum.empty.Small 0 := le_rfl
  obtain ⟨sum, summed, small⟩ := @WeightedSum.Small.foldlM .empty (pathTerms root transitions) 0
    empty (by omega)
  have denominator : sum.denominator ≤ 2 ^ 100 := by
    have le : sum.denominator ≤ (0 + (pathTerms root transitions).length) * scoreScale := small
    unfold scoreScale at le
    omega
  have hops : transitions.length * hopPenalty.raw < 2 ^ 128 := by
    change transitions.length * 25000 < 2 ^ 128
    omega
  have capped : u32 (min (transitions.length * hopPenalty.raw) scoreScale) =
      min (25000 * transitions.length) 1000000 := by
    rw [Nat.mul_comm]
    exact u32_of_lt (lt_of_le_of_lt (min_le_right _ _) (by decide))
  have zero : sum.denominator = 0 ↔ root.toList ++ transitions = [] := by
    rw [WeightedSum.foldlM_denominator_eq_zero (pathTerms_pos root transitions) summed,
      ← map_fst_pathTerms, List.map_eq_nil_iff]
    exact and_iff_right rfl
  have bounds : ∀ quality, sum.mean = some quality → ∀ low high : Nat,
      (∀ score ∈ root.toList ++ transitions, low ≤ score.raw ∧ score.raw ≤ high) →
        low ≤ quality.raw ∧ quality.raw ≤ high := by
    intro quality mean low high scores
    rw [← map_fst_pathTerms] at scores
    exact (WeightedSum.between_empty.foldlM
      (fun term mem => scores term.1 (List.mem_map_of_mem mem)) summed).mean denominator mean
  refine ⟨_, bind_eq_ok.2 ⟨sum, (pathSum_eq root transitions).trans summed,
    bind_eq_ok.2 ⟨(), ensure_of hops _, rfl⟩⟩, ?_⟩
  refine ⟨rfl, rfl, length_discountWeights .one transitions,
    discountWeights_pos (by decide) transitions, discountWeights_nonincreasing .one transitions,
    ?_, fun quality mean => quality_between (bounds quality mean) ?_, capped, ?_⟩
  · rw [Option.isSome_iff_ne_none, Ne, WeightedSum.mean_eq_none_iff, zero]
    cases root <;> simp
  · intro none
    rw [WeightedSum.mean_eq_none_iff.2 (zero.2 none)] at mean
    cases mean
  · rw [Option.map_map, ← capped]
    rfl

/-- Score arithmetic is closed and free of overflow.  Path scores are explained for every path that
fits in memory; every combinator computes its rounded quotient exactly, on the scale, and is monotone
in each score; harmonic and document scores lie between their arguments.  For the weighted score the
terms are as many as an address space can hold. -/
theorem scoreArithmetic :
    (∀ (root : Option Score) (transitions : List Score), transitions.length < 2 ^ 64 →
      ∃ explanation, pathScore root transitions = .ok explanation ∧
        explanation.Explains root transitions) ∧
    (∀ left right : Score,
      (mulScore left right).raw = FixedPoint.roundDiv (left.raw * right.raw) scoreScale ∧
      (mulScore left right).raw ≤ 1000000) ∧
    (∀ left right left' right' : Score, left ≤ left' → right ≤ right' →
      mulScore left right ≤ mulScore left' right') ∧
    (∀ terms : List (Score × Score), (weightedScore terms).raw ≤ 1000000) ∧
    (∀ terms : List (Score × Score), terms.length ≤ 2 ^ 44 →
      (weightedScore terms).raw = min (weightedTerms terms).sum 1000000) ∧
    (∀ terms terms' : List (Score × Score), terms.length ≤ 2 ^ 44 → TermsLe terms terms' →
      weightedScore terms ≤ weightedScore terms') ∧
    (∀ left right : Score,
      (harmonicScore left right).raw =
        (if left = .zero ∨ right = .zero then 0
        else FixedPoint.roundDiv (2 * left.raw * right.raw) (left.raw + right.raw)) ∧
      (harmonicScore left right).raw ≤ 1000000 ∧
      min left right ≤ harmonicScore left right ∧ harmonicScore left right ≤ max left right) ∧
    (∀ left right left' right' : Score, left ≤ left' → right ≤ right' →
      harmonicScore left right ≤ harmonicScore left' right') ∧
    (∀ (problem environment : Score) (coherence : Option Score),
      (documentScore problem environment coherence).raw ≤ 1000000) ∧
    (∀ problem environment : Score,
      (documentScore problem environment none).raw =
        FixedPoint.roundDiv (7 * problem.raw + 2 * environment.raw) 9 ∧
      min problem environment ≤ documentScore problem environment none ∧
      documentScore problem environment none ≤ max problem environment) ∧
    (∀ problem environment problem' environment' : Score, problem ≤ problem' →
      environment ≤ environment' →
        documentScore problem environment none ≤ documentScore problem' environment' none ∧
        ∀ coherence coherence' : Score, coherence ≤ coherence' →
          documentScore problem environment (some coherence) ≤
            documentScore problem' environment' (some coherence')) ∧
    (∀ (problem environment : Score) (anchor : AnchorGain),
      (candidateScore problem environment anchor).raw ≤ 1000000) ∧
    (∀ (problem environment problem' environment' : Score) (anchor anchor' : AnchorGain),
      problem ≤ problem' → environment ≤ environment' → anchor.score ≤ anchor'.score →
        candidateScore problem environment anchor ≤ candidateScore problem' environment' anchor') :=
  ⟨pathScore_explains,
    fun left right => ⟨mulScore_raw left right, (mulScore left right).bounded⟩,
    fun _ _ _ _ => mulScore_mono,
    fun terms => (weightedScore terms).bounded,
    fun _ => weightedScore_raw,
    fun _ _ => weightedScore_mono,
    fun left right => ⟨harmonicScore_raw left right, (harmonicScore left right).bounded,
      harmonicScore_between left right⟩,
    fun _ _ _ _ => harmonicScore_mono,
    fun problem environment coherence => (documentScore problem environment coherence).bounded,
    fun problem environment => ⟨documentScore_none_raw problem environment,
      documentScore_none_between problem environment⟩,
    fun _ _ _ _ le le' => ⟨documentScore_none_mono le le',
      fun _ _ le'' => weightedScore_three_mono le le' le''⟩,
    fun problem environment anchor => (candidateScore problem environment anchor).bounded,
    fun _ _ _ _ _ _ => weightedScore_three_mono⟩

end Semantic

end Carryforth
