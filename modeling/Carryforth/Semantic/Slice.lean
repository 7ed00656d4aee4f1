import Carryforth.Lib.Keyset
import Carryforth.ProjectContext.Identity
import Carryforth.Semantic.Score

/-!
# Semantic graph queries: slices of ranked options

The relations at a coordinate and the targets of an edge are ranked by score and handed out in
slices.  A slice continues after a cursor, which holds the rank of the last option handed out.  The
scores, distances and provenances that ranking does not read are one field.
-/

namespace Carryforth

namespace Semantic

open ProjectContext Keyset

/-! ## Relations -/

structure SemanticRankedRelationOption (ρ : Type) where
  edgeKey : EdgeKey
  documentId : Uuid
  documentScore : Score
  observed : ρ
deriving DecidableEq, Repr

structure RelationRankCursor where
  documentScore : Score
  edgeKey : EdgeKey
  documentId : Uuid
deriving DecidableEq, Repr

section Relations

variable {ρ : Type}

def compareRankedRelations (left right : SemanticRankedRelationOption ρ) : Ordering :=
  (compare right.documentScore left.documentScore).then
    ((compare left.edgeKey right.edgeKey).then (compare left.documentId right.documentId))

def RelationRankCursor.of (option : SemanticRankedRelationOption ρ) : RelationRankCursor :=
  ⟨option.documentScore, option.edgeKey, option.documentId⟩

/-- Whether an option comes after the cursor; the keys are compared as a pair. -/
def afterRelation (after : Option RelationRankCursor) (option : SemanticRankedRelationOption ρ) :
    Bool :=
  after.all fun cursor =>
    option.documentScore < cursor.documentScore ∨
      option.documentScore = cursor.documentScore ∧
        (cursor.edgeKey < option.edgeKey ∨
          cursor.edgeKey = option.edgeKey ∧ cursor.documentId < option.documentId)

def sliceRankedRelations (options : List (SemanticRankedRelationOption ρ))
    (after : Option RelationRankCursor) (limit : Nat) :
    List (SemanticRankedRelationOption ρ) × Exhaustion :=
  slice (afterRelation after) options limit

instance : Std.TransCmp (compareRankedRelations (ρ := ρ)) :=
  have : Std.TransCmp fun left right : SemanticRankedRelationOption ρ =>
      compare right.documentScore left.documentScore :=
    @Std.TransCmp.opposite _ (compareOn SemanticRankedRelationOption.documentScore) _
  inferInstanceAs (Std.TransCmp (compareLex
    (fun left right : SemanticRankedRelationOption ρ =>
      compare right.documentScore left.documentScore)
    (compareLex (compareOn SemanticRankedRelationOption.edgeKey)
      (compareOn SemanticRankedRelationOption.documentId))))

theorem compare_lt_iff {w : Nat} {a b : BitVec w} : compare a b = .lt ↔ a < b :=
  compareOfLessAndEq_eq_lt

theorem agrees_relation : Agrees (compareRankedRelations (ρ := ρ))
    fun last => afterRelation (last.map RelationRankCursor.of) where
  all _ := rfl
  after c a := by
    simp only [afterRelation, RelationRankCursor.of, Option.map_some, Option.all_some,
      decide_eq_true_eq, compareRankedRelations, Ordering.then_eq_lt, compare_lt_iff_lt,
      compare_eq_iff_eq, compare_lt_iff, Std.LawfulEqCmp.compare_eq_iff_eq]

/-- Without two options on one key, options in order are in strict order. -/
theorem strict_relations {options : List (SemanticRankedRelationOption ρ)}
    (sorted : options.Pairwise fun a b => compareRankedRelations a b ≠ .gt)
    (distinct : options.Pairwise fun a b => (a.edgeKey, a.documentId) ≠ (b.edgeKey, b.documentId)) :
    options.Pairwise fun a b => compareRankedRelations a b = .lt := by
  refine (sorted.and distinct).imp fun {a b} ⟨le, different⟩ => ?_
  cases is : compareRankedRelations a b with
  | lt => rfl
  | gt => exact absurd is le
  | eq =>
    simp only [compareRankedRelations, Ordering.then_eq_eq, Std.LawfulEqCmp.compare_eq_iff_eq] at is
    exact absurd (Prod.ext is.2.1 is.2.2) different

end Relations

/-! ## Targets -/

structure SemanticRankedTargetOption (ρ : Type) where
  coordinate : ProjectContextCoordinate
  transitionScore : Score
  observed : ρ
deriving DecidableEq, Repr

structure TargetRankCursor where
  transitionScore : Score
  targetCoordinate : ProjectContextCoordinate
deriving DecidableEq, Repr

section Targets

variable {ρ : Type}

def compareRankedTargets (left right : SemanticRankedTargetOption ρ) : Ordering :=
  (compare right.transitionScore left.transitionScore).then
    (compare left.coordinate right.coordinate)

def TargetRankCursor.of (option : SemanticRankedTargetOption ρ) : TargetRankCursor :=
  ⟨option.transitionScore, option.coordinate⟩

def afterTarget (after : Option TargetRankCursor) (option : SemanticRankedTargetOption ρ) : Bool :=
  after.all fun cursor =>
    option.transitionScore < cursor.transitionScore ∨
      option.transitionScore = cursor.transitionScore ∧
        compare option.coordinate cursor.targetCoordinate = .gt

def sliceRankedTargets (options : List (SemanticRankedTargetOption ρ))
    (after : Option TargetRankCursor) (limit : Nat) :
    List (SemanticRankedTargetOption ρ) × Exhaustion :=
  slice (afterTarget after) options limit

instance : Std.TransCmp (compareRankedTargets (ρ := ρ)) :=
  have : Std.TransCmp fun left right : SemanticRankedTargetOption ρ =>
      compare right.transitionScore left.transitionScore :=
    @Std.TransCmp.opposite _ (compareOn SemanticRankedTargetOption.transitionScore) _
  inferInstanceAs (Std.TransCmp (compareLex
    (fun left right : SemanticRankedTargetOption ρ =>
      compare right.transitionScore left.transitionScore)
    (compareOn SemanticRankedTargetOption.coordinate)))

theorem agrees_target : Agrees (compareRankedTargets (ρ := ρ))
    fun last => afterTarget (last.map TargetRankCursor.of) where
  all _ := rfl
  after c a := by
    simp only [afterTarget, TargetRankCursor.of, Option.map_some, Option.all_some,
      decide_eq_true_eq, compareRankedTargets, Ordering.then_eq_lt, compare_lt_iff_lt,
      compare_eq_iff_eq, Std.OrientedCmp.gt_iff_lt]

theorem strict_targets {options : List (SemanticRankedTargetOption ρ)}
    (sorted : options.Pairwise fun a b => compareRankedTargets a b ≠ .gt)
    (distinct : options.Pairwise fun a b => a.coordinate ≠ b.coordinate) :
    options.Pairwise fun a b => compareRankedTargets a b = .lt := by
  refine (sorted.and distinct).imp fun {a b} ⟨le, different⟩ => ?_
  cases is : compareRankedTargets a b with
  | lt => rfl
  | gt => exact absurd is le
  | eq =>
    simp only [compareRankedTargets, Ordering.then_eq_eq] at is
    exact absurd (Std.LawfulEqCmp.eq_of_compare is.2) different

end Targets

/-! ## The slices of a ranking -/

/-- Slices of positive limits hand out a ranking exactly: each option once and in order, never more
than the limit, and a slice is marked as the last one exactly when it holds the last option. -/
theorem rankedSlices_exact {ρ : Type} (limits : Nat → Nat) (positive : ∀ n, 0 < limits n) :
    (∀ options : List (SemanticRankedRelationOption ρ),
      (options.Pairwise fun a b => compareRankedRelations a b ≠ .gt) →
      (options.Pairwise fun a b => (a.edgeKey, a.documentId) ≠ (b.edgeKey, b.documentId)) →
      Exact options limits fun last =>
        sliceRankedRelations options (last.map RelationRankCursor.of)) ∧
    ∀ options : List (SemanticRankedTargetOption ρ),
      (options.Pairwise fun a b => compareRankedTargets a b ≠ .gt) →
      (options.Pairwise fun a b => a.coordinate ≠ b.coordinate) →
      Exact options limits fun last =>
        sliceRankedTargets options (last.map TargetRankCursor.of) := by
  constructor
  · intro options sorted distinct
    exact exact_slice (strict_relations sorted distinct) agrees_relation positive
  · intro options sorted distinct
    exact exact_slice (strict_targets sorted distinct) agrees_target positive

def sampleRelations : List (SemanticRankedRelationOption Unit) :=
  [⟨5, 9, .one, ()⟩, ⟨2, 7, .zero, ()⟩, ⟨2, 8, .zero, ()⟩]

/-- Two options with one score and one edge are told apart by their Documents. -/
theorem rankedSlices_exact_sampleRelations :
    Exact sampleRelations (fun _ => 2) fun last =>
      sliceRankedRelations sampleRelations (last.map RelationRankCursor.of) :=
  (rankedSlices_exact (fun _ => 2) fun _ => Nat.two_pos).1 sampleRelations (by decide) (by decide)

end Semantic

end Carryforth
