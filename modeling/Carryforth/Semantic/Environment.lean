import Carryforth.Lib.CanonicalSort
import Carryforth.Lib.Strongest
import Carryforth.ProjectContext.Identity
import Carryforth.Semantic.Evidence

/-!
# Semantic graph queries: the environment gain

The gain that the environment adds to a score depends on the set of evidence only: of each coordinate
the strongest evidence counts, and of these the two strongest.  The evidence that an explanation lists
explains itself.
-/

namespace Carryforth

namespace Semantic

open Fallible ProjectContext CanonicalSort Strongest

/-- The evidence of the given coordinates, with their similarities. -/
def evidenceOf (problemScore : Score) (scores : List (ProjectContextCoordinate × Score)) :
    List ConditionedEvidence :=
  scores.map fun (coordinate, conditionedScore) => .new coordinate problemScore conditionedScore

/-- Every item is what the coordinate and the similarity say. -/
def Consistent (problemScore : Score) (evidence : List ConditionedEvidence) : Prop :=
  ∀ item ∈ evidence, item = .new item.contextCoordinate problemScore item.conditionedScore

variable {problemScore : Score} {evidence evidence' : List ConditionedEvidence}

theorem consistent_evidenceOf (problemScore : Score)
    (scores : List (ProjectContextCoordinate × Score)) :
    Consistent problemScore (evidenceOf problemScore scores) := by
  intro item mem
  obtain ⟨score, -, rfl⟩ := List.mem_map.1 mem
  rfl

/-! ## The two orders -/

def EvidenceLe (left right : ConditionedEvidence) : Prop := compareEvidence left right ≠ .gt

def GainLe (left right : ConditionedEvidence) : Prop := compareGain left right ≠ .gt

instance : DecidableRel EvidenceLe := fun left right =>
  inferInstanceAs (Decidable (compareEvidence left right ≠ .gt))

instance : DecidableRel GainLe := fun left right =>
  inferInstanceAs (Decidable (compareGain left right ≠ .gt))

instance (score : ConditionedEvidence → Score) :
    Std.TransCmp fun left right => compare (score right) (score left) :=
  @Std.TransCmp.opposite _ (compareOn score) _

instance : Std.TransCmp compareEvidence := inferInstanceAs (Std.TransCmp (compareLex _ _))

instance : Std.TransCmp compareGain := inferInstanceAs (Std.TransCmp (compareLex _ _))

instance : Std.Total EvidenceLe := inferInstanceAs (Std.Total fun a b => compareEvidence a b ≠ .gt)
instance : IsTrans ConditionedEvidence EvidenceLe :=
  inferInstanceAs (IsTrans ConditionedEvidence fun a b => compareEvidence a b ≠ .gt)
instance : Std.Total GainLe := inferInstanceAs (Std.Total fun a b => compareGain a b ≠ .gt)
instance : IsTrans ConditionedEvidence GainLe :=
  inferInstanceAs (IsTrans ConditionedEvidence fun a b => compareGain a b ≠ .gt)

/-- Items of one coordinate are compared by their gains, then by their similarities. -/
theorem evidenceLe_iff {a b : ConditionedEvidence} :
    EvidenceLe a b ↔ compare a.contextCoordinate b.contextCoordinate = .lt ∨
      a.contextCoordinate = b.contextCoordinate ∧
        (b.weightedGain < a.weightedGain ∨
          b.weightedGain = a.weightedGain ∧ b.conditionedScore ≤ a.conditionedScore) := by
  have third : compare b.conditionedScore a.conditionedScore ≠ .gt ↔
      b.conditionedScore ≤ a.conditionedScore := compare_le_iff_le
  simp only [EvidenceLe, compareEvidence, compareLex, compareOn, ← third]
  cases first : compare a.contextCoordinate b.contextCoordinate with
  | lt => simp
  | gt =>
    have different : a.contextCoordinate ≠ b.contextCoordinate := by
      intro same
      have self : compare b.contextCoordinate b.contextCoordinate = .eq := Std.ReflCmp.compare_self
      rw [same, self] at first
      cases first
    simp [different]
  | eq =>
    have same := Std.LawfulEqCmp.eq_of_compare first
    cases second : compare b.weightedGain a.weightedGain with
    | lt => simp [same, compare_lt_iff_lt.1 second]
    | gt =>
      have greater := compare_gt_iff_gt.1 second
      simp [same, not_lt_of_gt greater, greater.ne']
    | eq =>
      have equal := compare_eq_iff_eq.1 second
      simp [same, equal]

theorem gainLe_weightedGain {a b : ConditionedEvidence} (le : GainLe a b) :
    b.weightedGain ≤ a.weightedGain := by
  by_contra greater
  have first : compare b.weightedGain a.weightedGain = .gt :=
    compare_gt_iff_gt.2 (not_le.1 greater)
  exact le (by simp [compareGain, compareLex, first])

theorem convex_coordinate : Convex EvidenceLe (·.contextCoordinate) := by
  intro a b c ab bc same
  rcases evidenceLe_iff.1 ab with below | ⟨equal, -⟩
  · rcases evidenceLe_iff.1 bc with above | ⟨equal, -⟩
    · have same : a.contextCoordinate = c.contextCoordinate := same
      have swapped := Std.OrientedCmp.gt_of_lt above
      rw [← same, below] at swapped
      cases swapped
    · exact equal.trans same.symm
  · exact equal.symm

/-! ## What is kept -/

def strongest (evidence : List ConditionedEvidence) : List ConditionedEvidence :=
  firsts (·.contextCoordinate) (evidence.insertionSort EvidenceLe)

def summary (evidence : List ConditionedEvidence) : EnvironmentScoreExplanation :=
  let highestGain := evidence[0]?.elim Score.zero (·.weightedGain)
  let secondHighestGain := evidence[1]?.elim Score.zero (·.weightedGain)
  { conditionedEvidence := evidence
    highestGain
    secondHighestGain
    environmentGain :=
      ⟨u32 (min (highestGain.raw + (mulScore wSecondEnvironment secondHighestGain).raw) scoreScale),
        (u32_le _).trans (min_le_right _ _)⟩ }

theorem environmentGain_eq (evidence : List ConditionedEvidence) :
    environmentGain evidence = summary ((strongest evidence).insertionSort GainLe) := rfl

theorem conditionedEvidence_eq (evidence : List ConditionedEvidence) :
    (environmentGain evidence).conditionedEvidence = (strongest evidence).insertionSort GainLe := rfl

theorem separates_evidence (consistent : Consistent problemScore evidence) :
    ∀ a ∈ evidence, ∀ b ∈ evidence, EvidenceLe a b → EvidenceLe b a → a = b := by
  intro a ha b hb ab ba
  have equal : compareEvidence a b = .eq := by
    cases is : compareEvidence a b with
    | eq => rfl
    | gt => exact absurd is ab
    | lt => exact absurd (Std.OrientedCmp.gt_of_lt is) ba
  obtain ⟨coordinate, rest⟩ := compareLex_eq_eq.1 equal
  obtain ⟨-, conditioned⟩ := compareLex_eq_eq.1 rest
  have coordinate : a.contextCoordinate = b.contextCoordinate :=
    Std.LawfulEqCmp.eq_of_compare coordinate
  have conditioned : b.conditionedScore = a.conditionedScore := compare_eq_iff_eq.1 conditioned
  rw [consistent a ha, consistent b hb, coordinate, conditioned]

theorem mem_strongest_iff (consistent : Consistent problemScore evidence)
    (item : ConditionedEvidence) :
    item ∈ strongest evidence ↔ IsStrongest EvidenceLe (·.contextCoordinate) evidence item :=
  mem_firsts_iff convex_coordinate (separates_evidence consistent) item

theorem mem_conditionedEvidence_iff (consistent : Consistent problemScore evidence)
    (item : ConditionedEvidence) :
    item ∈ (environmentGain evidence).conditionedEvidence ↔
      IsStrongest EvidenceLe (·.contextCoordinate) evidence item := by
  rw [conditionedEvidence_eq, List.mem_insertionSort, mem_strongest_iff consistent]

theorem nodup_strongest (evidence : List ConditionedEvidence) :
    ((strongest evidence).map (·.contextCoordinate)).Nodup :=
  List.pairwise_map.2 (pairwise_firsts convex_coordinate evidence)

theorem nodup_conditionedEvidence (evidence : List ConditionedEvidence) :
    ((environmentGain evidence).conditionedEvidence.map (·.contextCoordinate)).Nodup :=
  ((List.perm_insertionSort GainLe (strongest evidence)).map _).nodup_iff.2
    (nodup_strongest evidence)

/-- Items with distinct coordinates, sorted by their gains, are determined by their set. -/
theorem insertionSort_gain_eq {kept kept' : List ConditionedEvidence}
    (distinct : (kept.map (·.contextCoordinate)).Nodup)
    (distinct' : (kept'.map (·.contextCoordinate)).Nodup)
    (same : ∀ item, item ∈ kept ↔ item ∈ kept') :
    kept.insertionSort GainLe = kept'.insertionSort GainLe := by
  refine insertionSort_eq_of_perm ?_
    ((List.perm_ext_iff_of_nodup distinct.of_map distinct'.of_map).2 same)
  intro a ha b hb ab ba
  have equal : compareGain a b = .eq := by
    cases is : compareGain a b with
    | eq => rfl
    | gt => exact absurd is ab
    | lt => exact absurd (Std.OrientedCmp.gt_of_lt is) ba
  have coordinate : a.contextCoordinate = b.contextCoordinate :=
    Std.LawfulEqCmp.eq_of_compare (compareLex_eq_eq.1 equal).2
  exact List.inj_on_of_nodup_map distinct ha hb coordinate

/-- The explanation depends on the set of evidence only. -/
theorem environmentGain_congr (consistent : Consistent problemScore evidence)
    (consistent' : Consistent problemScore evidence')
    (same : ∀ item, item ∈ evidence ↔ item ∈ evidence') :
    environmentGain evidence = environmentGain evidence' := by
  rw [environmentGain_eq, environmentGain_eq,
    insertionSort_gain_eq (nodup_strongest evidence) (nodup_strongest evidence')]
  intro item
  rw [mem_strongest_iff consistent, mem_strongest_iff consistent']
  simp only [IsStrongest, same]

/-- What an explanation lists explains itself. -/
theorem environmentGain_idem (consistent : Consistent problemScore evidence) :
    environmentGain (environmentGain evidence).conditionedEvidence = environmentGain evidence := by
  have listed := mem_conditionedEvidence_iff consistent
  have consistent' : Consistent problemScore (environmentGain evidence).conditionedEvidence :=
    fun item mem => consistent item ((listed item).1 mem).1
  have same : ∀ item, item ∈ strongest (environmentGain evidence).conditionedEvidence ↔
      item ∈ strongest evidence := by
    intro item
    rw [mem_strongest_iff consistent', mem_strongest_iff consistent, ← listed]
    -- no other item of its coordinate is listed
    refine ⟨And.left, fun mem => ⟨mem, fun other mem' same => ?_⟩⟩
    have equal := List.inj_on_of_nodup_map (nodup_conditionedEvidence evidence) mem' mem same
    rw [equal]
    exact (Std.Total.total item item).elim (fun h => h) fun h => h
  rw [environmentGain_eq (environmentGain evidence).conditionedEvidence,
    insertionSort_gain_eq (nodup_strongest _) (nodup_strongest evidence) same]
  rfl

/-! ## The two highest gains -/

/-- The two greatest gains over distinct coordinates; a gain that is missing counts as zero. -/
structure TopTwo (evidence : List ConditionedEvidence) (highest second : Score) : Prop where
  le_highest : ∀ item ∈ evidence, item.weightedGain ≤ highest
  le_second : ∀ item ∈ evidence, ∀ other ∈ evidence,
    item.contextCoordinate ≠ other.contextCoordinate →
      min item.weightedGain other.weightedGain ≤ second
  highest_attained : evidence ≠ [] → ∃ item ∈ evidence, item.weightedGain = highest
  second_attained : ∀ item ∈ evidence, ∀ other ∈ evidence,
    item.contextCoordinate ≠ other.contextCoordinate →
      ∃ first ∈ evidence, ∃ next ∈ evidence, first.contextCoordinate ≠ next.contextCoordinate ∧
        first.weightedGain = highest ∧ next.weightedGain = second
  highest_missing : evidence = [] → highest = .zero
  second_missing : (∀ item ∈ evidence, ∀ other ∈ evidence,
    item.contextCoordinate = other.contextCoordinate) → second = .zero

theorem TopTwo.mono {highest second highest' second' : Score}
    (top : TopTwo evidence highest second) (top' : TopTwo evidence' highest' second')
    (subset : evidence ⊆ evidence') : highest ≤ highest' ∧ second ≤ second' := by
  constructor
  · by_cases empty : evidence = []
    · rw [top.highest_missing empty]
      exact Nat.zero_le _
    · obtain ⟨item, mem, rfl⟩ := top.highest_attained empty
      exact top'.le_highest item (subset mem)
  · by_cases single : ∀ item ∈ evidence, ∀ other ∈ evidence,
        item.contextCoordinate = other.contextCoordinate
    · rw [top.second_missing single]
      exact Nat.zero_le _
    · push Not at single
      obtain ⟨item, mem, other, mem', different⟩ := single
      obtain ⟨first, hf, next, hn, apart, is, rfl⟩ :=
        top.second_attained item mem other mem' different
      have le : next.weightedGain ≤ first.weightedGain := is ▸ top.le_highest next hn
      have bound := top'.le_second first (subset hf) next (subset hn) apart
      rwa [min_eq_right le] at bound

theorem exists_listed (consistent : Consistent problemScore evidence) {item : ConditionedEvidence}
    (mem : item ∈ evidence) :
    ∃ listed ∈ (environmentGain evidence).conditionedEvidence,
      listed.contextCoordinate = item.contextCoordinate ∧
        item.weightedGain ≤ listed.weightedGain := by
  obtain ⟨listed, strongest, same⟩ : ∃ listed,
      IsStrongest EvidenceLe (·.contextCoordinate) evidence listed ∧
        listed.contextCoordinate = item.contextCoordinate := exists_strongest item mem
  refine ⟨listed, (mem_conditionedEvidence_iff consistent listed).2 strongest, same, ?_⟩
  rcases evidenceLe_iff.1 (strongest.2 item mem same.symm) with below | ⟨-, less | ⟨equal, -⟩⟩
  · have self : compare item.contextCoordinate item.contextCoordinate = .eq :=
      Std.ReflCmp.compare_self
    rw [same, self] at below
    cases below
  · exact less.le
  · exact equal.le

theorem topTwo_environmentGain (consistent : Consistent problemScore evidence) :
    TopTwo evidence (environmentGain evidence).highestGain
      (environmentGain evidence).secondHighestGain := by
  have listed := mem_conditionedEvidence_iff consistent
  have distinct := nodup_conditionedEvidence evidence
  have sorted : (environmentGain evidence).conditionedEvidence.Pairwise GainLe :=
    List.pairwise_insertionSort GainLe (strongest evidence)
  have highest_eq : (environmentGain evidence).highestGain =
    (environmentGain evidence).conditionedEvidence[0]?.elim Score.zero (·.weightedGain) := rfl
  have second_eq : (environmentGain evidence).secondHighestGain =
    (environmentGain evidence).conditionedEvidence[1]?.elim Score.zero (·.weightedGain) := rfl
  rw [highest_eq, second_eq]
  have found := @exists_listed problemScore evidence consistent
  generalize (environmentGain evidence).conditionedEvidence = kept at listed distinct sorted found
  have original : ∀ item ∈ kept, item ∈ evidence := fun item mem => ((listed item).1 mem).1
  cases kept with
  | nil =>
    have empty : evidence = [] := by
      refine List.eq_nil_iff_forall_not_mem.2 fun item mem => ?_
      obtain ⟨other, mem', -⟩ := found mem
      cases mem'
    subst empty
    exact
      { le_highest := fun _ mem => by cases mem
        le_second := fun _ mem => by cases mem
        highest_attained := fun some => absurd rfl some
        second_attained := fun _ mem => by cases mem
        highest_missing := fun _ => rfl
        second_missing := fun _ => rfl }
  | cons first rest =>
    have first_mem := original first List.mem_cons_self
    have below : ∀ item ∈ first :: rest, item.weightedGain ≤ first.weightedGain := by
      intro item mem
      rcases List.mem_cons.1 mem with rfl | later
      · exact le_rfl
      · exact gainLe_weightedGain (List.rel_of_pairwise_cons sorted later)
    have le_first : ∀ item ∈ evidence, item.weightedGain ≤ first.weightedGain := by
      intro item mem
      obtain ⟨other, mem', -, le⟩ := found mem
      exact le.trans (below other mem')
    cases rest with
    | nil =>
      have same : ∀ item ∈ evidence, item.contextCoordinate = first.contextCoordinate := by
        intro item mem
        obtain ⟨other, mem', equal, -⟩ := found mem
        rw [← equal, List.mem_singleton.1 mem']
      exact
        { le_highest := le_first
          le_second := fun item mem other mem' different =>
            absurd ((same item mem).trans (same other mem').symm) different
          highest_attained := fun _ => ⟨first, first_mem, rfl⟩
          second_attained := fun item mem other mem' different =>
            absurd ((same item mem).trans (same other mem').symm) different
          highest_missing := fun empty => absurd first_mem (empty ▸ List.not_mem_nil)
          second_missing := fun _ => rfl }
    | cons next rest =>
      have next_mem := original next (List.mem_cons_of_mem first List.mem_cons_self)
      have apart : first.contextCoordinate ≠ next.contextCoordinate :=
        (List.pairwise_cons.1 distinct).1 _ List.mem_cons_self
      -- of two coordinates at most one is that of the first item
      have le_next : ∀ item ∈ evidence, item.contextCoordinate ≠ first.contextCoordinate →
          item.weightedGain ≤ next.weightedGain := by
        intro item mem different
        obtain ⟨other, mem', equal, le⟩ := found mem
        refine le.trans ?_
        rcases List.mem_cons.1 mem' with rfl | later
        · exact absurd equal.symm different
        rcases List.mem_cons.1 later with rfl | later
        · exact le_rfl
        · exact gainLe_weightedGain
            (List.rel_of_pairwise_cons (List.pairwise_cons.1 sorted).2 later)
      exact
        { le_highest := le_first
          le_second := fun item mem other mem' different => by
            by_cases is_first : item.contextCoordinate = first.contextCoordinate
            · exact (min_le_right _ _).trans
                (le_next other mem' fun same => different (is_first.trans same.symm))
            · exact (min_le_left _ _).trans (le_next item mem is_first)
          highest_attained := fun _ => ⟨first, first_mem, rfl⟩
          second_attained := fun _ _ _ _ _ =>
            ⟨first, first_mem, next, next_mem, apart, rfl, rfl⟩
          highest_missing := fun empty => absurd first_mem (empty ▸ List.not_mem_nil)
          second_missing := fun same => absurd (same first first_mem next next_mem) apart }

theorem environmentGain_raw (evidence : List ConditionedEvidence) :
    (environmentGain evidence).environmentGain.raw =
      min ((environmentGain evidence).highestGain.raw +
        (mulScore wSecondEnvironment (environmentGain evidence).secondHighestGain).raw)
        scoreScale := by
  refine u32_of_lt (lt_of_le_of_lt (min_le_right _ _) ?_)
  decide

theorem environmentGain_mono (consistent : Consistent problemScore evidence)
    (consistent' : Consistent problemScore evidence') (subset : evidence ⊆ evidence') :
    (environmentGain evidence).environmentGain ≤ (environmentGain evidence').environmentGain := by
  obtain ⟨highest, second⟩ := (topTwo_environmentGain consistent).mono
    (topTwo_environmentGain consistent') subset
  have weighted := Score.le_iff.1 (mulScore_mono (le_refl wSecondEnvironment) second)
  rw [Score.le_iff, environmentGain_raw, environmentGain_raw]
  exact min_le_min_right _ (Nat.add_le_add (Score.le_iff.1 highest) weighted)

/-! ## Explanations -/

/-- An explanation whose environment part is that of consistent evidence is valid as soon as its
final score is that of its formula. -/
theorem ScoreExplanation.validate_of_environmentGain (explanation : ScoreExplanation)
    (consistent : Consistent explanation.problemScore evidence)
    (listed : explanation.conditionedEvidence = (Semantic.environmentGain evidence).conditionedEvidence)
    (highest : explanation.highestGain = (Semantic.environmentGain evidence).highestGain)
    (second : explanation.secondHighestGain = (Semantic.environmentGain evidence).secondHighestGain)
    (gain : explanation.environmentGain = (Semantic.environmentGain evidence).environmentGain)
    (penalties : explanation.penalties = [])
    (final : explanation.expected = .ok explanation.finalScore) :
    explanation.validate = .ok () := by
  simp only [validate, bind_eq_ok, exists_unit, ensure_eq_ok]
  refine ⟨?_, ?_, _, final, rfl⟩
  · rintro ⟨item, mem, different⟩
    rw [listed, mem_conditionedEvidence_iff consistent] at mem
    exact different (consistent item mem.1)
  · rw [listed, environmentGain_idem consistent]
    exact ⟨rfl, highest, second, gain, penalties⟩

/-- The environment gain depends on the set of evidence only: an explanation lists the strongest
item of each coordinate, counts the two strongest of them, never falls with more evidence, and is
reproduced by what it lists. -/
theorem environmentGain_of_set (problemScore : Score)
    (scores : List (ProjectContextCoordinate × Score)) :
    let evidence := evidenceOf problemScore scores
    let explained := environmentGain evidence
    (∀ evidence', (∀ item, item ∈ evidence' ↔ item ∈ evidence) →
      environmentGain evidence' = explained) ∧
    (explained.conditionedEvidence.map (·.contextCoordinate)).Nodup ∧
    (∀ item ∈ evidence, ∃! kept, kept ∈ explained.conditionedEvidence ∧
      kept.contextCoordinate = item.contextCoordinate) ∧
    (∀ kept ∈ explained.conditionedEvidence, kept ∈ evidence ∧
      ∀ item ∈ evidence, item.contextCoordinate = kept.contextCoordinate →
        item.weightedGain < kept.weightedGain ∨
          item.weightedGain = kept.weightedGain ∧ item.conditionedScore ≤ kept.conditionedScore) ∧
    TopTwo evidence explained.highestGain explained.secondHighestGain ∧
    (∀ more, evidence ⊆ evidenceOf problemScore more →
      explained.environmentGain ≤
        (environmentGain (evidenceOf problemScore more)).environmentGain) ∧
    environmentGain explained.conditionedEvidence = explained ∧
    ∀ explanation : ScoreExplanation, explanation.problemScore = problemScore →
      explanation.conditionedEvidence = explained.conditionedEvidence →
      explanation.highestGain = explained.highestGain →
      explanation.secondHighestGain = explained.secondHighestGain →
      explanation.environmentGain = explained.environmentGain →
      explanation.penalties = [] → explanation.expected = .ok explanation.finalScore →
      explanation.validate = .ok () := by
  intro evidence explained
  have consistent : Consistent problemScore evidence := consistent_evidenceOf problemScore scores
  have listed := mem_conditionedEvidence_iff consistent
  have distinct := nodup_conditionedEvidence evidence
  refine ⟨?_, distinct, ?_, ?_, topTwo_environmentGain consistent, ?_, environmentGain_idem consistent,
    ?_⟩
  · intro evidence' same
    exact environmentGain_congr (fun item mem => consistent item ((same item).1 mem)) consistent same
  · intro item mem
    obtain ⟨kept, mem', same, -⟩ := exists_listed consistent mem
    refine ⟨kept, ⟨mem', same⟩, fun other ⟨mem'', same'⟩ => ?_⟩
    exact List.inj_on_of_nodup_map distinct mem'' mem' (same'.trans same.symm)
  · intro kept mem
    obtain ⟨mem', first⟩ := (listed kept).1 mem
    refine ⟨mem', fun item mem'' same => ?_⟩
    rcases evidenceLe_iff.1 (first item mem'' same) with below | ⟨-, stronger⟩
    · have self : compare kept.contextCoordinate kept.contextCoordinate = .eq :=
        Std.ReflCmp.compare_self
      rw [same, self] at below
      cases below
    · exact stronger
  · intro more subset
    exact environmentGain_mono consistent (consistent_evidenceOf problemScore more) subset
  · rintro explanation rfl sameList highest second gain penalties final
    exact explanation.validate_of_environmentGain consistent sameList highest second gain penalties
      final

/-- Evidence in another order, with an item repeated. -/
theorem environmentGain_of_set_reordered :
    environmentGain (evidenceOf .zero
        [(.document 1, .one), (.meeting 2, .zero), (.document 1, .one)]) =
      environmentGain (evidenceOf .zero [(.meeting 2, .zero), (.document 1, .one)]) :=
  (environmentGain_of_set .zero [(.meeting 2, .zero), (.document 1, .one)]).1 _ fun item => by
    simp only [evidenceOf, List.map_cons, List.map_nil, List.mem_cons, List.not_mem_nil, or_false]
    exact ⟨fun h => h.elim .inr fun h => h.elim .inl .inr, fun h => h.elim (.inr ∘ .inl) .inl⟩

end Semantic

end Carryforth
