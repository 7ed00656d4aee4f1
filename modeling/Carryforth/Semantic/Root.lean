import Carryforth.Lib.CanonicalSort
import Carryforth.Lib.Greedy
import Carryforth.Semantic.Contract
import Carryforth.Semantic.Score
import Carryforth.Semantic.Source

/-!
# Semantic graph queries: automatic roots

Automatic roots are selected from candidate sources: half of the slots are reserved for candidates
found by the problem alone, the strongest of them comes first, and the others are chosen one by one
by relevance and by how little they repeat what is selected already.
-/

namespace Carryforth

namespace Semantic

open Fallible

/-! ## The order of sources -/

def projectViewKindRank : ProjectViewSemanticType → Nat
  | .projectProfile => 0
  | .goal => 1
  | .role => 2
  | .plan => 3
  | .stage => 4
  | .requirement => 5
  | .issue => 6
  | .work => 7
  | .resource => 8

def sourceKindRank : SemanticSourceKind → Nat × Nat
  | .projectView subtype => (0, projectViewKindRank subtype)
  | .projectDocument => (1, 0)
  | .meeting => (2, 0)

/-- Pairs of ranks are compared lexicographically. -/
def compareSources : SemanticSourceIdentity → SemanticSourceIdentity → Ordering :=
  compareLex (compareOn (·.communityId))
    (compareLex
      (compareLex (compareOn fun source => (sourceKindRank source.kind).1)
        (compareOn fun source => (sourceKindRank source.kind).2))
      (compareOn (·.sourceId)))

theorem sourceKindRank_injective : Function.Injective sourceKindRank := by
  intro a b same
  cases a with
  | projectView subtype =>
    cases b with
    | projectView subtype' => cases subtype <;> cases subtype' <;> first | rfl | cases same
    | projectDocument => cases same
    | meeting => cases same
  | projectDocument => cases b <;> first | rfl | cases same
  | meeting => cases b <;> first | rfl | cases same

instance : Std.TransCmp compareSources :=
  inferInstanceAs (Std.TransCmp (compareLex _ _))

instance : Std.LawfulEqCmp compareSources where
  eq_of_compare {a b} same := by
    obtain ⟨community, rest⟩ := compareLex_eq_eq.1 same
    obtain ⟨kind, source⟩ := compareLex_eq_eq.1 rest
    obtain ⟨family, subtype⟩ := compareLex_eq_eq.1 kind
    have kinds := sourceKindRank_injective
      (Prod.ext (Std.LawfulEqCmp.eq_of_compare family) (Std.LawfulEqCmp.eq_of_compare subtype))
    cases a
    cases b
    cases kinds
    cases Std.LawfulEqOrd.eq_of_compare community
    cases Std.LawfulEqOrd.eq_of_compare source
    rfl

/-! ## Candidates and selected roots -/

structure RootPairRedundancy where
  otherSource : SemanticSourceIdentity
  similarity : Score
deriving DecidableEq, Repr

structure RootSelectionCandidate where
  source : SemanticSourceIdentity
  problemScore : Score
  candidateScore : Score
  discoveredProblemNeutral : Bool
  /-- Similarity to other candidates; a missing pair means zero. -/
  redundancyTo : List RootPairRedundancy
deriving DecidableEq, Repr

inductive AutomaticRootLane
  | problemNeutral
  | mixed
deriving DecidableEq, Repr

structure SelectedAutomaticRoot where
  source : SemanticSourceIdentity
  lane : AutomaticRootLane
  relevanceScore : Score
  selectionPriority : Score
deriving DecidableEq, Repr

namespace RootSelectionCandidate

def relevance (candidate : RootSelectionCandidate) : AutomaticRootLane → Score
  | .problemNeutral => candidate.problemScore
  | .mixed => candidate.candidateScore

def similarityTo (candidate : RootSelectionCandidate) (source : SemanticSourceIdentity) :
    Option Score :=
  (candidate.redundancyTo.find? (·.otherSource = source)).map (·.similarity)

/-- The largest similarity to a selected root. -/
def redundancy (candidate : RootSelectionCandidate) (selected : List SelectedAutomaticRoot) :
    Score :=
  ((selected.filterMap fun item => candidate.similarityTo item.source).maxBy compare).getD .zero

/-- The lane takes candidates that are not selected yet. -/
def Admitted (selected : List SelectedAutomaticRoot) (lane : AutomaticRootLane)
    (candidate : RootSelectionCandidate) : Prop :=
  ¬(∃ item ∈ selected, item.source = candidate.source) ∧
    (lane = .mixed ∨ candidate.discoveredProblemNeutral = true)

instance (selected : List SelectedAutomaticRoot) (lane : AutomaticRootLane) :
    DecidablePred (Admitted selected lane) :=
  fun _ => inferInstanceAs (Decidable (_ ∧ _))

def select (candidate : RootSelectionCandidate) (selected : List SelectedAutomaticRoot)
    (lane : AutomaticRootLane) : SelectedAutomaticRoot where
  source := candidate.source
  lane := lane
  relevanceScore := candidate.relevance lane
  selectionPriority := rootDiversityPriority (candidate.relevance lane)
    (candidate.redundancy selected)

/-- The strongest root found by the problem is selected at its own score. -/
def pin (candidate : RootSelectionCandidate) : SelectedAutomaticRoot where
  source := candidate.source
  lane := .problemNeutral
  relevanceScore := candidate.problemScore
  selectionPriority := candidate.problemScore

end RootSelectionCandidate

/-! ## Selection -/

/-- The order in which roots are preferred: priority, relevance, and the least source on ties. -/
def compareSelected : SelectedAutomaticRoot → SelectedAutomaticRoot → Ordering :=
  compareLex (compareOn (·.selectionPriority))
    (compareLex (compareOn (·.relevanceScore)) fun left right =>
      compareSources right.source left.source)

def bestCandidate (candidates : List RootSelectionCandidate) (lane : AutomaticRootLane)
    (selected : List SelectedAutomaticRoot) : Option SelectedAutomaticRoot :=
  ((candidates.filter fun candidate => candidate.Admitted selected lane).map
    (·.select selected lane)).maxBy compareSelected

def comparePinned : RootSelectionCandidate → RootSelectionCandidate → Ordering :=
  compareLex (compareOn (·.problemScore)) fun left right => compareSources right.source left.source

def pinned (candidates : List RootSelectionCandidate) : Option RootSelectionCandidate :=
  (candidates.filter (·.discoveredProblemNeutral)).maxBy comparePinned

def eligible (candidates : List RootSelectionCandidate) : List RootSelectionCandidate :=
  candidates.filter fun candidate => baseEntryFloor ≤ candidate.problemScore

def sortBySource (candidates : List RootSelectionCandidate) : List RootSelectionCandidate :=
  candidates.insertionSort fun left right => compareSources left.source right.source ≠ .gt

/-- The start of the selection: the pinned root, if there is one. -/
def pinnedRoots (candidates : List RootSelectionCandidate) : List SelectedAutomaticRoot :=
  (pinned candidates).toList.map RootSelectionCandidate.pin

def fillLanes (candidates : List RootSelectionCandidate) (limit : Nat)
    (selected : List SelectedAutomaticRoot) : List SelectedAutomaticRoot :=
  Greedy.fillTo (bestCandidate candidates .mixed) limit
    (Greedy.fillTo (bestCandidate candidates .problemNeutral) (min ((limit + 1) / 2) limit) selected)

def selectAutomaticRoots (candidates : List RootSelectionCandidate) (maxSemanticRoots : Nat) :
    QueryContractResult (List SelectedAutomaticRoot) := do
  let candidates := sortBySource (eligible candidates)
  ensure ((candidates.map (·.source)).IsChain (· ≠ ·))
    (.invalidState "automatic root candidates must be unique by source")
  if maxSemanticRoots = 0 then return []
  return fillLanes candidates maxSemanticRoots (pinnedRoots candidates)

/-! ## The order of preference -/

instance {α : Type} (source : α → SemanticSourceIdentity) :
    Std.TransCmp fun a b => compareSources (source a) (source b) :=
  CanonicalSort.transCmp_on source

instance {α : Type} (source : α → SemanticSourceIdentity) :
    Std.TransCmp fun a b => compareSources (source b) (source a) :=
  @Std.TransCmp.opposite _ (fun a b => compareSources (source a) (source b)) _

instance : Std.TransCmp compareSelected := inferInstanceAs (Std.TransCmp (compareLex _ _))

instance : Std.TransCmp comparePinned := inferInstanceAs (Std.TransCmp (compareLex _ _))

/-- An entry is as good as another: higher priority, then higher relevance, then the least source. -/
def Preferred (item other : SelectedAutomaticRoot) : Prop :=
  other.selectionPriority < item.selectionPriority ∨
    other.selectionPriority = item.selectionPriority ∧
      (other.relevanceScore < item.relevanceScore ∨
        other.relevanceScore = item.relevanceScore ∧
          (compareSources item.source other.source).isLE = true)

theorem compareSelected_isLE {item other : SelectedAutomaticRoot} :
    (compareSelected other item).isLE = true ↔ Preferred item other := by
  unfold compareSelected compareLex Preferred
  rw [Ordering.isLE_then_iff_or, Ordering.isLE_then_iff_or]
  simp only [compareOn, compare_lt_iff_lt, compare_eq_iff_eq]

/-- The candidate with the highest problem score, the least source on ties. -/
structure Strongest (candidates : List RootSelectionCandidate) (best : RootSelectionCandidate) :
    Prop where
  mem : best ∈ candidates
  neutral : best.discoveredProblemNeutral = true
  strongest : ∀ other ∈ candidates, other.discoveredProblemNeutral = true →
    other.problemScore < best.problemScore ∨
      other.problemScore = best.problemScore ∧
        (compareSources best.source other.source).isLE = true

/-- The entry is the best one its lane admits after `selected`. -/
structure Best (candidates : List RootSelectionCandidate) (selected : List SelectedAutomaticRoot)
    (item : SelectedAutomaticRoot) : Prop where
  mem : ∃ candidate ∈ candidates, candidate.Admitted selected item.lane ∧
    item = candidate.select selected item.lane
  preferred : ∀ candidate ∈ candidates, candidate.Admitted selected item.lane →
    Preferred item (candidate.select selected item.lane)

section Rules

variable {candidates : List RootSelectionCandidate} {lane : AutomaticRootLane}
  {selected : List SelectedAutomaticRoot} {item : SelectedAutomaticRoot}

theorem pinned_eq_some {best : RootSelectionCandidate} (found : pinned candidates = some best) :
    Strongest candidates best := by
  obtain ⟨mem, above⟩ := List.maxBy_spec found
  rw [List.mem_filter] at mem
  refine ⟨mem.1, mem.2, fun other mem' neutral => ?_⟩
  have le := above other (List.mem_filter.2 ⟨mem', neutral⟩)
  unfold comparePinned compareLex at le
  rw [Ordering.isLE_then_iff_or] at le
  simpa only [compareOn, compare_lt_iff_lt, compare_eq_iff_eq] using le

theorem pinned_eq_none :
    pinned candidates = none ↔
      ∀ candidate ∈ candidates, ¬candidate.discoveredProblemNeutral = true := by
  unfold pinned
  rw [List.maxBy_eq_none_iff, List.filter_eq_nil_iff]

theorem bestCandidate_lane (found : bestCandidate candidates lane selected = some item) :
    item.lane = lane := by
  obtain ⟨mem, -⟩ := List.maxBy_spec found
  obtain ⟨candidate, -, rfl⟩ := List.mem_map.1 mem
  rfl

theorem bestCandidate_best (found : bestCandidate candidates lane selected = some item) :
    Best candidates selected item := by
  have lanes := bestCandidate_lane found
  obtain ⟨mem, above⟩ := List.maxBy_spec found
  simp only [List.mem_map, List.mem_filter, decide_eq_true_eq] at mem above
  obtain ⟨candidate, ⟨mem, admitted⟩, same⟩ := mem
  refine ⟨⟨candidate, mem, lanes ▸ admitted, lanes ▸ same.symm⟩, fun other mem admitted => ?_⟩
  rw [lanes] at admitted ⊢
  exact compareSelected_isLE.1 (above _ ⟨other, ⟨mem, admitted⟩, rfl⟩)

def pool (candidates : List RootSelectionCandidate) (lane : AutomaticRootLane) :
    Finset SemanticSourceIdentity :=
  ((candidates.filter fun candidate =>
    lane = .mixed ∨ candidate.discoveredProblemNeutral = true).map (·.source)).toFinset

theorem mem_pool {source : SemanticSourceIdentity} :
    source ∈ pool candidates lane ↔ ∃ candidate ∈ candidates,
      (lane = .mixed ∨ candidate.discoveredProblemNeutral = true) ∧ candidate.source = source := by
  simp only [pool, List.mem_toFinset, List.mem_map, List.mem_filter, decide_eq_true_eq, and_assoc]

theorem card_pool (distinct : (candidates.map (·.source)).Nodup) :
    (pool candidates lane).card = (candidates.filter fun candidate =>
      lane = .mixed ∨ candidate.discoveredProblemNeutral = true).length := by
  unfold pool
  rw [List.toFinset_card_of_nodup (distinct.sublist (List.filter_sublist.map _)), List.length_map]

theorem draws_bestCandidate :
    Greedy.Draws (·.source) (pool candidates lane) (bestCandidate candidates lane) := by
  refine ⟨fun selected item found => ?_, fun selected item found => ?_,
    fun selected none source mem => ?_⟩
  · obtain ⟨candidate, mem, admitted, same⟩ := (bestCandidate_best found).mem
    rw [bestCandidate_lane found] at admitted
    exact mem_pool.2 ⟨candidate, mem, admitted.2, by rw [same]; rfl⟩
  · obtain ⟨candidate, -, admitted, same⟩ := (bestCandidate_best found).mem
    intro mem
    obtain ⟨earlier, mem, source⟩ := List.mem_map.1 mem
    exact admitted.1 ⟨earlier, mem, by rw [source, same]; rfl⟩
  · obtain ⟨candidate, found, within, rfl⟩ := mem_pool.1 mem
    by_contra fresh
    have admitted : candidate.Admitted selected lane :=
      ⟨fun ⟨item, mem, same⟩ => fresh (List.mem_map.2 ⟨item, mem, same⟩), within⟩
    unfold bestCandidate at none
    rw [List.maxBy_eq_none_iff, List.map_eq_nil_iff, List.filter_eq_nil_iff] at none
    exact none candidate found (decide_eq_true admitted)

end Rules

/-! ## Quotas -/

/-- What a selection from eligible candidates must satisfy. -/
structure MeetsQuota (candidates : List RootSelectionCandidate) (limit : Nat)
    (selected : List SelectedAutomaticRoot) : Prop where
  distinct : (selected.map (·.source)).Nodup
  mem : ∀ item ∈ selected, ∃ candidate ∈ candidates, candidate.source = item.source
  length : selected.length = min limit candidates.length
  neutral : (selected.filter (·.lane = .problemNeutral)).length =
    min ((limit + 1) / 2) (candidates.filter (·.discoveredProblemNeutral)).length
  neutral_first : selected.Pairwise fun earlier later =>
    later.lane = .problemNeutral → earlier.lane = .problemNeutral
  pinned : 0 < limit → (∃ candidate ∈ candidates, candidate.discoveredProblemNeutral = true) →
    ∃ best rest, Strongest candidates best ∧ selected = best.pin :: rest
  greedy : ∀ before item after, selected = before ++ item :: after →
    (before ≠ [] ∨ ∀ candidate ∈ candidates, ¬candidate.discoveredProblemNeutral = true) →
      Best candidates before item

section Quota

variable {candidates candidates' : List RootSelectionCandidate} {limit : Nat}
  {selected : List SelectedAutomaticRoot}

/-- The requirements do not depend on the order of the candidates. -/
theorem MeetsQuota.of_perm (meets : MeetsQuota candidates limit selected)
    (perm : candidates.Perm candidates') : MeetsQuota candidates' limit selected := by
  refine ⟨meets.distinct, fun item mem => ?_, ?_, ?_, meets.neutral_first, fun pos some => ?_,
    fun before item after same first => ?_⟩
  · simpa only [perm.mem_iff] using meets.mem item mem
  · rw [meets.length, perm.length_eq]
  · rw [meets.neutral, (perm.filter _).length_eq]
  · obtain ⟨best, rest, strongest, same⟩ :=
      meets.pinned pos (by simpa only [perm.mem_iff] using some)
    exact ⟨best, rest, ⟨perm.mem_iff.1 strongest.mem, strongest.neutral,
      fun other mem => strongest.strongest other (perm.mem_iff.2 mem)⟩, same⟩
  · obtain ⟨mem, preferred⟩ :=
      meets.greedy before item after same (by simpa only [perm.mem_iff] using first)
    exact ⟨by simpa only [perm.mem_iff] using mem,
      fun candidate mem => preferred candidate (perm.mem_iff.2 mem)⟩

theorem drawn_pinnedRoots :
    Greedy.Drawn (·.source) (pool candidates .problemNeutral) (pinnedRoots candidates) := by
  unfold pinnedRoots
  cases found : pinned candidates with
  | none => exact ⟨List.nodup_nil, fun _ mem => nomatch mem⟩
  | some best =>
    have strongest := pinned_eq_some found
    refine ⟨List.nodup_singleton _, fun item mem => ?_⟩
    rw [Option.toList_some, List.map_singleton, List.mem_singleton] at mem
    exact mem ▸ mem_pool.2 ⟨best, strongest.mem, .inr strongest.neutral, rfl⟩

theorem pool_subset :
    pool candidates .problemNeutral ⊆ pool candidates .mixed := by
  intro source mem
  obtain ⟨candidate, mem, -, same⟩ := mem_pool.1 mem
  exact mem_pool.2 ⟨candidate, mem, .inl rfl, same⟩

/-- The selection in its parts: what each loop adds to the pinned root. -/
structure Lanes (candidates : List RootSelectionCandidate) (limit : Nat)
    (neutral mixed : List SelectedAutomaticRoot) : Prop where
  reserved : Greedy.fillTo (bestCandidate candidates .problemNeutral) (min ((limit + 1) / 2) limit)
    (pinnedRoots candidates) = pinnedRoots candidates ++ neutral
  filled : fillLanes candidates limit (pinnedRoots candidates) =
    pinnedRoots candidates ++ neutral ++ mixed
  neutral_lane : ∀ item ∈ neutral, item.lane = .problemNeutral
  mixed_lane : ∀ item ∈ mixed, item.lane = .mixed
  best : ∀ before item after, neutral ++ mixed = before ++ item :: after →
    Best candidates (pinnedRoots candidates ++ before) item

variable (candidates limit) in
theorem exists_lanes : ∃ neutral mixed, Lanes candidates limit neutral mixed := by
  obtain ⟨neutral, first, grown⟩ :=
    @Greedy.fill_eq _ (bestCandidate candidates .problemNeutral)
      (min ((limit + 1) / 2) limit - (pinnedRoots candidates).length) (pinnedRoots candidates)
  obtain ⟨mixed, second, grown'⟩ :=
    @Greedy.fill_eq _ (bestCandidate candidates .mixed)
      (limit - (pinnedRoots candidates ++ neutral).length) (pinnedRoots candidates ++ neutral)
  refine ⟨neutral, mixed, first, ?_, grown.forall fun _ _ => bestCandidate_lane,
    grown'.forall fun _ _ => bestCandidate_lane, fun before item after same => ?_⟩
  · unfold fillLanes Greedy.fillTo
    rw [first, second]
  · -- the entry was added by the first loop or by the second
    rcases List.append_eq_append_iff.1 same with ⟨more, rfl, rest⟩ | ⟨more, rfl, rest⟩
    · have found := grown' more item after rest
      rw [List.append_assoc] at found
      exact bestCandidate_best found
    · cases more with
      | nil =>
        rw [List.append_nil] at grown
        have found := grown' [] item after rest.symm
        rw [List.append_nil, List.append_nil] at found
        exact bestCandidate_best found
      | cons b more =>
        rw [List.cons_append, List.cons.injEq] at rest
        exact bestCandidate_best (grown before item more (by rw [rest.1]))

namespace Lanes

variable {neutral mixed : List SelectedAutomaticRoot} (lanes : Lanes candidates limit neutral mixed)

include lanes

theorem drawn :
    Greedy.Drawn (·.source) (pool candidates .mixed) (pinnedRoots candidates ++ neutral) :=
  lanes.reserved ▸ (draws_bestCandidate.fill drawn_pinnedRoots _).mono pool_subset

theorem drawn_all :
    Greedy.Drawn (·.source) (pool candidates .mixed)
      (pinnedRoots candidates ++ neutral ++ mixed) := by
  rw [← lanes.filled]
  unfold fillLanes
  rw [lanes.reserved]
  exact draws_bestCandidate.fill lanes.drawn _

theorem length_neutral (distinct : (candidates.map (·.source)).Nodup) (pos : 0 < limit) :
    (pinnedRoots candidates ++ neutral).length =
      min ((limit + 1) / 2) (candidates.filter (·.discoveredProblemNeutral)).length := by
  have short : (pinnedRoots candidates).length ≤ min ((limit + 1) / 2) limit := by
    unfold pinnedRoots
    cases pinned candidates with
    | none => simp
    | some best =>
      rw [Option.toList_some, List.map_singleton, List.length_singleton]
      omega
  rw [← lanes.reserved, draws_bestCandidate.length_fillTo drawn_pinnedRoots short,
    card_pool distinct]
  simp only [reduceCtorEq, false_or, Bool.decide_eq_true]
  omega

theorem length_all (distinct : (candidates.map (·.source)).Nodup) (pos : 0 < limit) :
    (pinnedRoots candidates ++ neutral ++ mixed).length = min limit candidates.length := by
  have short := lanes.length_neutral distinct pos
  rw [← lanes.filled]
  unfold fillLanes
  rw [lanes.reserved, draws_bestCandidate.length_fillTo lanes.drawn (by omega), card_pool distinct]
  simp

theorem pinned_lane : ∀ item ∈ pinnedRoots candidates ++ neutral, item.lane = .problemNeutral := by
  intro item mem
  rcases List.mem_append.1 mem with mem | mem
  · obtain ⟨candidate, -, rfl⟩ := List.mem_map.1 mem
    rfl
  · exact lanes.neutral_lane item mem

/-- Behind a pinned root, or if there is none, every entry is the best of its lane. -/
theorem greedy {before after : List SelectedAutomaticRoot} {item : SelectedAutomaticRoot}
    (split : pinnedRoots candidates ++ neutral ++ mixed = before ++ item :: after)
    (later : before ≠ [] ∨
      ∀ candidate ∈ candidates, ¬candidate.discoveredProblemNeutral = true) :
    Best candidates before item := by
  have best := lanes.best
  unfold pinnedRoots at split best
  rw [List.append_assoc] at split
  cases found : pinned candidates with
  | none =>
    rw [found] at split best
    exact best before item after split
  | some pin =>
    rw [found] at split best
    have strongest := pinned_eq_some found
    have nonempty : before ≠ [] :=
      later.resolve_right fun none => none pin strongest.mem strongest.neutral
    obtain ⟨b, before, rfl⟩ := List.exists_cons_of_ne_nil nonempty
    simp only [Option.toList_some, List.map_singleton, List.cons_append, List.nil_append,
      List.cons.injEq] at split
    rw [← split.1]
    exact best before item after split.2

end Lanes

theorem meetsQuota_fillLanes (distinct : (candidates.map (·.source)).Nodup) (pos : 0 < limit) :
    MeetsQuota candidates limit (fillLanes candidates limit (pinnedRoots candidates)) := by
  obtain ⟨neutral, mixed, lanes⟩ := exists_lanes candidates limit
  rw [lanes.filled]
  refine ⟨lanes.drawn_all.nodup, fun item mem => ?_, lanes.length_all distinct pos, ?_, ?_,
    fun _ some => ?_, fun before item after split later => lanes.greedy split later⟩
  · obtain ⟨candidate, mem, -, same⟩ := mem_pool.1 (lanes.drawn_all.mem item mem)
    exact ⟨candidate, mem, same⟩
  · rw [List.filter_append, List.filter_eq_self.2 (by simpa using lanes.pinned_lane),
      List.filter_eq_nil_iff.2 (fun item mem => by simp [lanes.mixed_lane item mem]),
      List.append_nil, lanes.length_neutral distinct pos]
  · refine List.pairwise_append.2
      ⟨List.pairwise_of_forall_mem_list fun a mem _ _ _ => lanes.pinned_lane a mem,
        List.pairwise_of_forall_mem_list fun _ _ b mem problem => ?_,
        fun a mem _ _ _ => lanes.pinned_lane a mem⟩
    rw [lanes.mixed_lane b mem] at problem
    cases problem
  · obtain ⟨candidate, mem, discovered⟩ := some
    cases found : pinned candidates with
    | none => exact absurd discovered (pinned_eq_none.1 found candidate mem)
    | some best =>
      refine ⟨best, neutral ++ mixed, pinned_eq_some found, ?_⟩
      rw [pinnedRoots, found, List.append_assoc]
      rfl

theorem meetsQuota_zero : MeetsQuota candidates 0 [] :=
  ⟨List.nodup_nil, fun _ mem => (nomatch mem), by simp, by simp, .nil, fun pos => (nomatch pos),
    fun before item after same => by simp at same⟩

/-- Candidates with distinct sources are sorted into one list, whatever their order. -/
theorem sortBySource_eq_of_perm (distinct : (candidates.map (·.source)).Nodup)
    (perm : candidates.Perm candidates') : sortBySource candidates = sortBySource candidates' := by
  refine CanonicalSort.insertionSort_eq_of_perm (fun a ha b hb ab ba => ?_) perm
  rw [ne_eq, ← Ordering.isLE_iff_ne_gt] at ab ba
  exact List.inj_on_of_nodup_map distinct ha hb
    (Std.LawfulEqCmp.eq_of_compare (Std.OrientedCmp.isLE_antisymm ab ba))

end Quota

/-- Root selection meets its quotas and does not depend on the order of the candidates. -/
theorem selectAutomaticRoots_meetsQuota (candidates : List RootSelectionCandidate)
    (maxSemanticRoots : Nat) (distinct : (candidates.map (·.source)).Nodup) :
    ∃ selected, selectAutomaticRoots candidates maxSemanticRoots = .ok selected ∧
      (∀ candidates', candidates.Perm candidates' →
        selectAutomaticRoots candidates' maxSemanticRoots = .ok selected) ∧
      MeetsQuota (candidates.filter fun candidate => baseEntryFloor ≤ candidate.problemScore)
        maxSemanticRoots selected := by
  have eligible_distinct : ((eligible candidates).map (·.source)).Nodup :=
    distinct.sublist (List.filter_sublist.map _)
  have perm : (sortBySource (eligible candidates)).Perm (eligible candidates) :=
    List.perm_insertionSort _ _
  have sorted_distinct : ((sortBySource (eligible candidates)).map (·.source)).Nodup :=
    (perm.map _).nodup_iff.2 eligible_distinct
  have invariant : ∀ candidates', candidates.Perm candidates' →
      selectAutomaticRoots candidates' maxSemanticRoots =
        selectAutomaticRoots candidates maxSemanticRoots := by
    intro candidates' perm
    unfold selectAutomaticRoots
    rw [sortBySource_eq_of_perm eligible_distinct (perm.filter _)]
    rfl
  have passes := ensure_of (List.Pairwise.isChain sorted_distinct)
    (SemanticGraphQueryError.invalidState "automatic root candidates must be unique by source")
  rcases Nat.eq_zero_or_pos maxSemanticRoots with rfl | pos
  · have run : selectAutomaticRoots candidates 0 = .ok [] := by
      simp only [selectAutomaticRoots, passes, ok_bind, ite_true]
      rfl
    exact ⟨[], run, fun candidates' perm => (invariant candidates' perm).trans run,
      meetsQuota_zero⟩
  · have run : selectAutomaticRoots candidates maxSemanticRoots =
        .ok (fillLanes (sortBySource (eligible candidates)) maxSemanticRoots
          (pinnedRoots (sortBySource (eligible candidates)))) := by
      simp only [selectAutomaticRoots, passes, ok_bind, if_neg pos.ne']
      rfl
    exact ⟨_, run, fun candidates' perm => (invariant candidates' perm).trans run,
      (meetsQuota_fillLanes sorted_distinct pos).of_perm perm⟩

/-- Three candidates: two found by the problem, and a third one that is more relevant. -/
def sampleCandidates : List RootSelectionCandidate :=
  [candidate 3 ⟨610000, by decide⟩ ⟨910000, by decide⟩ false,
    candidate 2 ⟨800000, by decide⟩ ⟨800000, by decide⟩ true,
    candidate 1 ⟨890000, by decide⟩ ⟨710000, by decide⟩ true]
where
  candidate (id : Uuid) (problem mixed : Score) (neutral : Bool) : RootSelectionCandidate :=
    ⟨⟨1, .projectView .work, id⟩, problem, mixed, neutral, []⟩

theorem selectAutomaticRoots_meetsQuota_sampleCandidates :
    ∃ selected, selectAutomaticRoots sampleCandidates 3 = .ok selected ∧
      (∀ candidates', sampleCandidates.Perm candidates' →
        selectAutomaticRoots candidates' 3 = .ok selected) ∧
      MeetsQuota (sampleCandidates.filter fun candidate => baseEntryFloor ≤ candidate.problemScore)
        3 selected :=
  selectAutomaticRoots_meetsQuota sampleCandidates 3 (by decide)

end Semantic

end Carryforth
