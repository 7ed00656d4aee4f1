import Carryforth.Lib.CanonicalSort
import Carryforth.ProjectView.V3.DryRun

/-!
# Project View v3: Document authority

An object refers to Documents through its Context and, if it is a Resource, through its Guide.
`reduce_authority` says that a reduction introduces such a reference only with a proof of its target
and with the capability for it, and that every Context set of the state it leads to is canonical.
-/

namespace Carryforth

namespace ProjectView

open Fallible

/-! ## Canonical Context sets -/

namespace ProjectContextReference

instance : Std.TransCmp canonicalCmp :=
  inferInstanceAs (Std.TransCmp (compareLex (compareOn fun r : ProjectContextReference =>
    r.contextKey.1) (compareLex (compareOn fun r => r.contextKey.2.1)
      (compareLex (compareOn fun r => r.contextKey.2.2.1) (compareOn fun r => r.contextKey.2.2.2)))))

theorem shape_of_validate {documentId : Uuid} {mode : DocumentReferenceMode} {revision : Option Nat}
    (valid : (document documentId mode revision).validate = .ok ()) :
    (mode = .live ∧ revision = none) ∨ (mode = .pinned ∧ ∃ n, revision = some n) := by
  simp only [validate, then_eq_ok] at valid
  cases mode <;> cases revision <;> simp_all

theorem eq_of_canonicalCmp {a b : ProjectContextReference} (valid : a.validate = .ok ())
    (valid' : b.validate = .ok ()) (same : a.canonicalCmp b = .eq) : a = b := by
  simp only [canonicalCmp, Ordering.then_eq_eq, Std.compare_eq_iff_eq] at same
  obtain ⟨family, id, mode, revision⟩ := same
  cases a with
  | resource resourceId =>
    cases b with
    | resource resourceId' => exact congrArg resource id
    | document documentId' mode' => cases mode' <;> cases family
  | document documentId mode₁ revision₁ =>
    cases b with
    | resource resourceId' => cases mode₁ <;> cases family
    | document documentId' mode₂ revision₂ =>
      obtain ⟨rfl, rfl⟩ | ⟨rfl, n, rfl⟩ := shape_of_validate valid <;>
        obtain ⟨rfl, rfl⟩ | ⟨rfl, m, rfl⟩ := shape_of_validate valid'
      · exact congrArg (document · .live none) id
      · cases mode
      · cases mode
      · cases id
        cases revision
        rfl

end ProjectContextReference

/-- A canonical Context set: strictly sorted, and so without repetition, and bounded. -/
structure CanonicalContext (references : List ProjectContextReference) : Prop where
  sorted : references.Pairwise fun a b => a.canonicalCmp b = .lt
  nodup : references.Nodup
  bounded : references.length ≤ maxContextReferences

theorem canonicalContext_of_required {references : List ProjectContextReference}
    (required : requireCanonicalContext references = .ok ()) : CanonicalContext references := by
  simp only [requireCanonicalContext, canonicalizeContextReferences, bind_eq_ok, exists_unit,
    ensure_eq_ok, forM_eq_ok, pure_eq_ok, ← CanonicalSort.isChain_ne_iff_zip] at required
  obtain ⟨_, ⟨bounded, valid, distinct, rfl⟩, same⟩ := required
  have separates : CanonicalSort.Separates (fun a b => a.canonicalCmp b ≠ .gt) references := by
    intro a ha b hb ab ba
    rw [ne_eq, ← Ordering.isLE_iff_ne_gt] at ab ba
    exact ProjectContextReference.eq_of_canonicalCmp (valid a ha) (valid b hb)
      (Std.OrientedCmp.isLE_antisymm ab ba)
  have nodup := (CanonicalSort.isChain_ne_insertionSort separates).1 distinct
  have ordered : references.Pairwise fun a b => a.canonicalCmp b ≠ .gt := by
    rw [← same]
    exact List.pairwise_insertionSort _ _
  refine ⟨?_, nodup, bounded⟩
  refine (ordered.and nodup).imp_of_mem fun {a b} ha hb ⟨le, different⟩ => ?_
  cases order : a.canonicalCmp b with
  | lt => rfl
  | eq =>
    exact absurd (ProjectContextReference.eq_of_canonicalCmp (valid a ha) (valid b hb) order)
      different
  | gt => exact absurd order le

/-! ## Proved coordinates -/

namespace DocumentCoordinate

theorem rank_injective : Function.Injective DocumentReferenceMode.rank := by
  intro a b same
  cases a <;> cases b <;> first | rfl | cases same

instance : Std.LawfulEqOrd DocumentCoordinate where
  eq_of_compare {a b} same := by
    obtain ⟨id, rest⟩ := compareLex_eq_eq.1 same
    obtain ⟨mode, revision⟩ := compareLex_eq_eq.1 rest
    have id : a.documentId = b.documentId := Std.LawfulEqCmp.eq_of_compare id
    have mode : a.mode = b.mode := rank_injective (Std.LawfulEqCmp.eq_of_compare mode)
    have revision : a.documentRevision = b.documentRevision :=
      Std.LawfulEqCmp.eq_of_compare revision
    cases a
    cases b
    simp_all

end DocumentCoordinate

/-- The lookups show an active target: the current Document, or content at the pinned revision. -/
def ReferenceTargetProof.Proves (proof : ReferenceTargetProof) (c : DocumentCoordinate) : Prop :=
  match c.mode with
  | .live => ∃ revision, proof.documents[c]? = some (.currentActive revision) ∧ 1 ≤ revision
  | .pinned => proof.documents[c]? = some .activeContentRevision

theorem ReferenceTargetProof.proves_of_validateRequired {proof : ReferenceTargetProof}
    {required : OrdSet DocumentCoordinate} (accepted : proof.validateRequired required = .ok ())
    {c : DocumentCoordinate} (mem : c ∈ required) : proof.Proves c := by
  rw [validateRequired, forM_eq_ok] at accepted
  have checked := accepted c (Std.ExtTreeSet.mem_toList.2 mem)
  simp only [bind_eq_ok, exists_unit, okOr_eq_ok] at checked
  obtain ⟨-, state, found, active⟩ := checked
  unfold Proves
  cases mode : c.mode with
  | live =>
    rw [mode] at active
    cases state with
    | currentActive revision =>
      cases revision with
      | zero => cases active
      | succ revision => exact ⟨revision + 1, found, Nat.le_add_left 1 revision⟩
    | _ => cases active
  | pinned =>
    rw [mode] at active
    cases state with
    | activeContentRevision => exact found
    | _ => cases active

theorem mem_requiredCoordinates {delta : DocumentTargetDelta} {c : DocumentCoordinate} :
    c ∈ delta.requiredCoordinates ↔ c ∈ delta.contextDocuments ∨ delta.guideDocument = some c := by
  unfold DocumentTargetDelta.requiredCoordinates
  cases delta.guideDocument with
  | none => simp
  | some guide =>
    rw [Std.ExtTreeSet.mem_insert, Std.compare_eq_iff_eq, Option.some.injEq, or_comm]

theorem proves_of_validateDocumentTargetDelta {delta : DocumentTargetDelta} {available : Bool}
    {proof : ReferenceTargetProof}
    (accepted : validateDocumentTargetDelta delta available proof = .ok ()) {c : DocumentCoordinate}
    (mem : c ∈ delta.requiredCoordinates) : available = true ∧ proof.Proves c := by
  unfold validateDocumentTargetDelta at accepted
  split_ifs at accepted with empty
  · rw [DocumentTargetDelta.isEmpty, Bool.and_eq_true, Option.isNone_iff_eq_none] at empty
    rcases mem_requiredCoordinates.1 mem with mem | guide
    · rw [Std.ExtTreeSet.isEmpty_iff.1 empty.1] at mem
      exact absurd mem Std.ExtTreeSet.not_mem_empty
    · cases empty.2.symm.trans guide
  · obtain ⟨capable, required⟩ := then_eq_ok.1 accepted
    exact ⟨ensure_eq_ok.1 capable, ReferenceTargetProof.proves_of_validateRequired required mem⟩

/-! ## Introduced coordinates -/

def contextDocuments (references : List ProjectContextReference) : List DocumentCoordinate :=
  references.filterMap DocumentCoordinate.fromContext

section Introduced

variable {current next : List ProjectContextReference} {guide guide' : Option Uuid}

theorem mem_introduced_context {c : DocumentCoordinate} (mem : c ∈ contextDocuments next)
    (new : c ∉ contextDocuments current) :
    c ∈ (introducedDocumentTargets current next guide guide').requiredCoordinates := by
  refine mem_requiredCoordinates.2 (.inl ?_)
  rw [introducedDocumentTargets, Std.ExtTreeSet.mem_ofList, List.contains_iff_mem, List.mem_filter]
  exact ⟨mem, decide_eq_true new⟩

theorem mem_introduced_guide {documentId : Uuid} (is : guide' = some documentId)
    (new : guide ≠ some documentId) :
    DocumentCoordinate.live documentId ∈
      (introducedDocumentTargets current next guide guide').requiredCoordinates := by
  refine mem_requiredCoordinates.2 (.inr ?_)
  simp [introducedDocumentTargets, is, Option.filter, Ne.symm new]

end Introduced

theorem subset_of_validateContextReplacement {current replacement next : List ProjectContextReference}
    (replaced : validateContextReplacement current replacement false = .ok next) :
    next ⊆ current := by
  simp only [validateContextReplacement, Bool.false_eq_true, if_false, bind_eq_ok, within_eq_ok,
    exists_unit, ensure_eq_ok, pure_eq_ok, List.all_eq_true, decide_eq_true_eq] at replaced
  obtain ⟨_, -, canonical, sorted, subset, rfl⟩ := replaced
  simp only [canonicalizeContextReferences, bind_eq_ok, exists_unit, pure_eq_ok] at sorted
  obtain ⟨-, -, -, rfl⟩ := sorted
  exact fun reference mem => (List.mem_insertionSort _).1 (subset reference mem)

/-! ## Reductions -/

/-- The Context set of an entry; a tombstone has none. -/
def ProjectViewEntryV3.contextReferences : ProjectViewEntryV3 → List ProjectContextReference
  | .active object => object.contextReferences
  | .tombstone _ => []

def ProjectViewEntryV3.guideDocument : ProjectViewEntryV3 → Option DocumentCoordinate
  | .active object => (guideDocumentId object.data).map .live
  | .tombstone _ => none

namespace ProjectViewStateV3

/-- The Context set under an identifier; empty if nothing is there. -/
def contextReferencesOf (s : ProjectViewStateV3) (id : Uuid) : List ProjectContextReference :=
  (s.entries[id]?.map ProjectViewEntryV3.contextReferences).getD []

def guideDocumentOf (s : ProjectViewStateV3) (id : Uuid) : Option DocumentCoordinate :=
  s.entries[id]?.bind ProjectViewEntryV3.guideDocument

section Reduction

variable [UrlParser] {s next : ProjectViewStateV3} {command : ProjectObjectCommandV3}
  {actor : PublicKey} {now : DateTime} {capabilities : V3ReducerCapabilities}
  {proof : ReferenceTargetProof} {outcome : ProjectObjectOutcomeV3}

/-- What the changed entry of a reduction may newly refer to. -/
structure Introduces (s : ProjectViewStateV3) (capabilities : V3ReducerCapabilities)
    (proof : ReferenceTargetProof) (e : ProjectViewEntryV3) : Prop where
  context : ∀ c ∈ contextDocuments e.contextReferences,
    c ∉ contextDocuments (s.contextReferencesOf e.id) →
      capabilities.documentCapabilityAvailable = true ∧ proof.Proves c
  guide : ∀ c, e.guideDocument = some c → s.guideDocumentOf e.id ≠ some c →
    capabilities.documentCapabilityAvailable = true ∧ proof.Proves c
  disabled : capabilities.projectContextEnabled = false →
    e.contextReferences ⊆ s.contextReferencesOf e.id

omit [UrlParser] in
/-- An object whose delta against the entry before it was accepted. -/
theorem introduces_active {object : ProjectViewObjectV3} {guide : Option Uuid}
    (before : s.guideDocumentOf object.id = guide.map .live)
    (accepted : validateDocumentTargetDelta (introducedDocumentTargets
      (s.contextReferencesOf object.id) object.contextReferences guide
      (guideDocumentId object.data)) capabilities.documentCapabilityAvailable proof = .ok ())
    (disabled : capabilities.projectContextEnabled = false →
      object.contextReferences ⊆ s.contextReferencesOf object.id) :
    s.Introduces capabilities proof (.active object) := by
  refine ⟨fun c mem new => ?_, fun c is new => ?_, disabled⟩
  · exact proves_of_validateDocumentTargetDelta accepted (mem_introduced_context mem new)
  · obtain ⟨documentId, next, rfl⟩ := Option.map_eq_some_iff.1 is
    refine proves_of_validateDocumentTargetDelta accepted (mem_introduced_guide next ?_)
    rintro rfl
    exact new before

theorem introduces_of_stamp (keyed : s.entries.Keyed ProjectViewEntryV3.id)
    {prepared : PreparedEntryV3} {delta : DocumentTargetDelta} {changed : ProjectViewEntryV3}
    {levels : OrdMap Uuid RoleLevel} {revision : Nat}
    (preparation : s.prepareNextEntry command capabilities = .ok (prepared, delta))
    (stamped : s.stamp command prepared revision actor now = .ok (changed, levels))
    (accepted : validateDocumentTargetDelta delta capabilities.documentCapabilityAvailable proof =
      .ok ()) : s.Introduces capabilities proof changed := by
  unfold prepareNextEntry at preparation
  cases request : command.request with
  | create object =>
    rw [request] at preparation
    obtain ⟨id, data, relations, context, parts⟩ : ∃ id data relations context,
        object.intoParts = (id, data, relations, context) := ⟨_, _, _, _, rfl⟩
    obtain ⟨-, fresh, canonical, replaced, -, rfl, rfl, -⟩ :=
      (prepareCreate_eq_ok parts).1 preparation
    have isRole := createdRoleLevel_of_role request
    rw [parts] at isRole
    obtain ⟨rfl, -⟩ := (stamp_create_eq_ok isRole).1 stamped
    have before : s.contextReferencesOf id = [] := by
      rw [contextReferencesOf, fresh]
      rfl
    have guide : s.guideDocumentOf id = (none : Option Uuid).map .live := by
      rw [guideDocumentOf, fresh]
      rfl
    refine introduces_active guide ?_ fun disabled => ?_
    · rw [← before] at accepted
      exact accepted
    · rw [disabled] at replaced
      exact before.symm ▸ subset_of_validateContextReplacement replaced
  | update update =>
    rw [request] at preparation
    obtain ⟨current, patched, context, found, -, applied, -, next, -, -, rfl, rfl, -⟩ :=
      prepareUpdate_eq_ok.1 preparation
    obtain ⟨-, rfl, -⟩ := stamp_update_eq_ok.1 stamped
    have id : patched.id = update.objectId := by
      rw [patchObject_kept applied]
      exact keyed _ _ found
    have before : s.contextReferencesOf patched.id = current.contextReferences := by
      rw [contextReferencesOf, id, found]
      rfl
    have guide : s.guideDocumentOf patched.id = (guideDocumentId current.data).map .live := by
      rw [guideDocumentOf, id, found]
      rfl
    refine introduces_active guide ?_ fun disabled => ?_
    · rw [← before] at accepted
      exact accepted
    · unfold nextContext at next
      cases replaced : update.contextReferences with
      | none =>
        rw [replaced] at next
        have kept : current.contextReferences = context := (pure_eq_ok _ _).1 next
        exact before.symm ▸ kept ▸ List.Subset.refl _
      | some replacement =>
        rw [replaced, disabled] at next
        exact before.symm ▸ subset_of_validateContextReplacement (within_eq_ok.1 next)
  | delete delete =>
    rw [request] at preparation
    obtain ⟨current, -, -, -, -, -, rfl, -⟩ := prepareDelete_eq_ok.1 preparation
    obtain ⟨-, rfl, -⟩ := stamp_delete_eq_ok.1 stamped
    exact ⟨fun c mem => (nomatch mem), fun c is => (nomatch is), fun _ _ mem => (nomatch mem)⟩

/-- No Document reference enters a v3 state unproved.  The one entry a successful reduction changes
refers to no new Document, in its Context or as its Guide, that the given lookups do not show to be
active, and then the Document capability is available; without the Context capability it refers to
nothing new at all.  Every Context set of the next state is strictly sorted and bounded, and no
Resource refers to a Resource. -/
theorem reduce_authority
    (run : s.reduce command actor now capabilities proof = .ok (next, outcome)) :
    (∃ e, outcome.changedEntries = [e] ∧ next.entries[e.id]? = some e ∧
      s.Introduces capabilities proof e) ∧
      ∀ (id : Uuid) object, next.entries[id]? = some (.active object) →
        CanonicalContext object.contextReferences ∧
        (object.objectType = .resource → ∀ reference ∈ object.contextReferences,
          reference.isResource = false) := by
  obtain ⟨valid, -, initialized, -, prepared, delta, changed, levels, preparation, proved, -,
    stamped, rfl, validNext, rfl⟩ := reduce_eq_ok.1 run
  obtain ⟨_, validAt⟩ := (validate_eq_ok initialized).1 valid
  obtain ⟨_, validAtNext⟩ :=
    (validate_eq_ok (s := s.written changed levels now) initialized).1 validNext
  have there : (s.written changed levels now).entries[changed.id]? = some changed := by
    rw [ProjectViewStateV3.written, OrdMap.get_insert, if_pos rfl]
  refine ⟨⟨changed, rfl, there, introduces_of_stamp validAt.keyed preparation stamped proved⟩, ?_⟩
  intro id object found
  have accepted := validAtNext.entry id _ found
  simp only [validateEntry, validateActive, ProjectViewObjectV3.validate, then_eq_ok,
    within_eq_ok] at accepted
  obtain ⟨-, ⟨-, -, -, -, -, -, canonical⟩, -⟩ := accepted
  have targets := validateRelationTargetsAndContext_eq_ok.1 validAtNext.targets id object found
  refine ⟨canonicalContext_of_required canonical, fun resource reference mem => ?_⟩
  have source := ensure_eq_ok.1 targets.source
  rw [Bool.eq_false_iff]
  exact fun isResource => source ⟨resource, List.any_eq_true.2 ⟨reference, mem, isResource⟩⟩

end Reduction

theorem reduce_authority_sampleResourceCreation :
    ∃ next outcome e,
      @reduce noUrls sample sampleResourceCreation 2 5 ⟨true, true⟩ sampleProof =
        .ok (next, outcome) ∧
      outcome.changedEntries = [e] ∧ e.guideDocument ≠ none ∧
      sample.Introduces ⟨true, true⟩ sampleProof e := by
  let _ := noUrls
  have accepted : yields (sample.reduce sampleResourceCreation 2 5 ⟨true, true⟩ sampleProof)
      (fun (_, outcome) => outcome.changedEntries.all (·.guideDocument ≠ none)) = true := by
    decide +kernel
  obtain ⟨⟨next, outcome⟩, run, guided⟩ := yields_iff.1 accepted
  obtain ⟨⟨e, changed, -, introduces⟩, -⟩ := reduce_authority run
  refine ⟨next, outcome, e, run, changed, ?_, introduces⟩
  exact of_decide_eq_true (List.all_eq_true.1 guided e (changed ▸ List.mem_singleton_self e))

end ProjectViewStateV3

end ProjectView

end Carryforth
