import Carryforth.ProjectView.V3.Transition

/-!
# Project View v3: the dry run

A client asks for the Document coordinates of a command (`documentTargetDelta`) before it submits
it.  The dry run checks a candidate with borrowed metadata, for its relations and Context only; the
reduction stamps the real entry and validates the whole state again.  `reduce_dryRun` says that the
two agree: once the coordinates are proved, the second validation never refuses.
-/

namespace Carryforth

namespace ProjectView

open Fallible

/-! ## Relation slots -/

/-- A relation patch that may not clear its slot keeps it filled. -/
theorem applyRequiredRelation_ne_none {α : Type} {patch : Patch α} {current next : Option α}
    {relation : String} (applied : patch.applyRequiredRelation current relation = .ok next)
    (filled : current ≠ none) : next ≠ none := by
  cases patch with
  | unchanged => exact Except.ok.inj applied ▸ filled
  | clear => cases applied
  | set value => exact Except.ok.inj applied ▸ Option.some_ne_none value

theorem patchObject_dataType {object updated : ProjectViewObjectV3} {update : UpdateProjectObjectV3}
    (applied : patchObject object update = .ok updated) :
    updated.data.objectType = object.data.objectType := by
  unfold patchObject at applied
  split at applied
  case h_10 => cases applied
  all_goals
    rename_i data
    rw [data]
    simp only [bind_eq_ok, pure_eq_ok] at applied
  case h_5 | h_8 => obtain ⟨_, _, _, _, rfl⟩ := applied; rfl
  case h_9 => obtain ⟨_, _, _, _, _, _, rfl⟩ := applied; rfl
  all_goals obtain ⟨_, _, rfl⟩ := applied; rfl

/-- A patch changes only slots of its own type and keeps the required ones filled. -/
theorem patchObject_shape {object updated : ProjectViewObjectV3} {update : UpdateProjectObjectV3}
    (applied : patchObject object update = .ok updated) (type : object.objectType = update.objectType)
    (shape : validateRelationShape object.objectType object.relations = .ok ()) :
    validateRelationShape updated.objectType updated.relations = .ok () := by
  rw [validateRelationShape_eq_ok] at shape ⊢
  unfold patchObject at applied
  split at applied <;>
    simp only [bind_eq_ok, within_eq_ok, pure_eq_ok, reduceCtorEq] at applied
  case h_1 | h_2 | h_3 =>
    obtain ⟨_, _, rfl⟩ := applied
    exact shape
  case h_4 =>
    obtain ⟨_, _, rfl⟩ := applied
    have plan : object.objectType = .plan := type
    simp only [plan] at shape ⊢
    simpa using shape
  case h_5 =>
    obtain ⟨_, _, _, related, rfl⟩ := applied
    have stage : object.objectType = .stage := type
    have before := shape.2.2.2.2.2.1 stage
    have filled := applyRequiredRelation_ne_none related before
    simp only [stage] at shape ⊢
    simpa [before, filled] using shape
  case h_6 =>
    obtain ⟨_, _, rfl⟩ := applied
    have requirement : object.objectType = .requirement := type
    simp only [requirement] at shape ⊢
    simpa using shape
  case h_7 =>
    obtain ⟨_, _, rfl⟩ := applied
    have issue : object.objectType = .issue := type
    simp only [issue] at shape ⊢
    simpa using shape
  case h_8 =>
    obtain ⟨_, _, _, related, rfl⟩ := applied
    have work : object.objectType = .work := type
    have before := shape.2.2.2.2.2.2 work
    have filled := applyRequiredRelation_ne_none related before
    simp only [work] at shape ⊢
    simpa [before, filled] using shape
  case h_9 =>
    obtain ⟨_, _, _, _, _, _, rfl⟩ := applied
    exact shape

/-- The relations find the same targets when nothing changes but an identifier none points to. -/
theorem validateRelationTargets_of_pointing {resolve resolve' : Uuid → Option Target} {target : Uuid}
    {relations : ProjectViewRelations} (away : relations.pointing target = none)
    (same : ∀ id, id ≠ target → resolve' id = resolve id) (id : Uuid) :
    validateRelationTargets resolve' id relations = validateRelationTargets resolve id relations := by
  have typed : ∀ {relation : String} {k : Uuid} {expected : ProjectViewObjectType}, k ≠ target →
      validateTypedTarget resolve' relation k expected =
        validateTypedTarget resolve relation k expected := by
    intro relation k expected other
    rw [validateTypedTarget, validateTypedTarget, activeTarget, activeTarget, same k other]
  have other : ∀ {o : Option Uuid}, ¬o = some target → ∀ k, o = some k → k ≠ target :=
    fun away k there same => away (same ▸ there)
  have otherRef : ∀ {o : Option ObjectRef},
      ¬o.any (fun reference => reference.objectId = target) = true →
        ∀ k, o = some k → k.objectId ≠ target := by
    rintro _ away k rfl same
    exact away (decide_eq_true same)
  unfold ProjectViewRelations.pointing at away
  split_ifs at away with goal plan stage about handles
  unfold validateRelationTargets validateDeclaredTarget
  rw [checkSome_congr fun k there => typed (other goal k there),
    checkSome_congr fun k there => typed (other plan k there),
    checkSome_congr fun k there => typed (other stage k there),
    checkSome_congr (o := relations.about) fun k there => by rw [typed (otherRef about k there)],
    checkSome_congr (o := relations.handles) fun k there => by
      rw [typed (otherRef handles k there)]]

namespace ProjectViewStateV3

/-- The Document coordinates a command needs proofs of, without changing the state. -/
def documentTargetDelta [UrlParser] (s : ProjectViewStateV3) (command : ProjectObjectCommandV3)
    (capabilities : V3ReducerCapabilities) : V3Result DocumentTargetDelta := do
  let (_, delta) ← s.prepareNextEntry command capabilities
  return delta

variable [UrlParser] {s : ProjectViewStateV3} {command : ProjectObjectCommandV3}
  {actor : PublicKey} {now stateUpdatedAt : DateTime} {capabilities : V3ReducerCapabilities}
  {proof : ReferenceTargetProof} {e : ProjectViewEntryV3} {levels : OrdMap Uuid RoleLevel}

/-! ## Written states -/

/-- An entry that passed at an earlier revision and time passes later. -/
theorem validateEntry_mono {s' : ProjectViewStateV3} {keyed : Uuid × ProjectViewEntryV3}
    {later : DateTime} (project : s'.projectId = s.projectId)
    (revision : s.projectRevision ≤ s'.projectRevision) (time : stateUpdatedAt ≤ later)
    (accepted : s.validateEntry stateUpdatedAt keyed = .ok ()) :
    s'.validateEntry later keyed = .ok () := by
  obtain ⟨key, entry⟩ := keyed
  cases entry with
  | active object =>
    simp only [validateEntry, validateActive, then_eq_ok, ensure_eq_ok, project] at accepted ⊢
    obtain ⟨same, checked, written, updated, identity⟩ := accepted
    exact ⟨same, checked, written.trans revision, updated.trans time, identity⟩
  | tombstone t =>
    simp only [validateEntry, validateTombstone, then_eq_ok, ensure_eq_ok, project] at accepted ⊢
    obtain ⟨same, object, written, lifecycle, type, identity⟩ := accepted
    refine ⟨same, object, written, ?_, type, identity⟩
    push Not at lifecycle ⊢
    obtain ⟨positive, positive', past, ordered, deleted⟩ := lifecycle
    exact ⟨positive, positive', past.trans revision, ordered, deleted.trans time⟩

/-- Writing an entry that passes its own checks keeps a state valid, when the Profile stays, the
Role levels are those of the Roles, and every target is found. -/
theorem ValidAt.written (validAt : s.ValidAt stateUpdatedAt) (later : stateUpdatedAt ≤ now)
    (room : s.projectRevision < maxSafeRevision)
    (entry : (s.written e levels now).validateEntry now (e.id, e) = .ok ())
    (profile : e.id = s.projectId → e.isProfile = true)
    (levelled : ∀ id : Uuid, levels.contains id = true ↔
      ∃ e', (s.entries.insert e.id e)[id]? = some e' ∧ e'.objectType = .role)
    (targets : (s.written e levels now).validateRelationTargetsAndContext = .ok ()) :
    (s.written e levels now).ValidAt now := by
  refine ⟨room, Nat.succ_ne_zero _, rfl, fun t same => (validAt.ordered t same).trans later, ?_, ?_,
    levelled, targets⟩
  · intro id old found
    rw [ProjectViewStateV3.written, OrdMap.get_insert] at found
    split_ifs at found with same
    · cases found
      exact same ▸ entry
    · exact validateEntry_mono (s := s) rfl (Nat.le_succ _) later (validAt.entry id old found)
  · rw [ProjectViewStateV3.written, OrdMap.get_insert]
    split_ifs with same
    · exact ⟨e, rfl, profile same.symm⟩
    · exact validAt.profile

/-! ## Targets of a written state -/

omit [UrlParser] in
/-- A stamped object finds the targets its candidate found: only identifier, type, relations and
Context matter. -/
theorem targets_of_candidate {object stamped : ProjectViewObjectV3}
    (accepted : (s.candidate object).validateRelationTargetsAndContext = .ok ())
    (id : stamped.id = object.id) (type : stamped.objectType = object.objectType)
    (relations : stamped.relations = object.relations)
    (context : stamped.contextReferences = object.contextReferences) :
    (s.written (.active stamped) levels now).validateRelationTargetsAndContext = .ok () := by
  have resolve : (s.written (.active stamped) levels now).resolve = (s.candidate object).resolve := by
    funext k
    simp only [ProjectViewStateV3.resolve, ProjectViewStateV3.written, candidate,
      ProjectViewEntryV3.id, id, OrdMap.get_insert]
    split_ifs with same
    · simp only [Option.map_some, type]
    · rfl
  rw [validateRelationTargetsAndContext_eq_ok] at accepted ⊢
  intro k there found
  simp only [ProjectViewStateV3.written, ProjectViewEntryV3.id, OrdMap.get_insert, id] at found
  split_ifs at found with same
  · cases found
    obtain ⟨related, source, resources⟩ := accepted object.id object
      (by rw [candidate, OrdMap.get_insert, if_pos rfl])
    exact ⟨by rw [resolve, id, relations]; exact related, by rw [type, context]; exact source,
      by rw [resolve, context]; exact resources⟩
  · obtain ⟨related, source, resources⟩ := accepted k there
      (by rwa [candidate, OrdMap.get_insert_of_ne same])
    exact ⟨by rw [resolve]; exact related, source, by rw [resolve]; exact resources⟩

omit [UrlParser] in
/-- An object that may be deleted is no target of an active object. -/
theorem requireUnreferenced_eq_ok {current : ProjectViewObjectV3} :
    s.requireUnreferenced current = .ok () ↔
      (∀ object ∈ s.activeObjects, object.relations.pointing current.id = none) ∧
      (current.objectType = .resource →
        ∀ object ∈ s.activeObjects, .resource current.id ∉ object.contextReferences) := by
  have structural : s.firstIncomingStructuralRelation current.id = none ↔
      ∀ object ∈ s.activeObjects, object.relations.pointing current.id = none := by
    rw [firstIncomingStructuralRelation, firstIncomingRelation, List.findSome?_eq_none_iff,
      List.forall_mem_map]
  have contextual : s.firstIncomingResourceContext current.id = none ↔
      ∀ object ∈ s.activeObjects, .resource current.id ∉ object.contextReferences := by
    rw [firstIncomingResourceContext, List.findSome?_eq_none_iff]
    refine forall₂_congr fun object _ => ?_
    split_ifs with there <;> simp [there]
  rw [← structural, ← contextual, requireUnreferenced]
  cases s.firstIncomingStructuralRelation current.id with
  | some relation => simp
  | none =>
    by_cases resource : current.objectType = .resource
    · cases s.firstIncomingResourceContext current.id <;> simp [resource, pure, Except.pure]
    · simp [resource, pure, Except.pure]

omit [UrlParser] in
/-- Burying an object that nothing refers to leaves every other target in place. -/
theorem targets_of_buried {current : ProjectViewObjectV3} {t : ProjectViewTombstoneV3}
    (accepted : s.validateRelationTargetsAndContext = .ok ())
    (found : s.entries[current.id]? = some (.active current)) (id : t.id = current.id)
    (unreferenced : s.requireUnreferenced current = .ok ()) :
    (s.written (.tombstone t) levels now).validateRelationTargetsAndContext = .ok () := by
  have elsewhere : ∀ k, k ≠ current.id →
      (s.written (.tombstone t) levels now).resolve k = s.resolve k := by
    intro k other
    rw [ProjectViewStateV3.resolve, ProjectViewStateV3.written, ProjectViewEntryV3.id, id,
      OrdMap.get_insert_of_ne other]
    rfl
  obtain ⟨structural, contextual⟩ := requireUnreferenced_eq_ok.1 unreferenced
  rw [validateRelationTargetsAndContext_eq_ok] at accepted ⊢
  intro k there after
  simp only [ProjectViewStateV3.written, ProjectViewEntryV3.id, OrdMap.get_insert, id] at after
  split_ifs at after with same
  · cases after
  · obtain ⟨related, source, resources⟩ := accepted k there after
    have active : there ∈ s.activeObjects := mem_activeObjects.2 ⟨k, after⟩
    refine ⟨?_, source, fun resourceId mem => ?_⟩
    · rw [validateRelationTargets_of_pointing (structural there active) elsewhere]
      exact related
    · rw [elsewhere resourceId ?_]
      · exact resources resourceId mem
      -- a reference to the buried object would make it a Resource that is still referred to
      · rintro rfl
        have resource := resources _ mem
        rw [ProjectViewStateV3.resolve, found, Option.map_some, Option.some.injEq,
          Target.active.injEq] at resource
        exact contextual resource there active mem

/-! ## Prepared changes are accepted -/

theorem submission_create {object : NewProjectViewObjectV3} {id : Uuid}
    {data : ProjectViewObjectDataV3} {relations : ProjectViewRelations}
    {context : List ProjectContextReference}
    (parts : object.intoParts = (id, data, relations, context))
    (input : object.validateForSubmission = .ok ()) :
    id.isV4 = true ∧ validateObjectData data = .ok () ∧
      validateRelationShape data.objectType relations = .ok () ∧
      requireCanonicalContext context = .ok () := by
  simp only [NewProjectViewObjectV3.validateForSubmission, parts, then_eq_ok, within_eq_ok,
    validateClientGeneratedId, ensure_eq_ok] at input
  exact ⟨input.1, input.2.1, input.2.2.1, input.2.2.2.1⟩

omit [UrlParser] in
theorem eq_of_validateContextReplacement {current replacement canonical : List ProjectContextReference}
    {enabled : Bool} (required : requireCanonicalContext replacement = .ok ())
    (replaced : validateContextReplacement current replacement enabled = .ok canonical) :
    canonical = replacement := by
  simp only [requireCanonicalContext, bind_eq_ok, ensure_eq_ok] at required
  obtain ⟨_, sorted, rfl⟩ := required
  simp only [validateContextReplacement, sorted, bind_eq_ok, within_eq_ok, Except.ok.injEq,
    exists_eq_left'] at replaced
  split_ifs at replaced
  · exact ((pure_eq_ok _ _).1 replaced).symm
  · simp only [bind_eq_ok, pure_eq_ok] at replaced
    obtain ⟨_, _, _, _, same⟩ := replaced
    exact same.symm

theorem ValidAt.levels_of_created (validAt : s.ValidAt stateUpdatedAt) {level : RoleLevel}
    (fresh : s.entries[e.id]? = none) (id : Uuid) :
    (if e.objectType = .role then s.roleLevels.insert e.id level else s.roleLevels).contains id =
        true ↔
      ∃ e', (s.entries.insert e.id e)[id]? = some e' ∧ e'.objectType = .role := by
  rw [OrdMap.get_insert]
  by_cases role : e.objectType = .role
  · rw [if_pos role, OrdMap.contains_iff, OrdMap.get_insert]
    by_cases same : id = e.id
    · simp [role, same]
    · rw [if_neg same, if_neg same, ← OrdMap.contains_iff, validAt.levels]
  · rw [if_neg role, validAt.levels]
    by_cases same : id = e.id
    · simp [role, same, fresh]
    · rw [if_neg same]

/-- The levels of the Roles do not change when an entry is rewritten with its type. -/
theorem ValidAt.levels_of_rewritten (validAt : s.ValidAt stateUpdatedAt) {k : Uuid}
    {o : ProjectViewEntryV3} (same : e.id = k) (found : s.entries[k]? = some o)
    (type : e.objectType = o.objectType) (id : Uuid) :
    s.roleLevels.contains id = true ↔
      ∃ e', (s.entries.insert e.id e)[id]? = some e' ∧ e'.objectType = .role := by
  rw [validAt.levels, OrdMap.get_insert, same]
  split_ifs with here
  · rw [here]
    simp only [found, Option.some.injEq, exists_eq_left', type]
  · rfl

/-- The object under the Community's own identifier is the Profile. -/
theorem ValidAt.objectType_of_projectId (validAt : s.ValidAt stateUpdatedAt)
    {object : ProjectViewObjectV3} (found : s.entries[object.id]? = some (.active object))
    (same : object.id = s.projectId) : object.objectType = .projectProfile := by
  obtain ⟨profile, there, isProfile⟩ := validAt.profile
  rw [← same, found, Option.some.injEq] at there
  subst there
  exact of_decide_eq_true isProfile

theorem ValidAt.exists_created (validAt : s.ValidAt stateUpdatedAt) (later : stateUpdatedAt ≤ now)
    (room : s.projectRevision < maxSafeRevision) {object : NewProjectViewObjectV3}
    (request : command.request = .create object) (input : object.validateForSubmission = .ok ())
    {prepared : PreparedEntryV3} {delta : DocumentTargetDelta}
    (preparation : s.prepareCreate object capabilities = .ok (prepared, delta)) :
    ∃ changed levels,
      s.stamp command prepared (s.projectRevision + 1) actor now = .ok (changed, levels) ∧
      (s.written changed levels now).ValidAt now := by
  obtain ⟨id, data, relations, context, parts⟩ : ∃ id data relations context,
      object.intoParts = (id, data, relations, context) := ⟨_, _, _, _, rfl⟩
  obtain ⟨v4, body, shape, required⟩ := submission_create parts input
  obtain ⟨reserved, fresh, canonical, replaced, source, rfl, -, checked⟩ :=
    (prepareCreate_eq_ok parts).1 preparation
  cases eq_of_validateContextReplacement required replaced
  have isRole := createdRoleLevel_of_role request
  rw [parts] at isRole
  have notProfile : data.objectType ≠ .projectProfile := by
    have body := congrArg (fun parts => parts.2.1.objectType) parts
    dsimp only at body
    rw [← body]
    cases object <;> exact fun same => nomatch same
  refine ⟨_, _, (stamp_create_eq_ok isRole).2 ⟨rfl, rfl⟩, validAt.written later room ?_ ?_ ?_ ?_⟩
  · have identity : validateClientObjectId s.projectId id = .ok () :=
      then_eq_ok.2 ⟨ensure_eq_ok.2 reserved, ensure_eq_ok.2 v4⟩
    have revision : 1 ≤ maxSafeRevision := by decide
    simp only [validateEntry, validateActive, ProjectViewObjectV3.validate, ProjectViewEntryV3.id,
      ObjectHead.created, ProjectViewStateV3.written, then_eq_ok, ensure_eq_ok, within_eq_ok,
      if_neg notProfile, identity, body, shape, required]
    simp [revision, Nat.succ_le_iff.2 room]
  · exact fun same => absurd same reserved
  · exact validAt.levels_of_created (e := .active {
      ObjectHead.created id data.objectType (s.projectRevision + 1) actor now with
      data, relations, contextReferences := context }) fresh
  · simp only [validateCandidate, bind_eq_ok] at checked
    obtain ⟨exemplar, -, accepted⟩ := checked
    exact targets_of_candidate accepted rfl rfl rfl rfl

theorem canonical_nextContext {current context : List ProjectContextReference}
    {update : UpdateProjectObjectV3} (input : update.validateForSubmission = .ok ())
    (before : requireCanonicalContext current = .ok ())
    (next : nextContext current update capabilities = .ok context) :
    requireCanonicalContext context = .ok () := by
  simp only [UpdateProjectObjectV3.validateForSubmission, then_eq_ok, checkSome_eq_ok,
    within_eq_ok] at input
  unfold nextContext at next
  cases replaced : update.contextReferences with
  | none =>
    rw [replaced] at next
    exact (pure_eq_ok _ _).1 next ▸ before
  | some replacement =>
    rw [replaced] at next
    have required := (input.2.1 replacement replaced).1
    exact eq_of_validateContextReplacement required (within_eq_ok.1 next) ▸ required

theorem ValidAt.exists_updated (validAt : s.ValidAt stateUpdatedAt) (later : stateUpdatedAt ≤ now)
    (room : s.projectRevision < maxSafeRevision) {update : UpdateProjectObjectV3}
    (input : update.validateForSubmission = .ok ())
    (revisable : ∀ e, s.entries[update.objectId]? = some e → e.objectRevision < maxSafeRevision)
    {prepared : PreparedEntryV3} {delta : DocumentTargetDelta}
    (preparation : s.prepareUpdate update capabilities = .ok (prepared, delta)) :
    ∃ changed levels,
      s.stamp command prepared (s.projectRevision + 1) actor now = .ok (changed, levels) ∧
      (s.written changed levels now).ValidAt now := by
  obtain ⟨current, patched, context, found, type, applied, body, next, source, -, rfl, -, checked⟩ :=
    prepareUpdate_eq_ok.1 preparation
  have head := patchObject_kept applied
  have under : current.id = update.objectId := validAt.keyed _ _ found
  have accepted := validAt.entry _ _ found
  simp only [validateEntry, validateActive, ProjectViewObjectV3.validate, then_eq_ok, ensure_eq_ok,
    within_eq_ok] at accepted
  obtain ⟨-, ⟨declared, positive, -, created, -, shape, canonical⟩, past, updated, identity⟩ :=
    accepted
  have room' : current.objectRevision < maxSafeRevision := revisable _ found
  have id : patched.id = current.id := congrArg ObjectHead.id head
  have type' : patched.objectType = current.objectType := congrArg ObjectHead.objectType head
  rw [← under] at found
  refine ⟨_, _, stamp_update_eq_ok.2 ⟨by rw [head]; exact room', rfl, rfl⟩,
    validAt.written later room ?_ ?_ ?_ ?_⟩
  · have shape' := patchObject_shape applied type shape
    have canonical' := canonical_nextContext input canonical next
    have dataType := patchObject_dataType applied
    rw [head, declared] at shape'
    simp only [validateEntry, validateActive, ProjectViewObjectV3.validate, ProjectViewEntryV3.id,
      ObjectHead.updated, ProjectViewStateV3.written, then_eq_ok, ensure_eq_ok, within_eq_ok,
      head, body, shape', canonical', dataType, declared, le_refl, true_and, and_true]
    refine ⟨⟨⟨Nat.succ_ne_zero _, Nat.succ_ne_zero _⟩, ⟨room', room⟩,
      created.trans (updated.trans later)⟩, ?_⟩
    rw [← declared]
    exact identity
  · intro same
    exact decide_eq_true (type'.trans (validAt.objectType_of_projectId found (id.symm.trans same)))
  · exact validAt.levels_of_rewritten id found type'
  · simp only [validateCandidate, bind_eq_ok] at checked
    obtain ⟨exemplar, -, accepted⟩ := checked
    exact targets_of_candidate accepted rfl rfl rfl rfl

theorem ValidAt.exists_deleted (validAt : s.ValidAt stateUpdatedAt) (later : stateUpdatedAt ≤ now)
    (room : s.projectRevision < maxSafeRevision) {delete : DeleteProjectObjectV3}
    (revisable : ∀ e, s.entries[delete.objectId]? = some e → e.objectRevision < maxSafeRevision)
    {prepared : PreparedEntryV3} {delta : DocumentTargetDelta}
    (preparation : s.prepareDelete delete = .ok (prepared, delta)) :
    ∃ changed levels,
      s.stamp command prepared (s.projectRevision + 1) actor now = .ok (changed, levels) ∧
      (s.written changed levels now).ValidAt now := by
  obtain ⟨current, found, type, notProfile, -, unreferenced, rfl, -⟩ :=
    prepareDelete_eq_ok.1 preparation
  have under : current.id = delete.objectId := validAt.keyed _ _ found
  have accepted := validAt.entry _ _ found
  rw [← under] at found
  simp only [validateEntry, validateActive, ProjectViewObjectV3.validate, then_eq_ok, ensure_eq_ok,
    within_eq_ok, if_neg notProfile] at accepted
  obtain ⟨-, ⟨-, positive, -, created, -⟩, past, updated, identity⟩ := accepted
  have room' := revisable _ (under ▸ found)
  refine ⟨_, _, stamp_delete_eq_ok.2 ⟨room', rfl, rfl⟩, validAt.written later room ?_ ?_ ?_ ?_⟩
  · simp only [validateEntry, validateTombstone, then_eq_ok, ensure_eq_ok, within_eq_ok,
      validateRevision_eq_ok]
    refine ⟨trivial, room', room, ?_, notProfile, identity⟩
    push Not
    exact ⟨Nat.succ_ne_zero _, Nat.succ_ne_zero _, le_refl _,
      created.trans (updated.trans later), le_refl _⟩
  · exact fun same => absurd (validAt.objectType_of_projectId found same) notProfile
  · exact validAt.levels_of_rewritten rfl found rfl
  · exact targets_of_buried validAt.targets found rfl unreferenced

end ProjectViewStateV3

def ProjectObjectRequestV3.objectId : ProjectObjectRequestV3 → Uuid
  | .create object => object.intoParts.1
  | .update changes => changes.objectId
  | .delete target => target.objectId

namespace ProjectViewStateV3

section DryRun

variable [UrlParser] {s : ProjectViewStateV3} {command : ProjectObjectCommandV3}
  {actor : PublicKey} {now stateUpdatedAt : DateTime} {capabilities : V3ReducerCapabilities}
  {proof : ReferenceTargetProof}

/-- Every prepared change leads to a valid state. -/
theorem ValidAt.exists_written (validAt : s.ValidAt stateUpdatedAt) (later : stateUpdatedAt ≤ now)
    (room : s.projectRevision < maxSafeRevision)
    (submission : command.validateForSubmission = .ok ())
    (revisable : ∀ e, s.entries[command.request.objectId]? = some e →
      e.objectRevision < maxSafeRevision) {prepared : PreparedEntryV3} {delta : DocumentTargetDelta}
    (preparation : s.prepareNextEntry command capabilities = .ok (prepared, delta)) :
    ∃ changed levels,
      s.stamp command prepared (s.projectRevision + 1) actor now = .ok (changed, levels) ∧
      (s.written changed levels now).ValidAt now := by
  have input := command.request_of_submission submission
  unfold prepareNextEntry at preparation
  cases request : command.request with
  | create object =>
    rw [request] at preparation input
    exact validAt.exists_created later room request input preparation
  | update update =>
    rw [request] at preparation input revisable
    exact validAt.exists_updated later room input revisable preparation
  | delete delete =>
    rw [request] at preparation revisable
    exact validAt.exists_deleted later room revisable preparation

/-- The dry run agrees with the reduction.  On a valid initialized state, for a command that passes
its submission check against the current revision, with room for one more revision and a clock that
does not run backwards: when the dry run returns coordinates and these are proved, the reduction
succeeds and reports the same coordinates; when the dry run fails, the reduction fails likewise. -/
theorem reduce_dryRun (initialized : s.isInitialized = true) (valid : s.validate = .ok ())
    (submission : command.validateForSubmission = .ok ())
    (current : command.expectedProjectRevision = s.projectRevision)
    (later : ∀ t, s.updatedAt = some t → t ≤ now) (room : s.projectRevision < maxSafeRevision)
    (revisable : ∀ e, s.entries[command.request.objectId]? = some e →
      e.objectRevision < maxSafeRevision) :
    (∀ delta, s.documentTargetDelta command capabilities = .ok delta →
      validateDocumentTargetDelta delta capabilities.documentCapabilityAvailable proof = .ok () →
      ∃ next outcome, s.reduce command actor now capabilities proof = .ok (next, outcome) ∧
        outcome.documentTargetDelta = delta) ∧
    ∀ failure, s.documentTargetDelta command capabilities = .error failure →
      s.reduce command actor now capabilities proof = .error failure := by
  obtain ⟨stateUpdatedAt, validAt⟩ := (validate_eq_ok initialized).1 valid
  constructor
  · intro delta dryRun proved
    simp only [documentTargetDelta, bind_eq_ok, pure_eq_ok, Prod.exists] at dryRun
    obtain ⟨prepared, _, preparation, rfl⟩ := dryRun
    obtain ⟨changed, levels, stamped, validNext⟩ := validAt.exists_written
      (later _ validAt.updatedAt) room submission revisable preparation
    refine ⟨_, _, reduce_eq_ok.2 ⟨valid, submission, initialized, current, prepared, _, changed,
      levels, preparation, proved, room, stamped, rfl, ?_, rfl⟩, rfl⟩
    exact (validate_eq_ok (s := s.written changed levels now) initialized).2 ⟨now, validNext⟩
  · intro failure dryRun
    have preparation : s.prepareNextEntry command capabilities = .error failure := by
      unfold documentTargetDelta at dryRun
      cases prepared : s.prepareNextEntry command capabilities with
      | error _ =>
        rw [prepared, error_bind] at dryRun
        exact congrArg Except.error (Except.error.inj dryRun)
      | ok _ =>
        rw [prepared] at dryRun
        cases dryRun
    unfold reduce
    rw [valid, ok_bind, submission, ok_bind, ensure_of initialized, ok_bind, ensure_of current,
      ok_bind, preparation, error_bind]

end DryRun

/-- A command that creates a Resource with a Guide Document. -/
def sampleResourceCreation : ProjectObjectCommandV3 :=
  .new 1 none (.create (.resource 0x00000000000040008000000000000003 "r" "repo" none
    0x00000000000040008000000000000004 []))

/-- The Guide Document of `sampleResourceCreation` is active. -/
def sampleProof : ReferenceTargetProof :=
  { documents := (∅ : OrdMap DocumentCoordinate DocumentTargetState).insert
      (.live 0x00000000000040008000000000000004) (.currentActive 1) }

theorem reduce_dryRun_sampleResourceCreation :
    ∃ delta next outcome,
      @documentTargetDelta noUrls sample sampleResourceCreation ⟨true, true⟩ = .ok delta ∧
      @reduce noUrls sample sampleResourceCreation 2 5 ⟨true, true⟩ sampleProof =
        .ok (next, outcome) ∧
      outcome.documentTargetDelta = delta := by
  let _ := noUrls
  have valid : sample.validate = .ok () := by decide +kernel
  have submission : sampleResourceCreation.validateForSubmission = .ok () := by decide +kernel
  have asked : yields (sample.documentTargetDelta sampleResourceCreation ⟨true, true⟩)
      (fun delta => validateDocumentTargetDelta delta true sampleProof = .ok ()) = true := by
    decide +kernel
  have fresh : sample.entries[sampleResourceCreation.request.objectId]? = none := by
    decide +kernel
  obtain ⟨delta, dryRun, proved⟩ := yields_iff.1 asked
  have later : ∀ t, sample.updatedAt = some t → t ≤ 5 := by
    intro t there
    cases there
    decide
  have agreed : ∃ next outcome, sample.reduce sampleResourceCreation 2 5 ⟨true, true⟩ sampleProof =
      .ok (next, outcome) ∧ outcome.documentTargetDelta = delta :=
    (reduce_dryRun rfl valid submission rfl later (by decide)
      (fun e found => nomatch fresh.symm.trans found)).1 delta dryRun (of_decide_eq_true proved)
  obtain ⟨next, outcome, run, same⟩ := agreed
  exact ⟨delta, next, outcome, dryRun, run, same⟩

end ProjectViewStateV3

end ProjectView

end Carryforth
