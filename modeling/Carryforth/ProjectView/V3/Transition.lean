import Carryforth.ProjectView.V3.History

/-!
# Project View v3: transitions read backwards

When a command is prepared, what its candidate is (`prepareCreate_eq_ok`, `prepareUpdate_eq_ok`,
`prepareDelete_eq_ok`), which entry it is stamped into, and when a whole reduction succeeds
(`reduce_eq_ok`).
-/

namespace Carryforth

namespace ProjectView

open Fallible

theorem ProjectObjectCommandV3.request_of_submission [UrlParser] {command : ProjectObjectCommandV3}
    (submission : command.validateForSubmission = .ok ()) :
    command.request.validateForSubmission = .ok () := by
  simp only [validateForSubmission, then_eq_ok] at submission
  exact submission.2.2.2.2.2.2

namespace ProjectViewStateV3

variable {s next : ProjectViewStateV3} {actor : PublicKey} {now : DateTime}

/-- The state after `e` and the Role levels were written at the next project revision. -/
def written (s : ProjectViewStateV3) (e : ProjectViewEntryV3) (levels : OrdMap Uuid RoleLevel)
    (now : DateTime) : ProjectViewStateV3 :=
  { s with
    projectRevision := s.projectRevision + 1
    updatedAt := some now
    entries := s.entries.insert e.id e
    roleLevels := levels }

/-! ## Targets -/

/-- The relations and Context References of an object find what they need in `s`. -/
structure TargetsFound (s : ProjectViewStateV3) (object : ProjectViewObjectV3) : Prop where
  relations : validateRelationTargets s.resolve object.id object.relations = .ok ()
  source : validateContextSource object.objectType object.contextReferences = .ok ()
  resources : ∀ resourceId, .resource resourceId ∈ object.contextReferences →
    s.resolve resourceId = some (.active .resource)

theorem validateRelationTargetsAndContext_eq_ok :
    s.validateRelationTargetsAndContext = .ok () ↔
      ∀ (id : Uuid) object, s.entries[id]? = some (.active object) → s.TargetsFound object := by
  rw [validateRelationTargetsAndContext, forM_eq_ok]
  simp only [mem_activeObjects, then_eq_ok, within_eq_ok, forM_eq_ok]
  constructor
  · intro accepted id object found
    obtain ⟨relations, source, resources⟩ := accepted object ⟨id, found⟩
    exact ⟨relations, source, fun resourceId mem => ensure_eq_ok.1 (resources _ mem)⟩
  · rintro accepted object ⟨id, found⟩
    obtain ⟨relations, source, resources⟩ := accepted id object found
    refine ⟨relations, source, fun reference mem => ?_⟩
    cases reference with
    | resource resourceId => exact ensure_eq_ok.2 (resources resourceId mem)
    | document => rfl

/-! ## Preparation -/

section Prepare

variable {capabilities : V3ReducerCapabilities} {prepared : PreparedEntryV3}
  {delta : DocumentTargetDelta}

theorem prepareCreate_eq_ok {object : NewProjectViewObjectV3} {id : Uuid}
    {data : ProjectViewObjectDataV3} {relations : ProjectViewRelations}
    {context : List ProjectContextReference}
    (parts : object.intoParts = (id, data, relations, context)) :
    s.prepareCreate object capabilities = .ok (prepared, delta) ↔
      id ≠ s.projectId ∧ s.entries[id]? = none ∧
      ∃ canonical,
        validateContextReplacement [] context capabilities.projectContextEnabled = .ok canonical ∧
        validateContextSource data.objectType canonical = .ok () ∧
        prepared = .create id data relations canonical ∧
        delta = introducedDocumentTargets [] canonical none (guideDocumentId data) ∧
        s.validateCandidate prepared = .ok () := by
  simp only [prepareCreate, parts, bind_eq_ok, exists_unit, ensure_eq_ok, within_eq_ok, pure_eq_ok,
    Prod.mk.injEq, OrdMap.not_contains_iff]
  refine and_congr_right fun _ => and_congr_right fun _ => exists_congr fun canonical =>
    and_congr_right fun _ => and_congr_right fun _ => ?_
  constructor
  · rintro ⟨candidate, rfl, rfl⟩
    exact ⟨rfl, rfl, candidate⟩
  · rintro ⟨rfl, rfl, candidate⟩
    exact ⟨candidate, rfl, rfl⟩

theorem prepareUpdate_eq_ok [UrlParser] {update : UpdateProjectObjectV3} :
    s.prepareUpdate update capabilities = .ok (prepared, delta) ↔
      ∃ current patched context,
        s.entries[update.objectId]? = some (.active current) ∧
        current.objectType = update.objectType ∧
        patchObject current update = .ok patched ∧ validateObjectData patched.data = .ok () ∧
        nextContext current.contextReferences update capabilities = .ok context ∧
        validateContextSource patched.objectType context = .ok () ∧
        ¬(patched.data = current.data ∧ patched.relations = current.relations ∧
          context = current.contextReferences) ∧
        prepared = .update { patched with contextReferences := context } ∧
        delta = introducedDocumentTargets current.contextReferences context
          (guideDocumentId current.data) (guideDocumentId patched.data) ∧
        s.validateCandidate prepared = .ok () := by
  simp only [prepareUpdate, bind_eq_ok, exists_unit, ensure_eq_ok, within_eq_ok, pure_eq_ok,
    Prod.mk.injEq, activeObject_eq_ok, applyUpdate_eq_ok]
  constructor
  · rintro ⟨current, found, type, patched, ⟨applied, checked⟩, context, replaced, source, changed,
      candidate, rfl, rfl⟩
    exact ⟨current, patched, context, found, type, applied, checked, replaced, source, changed, rfl,
      rfl, candidate⟩
  · rintro ⟨current, patched, context, found, type, applied, checked, replaced, source, changed,
      rfl, rfl, candidate⟩
    exact ⟨current, found, type, patched, ⟨applied, checked⟩, context, replaced, source, changed,
      candidate, rfl, rfl⟩

theorem prepareDelete_eq_ok {delete : DeleteProjectObjectV3} :
    s.prepareDelete delete = .ok (prepared, delta) ↔
      ∃ current, s.entries[delete.objectId]? = some (.active current) ∧
        current.objectType = delete.objectType ∧ current.objectType ≠ .projectProfile ∧
        ¬(current.objectType = .goal ∧
          (s.activeObjects.filter fun object => object.objectType = .goal).length = 1) ∧
        s.requireUnreferenced current = .ok () ∧ prepared = .delete current ∧ delta = {} := by
  simp only [prepareDelete, bind_eq_ok, exists_unit, ensure_eq_ok, within_eq_ok, pure_eq_ok,
    Prod.mk.injEq, activeObject_eq_ok, eq_comm (b := prepared), eq_comm (b := delta)]

end Prepare

/-! ## Stamps -/

section Stamp

variable {command : ProjectObjectCommandV3} {revision : Nat} {changed : ProjectViewEntryV3}
  {levels : OrdMap Uuid RoleLevel}

theorem stamp_create_eq_ok {id : Uuid} {data : ProjectViewObjectDataV3} {level : RoleLevel}
    {relations : ProjectViewRelations} {context : List ProjectContextReference}
    (role : data.objectType = .role → command.createdRoleLevel = some level) :
    s.stamp command (.create id data relations context) revision actor now = .ok (changed, levels) ↔
      changed = .active { ObjectHead.created id data.objectType revision actor now with
        data, relations, contextReferences := context } ∧
      levels = if data.objectType = .role then s.roleLevels.insert id level
        else s.roleLevels := by
  unfold stamp
  by_cases isRole : data.objectType = .role
  · rw [if_pos isRole]
    refine (Eq.congr_left (if_pos isRole)).trans ?_
    rw [role isRole, okOr_some, ok_bind, pure_eq_ok, Prod.mk.injEq, eq_comm, eq_comm (a := levels)]
    rfl
  · rw [if_neg isRole]
    refine (Eq.congr_left (if_neg isRole)).trans ?_
    rw [pure_eq_ok, Prod.mk.injEq, eq_comm, eq_comm (a := levels)]

theorem stamp_update_eq_ok {object : ProjectViewObjectV3} :
    s.stamp command (.update object) revision actor now = .ok (changed, levels) ↔
      object.objectRevision < maxSafeRevision ∧
      changed = .active { object with
        toObjectHead := object.toObjectHead.updated (object.objectRevision + 1) revision actor
          now } ∧
      levels = s.roleLevels := by
  simp only [stamp, bind_eq_ok, within_eq_ok, nextRevision_eq_ok, pure_eq_ok, Prod.mk.injEq]
  constructor
  · rintro ⟨_, ⟨room, rfl⟩, rfl, rfl⟩
    exact ⟨room, rfl, rfl⟩
  · rintro ⟨room, rfl, rfl⟩
    exact ⟨_, ⟨room, rfl⟩, rfl, rfl⟩

theorem stamp_delete_eq_ok {object : ProjectViewObjectV3} :
    s.stamp command (.delete object) revision actor now = .ok (changed, levels) ↔
      object.objectRevision < maxSafeRevision ∧
      changed = .tombstone (object.toObjectHead.buried (object.objectRevision + 1) revision actor
        now) ∧
      levels = s.roleLevels := by
  simp only [stamp, bind_eq_ok, within_eq_ok, nextRevision_eq_ok, pure_eq_ok, Prod.mk.injEq]
  constructor
  · rintro ⟨_, ⟨room, rfl⟩, rfl, rfl⟩
    exact ⟨room, rfl, rfl⟩
  · rintro ⟨room, rfl, rfl⟩
    exact ⟨_, ⟨room, rfl⟩, rfl, rfl⟩

end Stamp

theorem createdRoleLevel_of_role {command : ProjectObjectCommandV3}
    {object : NewProjectViewObjectV3} (request : command.request = .create object)
    (role : object.intoParts.2.1.objectType = .role) :
    command.createdRoleLevel = some (command.initialRoleLevel.getD .member) := by
  have creates : command.createsRole = true := by
    rw [ProjectObjectCommandV3.createsRole, request]
    cases object <;> first | rfl | cases role
  exact if_pos creates

/-! ## Reductions -/

theorem reduce_eq_ok [UrlParser] {command : ProjectObjectCommandV3}
    {capabilities : V3ReducerCapabilities} {proof : ReferenceTargetProof}
    {outcome : ProjectObjectOutcomeV3} :
    s.reduce command actor now capabilities proof = .ok (next, outcome) ↔
      s.validate = .ok () ∧ command.validateForSubmission = .ok () ∧ s.isInitialized = true ∧
      command.expectedProjectRevision = s.projectRevision ∧
      ∃ prepared delta changed levels,
        s.prepareNextEntry command capabilities = .ok (prepared, delta) ∧
        validateDocumentTargetDelta delta capabilities.documentCapabilityAvailable proof = .ok () ∧
        s.projectRevision < maxSafeRevision ∧
        s.stamp command prepared (s.projectRevision + 1) actor now = .ok (changed, levels) ∧
        next = s.written changed levels now ∧ next.validate = .ok () ∧
        outcome = {
          projectRevision := s.projectRevision + 1
          changedEntries := [changed]
          documentTargetDelta := delta } := by
  simp only [reduce, bind_eq_ok, exists_unit, ensure_eq_ok, within_eq_ok, nextRevision_eq_ok,
    pure_eq_ok, Prod.exists, Prod.mk.injEq]
  refine and_congr_right fun _ => and_congr_right fun _ => and_congr_right fun _ =>
    and_congr_right fun _ => ?_
  constructor
  · rintro ⟨prepared, delta, preparation, proved, _, ⟨room, rfl⟩, changed, levels, stamped, checked,
      rfl, rfl⟩
    exact ⟨prepared, delta, changed, levels, preparation, proved, room, stamped, rfl, checked, rfl⟩
  · rintro ⟨prepared, delta, changed, levels, preparation, proved, room, stamped, rfl, checked, rfl⟩
    exact ⟨prepared, delta, preparation, proved, _, ⟨room, rfl⟩, changed, levels, stamped, checked,
      rfl, rfl⟩

end ProjectViewStateV3

end ProjectView

end Carryforth
