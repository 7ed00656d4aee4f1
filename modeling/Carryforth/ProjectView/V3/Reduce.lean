import Carryforth.ProjectView.V3.State

/-!
# Project View v3: reduction

`prepareNextEntry` computes the candidate of a command and the Document coordinates it introduces,
without touching the state; `reduce` checks the proof, stamps the candidate and validates the state
that results.
-/

namespace Carryforth

namespace ProjectView

open Fallible

/-- Write a typed v3 patch into an object of the same type. -/
def patchObject (object : ProjectViewObjectV3) (update : UpdateProjectObjectV3) :
    V3Result ProjectViewObjectV3 :=
  match update, object.data with
  | .projectProfile _ patch, .projectProfile profile => do
    let profile ← legacy (patch.fields.apply profile)
    let summary := patch.summary.applyOptional profile.summary
    return { object with data := .projectProfile { profile with summary } }
  | .goal _ patch, .goal goal => do
    let goal ← legacy (patch.fields.apply goal)
    let summary := patch.summary.applyOptional goal.summary
    return { object with data := .goal { goal with summary } }
  | .role _ patch, .role role => do
    let role ← legacy (patch.fields.apply role)
    let summary := patch.summary.applyOptional role.summary
    return { object with data := .role { role with summary } }
  | .plan _ patch, .plan plan => do
    let plan ← legacy (patch.fields.apply plan)
    let summary := patch.summary.applyOptional plan.summary
    let underGoalId := patch.fields.underGoalId.applyOptional object.relations.underGoalId
    return { object with
      data := .plan { plan with summary }
      relations := { object.relations with underGoalId } }
  | .stage _ patch, .stage stage => do
    let stage ← legacy (patch.fields.apply stage)
    let summary := patch.summary.applyOptional stage.summary
    let underPlanId ← legacy (patch.fields.underPlanId.applyRequiredRelation
      object.relations.underPlanId "under_plan_id")
    return { object with
      data := .stage { stage with summary }
      relations := { object.relations with underPlanId } }
  | .requirement _ patch, .requirement requirement => do
    let requirement ← legacy (patch.fields.apply requirement)
    let summary := patch.summary.applyOptional requirement.summary
    let plannedInStageId :=
      patch.fields.plannedInStageId.applyOptional object.relations.plannedInStageId
    return { object with
      data := .requirement { requirement with summary }
      relations := { object.relations with plannedInStageId } }
  | .issue _ patch, .issue issue => do
    let issue ← legacy (patch.fields.apply issue)
    let summary := patch.summary.applyOptional issue.summary
    let plannedInStageId :=
      patch.fields.plannedInStageId.applyOptional object.relations.plannedInStageId
    let about := patch.fields.about.applyOptional object.relations.about
    return { object with
      data := .issue { issue with summary }
      relations := { object.relations with plannedInStageId, about } }
  | .work _ patch, .work work => do
    let work ← legacy (patch.fields.apply work)
    let summary := patch.summary.applyOptional work.summary
    let handles ← legacy (patch.fields.handles.applyRequiredRelation
      object.relations.handles "handles")
    return { object with
      data := .work { work with summary }
      relations := { object.relations with handles } }
  | .resource _ patch, .resource resource => do
    let name ← legacy (patch.fields.name.applyRequired resource.name "name")
    let resourceKind ←
      legacy (patch.fields.resourceKind.applyRequired resource.resourceKind "resource_kind")
    let summary := patch.summary.applyOptional resource.summary
    let guideDocumentId ← legacy (patch.fields.guideDocumentId.applyRequired
      resource.guideDocumentId "guide_document_id")
    return { object with data := .resource { name, resourceKind, summary, guideDocumentId } }
  | _, _ => .error (.object (.dataTypeMismatch object.objectType object.data.objectType))

/-- Write a typed v3 patch and check the body that results. -/
def applyUpdate [UrlParser] (object : ProjectViewObjectV3) (update : UpdateProjectObjectV3) :
    V3Result ProjectViewObjectV3 := do
  let object ← patchObject object update
  validateObjectData object.data
  return object

/-- The candidate of a command before it is stamped. -/
inductive PreparedEntryV3
  | create (objectId : Uuid) (data : ProjectViewObjectDataV3) (relations : ProjectViewRelations)
      (contextReferences : List ProjectContextReference)
  | update (object : ProjectViewObjectV3)
  | delete (object : ProjectViewObjectV3)

namespace ProjectViewStateV3

def activeObject (s : ProjectViewStateV3) (objectId : Uuid) : DomainResult ProjectViewObjectV3 :=
  match s.entries[objectId]? with
  | some (.active object) => .ok object
  | some (.tombstone _) => .error (.objectDeleted objectId)
  | none => .error (.objectNotFound objectId)

def firstIncomingStructuralRelation (s : ProjectViewStateV3) (targetId : Uuid) : Option String :=
  firstIncomingRelation (s.activeObjects.map (·.relations)) targetId

def firstIncomingResourceContext (s : ProjectViewStateV3) (resourceId : Uuid) : Option Uuid :=
  s.activeObjects.findSome? fun source =>
    if .resource resourceId ∈ source.contextReferences then some source.id else none

/-- One more, without leaving the 64-bit range. -/
def saturatingSucc (revision : Nat) : Nat := min (revision + 1) (2 ^ 64 - 1)

/-- The state with an object written, and a level for it if it is a Role. -/
def candidate (s : ProjectViewStateV3) (object : ProjectViewObjectV3) : ProjectViewStateV3 :=
  { s with
    entries := s.entries.insert object.id (.active object)
    roleLevels :=
      if object.objectType = .role ∧ ¬s.roleLevels.contains object.id = true then
        s.roleLevels.insert object.id .member
      else s.roleLevels }

/-- The relations and references of a candidate find their targets.  A created object borrows the
times and keys of some active object. -/
def validateCandidate (s : ProjectViewStateV3) (prepared : PreparedEntryV3) : V3Result Unit := do
  let exemplar ← okOr s.activeObjects.head?
    (.object (.invalidFinalState "initialized v3 state has no active Profile"))
  match prepared with
  | .create objectId data relations contextReferences =>
    let object : ProjectViewObjectV3 :=
      { id := objectId
        objectType := data.objectType
        objectRevision := 1
        projectRevision := saturatingSucc s.projectRevision
        createdAt := exemplar.createdAt
        updatedAt := exemplar.updatedAt
        createdBy := exemplar.createdBy
        updatedBy := exemplar.updatedBy
        data
        relations
        contextReferences }
    (s.candidate object).validateRelationTargetsAndContext
  | .update object => (s.candidate object).validateRelationTargetsAndContext
  | .delete _ => return ()

def prepareCreate (s : ProjectViewStateV3) (object : NewProjectViewObjectV3)
    (capabilities : V3ReducerCapabilities) :
    V3Result (PreparedEntryV3 × DocumentTargetDelta) := do
  let (objectId, data, relations, context) := object.intoParts
  ensure (objectId ≠ s.projectId) (.object (.reservedProfileId objectId))
  ensure (¬s.entries.contains objectId = true) (.object (.objectIdAlreadyUsed objectId))
  let context ← within .reference
    (validateContextReplacement [] context capabilities.projectContextEnabled)
  validateContextSource data.objectType context
  let delta := introducedDocumentTargets [] context none (guideDocumentId data)
  let prepared := PreparedEntryV3.create objectId data relations context
  s.validateCandidate prepared
  return (prepared, delta)

/-- The Context set after an update: unchanged unless the update replaces it. -/
def nextContext (current : List ProjectContextReference) (update : UpdateProjectObjectV3)
    (capabilities : V3ReducerCapabilities) : V3Result (List ProjectContextReference) :=
  match update.contextReferences with
  | some replacement => within .reference
      (validateContextReplacement current replacement capabilities.projectContextEnabled)
  | none => return current

def prepareUpdate [UrlParser] (s : ProjectViewStateV3) (update : UpdateProjectObjectV3)
    (capabilities : V3ReducerCapabilities) :
    V3Result (PreparedEntryV3 × DocumentTargetDelta) := do
  let current ← legacy (s.activeObject update.objectId)
  ensure (current.objectType = update.objectType)
    (.object (.objectTypeMismatch update.objectId update.objectType current.objectType))
  let updated ← applyUpdate current update
  let context ← nextContext current.contextReferences update capabilities
  let updated := { updated with contextReferences := context }
  validateContextSource updated.objectType updated.contextReferences
  ensure (¬(updated.data = current.data ∧ updated.relations = current.relations ∧
      updated.contextReferences = current.contextReferences))
    (.object .noChanges)
  let delta := introducedDocumentTargets current.contextReferences updated.contextReferences
    (guideDocumentId current.data) (guideDocumentId updated.data)
  let prepared := PreparedEntryV3.update updated
  s.validateCandidate prepared
  return (prepared, delta)

/-- No active object points to the object that is to be deleted. -/
def requireUnreferenced (s : ProjectViewStateV3) (current : ProjectViewObjectV3) :
    V3Result Unit :=
  match s.firstIncomingStructuralRelation current.id with
  | some relation => .error (.object (.objectStillReferenced current.id relation))
  | none =>
    if current.objectType = .resource then
      match s.firstIncomingResourceContext current.id with
      | some sourceObjectId => .error (.resourceStillContextReferenced current.id sourceObjectId)
      | none => return ()
    else return ()

def prepareDelete (s : ProjectViewStateV3) (delete : DeleteProjectObjectV3) :
    V3Result (PreparedEntryV3 × DocumentTargetDelta) := do
  let current ← legacy (s.activeObject delete.objectId)
  ensure (current.objectType = delete.objectType)
    (.object (.objectTypeMismatch delete.objectId delete.objectType current.objectType))
  ensure (current.objectType ≠ .projectProfile) (.object .profileDeletionForbidden)
  ensure (¬(current.objectType = .goal ∧
    (s.activeObjects.filter fun object => object.objectType = .goal).length = 1))
    (.object .lastGoalDeletionForbidden)
  s.requireUnreferenced current
  return (.delete current, {})

/-- The candidate of a command and the Document coordinates it introduces. -/
def prepareNextEntry [UrlParser] (s : ProjectViewStateV3) (command : ProjectObjectCommandV3)
    (capabilities : V3ReducerCapabilities) : V3Result (PreparedEntryV3 × DocumentTargetDelta) :=
  match command.request with
  | .create object => s.prepareCreate object capabilities
  | .update update => s.prepareUpdate update capabilities
  | .delete delete => s.prepareDelete delete

/-- The entry a candidate becomes, and the Role levels with it. -/
def stamp (s : ProjectViewStateV3) (command : ProjectObjectCommandV3) (prepared : PreparedEntryV3)
    (projectRevision : Nat) (actor : PublicKey) (now : DateTime) :
    V3Result (ProjectViewEntryV3 × OrdMap Uuid RoleLevel) :=
  match prepared with
  | .create objectId data relations contextReferences => do
    let head := ObjectHead.created objectId data.objectType projectRevision actor now
    let object : ProjectViewObjectV3 := { head with data, relations, contextReferences }
    if object.objectType = .role then
      let level ← okOr command.createdRoleLevel
        (.invalidRoleLevels "Role create has no initial governance level")
      return (.active object, s.roleLevels.insert object.id level)
    else
      return (.active object, s.roleLevels)
  | .update object => do
    let objectRevision ← legacy (nextRevision object.objectRevision)
    let head := object.toObjectHead.updated objectRevision projectRevision actor now
    return (.active { object with toObjectHead := head }, s.roleLevels)
  | .delete current => do
    let objectRevision ← legacy (nextRevision current.objectRevision)
    let tombstone := current.toObjectHead.buried objectRevision projectRevision actor now
    return (.tombstone tombstone, s.roleLevels)

def reduce [UrlParser] (s : ProjectViewStateV3) (command : ProjectObjectCommandV3)
    (actor : PublicKey) (now : DateTime) (capabilities : V3ReducerCapabilities)
    (proof : ReferenceTargetProof) : V3Result (ProjectViewStateV3 × ProjectObjectOutcomeV3) := do
  s.validate
  command.validateForSubmission
  ensure (s.isInitialized = true) (.object .notInitialized)
  ensure (command.expectedProjectRevision = s.projectRevision)
    (.object (.revisionConflict command.expectedProjectRevision s.projectRevision))
  let (prepared, delta) ← s.prepareNextEntry command capabilities
  within .reference
    (validateDocumentTargetDelta delta capabilities.documentCapabilityAvailable proof)
  let projectRevision ← legacy (nextRevision s.projectRevision)
  let (changed, roleLevels) ← s.stamp command prepared projectRevision actor now
  let next : ProjectViewStateV3 :=
    { s with
      projectRevision
      updatedAt := some now
      entries := s.entries.insert changed.id changed
      roleLevels }
  next.validate
  return (next, { projectRevision, changedEntries := [changed], documentTargetDelta := delta })

end ProjectViewStateV3

end ProjectView

end Carryforth
