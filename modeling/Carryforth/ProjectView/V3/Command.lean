import Carryforth.ProjectView.V3.Context

/-!
# Project View v3: commands

The schema-v3 commands on ordinary objects and the checks that need no canonical state.  A v3 patch
is a legacy patch with a summary and an optional replacement of the whole Context set; only the
Resource shape is new.
-/

namespace Carryforth

namespace ProjectView

open Fallible

abbrev ProjectViewObjectDataV3 := ObjectData ProjectResourceV3

inductive V3ProjectObjectError
  | object (error : DomainError)
  | contract (error : V3ContractError)
  | reference (error : V3ReferenceError)
  | resourceSourceReferenceForbidden
  | invalidResourceTarget (resourceId : Uuid)
  | resourceStillContextReferenced (resourceId sourceObjectId : Uuid)
  | invalidRoleLevels (reason : String)
deriving DecidableEq, Repr

abbrev V3Result := Except V3ProjectObjectError

abbrev legacy {α : Type} (x : DomainResult α) : V3Result α := within .object x

/-! ## Bodies -/

/-- The legacy body with the same content; a v3 Resource has none. -/
def legacyData : ProjectViewObjectDataV3 → V3Result ProjectViewObjectData
  | .projectProfile value => return .projectProfile value
  | .goal value => return .goal value
  | .role value => return .role value
  | .plan value => return .plan value
  | .stage value => return .stage value
  | .requirement value => return .requirement value
  | .issue value => return .issue value
  | .work value => return .work value
  | .resource _ =>
    .error (.contract (.invalidWire "legacy conversion cannot represent a v3 Resource"))

def validateObjectData [UrlParser] : ProjectViewObjectDataV3 → V3Result Unit
  | .resource resource => within .contract resource.validate
  | data => do
    let data ← legacyData data
    legacy (validateData data)

def guideDocumentId : ProjectViewObjectDataV3 → Option Uuid
  | .resource resource => some resource.guideDocumentId
  | _ => none

/-- A Resource may not refer to another Resource. -/
def validateContextSource (objectType : ProjectViewObjectType)
    (references : List ProjectContextReference) : V3Result Unit :=
  ensure (¬(objectType = .resource ∧ references.any ProjectContextReference.isResource = true))
    .resourceSourceReferenceForbidden

theorem validateContextSource_nil (type : ProjectViewObjectType) :
    validateContextSource type [] = .ok () :=
  ensure_eq_ok.2 fun forbidden => nomatch forbidden.2

/-! ## Creation -/

/-- Typed v3 creation payloads for every object except the Project Profile. -/
inductive NewProjectViewObjectV3
  | goal (id : Uuid) (title desiredOutcome : String) (directions : List String)
      (summary : Option String) (contextReferences : List ProjectContextReference)
  | role (id : Uuid) (name purpose : String) (responsibilities boundaries : List String)
      (active : Bool) (summary : Option String) (contextReferences : List ProjectContextReference)
  | plan (id : Uuid) (title description : String) (status : PlanStatus) (summary : Option String)
      (underGoalId : Option Uuid) (contextReferences : List ProjectContextReference)
  | stage (id : Uuid) (title description : String) (status : StageStatus)
      (summary : Option String) (underPlanId : Uuid)
      (contextReferences : List ProjectContextReference)
  | requirement (id : Uuid) (title description : String) (status : RequirementStatus)
      (priority : Priority) (summary : Option String) (plannedInStageId : Option Uuid)
      (contextReferences : List ProjectContextReference)
  | issue (id : Uuid) (title description : String) (status : IssueStatus) (priority : Priority)
      (summary : Option String) (plannedInStageId : Option Uuid) (about : Option ObjectRef)
      (contextReferences : List ProjectContextReference)
  | work (id : Uuid) (title description : String) (status : WorkStatus) (priority : Priority)
      (summary : Option String) (handles : ObjectRef)
      (contextReferences : List ProjectContextReference)
  | resource (id : Uuid) (name resourceKind : String) (summary : Option String)
      (guideDocumentId : Uuid) (contextReferences : List ProjectContextReference)
deriving DecidableEq, Repr

namespace NewProjectViewObjectV3

/-- The identity, body, relations and Context set of a creation payload. -/
def intoParts : NewProjectViewObjectV3 →
    Uuid × ProjectViewObjectDataV3 × ProjectViewRelations × List ProjectContextReference
  | .goal id title desiredOutcome directions summary context =>
    (id, .goal { title, desiredOutcome, directions, summary }, {}, context)
  | .role id name purpose responsibilities boundaries active summary context =>
    (id, .role { name, purpose, responsibilities, boundaries, active, summary }, {}, context)
  | .plan id title description status summary underGoalId context =>
    (id, .plan { title, description, status, summary }, { underGoalId }, context)
  | .stage id title description status summary underPlanId context =>
    (id, .stage { title, description, status, summary }, { underPlanId := some underPlanId },
      context)
  | .requirement id title description status priority summary plannedInStageId context =>
    (id, .requirement { title, description, status, priority, summary }, { plannedInStageId },
      context)
  | .issue id title description status priority summary plannedInStageId about context =>
    (id, .issue { title, description, status, priority, summary }, { plannedInStageId, about },
      context)
  | .work id title description status priority summary handles context =>
    (id, .work { title, description, status, priority, summary }, { handles := some handles },
      context)
  | .resource id name resourceKind summary guideDocumentId context =>
    (id, .resource { name, resourceKind, summary, guideDocumentId }, {}, context)

def validateForSubmission [UrlParser] (object : NewProjectViewObjectV3) : V3Result Unit := do
  let (id, data, relations, context) := object.intoParts
  legacy (validateClientGeneratedId id)
  validateObjectData data
  legacy (validateRelationShape data.objectType relations)
  within .contract (requireCanonicalContext context)
  validateContextSource data.objectType context
  match data with
  | .issue _ =>
    ensure (¬relations.about.any (fun reference => reference.objectId = id) = true)
      (.object (.selfReference "about" id))
  | _ => return ()

end NewProjectViewObjectV3

/-! ## Updates -/

/-- A v3 patch: the fields, the summary, and a replacement of the complete Context set. -/
structure PatchV3 (φ : Type) where
  fields : φ
  summary : Patch String := .unchanged
  contextReferences : Option (List ProjectContextReference) := none
deriving DecidableEq, Repr

structure ResourceFieldsV3 where
  name : Patch String := .unchanged
  resourceKind : Patch String := .unchanged
  guideDocumentId : Patch Uuid := .unchanged
deriving DecidableEq, Repr

abbrev ProfilePatchV3 := PatchV3 ProfilePatch
abbrev GoalPatchV3 := PatchV3 GoalPatch
abbrev RolePatchV3 := PatchV3 RolePatch
abbrev PlanPatchV3 := PatchV3 PlanPatch
abbrev StagePatchV3 := PatchV3 StagePatch
abbrev RequirementPatchV3 := PatchV3 RequirementPatch
abbrev IssuePatchV3 := PatchV3 IssuePatch
abbrev WorkPatchV3 := PatchV3 WorkPatch
abbrev ResourcePatchV3 := PatchV3 ResourceFieldsV3

inductive UpdateProjectObjectV3
  | projectProfile (objectId : Uuid) (patch : ProfilePatchV3)
  | goal (objectId : Uuid) (patch : GoalPatchV3)
  | role (objectId : Uuid) (patch : RolePatchV3)
  | plan (objectId : Uuid) (patch : PlanPatchV3)
  | stage (objectId : Uuid) (patch : StagePatchV3)
  | requirement (objectId : Uuid) (patch : RequirementPatchV3)
  | issue (objectId : Uuid) (patch : IssuePatchV3)
  | work (objectId : Uuid) (patch : WorkPatchV3)
  | resource (objectId : Uuid) (patch : ResourcePatchV3)
deriving DecidableEq, Repr

namespace UpdateProjectObjectV3

def objectId : UpdateProjectObjectV3 → Uuid
  | .projectProfile id _ | .goal id _ | .role id _ | .plan id _ | .stage id _
  | .requirement id _ | .issue id _ | .work id _ | .resource id _ => id

def objectType : UpdateProjectObjectV3 → ProjectViewObjectType
  | .projectProfile .. => .projectProfile
  | .goal .. => .goal
  | .role .. => .role
  | .plan .. => .plan
  | .stage .. => .stage
  | .requirement .. => .requirement
  | .issue .. => .issue
  | .work .. => .work
  | .resource .. => .resource

def contextReferences : UpdateProjectObjectV3 → Option (List ProjectContextReference)
  | .projectProfile _ patch => patch.contextReferences
  | .goal _ patch => patch.contextReferences
  | .role _ patch => patch.contextReferences
  | .plan _ patch => patch.contextReferences
  | .stage _ patch => patch.contextReferences
  | .requirement _ patch => patch.contextReferences
  | .issue _ patch => patch.contextReferences
  | .work _ patch => patch.contextReferences
  | .resource _ patch => patch.contextReferences

def summaryPatch : UpdateProjectObjectV3 → Patch String
  | .projectProfile _ patch => patch.summary
  | .goal _ patch => patch.summary
  | .role _ patch => patch.summary
  | .plan _ patch => patch.summary
  | .stage _ patch => patch.summary
  | .requirement _ patch => patch.summary
  | .issue _ patch => patch.summary
  | .work _ patch => patch.summary
  | .resource _ patch => patch.summary

end UpdateProjectObjectV3

/-- A Resource patch, checked on a sample Resource for the fields it leaves unchanged. -/
def validateResourcePatch (patch : ResourcePatchV3) (contextChanged : Bool) : V3Result Unit := do
  let name ← legacy (patch.fields.name.applyRequired "resource" "name")
  let resourceKind ←
    legacy (patch.fields.resourceKind.applyRequired "resource" "resource_kind")
  let summary := patch.summary.applyOptional none
  let guideDocumentId ← legacy (patch.fields.guideDocumentId.applyRequired
    0x00000000000040008000000000000001 "guide_document_id")
  ensure (contextChanged = true ∨ ¬patch.fields.name.isUnchanged = true ∨
      ¬patch.fields.resourceKind.isUnchanged = true ∨ ¬patch.summary.isUnchanged = true ∨
      ¬patch.fields.guideDocumentId.isUnchanged = true)
    (.object .noChanges)
  let resource : ProjectResourceV3 := { name, resourceKind, summary, guideDocumentId }
  within .contract resource.validate

/-- The legacy checks on an update; a summary or Context change makes an empty one acceptable. -/
def validateLegacyUpdate [UrlParser] (update : UpdateMutation) (otherwiseChanged : Bool) :
    V3Result Unit :=
  match validateMutationInput (.update update) with
  | .error .noChanges => ensure (otherwiseChanged = true) (.object .noChanges)
  | result => legacy result

def validateUpdate [UrlParser] (update : UpdateProjectObjectV3) : V3Result Unit := do
  let contextChanged := update.contextReferences.isSome
  let summaryChanged := !update.summaryPatch.isUnchanged
  match update.summaryPatch with
  | .set summary => legacy (validateSummary (some summary))
  | _ => pure ()
  let otherwiseChanged := contextChanged || summaryChanged
  match update with
  | .projectProfile id patch =>
    validateLegacyUpdate (.projectProfile id patch.fields) otherwiseChanged
  | .goal id patch => validateLegacyUpdate (.goal id patch.fields) otherwiseChanged
  | .role id patch => validateLegacyUpdate (.role id patch.fields) otherwiseChanged
  | .plan id patch => validateLegacyUpdate (.plan id patch.fields) otherwiseChanged
  | .stage id patch => validateLegacyUpdate (.stage id patch.fields) otherwiseChanged
  | .requirement id patch => validateLegacyUpdate (.requirement id patch.fields) otherwiseChanged
  | .issue id patch => validateLegacyUpdate (.issue id patch.fields) otherwiseChanged
  | .work id patch => validateLegacyUpdate (.work id patch.fields) otherwiseChanged
  | .resource _ patch => validateResourcePatch patch contextChanged

def UpdateProjectObjectV3.validateForSubmission [UrlParser] (update : UpdateProjectObjectV3) :
    V3Result Unit := do
  checkIf (update.objectType ≠ .projectProfile)
    (legacy (validateClientGeneratedId update.objectId))
  checkSome update.contextReferences fun references => do
    within .contract (requireCanonicalContext references)
    validateContextSource update.objectType references
  validateUpdate update

/-! ## Commands -/

structure DeleteProjectObjectV3 where
  objectType : ProjectViewObjectType
  objectId : Uuid
deriving DecidableEq, Repr

inductive ProjectObjectRequestV3
  | create (object : NewProjectViewObjectV3)
  | update (update : UpdateProjectObjectV3)
  | delete (delete : DeleteProjectObjectV3)
deriving DecidableEq, Repr

def ProjectObjectRequestV3.validateForSubmission [UrlParser] :
    ProjectObjectRequestV3 → V3Result Unit
  | .create object => object.validateForSubmission
  | .update changes => changes.validateForSubmission
  | .delete target => do
    ensure (target.objectType ≠ .projectProfile) (.object .profileDeletionForbidden)
    legacy (validateClientGeneratedId target.objectId)

def projectViewV3SchemaVersion : Nat := 3

structure ProjectObjectCommandV3 where
  schemaVersion : Nat
  expectedProjectRevision : Nat
  actingAssignmentId : Option Uuid
  runtimeFence : Option RuntimeFence
  initialRoleLevel : Option RoleLevel
  request : ProjectObjectRequestV3
deriving DecidableEq, Repr

namespace ProjectObjectCommandV3

def new (expectedProjectRevision : Nat) (actingAssignmentId : Option Uuid)
    (request : ProjectObjectRequestV3) : ProjectObjectCommandV3 :=
  { schemaVersion := projectViewV3SchemaVersion
    expectedProjectRevision
    actingAssignmentId
    runtimeFence := none
    initialRoleLevel := none
    request }

def createsRole (command : ProjectObjectCommandV3) : Bool :=
  match command.request with
  | .create (.role ..) => true
  | _ => false

/-- The level a created Role starts with: member unless the command says otherwise. -/
def createdRoleLevel (command : ProjectObjectCommandV3) : Option RoleLevel :=
  if command.createsRole = true then some (command.initialRoleLevel.getD .member) else none

def validateForSubmission [UrlParser] (command : ProjectObjectCommandV3) : V3Result Unit := do
  ensure (command.schemaVersion = projectViewV3SchemaVersion)
    (.object (.unsupportedSchemaVersion command.schemaVersion projectViewV3SchemaVersion))
  legacy (validateRevision command.expectedProjectRevision)
  ensure (command.expectedProjectRevision ≠ 0)
    (.object (.invalidField "expected_project_revision"
      "ordinary v3 commands require an initialized positive revision"))
  ensure (¬command.actingAssignmentId.any Uuid.isNil = true)
    (.object (.invalidField "acting_assignment_id" "must not be nil"))
  checkSome command.runtimeFence fun fence => do
    within (fun reason => .object (.invalidField "runtime_fence" reason)) fence.validate
    ensure (command.actingAssignmentId ≠ none)
      (.object (.invalidField "runtime_fence" "requires acting_assignment_id"))
  ensure (command.initialRoleLevel = none ∨ command.createsRole = true)
    (.object (.invalidField "initial_role_level" "is valid only when creating a Role"))
  command.request.validateForSubmission

end ProjectObjectCommandV3

end ProjectView

end Carryforth
