import Carryforth.Types

/-!
# Project View: objects

The closed vocabularies, the object bodies, the relation slots and the errors of the pure domain
layer.  Bodies are shared by the schema versions except for the Resource body, which is a parameter
of `ObjectData`; the head of an active object and its tombstone are the same in every version.
-/

namespace Carryforth

namespace ProjectView

/-! ## Closed vocabularies -/

inductive ProjectViewObjectType
  | projectProfile
  | goal
  | role
  | plan
  | stage
  | requirement
  | issue
  | work
  | resource
deriving DecidableEq, Repr

def ProjectViewObjectType.asStr : ProjectViewObjectType → String
  | .projectProfile => "project_profile"
  | .goal => "goal"
  | .role => "role"
  | .plan => "plan"
  | .stage => "stage"
  | .requirement => "requirement"
  | .issue => "issue"
  | .work => "work"
  | .resource => "resource"

inductive Priority
  | low
  | normal
  | high
  | urgent
deriving DecidableEq, Repr

inductive PlanStatus
  | draft
  | active
  | paused
  | completed
  | cancelled
deriving DecidableEq, Repr

inductive StageStatus
  | planned
  | active
  | paused
  | completed
  | cancelled
deriving DecidableEq, Repr

inductive RequirementStatus
  | proposed
  | ready
  | inProgress
  | satisfied
  | withdrawn
deriving DecidableEq, Repr

inductive IssueStatus
  | open
  | inProgress
  | resolved
  | closed
deriving DecidableEq, Repr

inductive ResourceType
  | repository
  | document
  | design
  | service
  | environment
  | artifact
  | url
deriving DecidableEq, Repr

inductive LocatorType
  | url
  | nostrAddress
  | nostrEvent
  | buzzDeepLink
deriving DecidableEq, Repr

/-- A typed reference to one active object. -/
structure ObjectRef where
  objectType : ProjectViewObjectType
  objectId : Uuid
deriving DecidableEq, Repr

structure ResourceLocator where
  locatorType : LocatorType
  value : String
deriving DecidableEq, Repr

/-! ## Bodies -/

structure ProjectProfile where
  name : String
  positioning : String
  purpose : String
  problem : String
  scope : String
  summary : Option String
deriving DecidableEq, Repr

structure Goal where
  title : String
  desiredOutcome : String
  directions : List String
  summary : Option String
deriving DecidableEq, Repr

structure ProjectRole where
  name : String
  purpose : String
  responsibilities : List String
  boundaries : List String
  active : Bool
  summary : Option String
deriving DecidableEq, Repr

structure ProjectPlan where
  title : String
  description : String
  status : PlanStatus
  summary : Option String
deriving DecidableEq, Repr

structure ProjectStage where
  title : String
  description : String
  status : StageStatus
  summary : Option String
deriving DecidableEq, Repr

structure Requirement where
  title : String
  description : String
  status : RequirementStatus
  priority : Priority
  summary : Option String
deriving DecidableEq, Repr

structure ProjectIssue where
  title : String
  description : String
  status : IssueStatus
  priority : Priority
  summary : Option String
deriving DecidableEq, Repr

structure ProjectWork where
  title : String
  description : String
  status : WorkStatus
  priority : Priority
  summary : Option String
deriving DecidableEq, Repr

/-- A legacy Resource, described by its locator. -/
structure ProjectResource where
  name : String
  resourceType : ResourceType
  locator : ResourceLocator
  description : String
deriving DecidableEq, Repr

/-- The body of one object, with Resource bodies of type `ρ`. -/
inductive ObjectData (ρ : Type)
  | projectProfile (profile : ProjectProfile)
  | goal (goal : Goal)
  | role (role : ProjectRole)
  | plan (plan : ProjectPlan)
  | stage (stage : ProjectStage)
  | requirement (requirement : Requirement)
  | issue (issue : ProjectIssue)
  | work (work : ProjectWork)
  | resource (resource : ρ)
deriving DecidableEq, Repr

def ObjectData.objectType {ρ : Type} : ObjectData ρ → ProjectViewObjectType
  | .projectProfile _ => .projectProfile
  | .goal _ => .goal
  | .role _ => .role
  | .plan _ => .plan
  | .stage _ => .stage
  | .requirement _ => .requirement
  | .issue _ => .issue
  | .work _ => .work
  | .resource _ => .resource

abbrev ProjectViewObjectData := ObjectData ProjectResource

/-- All fixed relation slots of an object. -/
structure ProjectViewRelations where
  underGoalId : Option Uuid := none
  underPlanId : Option Uuid := none
  plannedInStageId : Option Uuid := none
  about : Option ObjectRef := none
  handles : Option ObjectRef := none
deriving DecidableEq, Repr

/-! ## Objects -/

/-- Identity, revisions and provenance of one active object. -/
structure ObjectHead where
  id : Uuid
  objectType : ProjectViewObjectType
  objectRevision : Nat
  projectRevision : Nat
  createdAt : DateTime
  updatedAt : DateTime
  createdBy : PublicKey
  updatedBy : PublicKey
deriving DecidableEq, Repr

/-- The record kept after an object is deleted. -/
structure ProjectViewTombstone where
  id : Uuid
  objectType : ProjectViewObjectType
  objectRevision : Nat
  projectRevision : Nat
  createdAt : DateTime
  deletedAt : DateTime
  createdBy : PublicKey
  deletedBy : PublicKey
deriving DecidableEq, Repr

/-- The tombstone of an object deleted by `actor`. -/
def ObjectHead.buried (head : ObjectHead) (objectRevision projectRevision : Nat) (actor : PublicKey)
    (now : DateTime) : ProjectViewTombstone :=
  { id := head.id
    objectType := head.objectType
    objectRevision := objectRevision
    projectRevision := projectRevision
    createdAt := head.createdAt
    deletedAt := now
    createdBy := head.createdBy
    deletedBy := actor }

def ObjectHead.created (id : Uuid) (objectType : ProjectViewObjectType) (projectRevision : Nat)
    (actor : PublicKey) (now : DateTime) : ObjectHead :=
  { id := id
    objectType := objectType
    objectRevision := 1
    projectRevision := projectRevision
    createdAt := now
    updatedAt := now
    createdBy := actor
    updatedBy := actor }

def ObjectHead.updated (head : ObjectHead) (objectRevision projectRevision : Nat)
    (actor : PublicKey) (now : DateTime) : ObjectHead :=
  { head with
    objectRevision := objectRevision
    projectRevision := projectRevision
    updatedAt := now
    updatedBy := actor }

/-! ## Errors -/

/-- The failures of validating or applying a mutation. -/
inductive DomainError
  | unsupportedSchemaVersion (got supported : Nat)
  | notInitialized
  | alreadyInitialized
  | revisionOutOfRange (revision max : Nat)
  | revisionConflict (expected actual : Nat)
  | revisionExhausted
  | invalidInitialGoalCount (min max actual : Nat)
  | invalidObjectId (objectId : Uuid)
  | reservedProfileId (objectId : Uuid)
  | objectIdAlreadyUsed (objectId : Uuid)
  | objectNotFound (objectId : Uuid)
  | objectDeleted (objectId : Uuid)
  | objectTypeMismatch (objectId : Uuid) (expected actual : ProjectViewObjectType)
  | dataTypeMismatch (declared actual : ProjectViewObjectType)
  | invalidField (field reason : String)
  | requiredField (field : String)
  | fieldTooLong (field : String) (max actual : Nat)
  | tooManyItems (field : String) (max actual : Nat)
  | invalidLocator (reason : String)
  | missingRequiredRelation (relation : String)
  | relationNotAllowed (relation : String) (objectType : ProjectViewObjectType)
  | relationTargetNotFound (relation : String) (targetId : Uuid)
  | relationTargetDeleted (relation : String) (targetId : Uuid)
  | relationTargetTypeMismatch (relation : String) (targetId : Uuid)
      (declared actual : ProjectViewObjectType)
  | selfReference (relation : String) (objectId : Uuid)
  | invalidWorkTarget (actual : ProjectViewObjectType)
  | objectStillReferenced (objectId : Uuid) (relation : String)
  | profileDeletionForbidden
  | lastGoalDeletionForbidden
  | noChanges
  | invalidFinalState (reason : String)
deriving DecidableEq, Repr

def DomainError.toText : DomainError → String
  | .unsupportedSchemaVersion got supported =>
    s!"unsupported Project View schema version {got}; supported version is {supported}"
  | .notInitialized => "Project View is not initialized"
  | .alreadyInitialized => "Project View is already initialized"
  | .revisionOutOfRange revision max =>
    s!"revision {revision} exceeds the maximum supported value {max}"
  | .revisionConflict expected actual =>
    s!"project revision conflict: expected {expected}, current {actual}"
  | .revisionExhausted => "Project View revision space is exhausted"
  | .invalidInitialGoalCount min max actual =>
    s!"initial goal count {actual} is outside the allowed range {min}..={max}"
  | .invalidObjectId id => s!"object id {id.toText} must be a UUID v4"
  | .reservedProfileId id => s!"object id {id.toText} is reserved for the project profile"
  | .objectIdAlreadyUsed id => s!"object id {id.toText} has already been used"
  | .objectNotFound id => s!"object {id.toText} was not found"
  | .objectDeleted id => s!"object {id.toText} has been deleted"
  | .objectTypeMismatch id expected actual =>
    s!"object {id.toText} has type {actual.asStr}, not {expected.asStr}"
  | .dataTypeMismatch declared actual =>
    s!"object data has type {actual.asStr}, not declared type {declared.asStr}"
  | .invalidField field reason => s!"invalid field {field}: {reason}"
  | .requiredField field => s!"field {field} is required"
  | .fieldTooLong field max actual => s!"field {field} exceeds {max} UTF-8 bytes (got {actual})"
  | .tooManyItems field max actual =>
    s!"field {field} has too many items: maximum {max}, got {actual}"
  | .invalidLocator reason => s!"invalid resource locator: {reason}"
  | .missingRequiredRelation relation => s!"required relation {relation} is missing"
  | .relationNotAllowed relation type => s!"relation {relation} is not allowed on {type.asStr}"
  | .relationTargetNotFound relation id =>
    s!"relation {relation} target {id.toText} was not found"
  | .relationTargetDeleted relation id =>
    s!"relation {relation} target {id.toText} has been deleted"
  | .relationTargetTypeMismatch relation id declared actual =>
    s!"relation {relation} target {id.toText} has type {actual.asStr}, " ++
      s!"not declared type {declared.asStr}"
  | .selfReference relation id =>
    s!"relation {relation} cannot reference its source object {id.toText}"
  | .invalidWorkTarget actual =>
    s!"work handles target must be a requirement or issue, got {actual.asStr}"
  | .objectStillReferenced id relation =>
    s!"object {id.toText} is still referenced through {relation}"
  | .profileDeletionForbidden => "the project profile cannot be deleted"
  | .lastGoalDeletionForbidden => "the last active goal cannot be deleted"
  | .noChanges => "mutation would not change Project View state"
  | .invalidFinalState reason => s!"invalid final Project View state: {reason}"

abbrev DomainResult := Except DomainError

end ProjectView

end Carryforth
