import Carryforth.ProjectView.Model

/-!
# Project View: mutations

The typed schema-v1/v2 commands.  A field of an update is unchanged, cleared or set; `apply` writes
the fields of a patch into a body, and a required field cannot be cleared.
-/

namespace Carryforth

namespace ProjectView

/-! ## Patch fields -/

/-- A field in a typed update patch. -/
inductive Patch (α : Type)
  | unchanged
  | clear
  | set (value : α)
deriving DecidableEq, Repr

namespace Patch

variable {α : Type}

def isUnchanged : Patch α → Bool
  | .unchanged => true
  | _ => false

def isClear : Patch α → Bool
  | .clear => true
  | _ => false

def applyRequired (patch : Patch α) (current : α) (field : String) : DomainResult α :=
  match patch with
  | .unchanged => .ok current
  | .clear => .error (.requiredField field)
  | .set value => .ok value

def applyRequiredRelation (patch : Patch α) (current : Option α) (relation : String) :
    DomainResult (Option α) :=
  match patch with
  | .unchanged => .ok current
  | .clear => .error (.missingRequiredRelation relation)
  | .set value => .ok (some value)

def applyOptional (patch : Patch α) (current : Option α) : Option α :=
  match patch with
  | .unchanged => current
  | .clear => none
  | .set value => some value

end Patch

/-! ## Patches of one body -/

structure ProfilePatch where
  name : Patch String := .unchanged
  positioning : Patch String := .unchanged
  purpose : Patch String := .unchanged
  problem : Patch String := .unchanged
  scope : Patch String := .unchanged
deriving DecidableEq, Repr

structure GoalPatch where
  title : Patch String := .unchanged
  desiredOutcome : Patch String := .unchanged
  directions : Patch (List String) := .unchanged
deriving DecidableEq, Repr

structure RolePatch where
  name : Patch String := .unchanged
  purpose : Patch String := .unchanged
  responsibilities : Patch (List String) := .unchanged
  boundaries : Patch (List String) := .unchanged
  active : Patch Bool := .unchanged
deriving DecidableEq, Repr

structure PlanPatch where
  title : Patch String := .unchanged
  description : Patch String := .unchanged
  status : Patch PlanStatus := .unchanged
  underGoalId : Patch Uuid := .unchanged
deriving DecidableEq, Repr

structure StagePatch where
  title : Patch String := .unchanged
  description : Patch String := .unchanged
  status : Patch StageStatus := .unchanged
  underPlanId : Patch Uuid := .unchanged
deriving DecidableEq, Repr

structure RequirementPatch where
  title : Patch String := .unchanged
  description : Patch String := .unchanged
  status : Patch RequirementStatus := .unchanged
  priority : Patch Priority := .unchanged
  plannedInStageId : Patch Uuid := .unchanged
deriving DecidableEq, Repr

structure IssuePatch where
  title : Patch String := .unchanged
  description : Patch String := .unchanged
  status : Patch IssueStatus := .unchanged
  priority : Patch Priority := .unchanged
  plannedInStageId : Patch Uuid := .unchanged
  about : Patch ObjectRef := .unchanged
deriving DecidableEq, Repr

structure WorkPatch where
  title : Patch String := .unchanged
  description : Patch String := .unchanged
  status : Patch WorkStatus := .unchanged
  priority : Patch Priority := .unchanged
  handles : Patch ObjectRef := .unchanged
deriving DecidableEq, Repr

structure ResourcePatch where
  name : Patch String := .unchanged
  resourceType : Patch ResourceType := .unchanged
  locator : Patch ResourceLocator := .unchanged
  description : Patch String := .unchanged
deriving DecidableEq, Repr

def ProfilePatch.apply (patch : ProfilePatch) (profile : ProjectProfile) :
    DomainResult ProjectProfile := do
  let name ← patch.name.applyRequired profile.name "name"
  let positioning ← patch.positioning.applyRequired profile.positioning "positioning"
  let purpose ← patch.purpose.applyRequired profile.purpose "purpose"
  let problem ← patch.problem.applyRequired profile.problem "problem"
  let scope ← patch.scope.applyRequired profile.scope "scope"
  return { profile with name, positioning, purpose, problem, scope }

def GoalPatch.apply (patch : GoalPatch) (goal : Goal) : DomainResult Goal := do
  let title ← patch.title.applyRequired goal.title "title"
  let desiredOutcome ← patch.desiredOutcome.applyRequired goal.desiredOutcome "desired_outcome"
  let directions ← patch.directions.applyRequired goal.directions "directions"
  return { goal with title, desiredOutcome, directions }

def RolePatch.apply (patch : RolePatch) (role : ProjectRole) : DomainResult ProjectRole := do
  let name ← patch.name.applyRequired role.name "name"
  let purpose ← patch.purpose.applyRequired role.purpose "purpose"
  let responsibilities ←
    patch.responsibilities.applyRequired role.responsibilities "responsibilities"
  let boundaries ← patch.boundaries.applyRequired role.boundaries "boundaries"
  let active ← patch.active.applyRequired role.active "active"
  return { role with name, purpose, responsibilities, boundaries, active }

def PlanPatch.apply (patch : PlanPatch) (plan : ProjectPlan) : DomainResult ProjectPlan := do
  let title ← patch.title.applyRequired plan.title "title"
  let description ← patch.description.applyRequired plan.description "description"
  let status ← patch.status.applyRequired plan.status "status"
  return { plan with title, description, status }

def StagePatch.apply (patch : StagePatch) (stage : ProjectStage) : DomainResult ProjectStage := do
  let title ← patch.title.applyRequired stage.title "title"
  let description ← patch.description.applyRequired stage.description "description"
  let status ← patch.status.applyRequired stage.status "status"
  return { stage with title, description, status }

def RequirementPatch.apply (patch : RequirementPatch) (requirement : Requirement) :
    DomainResult Requirement := do
  let title ← patch.title.applyRequired requirement.title "title"
  let description ← patch.description.applyRequired requirement.description "description"
  let status ← patch.status.applyRequired requirement.status "status"
  let priority ← patch.priority.applyRequired requirement.priority "priority"
  return { requirement with title, description, status, priority }

def IssuePatch.apply (patch : IssuePatch) (issue : ProjectIssue) : DomainResult ProjectIssue := do
  let title ← patch.title.applyRequired issue.title "title"
  let description ← patch.description.applyRequired issue.description "description"
  let status ← patch.status.applyRequired issue.status "status"
  let priority ← patch.priority.applyRequired issue.priority "priority"
  return { issue with title, description, status, priority }

def WorkPatch.apply (patch : WorkPatch) (work : ProjectWork) : DomainResult ProjectWork := do
  let title ← patch.title.applyRequired work.title "title"
  let description ← patch.description.applyRequired work.description "description"
  let status ← patch.status.applyRequired work.status "status"
  let priority ← patch.priority.applyRequired work.priority "priority"
  return { work with title, description, status, priority }

/-! ## Requests -/

def maxInitialGoals : Nat := 32

structure InitializeGoal where
  id : Uuid
  title : String
  desiredOutcome : String
  directions : List String
  summary : Option String
deriving DecidableEq, Repr

def InitializeGoal.intoGoal (goal : InitializeGoal) : Goal :=
  { title := goal.title
    desiredOutcome := goal.desiredOutcome
    directions := goal.directions
    summary := goal.summary }

structure InitializeMutation where
  profile : ProjectProfile
  goals : List InitializeGoal
deriving DecidableEq, Repr

/-- Typed creation payloads for every object except the Project Profile. -/
inductive NewProjectViewObject
  | goal (id : Uuid) (title desiredOutcome : String) (directions : List String)
  | role (id : Uuid) (name purpose : String) (responsibilities boundaries : List String)
      (active : Bool)
  | plan (id : Uuid) (title description : String) (status : PlanStatus)
      (underGoalId : Option Uuid)
  | stage (id : Uuid) (title description : String) (status : StageStatus) (underPlanId : Uuid)
  | requirement (id : Uuid) (title description : String) (status : RequirementStatus)
      (priority : Priority) (plannedInStageId : Option Uuid)
  | issue (id : Uuid) (title description : String) (status : IssueStatus) (priority : Priority)
      (plannedInStageId : Option Uuid) (about : Option ObjectRef)
  | work (id : Uuid) (title description : String) (status : WorkStatus) (priority : Priority)
      (handles : ObjectRef)
  | resource (id : Uuid) (name : String) (resourceType : ResourceType) (locator : ResourceLocator)
      (description : String)
deriving DecidableEq, Repr

/-- The identity, body and relations of a creation payload.  Schema v1 has no summary to set. -/
def NewProjectViewObject.intoParts :
    NewProjectViewObject → Uuid × ProjectViewObjectData × ProjectViewRelations
  | .goal id title desiredOutcome directions =>
    (id, .goal { title, desiredOutcome, directions, summary := none }, {})
  | .role id name purpose responsibilities boundaries active =>
    (id, .role { name, purpose, responsibilities, boundaries, active, summary := none }, {})
  | .plan id title description status underGoalId =>
    (id, .plan { title, description, status, summary := none }, { underGoalId })
  | .stage id title description status underPlanId =>
    (id, .stage { title, description, status, summary := none },
      { underPlanId := some underPlanId })
  | .requirement id title description status priority plannedInStageId =>
    (id, .requirement { title, description, status, priority, summary := none },
      { plannedInStageId })
  | .issue id title description status priority plannedInStageId about =>
    (id, .issue { title, description, status, priority, summary := none },
      { plannedInStageId, about })
  | .work id title description status priority handles =>
    (id, .work { title, description, status, priority, summary := none },
      { handles := some handles })
  | .resource id name resourceType locator description =>
    (id, .resource { name, resourceType, locator, description }, {})

inductive UpdateMutation
  | projectProfile (objectId : Uuid) (patch : ProfilePatch)
  | goal (objectId : Uuid) (patch : GoalPatch)
  | role (objectId : Uuid) (patch : RolePatch)
  | plan (objectId : Uuid) (patch : PlanPatch)
  | stage (objectId : Uuid) (patch : StagePatch)
  | requirement (objectId : Uuid) (patch : RequirementPatch)
  | issue (objectId : Uuid) (patch : IssuePatch)
  | work (objectId : Uuid) (patch : WorkPatch)
  | resource (objectId : Uuid) (patch : ResourcePatch)
deriving DecidableEq, Repr

def UpdateMutation.objectId : UpdateMutation → Uuid
  | .projectProfile id _ | .goal id _ | .role id _ | .plan id _ | .stage id _
  | .requirement id _ | .issue id _ | .work id _ | .resource id _ => id

def UpdateMutation.objectType : UpdateMutation → ProjectViewObjectType
  | .projectProfile .. => .projectProfile
  | .goal .. => .goal
  | .role .. => .role
  | .plan .. => .plan
  | .stage .. => .stage
  | .requirement .. => .requirement
  | .issue .. => .issue
  | .work .. => .work
  | .resource .. => .resource

structure DeleteMutation where
  objectType : ProjectViewObjectType
  objectId : Uuid
deriving DecidableEq, Repr

/-- The four operations of schema v1. -/
inductive MutationRequest
  | initializeView (init : InitializeMutation)
  | create (object : NewProjectViewObject)
  | update (update : UpdateMutation)
  | delete (delete : DeleteMutation)
deriving DecidableEq, Repr

end ProjectView

end Carryforth
