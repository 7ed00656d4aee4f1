import Carryforth.ProjectView.Mutation

/-!
# Project View: field and relation validation

The checks on single bodies, patches and relation slots.  The URL parser a legacy locator is checked
with is a parameter.  The relation checks are stated over `Target`, what an identifier resolves to,
so that both reducers use them.
-/

namespace Carryforth

namespace ProjectView

open Fallible

/-- What the domain layer reads of a parsed URL. -/
structure Url where
  username : String
  password : Option String
deriving DecidableEq, Repr

class UrlParser where
  parse : String → Except String Url

@[reducible] def noUrls : UrlParser := { parse := fun _ => .error "relative URL without a base" }

def shortTextMaxBytes : Nat := 256
def longTextMaxBytes : Nat := 32 * 1024
def listMaxItems : Nat := 64
def listItemMaxBytes : Nat := 512
def locatorMaxBytes : Nat := 4096

/-! ## Identifiers and revisions -/

def validateClientGeneratedId (objectId : Uuid) : DomainResult Unit :=
  ensure (objectId.isV4 = true) (.invalidObjectId objectId)

def validateClientObjectId (projectId objectId : Uuid) : DomainResult Unit := do
  ensure (objectId ≠ projectId) (.reservedProfileId objectId)
  validateClientGeneratedId objectId

def validateRevision (revision : Nat) : DomainResult Unit :=
  ensure (revision ≤ maxSafeRevision) (.revisionOutOfRange revision maxSafeRevision)

/-- The revision after `current`; the checked addition fails no later than the bound. -/
def nextRevision (current : Nat) : DomainResult Nat := do
  ensure (current + 1 ≤ maxSafeRevision) .revisionExhausted
  return current + 1

theorem validateRevision_eq_ok {revision : Nat} {u : Unit} :
    validateRevision revision = .ok u ↔ revision ≤ maxSafeRevision := ensure_eq_ok

theorem nextRevision_eq_ok {current next : Nat} :
    nextRevision current = .ok next ↔ current < maxSafeRevision ∧ next = current + 1 := by
  rw [nextRevision, then_eq_ok, ensure_eq_ok, pure_eq_ok, Nat.succ_le_iff, eq_comm (a := next)]

/-! ## Bodies -/

def validateRequiredText (field value : String) (maxBytes : Nat) : DomainResult Unit := do
  ensure (¬Text.isBlank value = true) (.requiredField field)
  ensure (Text.byteLength value ≤ maxBytes) (.fieldTooLong field maxBytes (Text.byteLength value))

def validateRequiredShort (field value : String) : DomainResult Unit :=
  validateRequiredText field value shortTextMaxBytes

def validateRequiredLong (field value : String) : DomainResult Unit :=
  validateRequiredText field value longTextMaxBytes

def validateStringList (field : String) (values : List String) : DomainResult Unit := do
  ensure (values.length ≤ listMaxItems) (.tooManyItems field listMaxItems values.length)
  values.forM fun value => validateRequiredText field value listItemMaxBytes

/-- A summary is absent or non-empty text without NUL. -/
def validateSummary (summary : Option String) : DomainResult Unit :=
  checkSome summary fun summary => do
    ensure (summary ≠ "") (.invalidField "summary" "must be omitted or contain non-empty text")
    ensure ('\x00' ∉ summary.toList) (.invalidField "summary" "must not contain NUL")

def validateLocator [UrlParser] (locator : ResourceLocator) : DomainResult Unit := do
  ensure (¬Text.isBlank locator.value = true) (.requiredField "locator")
  ensure (Text.byteLength locator.value ≤ locatorMaxBytes)
    (.fieldTooLong "locator" locatorMaxBytes (Text.byteLength locator.value))
  ensure (¬locator.value.toList.any Text.isControl = true)
    (.invalidLocator "control characters are not allowed")
  if locator.locatorType = .url then
    let parsed ← within (fun error => .invalidLocator ("URL cannot be parsed: " ++ error))
      (UrlParser.parse locator.value)
    ensure (parsed.username = "" ∧ parsed.password = none)
      (.invalidLocator "URL user information is not allowed")

def validateData [UrlParser] : ProjectViewObjectData → DomainResult Unit
  | .projectProfile profile => do
    validateRequiredShort "name" profile.name
    validateRequiredLong "positioning" profile.positioning
    validateRequiredLong "purpose" profile.purpose
    validateRequiredLong "problem" profile.problem
    validateRequiredLong "scope" profile.scope
    validateSummary profile.summary
  | .goal goal => do
    validateRequiredShort "title" goal.title
    validateRequiredLong "desired_outcome" goal.desiredOutcome
    validateStringList "directions" goal.directions
    validateSummary goal.summary
  | .role role => do
    validateRequiredShort "name" role.name
    validateRequiredLong "purpose" role.purpose
    validateStringList "responsibilities" role.responsibilities
    validateStringList "boundaries" role.boundaries
    validateSummary role.summary
  | .plan plan => do
    validateRequiredShort "title" plan.title
    validateRequiredLong "description" plan.description
    validateSummary plan.summary
  | .stage stage => do
    validateRequiredShort "title" stage.title
    validateRequiredLong "description" stage.description
    validateSummary stage.summary
  | .requirement requirement => do
    validateRequiredShort "title" requirement.title
    validateRequiredLong "description" requirement.description
    validateSummary requirement.summary
  | .issue issue => do
    validateRequiredShort "title" issue.title
    validateRequiredLong "description" issue.description
    validateSummary issue.summary
  | .work work => do
    validateRequiredShort "title" work.title
    validateRequiredLong "description" work.description
    validateSummary work.summary
  | .resource resource => do
    validateRequiredShort "name" resource.name
    validateLocator resource.locator
    validateRequiredLong "description" resource.description

/-! ## Relations -/

/-- The relation slots an object type may use. -/
def allowedRelations : ProjectViewObjectType → List String
  | .projectProfile | .goal | .role | .resource => []
  | .plan => ["under_goal_id"]
  | .stage => ["under_plan_id"]
  | .requirement => ["planned_in_stage_id"]
  | .issue => ["planned_in_stage_id", "about"]
  | .work => ["handles"]

/-- Every slot by name, and whether it is filled. -/
def ProjectViewRelations.slots (relations : ProjectViewRelations) : List (String × Bool) :=
  [("under_goal_id", relations.underGoalId.isSome),
    ("under_plan_id", relations.underPlanId.isSome),
    ("planned_in_stage_id", relations.plannedInStageId.isSome),
    ("about", relations.about.isSome),
    ("handles", relations.handles.isSome)]

def validateRelationShape (objectType : ProjectViewObjectType) (relations : ProjectViewRelations) :
    DomainResult Unit := do
  relations.slots.forM fun (name, present) =>
    ensure (present = true → name ∈ allowedRelations objectType)
      (.relationNotAllowed name objectType)
  match objectType with
  | .stage => ensure (relations.underPlanId ≠ none) (.missingRequiredRelation "under_plan_id")
  | .work => ensure (relations.handles ≠ none) (.missingRequiredRelation "handles")
  | _ => return ()

theorem validateRelationShape_eq_ok {objectType : ProjectViewObjectType}
    {relations : ProjectViewRelations} :
    validateRelationShape objectType relations = .ok () ↔
      (relations.underGoalId ≠ none → objectType = .plan) ∧
      (relations.underPlanId ≠ none → objectType = .stage) ∧
      (relations.plannedInStageId ≠ none → objectType = .requirement ∨ objectType = .issue) ∧
      (relations.about ≠ none → objectType = .issue) ∧
      (relations.handles ≠ none → objectType = .work) ∧
      (objectType = .stage → relations.underPlanId ≠ none) ∧
      (objectType = .work → relations.handles ≠ none) := by
  simp only [validateRelationShape, then_eq_ok, forM_eq_ok, ProjectViewRelations.slots,
    List.forall_mem_cons, List.not_mem_nil, false_implies, implies_true, and_true, ensure_eq_ok,
    Option.isSome_iff_ne_none]
  cases objectType <;> simp [allowedRelations, and_assoc]

/-- What a relation finds under an identifier. -/
inductive Target
  | active (objectType : ProjectViewObjectType)
  | deleted
deriving DecidableEq, Repr

def activeTarget (resolve : Uuid → Option Target) (relation : String) (targetId : Uuid) :
    DomainResult ProjectViewObjectType :=
  match resolve targetId with
  | some (.active objectType) => .ok objectType
  | some .deleted => .error (.relationTargetDeleted relation targetId)
  | none => .error (.relationTargetNotFound relation targetId)

def validateTypedTarget (resolve : Uuid → Option Target) (relation : String) (targetId : Uuid)
    (expected : ProjectViewObjectType) : DomainResult Unit := do
  let actual ← activeTarget resolve relation targetId
  ensure (actual = expected) (.relationTargetTypeMismatch relation targetId expected actual)

def validateDeclaredTarget (resolve : Uuid → Option Target) (relation : String)
    (target : ObjectRef) : DomainResult Unit :=
  validateTypedTarget resolve relation target.objectId target.objectType

def validateWorkTarget (actual : ProjectViewObjectType) : DomainResult Unit :=
  ensure (actual = .requirement ∨ actual = .issue) (.invalidWorkTarget actual)

/-- Every relation of object `id` finds an active object of the right type. -/
def validateRelationTargets (resolve : Uuid → Option Target) (id : Uuid)
    (relations : ProjectViewRelations) : DomainResult Unit := do
  checkSome relations.underGoalId fun targetId =>
    validateTypedTarget resolve "under_goal_id" targetId .goal
  checkSome relations.underPlanId fun targetId =>
    validateTypedTarget resolve "under_plan_id" targetId .plan
  checkSome relations.plannedInStageId fun targetId =>
    validateTypedTarget resolve "planned_in_stage_id" targetId .stage
  checkSome relations.about fun target => do
    ensure (target.objectId ≠ id) (.selfReference "about" id)
    validateDeclaredTarget resolve "about" target
  checkSome relations.handles fun target => do
    validateWorkTarget target.objectType
    validateDeclaredTarget resolve "handles" target

/-- The first slot that points to `targetId`. -/
def ProjectViewRelations.pointing (relations : ProjectViewRelations) (targetId : Uuid) :
    Option String :=
  if relations.underGoalId = some targetId then some "under_goal_id"
  else if relations.underPlanId = some targetId then some "under_plan_id"
  else if relations.plannedInStageId = some targetId then some "planned_in_stage_id"
  else if relations.about.any (fun reference => reference.objectId = targetId) then some "about"
  else if relations.handles.any (fun reference => reference.objectId = targetId) then
    some "handles"
  else none

/-- The first relation by which one of the sources points to `targetId`. -/
def firstIncomingRelation (sources : List ProjectViewRelations) (targetId : Uuid) :
    Option String :=
  sources.findSome? fun relations => relations.pointing targetId

/-! ## Patches and requests -/

/-- A required field of a patch cannot be cleared, and what it sets passes the field's check. -/
def validatePatch {α : Type} (check : String → α → DomainResult Unit) (patch : Patch α)
    (field : String) : DomainResult Unit :=
  match patch with
  | .unchanged => .ok ()
  | .clear => .error (.requiredField field)
  | .set value => check field value

def validateShortPatch : Patch String → String → DomainResult Unit :=
  validatePatch validateRequiredShort

def validateLongPatch : Patch String → String → DomainResult Unit :=
  validatePatch validateRequiredLong

def validateListPatch : Patch (List String) → String → DomainResult Unit :=
  validatePatch validateStringList

def validateRequiredPatch {α : Type} (patch : Patch α) (field : String) : DomainResult Unit :=
  ensure (¬patch.isClear = true) (.requiredField field)

def validateRequiredRelationPatch {α : Type} (patch : Patch α) (relation : String) :
    DomainResult Unit :=
  ensure (¬patch.isClear = true) (.missingRequiredRelation relation)

def validateUpdateFields [UrlParser] : UpdateMutation → DomainResult Bool
  | .projectProfile _ patch => do
    validateShortPatch patch.name "name"
    validateLongPatch patch.positioning "positioning"
    validateLongPatch patch.purpose "purpose"
    validateLongPatch patch.problem "problem"
    validateLongPatch patch.scope "scope"
    return !patch.name.isUnchanged || !patch.positioning.isUnchanged ||
      !patch.purpose.isUnchanged || !patch.problem.isUnchanged || !patch.scope.isUnchanged
  | .goal _ patch => do
    validateShortPatch patch.title "title"
    validateLongPatch patch.desiredOutcome "desired_outcome"
    validateListPatch patch.directions "directions"
    return !patch.title.isUnchanged || !patch.desiredOutcome.isUnchanged ||
      !patch.directions.isUnchanged
  | .role _ patch => do
    validateShortPatch patch.name "name"
    validateLongPatch patch.purpose "purpose"
    validateListPatch patch.responsibilities "responsibilities"
    validateListPatch patch.boundaries "boundaries"
    validateRequiredPatch patch.active "active"
    return !patch.name.isUnchanged || !patch.purpose.isUnchanged ||
      !patch.responsibilities.isUnchanged || !patch.boundaries.isUnchanged ||
      !patch.active.isUnchanged
  | .plan _ patch => do
    validateShortPatch patch.title "title"
    validateLongPatch patch.description "description"
    validateRequiredPatch patch.status "status"
    return !patch.title.isUnchanged || !patch.description.isUnchanged ||
      !patch.status.isUnchanged || !patch.underGoalId.isUnchanged
  | .stage _ patch => do
    validateShortPatch patch.title "title"
    validateLongPatch patch.description "description"
    validateRequiredPatch patch.status "status"
    validateRequiredRelationPatch patch.underPlanId "under_plan_id"
    return !patch.title.isUnchanged || !patch.description.isUnchanged ||
      !patch.status.isUnchanged || !patch.underPlanId.isUnchanged
  | .requirement _ patch => do
    validateShortPatch patch.title "title"
    validateLongPatch patch.description "description"
    validateRequiredPatch patch.status "status"
    validateRequiredPatch patch.priority "priority"
    return !patch.title.isUnchanged || !patch.description.isUnchanged ||
      !patch.status.isUnchanged || !patch.priority.isUnchanged ||
      !patch.plannedInStageId.isUnchanged
  | .issue objectId patch => do
    validateShortPatch patch.title "title"
    validateLongPatch patch.description "description"
    validateRequiredPatch patch.status "status"
    validateRequiredPatch patch.priority "priority"
    match patch.about with
    | .set reference => ensure (reference.objectId ≠ objectId) (.selfReference "about" objectId)
    | _ => pure ()
    return !patch.title.isUnchanged || !patch.description.isUnchanged ||
      !patch.status.isUnchanged || !patch.priority.isUnchanged ||
      !patch.plannedInStageId.isUnchanged || !patch.about.isUnchanged
  | .work _ patch => do
    validateShortPatch patch.title "title"
    validateLongPatch patch.description "description"
    validateRequiredPatch patch.status "status"
    validateRequiredPatch patch.priority "priority"
    validateRequiredRelationPatch patch.handles "handles"
    match patch.handles with
    | .set reference => validateWorkTarget reference.objectType
    | _ => pure ()
    return !patch.title.isUnchanged || !patch.description.isUnchanged ||
      !patch.status.isUnchanged || !patch.priority.isUnchanged || !patch.handles.isUnchanged
  | .resource _ patch => do
    validateShortPatch patch.name "name"
    validateRequiredPatch patch.resourceType "resource_type"
    validatePatch (fun _ => validateLocator) patch.locator "locator"
    validateLongPatch patch.description "description"
    return !patch.name.isUnchanged || !patch.resourceType.isUnchanged ||
      !patch.locator.isUnchanged || !patch.description.isUnchanged

def validateUpdateInput [UrlParser] (update : UpdateMutation) : DomainResult Unit := do
  checkIf (update.objectType ≠ .projectProfile) (validateClientGeneratedId update.objectId)
  let changed ← validateUpdateFields update
  ensure (changed = true) .noChanges

/-- The goals of an initialization: each identifier is new, each body passes its check. -/
def validateInitialGoals [UrlParser] (goals : List InitializeGoal) : DomainResult Unit := do
  let _ ← goals.foldlM (fun ids goal => do
    validateClientGeneratedId goal.id
    ensure (goal.id ∉ ids) (.objectIdAlreadyUsed goal.id)
    validateData (.goal goal.intoGoal)
    return goal.id :: ids) []

/-- The checks on a request that do not depend on the current state. -/
def validateMutationInput [UrlParser] : MutationRequest → DomainResult Unit
  | .initializeView init => do
    ensure (1 ≤ init.goals.length ∧ init.goals.length ≤ maxInitialGoals)
      (.invalidInitialGoalCount 1 maxInitialGoals init.goals.length)
    validateData (.projectProfile init.profile)
    validateInitialGoals init.goals
  | .create object => do
    let (objectId, data, relations) := object.intoParts
    validateClientGeneratedId objectId
    validateData data
    validateRelationShape data.objectType relations
    match data with
    | .issue _ =>
      ensure (¬relations.about.any (fun reference => reference.objectId = objectId) = true)
        (.selfReference "about" objectId)
    | .work _ => checkSome relations.handles fun reference => validateWorkTarget reference.objectType
    | _ => return ()
  | .update update => validateUpdateInput update
  | .delete delete => do
    ensure (delete.objectType ≠ .projectProfile) .profileDeletionForbidden
    validateClientGeneratedId delete.objectId

end ProjectView

end Carryforth
