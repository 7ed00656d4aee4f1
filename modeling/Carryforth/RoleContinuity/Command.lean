import Carryforth.RoleContinuity.Model

/-!
# Role continuity: commands

The closed set of signed Role commands, the failures of the protocol, and the checks on a command
that need no canonical state.
-/

namespace Carryforth

namespace RoleContinuity

open Fallible

inductive RoleContinuityError
  | unsupportedSchema
  | invalidCommand (message : String)
  | revisionConflict (expected current : Nat)
  | revisionOverflow
  | roleNotFound
  | roleInactive
  | candidateIneligible
  | proposalNotFound
  | proposalNotOpen
  | proposalExpired
  | proposalNotExpired
  | invalidProposalDeadline
  | duplicateProposal
  | candidateRequired
  | creatorRequired
  | alreadyConfirmed
  | assignmentNotFound
  | assignmentEnded
  | actingAssignmentRequired
  | actingAssignmentInvalid
  | assigneeRequired
  | workNotFound
  | workClosed
  | responsibilityRequired
  | responsibilityUnchanged
  | activeCommitmentConflict
  | workRoleMismatch
  | commitmentNotFound
  | commitmentEnded
  | commitmentAssigneeRequired
  | commitmentFenceConflict
  | checkpointNotFound
  | checkpointBaselineInvalid
  | checkpointSupersedesInvalid
  | handoffTargetInvalid
  | handoffCheckpointInvalid
  | handoffCauseInvalid
  | referenceNotFound
  | notAuthorized
  | ownerRequired
  | selfEndForbidden
  | peerLeaderForbidden
  | managedLeaderTargetUnknown
  | compoundFenceConflict
  | idCollision
  | missingGeneratedId
  | alreadyReported
  | invalidState (message : String)
deriving DecidableEq, Repr

/-- The result of a fallible Role continuity operation. -/
abbrev Result := Except RoleContinuityError

inductive RoleCommandRequest
  | requestRole (proposalId roleId : Uuid) (expiresAt : DateTime) (reason : Option String)
  | offerRole (proposalId roleId : Uuid) (candidatePubkey : PublicKey) (expiresAt : DateTime)
      (reason : Option String)
  | acceptProposal (proposalId : Uuid)
  | rejectProposal (proposalId : Uuid) (reason : Option String)
  | withdrawProposal (proposalId : Uuid) (reason : Option String)
  | expireProposal (proposalId : Uuid)
  | authorizeProposal (proposalId : Uuid)
  | endAssignment (assignmentId : Uuid) (reason : Option String)
  | requestReplacement (assignmentId : Uuid) (reason : Option String)
  | reportUnableToContinue (assignmentId : Uuid) (reason : Option String)
  | setWorkResponsibility (workId : Uuid) (responsibleRoleId : Option Uuid)
  | acceptWork (commitmentId workId : Uuid)
  | endCommitment (commitmentId : Uuid) (reason : Option String)
  | replaceCommitment (commitmentId workId expectedCommitmentId : Uuid)
  | appendCheckpoint (checkpointId : Uuid) (basedOnProjectRevision : Nat)
      (content : RoleCheckpointContent) (supersedesCheckpointId : Option Uuid)
  | appendHandoff (handoffId : Uuid) (toAssignmentId checkpointId : Option Uuid)
      (content : RoleHandoffContent) (cause : HandoffCause)
deriving DecidableEq, Repr

inductive RoleActorIntent
  | communityIdentity
  | candidateOrGovernor
  | governor
  | roleBearing
deriving DecidableEq, Repr

def RoleCommandRequest.actorIntent : RoleCommandRequest → RoleActorIntent
  | .requestRole .. | .acceptProposal .. | .withdrawProposal .. | .expireProposal .. =>
    .communityIdentity
  | .rejectProposal .. => .candidateOrGovernor
  | .offerRole .. | .authorizeProposal .. | .endAssignment .. | .setWorkResponsibility .. =>
    .governor
  | .requestReplacement .. | .reportUnableToContinue .. | .acceptWork .. | .endCommitment ..
  | .replaceCommitment .. | .appendCheckpoint .. | .appendHandoff .. => .roleBearing

structure RoleCommand where
  schemaVersion : Nat
  expectedProjectRevision : Nat
  actingAssignmentId : Option Uuid
  runtimeFence : Option RuntimeFence
  request : RoleCommandRequest
deriving DecidableEq, Repr

def RoleCommand.new (expectedProjectRevision : Nat) (actingAssignmentId : Option Uuid)
    (request : RoleCommandRequest) : RoleCommand where
  schemaVersion := SchemaVersion.v2.asU16
  expectedProjectRevision := expectedProjectRevision
  actingAssignmentId := actingAssignmentId
  runtimeFence := none
  request := request

/-- Identifiers the Relay generates for one reduction. -/
structure GeneratedRoleContinuityIds where
  assignmentId : Uuid
  handoffIds : List Uuid
deriving DecidableEq, Repr

/-! ## Scalar and content checks -/

def maxReasonBytes : Nat := 4096
def maxContinuitySummaryBytes : Nat := 8192
def maxContinuityItemBytes : Nat := 2048
def maxContinuityLabelBytes : Nat := 256
def maxContinuityItems : Nat := 64
def maxContinuityReferences : Nat := 128

def maxProposalLifetimeDays : Int := 30

def requireId (id : Uuid) (field : String) : Result Unit :=
  ensure (¬id.isNil = true) (.invalidCommand (field ++ " cannot be nil"))

/-- Text that is not blank and at most `maxBytes` long; the message names the field. -/
def validateRequiredText (value field : String) (maxBytes : Nat) : Result Unit :=
  ensure (¬(Text.isBlank value = true ∨ Text.byteLength value > maxBytes))
    (.invalidCommand (field ++ " must contain 1..=" ++ toString maxBytes ++ " bytes"))

def validateOptionalReason (reason : Option String) : Result Unit :=
  checkSome reason fun reason => validateRequiredText reason "reason" maxReasonBytes

def validateContinuityItems (field : String) (items : List String) : Result Unit := do
  ensure (¬items.length > maxContinuityItems)
    (.invalidCommand
      (field ++ " cannot contain more than " ++ toString maxContinuityItems ++ " items"))
  items.forM fun item => validateRequiredText item field maxContinuityItemBytes

def validateReferenceId : RoleContinuityReference → Result Unit
  | .object objectId _ => requireId objectId "reference.object_id"
  | .assignment assignmentId _ => requireId assignmentId "reference.assignment_id"
  | .commitment commitmentId _ => requireId commitmentId "reference.commitment_id"
  | .nostrEvent eventId _ =>
    ensure (eventId ≠ 0) (.invalidCommand "reference.event_id cannot be all zeroes")

def validateReferenceShape (references : List RoleContinuityReference) : Result Unit := do
  ensure (¬references.length > maxContinuityReferences)
    (.invalidCommand
      ("references cannot contain more than " ++ toString maxContinuityReferences ++ " items"))
  references.forM fun reference => do
    validateReferenceId reference
    checkSome reference.label fun label =>
      validateRequiredText label "reference.label" maxContinuityLabelBytes

def validateCheckpointContent (content : RoleCheckpointContent) : Result Unit := do
  validateRequiredText content.summary "checkpoint.summary" maxContinuitySummaryBytes
  [("checkpoint.current_focus", content.currentFocus), ("checkpoint.progress", content.progress),
    ("checkpoint.blockers", content.blockers), ("checkpoint.risks", content.risks),
    ("checkpoint.open_questions", content.openQuestions),
    ("checkpoint.next_steps", content.nextSteps)].forM fun (field, items) =>
      validateContinuityItems field items
  validateReferenceShape content.references

def validateHandoffContent (content : RoleHandoffContent) : Result Unit := do
  checkSome content.summary fun summary =>
    validateRequiredText summary "handoff.summary" maxContinuitySummaryBytes
  validateContinuityItems "handoff.unresolved_items" content.unresolvedItems
  validateReferenceShape content.references

/-! ## Submission checks -/

/-- The checks of the payload of a command based on project revision `expectedProjectRevision`. -/
def RoleCommandRequest.validateForSubmission (expectedProjectRevision : Nat) :
    RoleCommandRequest → Result Unit
  | .requestRole proposalId roleId _ reason | .offerRole proposalId roleId _ _ reason => do
    requireId proposalId "proposal_id"
    requireId roleId "role_id"
    validateOptionalReason reason
  | .acceptProposal proposalId | .authorizeProposal proposalId | .expireProposal proposalId =>
    requireId proposalId "proposal_id"
  | .rejectProposal proposalId reason | .withdrawProposal proposalId reason => do
    requireId proposalId "proposal_id"
    validateOptionalReason reason
  | .endAssignment assignmentId reason | .requestReplacement assignmentId reason
  | .reportUnableToContinue assignmentId reason => do
    requireId assignmentId "assignment_id"
    validateOptionalReason reason
  | .setWorkResponsibility workId responsibleRoleId => do
    requireId workId "work_id"
    checkSome responsibleRoleId fun roleId => requireId roleId "responsible_role_id"
  | .acceptWork commitmentId workId => do
    requireId commitmentId "commitment_id"
    requireId workId "work_id"
  | .endCommitment commitmentId reason => do
    requireId commitmentId "commitment_id"
    validateOptionalReason reason
  | .replaceCommitment commitmentId workId expectedCommitmentId => do
    requireId commitmentId "commitment_id"
    requireId workId "work_id"
    requireId expectedCommitmentId "expected_commitment_id"
    ensure (¬commitmentId = expectedCommitmentId)
      (.invalidCommand "replacement Commitment must use a new identifier")
  | .appendCheckpoint checkpointId basedOnProjectRevision content supersedesCheckpointId => do
    requireId checkpointId "checkpoint_id"
    ensure (¬(basedOnProjectRevision = 0 ∨ basedOnProjectRevision > expectedProjectRevision))
      (.invalidCommand "based_on_project_revision must be within the signed Project baseline")
    checkSome supersedesCheckpointId fun supersedesCheckpointId => do
      requireId supersedesCheckpointId "supersedes_checkpoint_id"
      ensure (¬supersedesCheckpointId = checkpointId)
        (.invalidCommand "a Checkpoint cannot supersede itself")
    validateCheckpointContent content
  | .appendHandoff handoffId toAssignmentId checkpointId content cause => do
    requireId handoffId "handoff_id"
    checkSome toAssignmentId fun toAssignmentId => requireId toAssignmentId "to_assignment_id"
    checkSome checkpointId fun checkpointId => requireId checkpointId "checkpoint_id"
    ensure (cause = .planned ∨ cause = .other)
      (.invalidCommand "member-authored Handoff cause must be planned or other")
    validateHandoffContent content

/-- The checks of a command that need no canonical state. -/
def RoleCommand.validateForSubmission (command : RoleCommand) : Result Unit := do
  ensure (command.schemaVersion = SchemaVersion.v2.asU16) .unsupportedSchema
  ensure (¬(command.expectedProjectRevision = 0 ∨
      command.expectedProjectRevision > maxSafeRevision))
    (.invalidCommand "expected_project_revision must be in the JavaScript-safe positive range")
  checkSome command.actingAssignmentId fun assignmentId =>
    requireId assignmentId "acting_assignment_id"
  checkSome command.runtimeFence fun runtimeFence => do
    runtimeFence.validate.mapError .invalidCommand
    ensure (command.actingAssignmentId.isSome = true)
      (.invalidCommand "runtime_fence requires acting_assignment_id")
  command.request.validateForSubmission command.expectedProjectRevision

end RoleContinuity

end Carryforth
