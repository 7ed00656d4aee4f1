import Carryforth.RoleContinuity.Transition

/-!
# Role continuity: the reducer

`reduce` applies one signed command; `reduceUnrecoverableAssignment` is the one transition the
system makes on its own.  `applyRequest` is the part of `reduce` between the fences and the final
validation, one function for each command.
-/

namespace Carryforth

namespace RoleContinuity

open Fallible

/-- The revision after `projectRevision`, unless it would leave the safe range. -/
def nextRevision (projectRevision : Nat) : Result Nat := do
  ensure (projectRevision + 1 ≤ maxSafeRevision) .revisionOverflow
  return projectRevision + 1

namespace RoleContinuityState

variable (s : RoleContinuityState) (command : RoleCommand) (actor : PublicKey)
  (canonicalTime : DateTime) (nextRevision : Nat) (generatedIds : GeneratedRoleContinuityIds)

/-! ## Proposal commands -/

def applyRequestRole (proposalId roleId : Uuid) (expiresAt : DateTime) (reason : Option String) :
    Result Draft := do
  let next ← s.createProposal proposalId roleId actor .request expiresAt reason actor canonicalTime
    nextRevision none
  return next.draft

def applyOfferRole (proposalId roleId : Uuid) (candidatePubkey : PublicKey) (expiresAt : DateTime)
    (reason : Option String) : Result Draft := do
  s.requireGovernorFence command actor
  let next ← s.createProposal proposalId roleId candidatePubkey .offer expiresAt reason actor
    canonicalTime nextRevision (some actor)
  next.draft.completeProposalIfReady proposalId canonicalTime nextRevision generatedIds

def applyAcceptProposal (proposalId : Uuid) : Result Draft := do
  let proposal ← s.openProposal proposalId canonicalTime
  ensure (proposal.candidatePubkey = actor) .candidateRequired
  ensure (proposal.candidateAcceptedAt = none) .alreadyConfirmed
  -- a stored authorization is checked again before the acceptance is written
  checkSome proposal.authorizedBy fun authorizer => s.authorizeCompleteMove proposal authorizer
  let next ← s.updateProposal proposalId fun proposal => touchProposal { proposal with
    candidateAcceptedAt := some canonicalTime } nextRevision
  next.draft.completeProposalIfReady proposalId canonicalTime nextRevision generatedIds

def applyAuthorizeProposal (proposalId : Uuid) : Result Draft := do
  s.requireGovernorFence command actor
  let proposal ← s.openProposal proposalId canonicalTime
  s.authorizeCompleteMove proposal actor
  ensure (proposal.authorizedAt = none) .alreadyConfirmed
  let next ← s.updateProposal proposalId fun proposal => touchProposal { proposal with
    authorizedBy := some actor
    authorizedAt := some canonicalTime } nextRevision
  next.draft.completeProposalIfReady proposalId canonicalTime nextRevision generatedIds

def resolveStored (proposalId : Uuid) (status : ProposalStatus) (reason : Option String) :
    Result Draft := do
  let next ← s.updateProposal proposalId fun proposal =>
    resolveProposal proposal status reason canonicalTime nextRevision
  return next.draft

def applyRejectProposal (proposalId : Uuid) (reason : Option String) : Result Draft := do
  let proposal ← s.openProposal proposalId canonicalTime
  checkIf (proposal.candidatePubkey ≠ actor) do
    s.requireGovernorFence command actor
    s.authorizeCompleteMove proposal actor
  s.resolveStored canonicalTime nextRevision proposalId .rejected reason

def applyWithdrawProposal (proposalId : Uuid) (reason : Option String) : Result Draft := do
  let proposal ← s.openProposal proposalId canonicalTime
  ensure (proposal.createdBy = actor) .creatorRequired
  s.resolveStored canonicalTime nextRevision proposalId .withdrawn reason

def applyExpireProposal (proposalId : Uuid) : Result Draft := do
  let proposal ← okOr s.proposals[proposalId]? .proposalNotFound
  ensure (proposal.status = .open) .proposalNotOpen
  ensure (¬canonicalTime < proposal.expiresAt) .proposalNotExpired
  s.resolveStored canonicalTime nextRevision proposalId .expired none

/-! ## Assignment commands -/

def applyEndAssignment (assignmentId : Uuid) : Result Draft := do
  let assignment ← s.activeAssignment assignmentId
  s.authorizeAssignmentEnd actor assignment
  let needed ← s.assignmentEndRequiresRoleAuthority actor assignment
  checkIf (needed = true) (s.requireGovernorFence command actor)
  let (commitmentIds, next) ← s.endAssignment assignmentId actor .revoked none canonicalTime
    nextRevision
  let (next, membershipRoles) ← next.recordDesiredMemberRole assignment.memberPubkey ∅
  return ⟨next, membershipRoles, Std.ExtTreeMap.insert ∅ assignmentId commitmentIds⟩

/-- A report of the assignee on its own Assignment, made at most once. -/
def applyReport (assignmentId : Uuid) (reported : RoleAssignment → Option DateTime)
    (write : RoleAssignment → RoleAssignment) : Result Draft := do
  s.requireAssigneeAction command actor assignmentId
  let assignment ← okOr s.assignments[assignmentId]? .assignmentNotFound
  ensure (reported assignment = none) .alreadyReported
  let assignment ← touchAssignment (write assignment) nextRevision
  return draft { s with assignments := s.assignments.insert assignmentId assignment }

def applyRequestReplacement (assignmentId : Uuid) (reason : Option String) : Result Draft :=
  s.applyReport command actor nextRevision assignmentId (·.replacementRequestedAt)
    fun assignment => { assignment with
      replacementRequestedAt := some canonicalTime
      replacementRequestReason := reason }

def applyReportUnableToContinue (assignmentId : Uuid) (reason : Option String) : Result Draft :=
  s.applyReport command actor nextRevision assignmentId (·.unableReportedAt)
    fun assignment => { assignment with
      unableReportedAt := some canonicalTime
      unableReportReason := reason }

/-! ## Work commands -/

def applySetWorkResponsibility (workId : Uuid) (responsibleRoleId : Option Uuid) :
    Result Draft := do
  s.requireGovernorFence command actor
  ensure (s.activeCommitmentForWork workId = none) .activeCommitmentConflict
  checkSome responsibleRoleId fun roleId => do
    let role ← okOr s.roles[roleId]? .roleNotFound
    ensure (role.active = true) .roleInactive
  let work ← okOr (s.works[workId]?.filter (·.status.isSome)) .workNotFound
  ensure (work.responsibleRoleId ≠ responsibleRoleId) .responsibilityUnchanged
  let work ← touchWork { work with responsibleRoleId } actor canonicalTime nextRevision
  return draft { s with works := s.works.insert workId work }

/-- The Assignment a role-bearing command acts through, which must be the signer's. -/
def actingAssignee : Result Uuid := do
  let assignmentId ← okOr command.actingAssignmentId .actingAssignmentRequired
  s.requireAssigneeAction command actor assignmentId
  return assignmentId

def applyAcceptWork (commitmentId workId : Uuid) : Result Draft := do
  let assignmentId ← s.actingAssignee command actor
  let next ← s.createCommitment commitmentId workId assignmentId actor canonicalTime nextRevision
  return next.draft

def applyEndCommitment (commitmentId : Uuid) : Result Draft := do
  let assignmentId ← s.actingAssignee command actor
  let commitment ← s.activeCommitment commitmentId
  ensure (commitment.assignmentId = assignmentId ∧ commitment.memberPubkey = actor)
    .commitmentAssigneeRequired
  let next ← s.endCommitment commitmentId actor .released canonicalTime nextRevision
  return next.draft

def applyReplaceCommitment (commitmentId workId expectedCommitmentId : Uuid) : Result Draft := do
  let assignmentId ← s.actingAssignee command actor
  let current ← s.activeCommitment expectedCommitmentId
  ensure (current.workId = workId ∧ current.assignmentId = assignmentId ∧
    current.memberPubkey = actor) .commitmentFenceConflict
  let next ← s.endCommitment expectedCommitmentId actor .replaced canonicalTime nextRevision
  let next ← next.createCommitment commitmentId workId assignmentId actor canonicalTime nextRevision
  return next.draft

def applyAppendCheckpoint (checkpointId : Uuid) (basedOnProjectRevision : Nat)
    (content : RoleCheckpointContent) (supersedesCheckpointId : Option Uuid) : Result Draft := do
  let assignmentId ← s.actingAssignee command actor
  let next ← s.appendCheckpoint checkpointId assignmentId basedOnProjectRevision content
    supersedesCheckpointId actor canonicalTime nextRevision
  return next.draft

def applyAppendHandoff (handoffId : Uuid) (toAssignmentId checkpointId : Option Uuid)
    (content : RoleHandoffContent) (cause : HandoffCause) : Result Draft := do
  let assignmentId ← s.actingAssignee command actor
  let next ← s.appendHandoff handoffId assignmentId toAssignmentId checkpointId content cause actor
    canonicalTime nextRevision
  return next.draft

/-! ## Reductions -/

def applyRequest : Result Draft :=
  match command.request with
  | .requestRole proposalId roleId expiresAt reason =>
    s.applyRequestRole actor canonicalTime nextRevision proposalId roleId expiresAt reason
  | .offerRole proposalId roleId candidatePubkey expiresAt reason =>
    s.applyOfferRole command actor canonicalTime nextRevision generatedIds proposalId roleId
      candidatePubkey expiresAt reason
  | .acceptProposal proposalId =>
    s.applyAcceptProposal actor canonicalTime nextRevision generatedIds proposalId
  | .authorizeProposal proposalId =>
    s.applyAuthorizeProposal command actor canonicalTime nextRevision generatedIds proposalId
  | .rejectProposal proposalId reason =>
    s.applyRejectProposal command actor canonicalTime nextRevision proposalId reason
  | .withdrawProposal proposalId reason =>
    s.applyWithdrawProposal actor canonicalTime nextRevision proposalId reason
  | .expireProposal proposalId => s.applyExpireProposal canonicalTime nextRevision proposalId
  | .endAssignment assignmentId _ =>
    s.applyEndAssignment command actor canonicalTime nextRevision assignmentId
  | .requestReplacement assignmentId reason =>
    s.applyRequestReplacement command actor canonicalTime nextRevision assignmentId reason
  | .reportUnableToContinue assignmentId reason =>
    s.applyReportUnableToContinue command actor canonicalTime nextRevision assignmentId reason
  | .setWorkResponsibility workId responsibleRoleId =>
    s.applySetWorkResponsibility command actor canonicalTime nextRevision workId responsibleRoleId
  | .acceptWork commitmentId workId =>
    s.applyAcceptWork command actor canonicalTime nextRevision commitmentId workId
  | .endCommitment commitmentId _ =>
    s.applyEndCommitment command actor canonicalTime nextRevision commitmentId
  | .replaceCommitment commitmentId workId expectedCommitmentId =>
    s.applyReplaceCommitment command actor canonicalTime nextRevision commitmentId workId
      expectedCommitmentId
  | .appendCheckpoint checkpointId basedOnProjectRevision content supersedesCheckpointId =>
    s.applyAppendCheckpoint command actor canonicalTime nextRevision checkpointId
      basedOnProjectRevision content supersedesCheckpointId
  | .appendHandoff handoffId toAssignmentId checkpointId content cause =>
    s.applyAppendHandoff command actor canonicalTime nextRevision handoffId toAssignmentId
      checkpointId content cause

/-- Apply one signed command at canonical time. -/
def reduce : Result (RoleContinuityState × RoleContinuityOutcome) := do
  command.validateForSubmission
  ensure (command.expectedProjectRevision = s.projectRevision)
    (.revisionConflict command.expectedProjectRevision s.projectRevision)
  let nextRevision ← RoleContinuity.nextRevision s.projectRevision
  s.validateActorFence command actor
  let d ← s.applyRequest command actor canonicalTime nextRevision generatedIds
  let next := { d.next with projectRevision := nextRevision }
  next.validate
  let changes := changedEntities s.entityMap next.entityMap
  let workChanges := changedWorks s.works next.works
  ensure (¬(changes = [] ∧ workChanges = []))
    (.invalidState "accepted command produced no canonical change")
  return (next, {
    projectRevision := nextRevision
    changes, workChanges
    membershipRoles := d.membershipRoles
    endedCommitments := d.affectedCommitments })

/-- The transition of the system itself: end a tenure whose managed runtime cannot recover. -/
def reduceUnrecoverableAssignment (assignmentId : Uuid) (systemActor : PublicKey)
    (handoffId : Uuid) : Result (RoleContinuityState × RoleContinuityOutcome) := do
  requireId assignmentId "assignment_id"
  requireId handoffId "handoff_id"
  ensure (¬s.handoffs.contains handoffId = true) .idCollision
  let assignment ← s.activeAssignment assignmentId
  let member ← okOr (s.members[assignment.memberPubkey]?.filter fun member =>
    member.eligible && member.isManagedAgent) .candidateIneligible
  ensure (¬member.isOwner = true) .notAuthorized
  let nextRevision ← RoleContinuity.nextRevision s.projectRevision
  let checkpointId := s.latestCheckpointForAssignment assignmentId
  let (commitmentIds, next) ← s.endAssignment assignmentId systemActor .unrecoverable none
    canonicalTime nextRevision
  let handoff := next.unrecoverableHandoff handoffId assignment.roleId assignmentId checkpointId
    commitmentIds canonicalTime nextRevision
  let next := { next with handoffs := next.handoffs.insert handoffId handoff }
  let (next, membershipRoles) ← next.recordDesiredMemberRole assignment.memberPubkey ∅
  let next := { next with projectRevision := nextRevision }
  next.validate
  let changes := changedEntities s.entityMap next.entityMap
  ensure (¬changes = []) (.invalidState "unrecoverable system action produced no canonical change")
  return (next, {
    projectRevision := nextRevision
    changes
    workChanges := []
    membershipRoles
    endedCommitments := Std.ExtTreeMap.insert ∅ assignmentId commitmentIds })

end RoleContinuityState

end RoleContinuity

end Carryforth
