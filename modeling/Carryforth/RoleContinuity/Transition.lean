import Carryforth.RoleContinuity.Authority
import Carryforth.RoleContinuity.Outcome

/-!
# Role continuity: transitions

The state changes the reducer is assembled from.  An operation that updates the state in place
returns the new state; one that fails leaves nothing behind.
-/

namespace Carryforth

namespace RoleContinuity

open Fallible

/-! ## Revisions and resolution -/

def touchProposal (proposal : RoleAssignmentProposal) (nextRevision : Nat) :
    Result RoleAssignmentProposal :=
  Versioned.touch maxSafeRevision .revisionOverflow proposal nextRevision

def touchAssignment (assignment : RoleAssignment) (nextRevision : Nat) : Result RoleAssignment :=
  Versioned.touch maxSafeRevision .revisionOverflow assignment nextRevision

def touchCommitment (commitment : WorkCommitment) (nextRevision : Nat) : Result WorkCommitment :=
  Versioned.touch maxSafeRevision .revisionOverflow commitment nextRevision

/-- Unlike the entities, a Work advances at every write. -/
def touchWork (work : WorkResponsibility) (actor : PublicKey) (canonicalTime : DateTime)
    (nextRevision : Nat) : Result WorkResponsibility := do
  ensure (work.objectRevision + 1 ≤ maxSafeRevision) .revisionOverflow
  return { work with
    objectRevision := work.objectRevision + 1
    projectRevision := nextRevision
    updatedAt := canonicalTime
    updatedBy := actor }

def resolveProposal (proposal : RoleAssignmentProposal) (status : ProposalStatus)
    (reason : Option String) (canonicalTime : DateTime) (nextRevision : Nat) :
    Result RoleAssignmentProposal :=
  touchProposal { proposal with status, reason, resolvedAt := some canonicalTime } nextRevision

namespace RoleContinuityState

variable (s : RoleContinuityState)

/-! ## Commitments, Checkpoints and written Handoffs -/

def createCommitment (commitmentId workId assignmentId : Uuid) (actor : PublicKey)
    (canonicalTime : DateTime) (nextRevision : Nat) : Result RoleContinuityState := do
  ensure (¬s.commitments.contains commitmentId = true) .idCollision
  ensure (s.activeCommitmentForWork workId = none) .activeCommitmentConflict
  let assignment ← s.activeAssignment assignmentId
  ensure (assignment.memberPubkey = actor) .commitmentAssigneeRequired
  let work ← okOr (s.works[workId]?.filter (·.status.isSome)) .workNotFound
  ensure (work.isOpen = true) .workClosed
  let responsibleRoleId ← okOr work.responsibleRoleId .responsibilityRequired
  ensure (responsibleRoleId = assignment.roleId) .workRoleMismatch
  let commitment : WorkCommitment :=
    { commitmentId, workId, assignmentId
      memberPubkey := actor
      startedAt := canonicalTime
      startedBy := actor
      endedAt := none
      endedBy := none
      endedReason := none
      entityRevision := 1
      projectRevision := nextRevision }
  return { s with commitments := s.commitments.insert commitmentId commitment }

def endCommitment (commitmentId : Uuid) (actor : PublicKey) (reason : CommitmentEndReason)
    (canonicalTime : DateTime) (nextRevision : Nat) : Result RoleContinuityState := do
  let commitment ← okOr s.commitments[commitmentId]? .commitmentNotFound
  ensure (commitment.isActive = true) .commitmentEnded
  let commitment ← touchCommitment { commitment with
    endedAt := some canonicalTime
    endedBy := some actor
    endedReason := some reason } nextRevision
  return { s with commitments := s.commitments.insert commitmentId commitment }

def appendCheckpoint (checkpointId assignmentId : Uuid) (basedOnProjectRevision : Nat)
    (content : RoleCheckpointContent) (supersedesCheckpointId : Option Uuid) (actor : PublicKey)
    (canonicalTime : DateTime) (nextRevision : Nat) : Result RoleContinuityState := do
  ensure (¬s.checkpoints.contains checkpointId = true) .idCollision
  validateCheckpointContent content
  let assignment ← s.activeAssignment assignmentId
  ensure (assignment.memberPubkey = actor) .assigneeRequired
  ensure (¬(basedOnProjectRevision = 0 ∨ basedOnProjectRevision > s.projectRevision))
    .checkpointBaselineInvalid
  checkSome supersedesCheckpointId fun supersededId => do
    let superseded ← okOr s.checkpoints[supersededId]? .checkpointNotFound
    ensure (superseded.roleId = assignment.roleId ∧ superseded.assignmentId = assignmentId ∧
      superseded.createdBy = actor) .checkpointSupersedesInvalid
  s.validateReferences content.references
  let checkpoint : RoleCheckpoint :=
    { checkpointId, assignmentId, basedOnProjectRevision, content, supersedesCheckpointId
      roleId := assignment.roleId
      createdBy := actor
      createdAt := canonicalTime
      entityRevision := 1
      projectRevision := nextRevision }
  return { s with checkpoints := s.checkpoints.insert checkpointId checkpoint }

def appendHandoff (handoffId fromAssignmentId : Uuid) (toAssignmentId checkpointId : Option Uuid)
    (content : RoleHandoffContent) (cause : HandoffCause) (actor : PublicKey)
    (canonicalTime : DateTime) (nextRevision : Nat) : Result RoleContinuityState := do
  ensure (¬s.handoffs.contains handoffId = true) .idCollision
  ensure (cause = .planned ∨ cause = .other) .handoffCauseInvalid
  validateHandoffContent content
  let fromAssignment ← s.activeAssignment fromAssignmentId
  ensure (fromAssignment.memberPubkey = actor) .assigneeRequired
  checkSome toAssignmentId fun toAssignmentId => do
    let toAssignment ← okOr s.assignments[toAssignmentId]? .assignmentNotFound
    ensure (toAssignment.roleId = fromAssignment.roleId) .handoffTargetInvalid
  checkSome checkpointId fun checkpointId => do
    let checkpoint ← okOr s.checkpoints[checkpointId]? .checkpointNotFound
    ensure (checkpoint.roleId = fromAssignment.roleId ∧
      checkpoint.assignmentId = fromAssignmentId) .handoffCheckpointInvalid
  s.validateReferences content.references
  let handoff : RoleHandoff :=
    { handoffId, fromAssignmentId, toAssignmentId, checkpointId, content, cause
      roleId := fromAssignment.roleId
      affectedCommitmentIds := []
      systemGenerated := false
      createdBy := some actor
      createdAt := canonicalTime
      entityRevision := 1
      projectRevision := nextRevision }
  return { s with handoffs := s.handoffs.insert handoffId handoff }

/-! ## Ending a tenure -/

def activeCommitmentIds (assignmentId : Uuid) : List Uuid :=
  (s.commitments.valueList.filter fun commitment =>
    commitment.assignmentId == assignmentId && commitment.isActive).map (·.commitmentId)

/-- End an Assignment and every active Commitment under it; the ended Commitments are returned. -/
def endAssignment (assignmentId : Uuid) (actor : PublicKey) (reason : AssignmentEndReason)
    (replacedByAssignmentId : Option Uuid) (canonicalTime : DateTime) (nextRevision : Nat) :
    Result (List Uuid × RoleContinuityState) := do
  let assignment ← okOr s.assignments[assignmentId]? .assignmentNotFound
  ensure (assignment.isActive = true) .assignmentEnded
  let assignment ← touchAssignment { assignment with
    endedAt := some canonicalTime
    endedBy := some actor
    endedReason := some reason
    replacedByAssignmentId } nextRevision
  let next := { s with assignments := s.assignments.insert assignmentId assignment }
  let commitmentIds := next.activeCommitmentIds assignmentId
  let next ← commitmentIds.foldlM (fun next commitmentId =>
    next.endCommitment commitmentId actor .assignmentEnded canonicalTime nextRevision) next
  return (commitmentIds, next)

/-- The Community role a member should have: owners stay owners, others follow their tenure. -/
def desiredMemberRole (memberPubkey : PublicKey) : Result CommunityMemberRole := do
  let member ← okOr s.members[memberPubkey]? .candidateIneligible
  if member.isOwner = true then .ok .owner else
    let role : Option RoleSlot :=
      ((s.activeAssignmentForMember memberPubkey).bind fun id => s.assignments[id]?).bind
        fun assignment => s.roles[assignment.roleId]?
    match role.map RoleSlot.level with
    | some .admin => .ok .admin
    | some .member | none => .ok .member

def recordDesiredMemberRole (memberPubkey : PublicKey)
    (membershipRoles : OrdMap PublicKey CommunityMemberRole) :
    Result (RoleContinuityState × OrdMap PublicKey CommunityMemberRole) := do
  let role ← s.desiredMemberRole memberPubkey
  let member ← okOr s.members[memberPubkey]? .candidateIneligible
  let member := { member with communityRole := some role }
  return ({ s with members := s.members.insert memberPubkey member },
    membershipRoles.insert memberPubkey role)

/-! ## System Handoffs -/

def interruptedReferences (commitmentIds : List Uuid) : List RoleContinuityReference :=
  commitmentIds.flatMap fun commitmentId =>
    .commitment commitmentId (some "interrupted Commitment") ::
      match s.commitments[commitmentId]? with
      | some commitment => [.object commitment.workId (some "Work waiting for continuation")]
      | none => []

/-- One item for each Work that a successor has to accept. -/
def interruptedItems (commitmentIds : List Uuid) : List String :=
  commitmentIds.filterMap fun commitmentId => s.commitments[commitmentId]?.map fun commitment =>
    "Work " ++ commitment.workId.toText ++ " requires explicit successor acceptance"

/-- The Handoff the Relay writes for a tenure it cuts over; the summary depends on whether Work is
left waiting. -/
def systemHandoff (handoffId roleId fromAssignmentId : Uuid)
    (toAssignmentId checkpointId : Option Uuid) (commitmentIds : List Uuid)
    (idle waiting : String) (cause : HandoffCause) (canonicalTime : DateTime) (nextRevision : Nat) :
    RoleHandoff :=
  let unresolvedItems := s.interruptedItems commitmentIds
  { handoffId, roleId, fromAssignmentId, toAssignmentId, checkpointId, cause
    affectedCommitmentIds := commitmentIds
    content :=
      { summary := some (if unresolvedItems.isEmpty = true then idle else waiting)
        unresolvedItems
        references := s.interruptedReferences commitmentIds }
    systemGenerated := true
    createdBy := none
    createdAt := canonicalTime
    entityRevision := 1
    projectRevision := nextRevision }

def replacedHandoff (handoffId roleId fromAssignmentId : Uuid)
    (toAssignmentId checkpointId : Option Uuid) (commitmentIds : List Uuid)
    (canonicalTime : DateTime) (nextRevision : Nat) : RoleHandoff :=
  s.systemHandoff handoffId roleId fromAssignmentId toAssignmentId checkpointId commitmentIds
    "Assignment replaced; continue from the retained Project state."
    "Assignment replaced; unfinished Work is waiting for continuation."
    .replaced canonicalTime nextRevision

/-- The Handoff of a tenure whose runtime cannot recover. -/
def unrecoverableHandoff (handoffId roleId fromAssignmentId : Uuid) (checkpointId : Option Uuid)
    (commitmentIds : List Uuid) (canonicalTime : DateTime) (nextRevision : Nat) : RoleHandoff :=
  s.systemHandoff handoffId roleId fromAssignmentId none checkpointId commitmentIds
    "Trusted runtime recovery was exhausted; continue from retained Project state."
    "Trusted runtime recovery was exhausted; unfinished Work is waiting for continuation."
    .unrecoverable canonicalTime nextRevision

end RoleContinuityState

/-! ## Proposals -/

/-- What a reduction builds up: the next state and the two side tables of its outcome. -/
@[ext]
structure Draft where
  next : RoleContinuityState
  membershipRoles : OrdMap PublicKey CommunityMemberRole
  affectedCommitments : OrdMap Uuid (List Uuid)

def RoleContinuityState.draft (s : RoleContinuityState) : Draft := ⟨s, ∅, ∅⟩

namespace RoleContinuityState

variable (s : RoleContinuityState)

/-- The Proposal a command creates; it records the Assignments it would supersede now. -/
def newProposal (proposalId roleId : Uuid) (candidate : PublicKey) (proposalType : ProposalType)
    (expiresAt : DateTime) (reason : Option String) (actor : PublicKey) (canonicalTime : DateTime)
    (nextRevision : Nat) (authorizer : Option PublicKey) : RoleAssignmentProposal :=
  let targetAssignment := s.activeAssignmentForRole roleId
  let candidateAssignment := (s.activeAssignmentForMember candidate).filter
    fun assignmentId => some assignmentId ≠ targetAssignment
  { proposalId, roleId, proposalType, expiresAt, reason
    candidatePubkey := candidate
    candidateAcceptedAt := if proposalType = .request then some canonicalTime else none
    authorizedBy := authorizer
    authorizedAt := authorizer.map fun _ => canonicalTime
    expectedTargetAssignmentId := targetAssignment
    expectedCandidateAssignmentId := candidateAssignment
    status := .open
    createdBy := actor
    createdAt := canonicalTime
    resolvedAt := none
    entityRevision := 1
    projectRevision := nextRevision }

def createProposal (proposalId roleId : Uuid) (candidate : PublicKey) (proposalType : ProposalType)
    (expiresAt : DateTime) (reason : Option String) (actor : PublicKey) (canonicalTime : DateTime)
    (nextRevision : Nat) (authorizer : Option PublicKey) : Result RoleContinuityState := do
  ensure (¬s.proposals.contains proposalId = true) .idCollision
  let role ← okOr s.roles[roleId]? .roleNotFound
  ensure (role.active = true) .roleInactive
  ensure (¬(expiresAt ≤ canonicalTime ∨ expiresAt > canonicalTime + days maxProposalLifetimeDays))
    .invalidProposalDeadline
  let _ ← s.eligibleMember candidate .candidateIneligible
  ensure (¬(s.proposals.valueList.any fun proposal =>
      proposal.status == .open && proposal.roleId == roleId &&
        proposal.candidatePubkey == candidate && decide (canonicalTime < proposal.expiresAt)) = true)
    .duplicateProposal
  let proposal := s.newProposal proposalId roleId candidate proposalType expiresAt reason actor
    canonicalTime nextRevision authorizer
  checkIf (authorizer.isSome = true) (s.authorizeCompleteMove proposal actor)
  return { s with proposals := s.proposals.insert proposalId proposal }

/-- Write a Proposal back after `update` rewrote it. -/
def updateProposal (proposalId : Uuid)
    (update : RoleAssignmentProposal → Result RoleAssignmentProposal) :
    Result RoleContinuityState := do
  let proposal ← okOr s.proposals[proposalId]? .proposalNotFound
  let proposal ← update proposal
  return { s with proposals := s.proposals.insert proposalId proposal }

end RoleContinuityState

def RoleAssignmentProposal.endedIds (p : RoleAssignmentProposal) : List Uuid :=
  (p.expectedAssignmentIds.insertionSort fun a b => (compare a b).isLE = true).destutter (· ≠ ·)

/-- End one superseded tenure of a completed Proposal and write its Handoff. -/
def Draft.supersede (proposal : RoleAssignmentProposal) (authorizer : PublicKey)
    (newAssignmentId : Uuid) (canonicalTime : DateTime) (nextRevision : Nat) (d : Draft)
    (ended : Uuid × Uuid) : Result Draft := do
  let (assignmentId, handoffId) := ended
  let old ← d.next.activeAssignment assignmentId
  let checkpointId := d.next.latestCheckpointForAssignment old.assignmentId
  let (commitmentIds, next) ← d.next.endAssignment assignmentId authorizer .replaced
    (some newAssignmentId) canonicalTime nextRevision
  let toAssignmentId := if old.roleId = proposal.roleId then some newAssignmentId else none
  let handoff := next.replacedHandoff handoffId old.roleId old.assignmentId toAssignmentId
    checkpointId commitmentIds canonicalTime nextRevision
  let next := { next with handoffs := next.handoffs.insert handoffId handoff }
  let (next, membershipRoles) ← next.recordDesiredMemberRole old.memberPubkey d.membershipRoles
  return ⟨next, membershipRoles, d.affectedCommitments.insert assignmentId commitmentIds⟩

def RoleAssignmentProposal.startedAssignment (proposal : RoleAssignmentProposal)
    (proposalId assignmentId : Uuid) (authorizer : PublicKey) (canonicalTime : DateTime)
    (nextRevision : Nat) : RoleAssignment :=
  { assignmentId, proposalId
    roleId := proposal.roleId
    memberPubkey := proposal.candidatePubkey
    startedAt := canonicalTime
    startedBy := authorizer
    replacementRequestedAt := none
    replacementRequestReason := none
    unableReportedAt := none
    unableReportReason := none
    endedAt := none
    endedBy := none
    endedReason := none
    replacedByAssignmentId := none
    entityRevision := 1
    projectRevision := nextRevision }

/-- Start the new tenure, consume the Proposal and record the role of the candidate. -/
def Draft.startTenure (d : Draft) (proposalId : Uuid) (proposal : RoleAssignmentProposal)
    (authorizer : PublicKey) (newAssignmentId : Uuid) (canonicalTime : DateTime)
    (nextRevision : Nat) : Result Draft := do
  let started := proposal.startedAssignment proposalId newAssignmentId authorizer canonicalTime
    nextRevision
  let next := { d.next with assignments := d.next.assignments.insert newAssignmentId started }
  let next ← next.updateProposal proposalId fun proposal => touchProposal { proposal with
    status := .consumed
    resolvedAt := some canonicalTime } nextRevision
  let (next, membershipRoles) ←
    next.recordDesiredMemberRole proposal.candidatePubkey d.membershipRoles
  return ⟨next, membershipRoles, d.affectedCommitments⟩

/-- Complete a Proposal that has both confirmations: fence, end the superseded tenures, start the
new one, consume the Proposal. -/
def Draft.completeProposal (d : Draft) (proposalId : Uuid) (proposal : RoleAssignmentProposal)
    (authorizer : PublicKey) (canonicalTime : DateTime) (nextRevision : Nat)
    (generatedIds : GeneratedRoleContinuityIds) : Result Draft := do
  d.next.authorizeCompleteMove proposal authorizer
  d.next.validateCompoundFence proposal
  requireId generatedIds.assignmentId "generated assignment_id"
  ensure (¬d.next.assignments.contains generatedIds.assignmentId = true) .idCollision
  let endedIds := proposal.endedIds
  ensure (¬generatedIds.handoffIds.length < endedIds.length) .missingGeneratedId
  let handoffIds := generatedIds.handoffIds.take endedIds.length
  ensure (handoffIds.Nodup ∧
    ¬(handoffIds.any fun id => id.isNil || d.next.handoffs.contains id) = true) .idCollision
  let d ← (endedIds.zip handoffIds).foldlM
    (Draft.supersede proposal authorizer generatedIds.assignmentId canonicalTime nextRevision) d
  d.startTenure proposalId proposal authorizer generatedIds.assignmentId canonicalTime nextRevision

/-- Complete an open Proposal once it is both accepted and authorized; otherwise leave it. -/
def Draft.completeProposalIfReady (d : Draft) (proposalId : Uuid) (canonicalTime : DateTime)
    (nextRevision : Nat) (generatedIds : GeneratedRoleContinuityIds) : Result Draft := do
  let proposal ← d.next.openProposal proposalId canonicalTime
  match proposal.candidateAcceptedAt, proposal.authorizedBy with
  | some _, some authorizer =>
    d.completeProposal proposalId proposal authorizer canonicalTime nextRevision generatedIds
  | _, _ => return d

end RoleContinuity

end Carryforth
