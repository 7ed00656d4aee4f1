import Carryforth.RoleContinuity.Command

/-!
# Role continuity: state

The canonical state, the lookups the reducer makes, and the whole-state `validate` that every
accepted snapshot and every reduction ends with.
-/

namespace Carryforth

namespace RoleContinuity

open Fallible

/-- Canonical in-memory state of the protocol. -/
@[ext]
structure RoleContinuityState where
  projectRevision : Nat
  referenceableObjects : OrdSet Uuid
  roles : OrdMap Uuid RoleSlot
  works : OrdMap Uuid WorkResponsibility
  members : OrdMap PublicKey MemberGovernance
  proposals : OrdMap Uuid RoleAssignmentProposal
  assignments : OrdMap Uuid RoleAssignment
  commitments : OrdMap Uuid WorkCommitment
  checkpoints : OrdMap Uuid RoleCheckpoint
  handoffs : OrdMap Uuid RoleHandoff
deriving DecidableEq

namespace RoleContinuityState

variable (s : RoleContinuityState)

/-! ## Lookups -/

def openProposal (proposalId : Uuid) (canonicalTime : DateTime) :
    Result RoleAssignmentProposal := do
  let proposal ← okOr s.proposals[proposalId]? .proposalNotFound
  ensure (proposal.status = .open) .proposalNotOpen
  ensure (¬canonicalTime ≥ proposal.expiresAt) .proposalExpired
  return proposal

def activeAssignment (assignmentId : Uuid) : Result RoleAssignment := do
  let assignment ← okOr s.assignments[assignmentId]? .assignmentNotFound
  ensure (assignment.isActive = true) .assignmentEnded
  return assignment

def activeAssignmentForRole (roleId : Uuid) : Option Uuid :=
  (s.assignments.valueList.find? fun assignment =>
    assignment.roleId == roleId && assignment.isActive).map (·.assignmentId)

def activeAssignmentForMember (member : PublicKey) : Option Uuid :=
  (s.assignments.valueList.find? fun assignment =>
    assignment.memberPubkey == member && assignment.isActive).map (·.assignmentId)

def activeCommitment (commitmentId : Uuid) : Result WorkCommitment := do
  let commitment ← okOr s.commitments[commitmentId]? .commitmentNotFound
  ensure (commitment.isActive = true) .commitmentEnded
  return commitment

def activeCommitmentForWork (workId : Uuid) : Option Uuid :=
  (s.commitments.valueList.find? fun commitment =>
    commitment.workId == workId && commitment.isActive).map (·.commitmentId)

/-- The order of Checkpoints: by project revision, then by identifier. -/
def checkpointOrder : RoleCheckpoint → RoleCheckpoint → Ordering :=
  compareLex (compareOn (·.projectRevision)) (compareOn (·.checkpointId))

def latestCheckpointForAssignment (assignmentId : Uuid) : Option Uuid :=
  ((s.checkpoints.valueList.filter fun checkpoint =>
    checkpoint.assignmentId == assignmentId).maxBy checkpointOrder).map (·.checkpointId)

def eligibleMember (pubkey : PublicKey) (e : RoleContinuityError) : Result MemberGovernance :=
  okOr (s.members[pubkey]?.filter (·.eligible)) e

/-- A typed reference resolves in this Project; events are outside its state. -/
def hasReference : RoleContinuityReference → Bool
  | .object objectId _ => s.referenceableObjects.contains objectId
  | .assignment assignmentId _ => s.assignments.contains assignmentId
  | .commitment commitmentId _ => s.commitments.contains commitmentId
  | .nostrEvent .. => true

def validateReferences (references : List RoleContinuityReference) : Result Unit :=
  references.forM fun reference => ensure (s.hasReference reference = true) .referenceNotFound

/-! ## Whole-state validation -/

abbrev SeenActive := OrdSet Uuid × OrdSet PublicKey

def validateAssignment (seen : SeenActive) (assignment : RoleAssignment) : Result SeenActive := do
  let role ← okOr s.roles[assignment.roleId]? .roleNotFound
  if assignment.isActive = true then
    ensure (role.active = true) .roleInactive
    ensure (¬seen.1.contains assignment.roleId = true)
      (.invalidState "a Role has multiple active Assignments")
    ensure (¬seen.2.contains assignment.memberPubkey = true)
      (.invalidState "a Member has multiple active Assignments")
    let member ← okOr (s.members[assignment.memberPubkey]?.filter fun member =>
      member.eligible && member.communityRole.isSome) .candidateIneligible
    ensure (member.isOwner = true ∨
        member.communityRole.map CommunityMemberRole.asStr = some role.level.asStr)
      (.invalidState "active Assignment and Community role disagree")
    return (seen.1.insert assignment.roleId, seen.2.insert assignment.memberPubkey)
  else
    ensure (assignment.endedBy.isSome = true ∧ assignment.endedReason.isSome = true)
      (.invalidState "ended Assignment is missing terminal attribution")
    return seen

def validateWork (work : WorkResponsibility) : Result Unit :=
  checkSome work.responsibleRoleId fun roleId => do
    let role ← okOr s.roles[roleId]? .roleNotFound
    ensure (work.status.isSome = true ∧ role.active = true)
      (.invalidState "responsible Work must be active and reference an active Role")

def validateCommitment (activeWork : OrdSet Uuid) (commitment : WorkCommitment) :
    Result (OrdSet Uuid) := do
  let assignment ← okOr s.assignments[commitment.assignmentId]? .assignmentNotFound
  let work ← okOr s.works[commitment.workId]? .workNotFound
  ensure (commitment.memberPubkey = assignment.memberPubkey)
    (.invalidState "Commitment Member differs from its Assignment")
  if commitment.isActive = true then
    ensure (assignment.isActive = true)
      (.invalidState "ended Assignment retains an active Commitment")
    ensure (work.isOpen = true) .workClosed
    ensure (work.responsibleRoleId = some assignment.roleId) .workRoleMismatch
    ensure (¬activeWork.contains commitment.workId = true)
      (.invalidState "a Work has multiple active Commitments")
    return activeWork.insert commitment.workId
  else
    ensure (commitment.endedBy.isSome = true ∧ commitment.endedReason.isSome = true)
      (.invalidState "ended Commitment is missing terminal attribution")
    return activeWork

def validateCheckpoint (checkpoint : RoleCheckpoint) : Result Unit := do
  ensure (¬(checkpoint.entityRevision ≠ 1 ∨ checkpoint.projectRevision > s.projectRevision ∨
      checkpoint.basedOnProjectRevision = 0 ∨
      checkpoint.basedOnProjectRevision ≥ checkpoint.projectRevision))
    (.invalidState "Checkpoint revisions are invalid")
  let assignment ← okOr s.assignments[checkpoint.assignmentId]? .assignmentNotFound
  ensure (assignment.roleId = checkpoint.roleId ∧
      assignment.memberPubkey = checkpoint.createdBy)
    (.invalidState "Checkpoint attribution disagrees with its Assignment")
  validateCheckpointContent checkpoint.content
  s.validateReferences checkpoint.content.references
  checkSome checkpoint.supersedesCheckpointId fun supersededId => do
    let superseded ← okOr s.checkpoints[supersededId]? .checkpointNotFound
    ensure (¬(superseded.checkpointId = checkpoint.checkpointId ∨
        superseded.roleId ≠ checkpoint.roleId ∨
        superseded.assignmentId ≠ checkpoint.assignmentId ∨
        superseded.createdAt > checkpoint.createdAt)) .checkpointSupersedesInvalid

/-- The author of a Handoff: none for a generated one, its assignee for a written one. -/
def validateHandoffAuthor (handoff : RoleHandoff) (fromAssignment : RoleAssignment) :
    Result Unit :=
  match handoff.systemGenerated, handoff.createdBy with
  | true, none => .ok ()
  | false, some createdBy =>
    if createdBy = fromAssignment.memberPubkey then
      ensure (handoff.cause = .planned ∨ handoff.cause = .other) .handoffCauseInvalid
    else .error (.invalidState "Handoff author shape is invalid")
  | _, _ => .error (.invalidState "Handoff author shape is invalid")

def validateHandoff (handoff : RoleHandoff) : Result Unit := do
  ensure (¬(handoff.entityRevision ≠ 1 ∨ handoff.projectRevision > s.projectRevision))
    (.invalidState "Handoff revisions are invalid")
  let fromAssignment ← okOr s.assignments[handoff.fromAssignmentId]? .assignmentNotFound
  ensure (fromAssignment.roleId = handoff.roleId) .handoffTargetInvalid
  checkSome handoff.toAssignmentId fun toAssignmentId => do
    let toAssignment ← okOr s.assignments[toAssignmentId]? .assignmentNotFound
    ensure (toAssignment.roleId = handoff.roleId) .handoffTargetInvalid
  checkSome handoff.checkpointId fun checkpointId => do
    let checkpoint ← okOr s.checkpoints[checkpointId]? .checkpointNotFound
    ensure (checkpoint.roleId = handoff.roleId ∧
      checkpoint.assignmentId = handoff.fromAssignmentId) .handoffCheckpointInvalid
  handoff.affectedCommitmentIds.forM fun commitmentId => do
    let commitment ← okOr s.commitments[commitmentId]? .commitmentNotFound
    ensure (commitment.assignmentId = handoff.fromAssignmentId)
      (.invalidState "Handoff Commitment belongs to another Assignment")
  validateHandoffContent handoff.content
  s.validateReferences handoff.content.references
  validateHandoffAuthor handoff fromAssignment

/-- The invariant check that every snapshot and every reduction must pass. -/
def validate : Result Unit := do
  ensure (¬(s.projectRevision = 0 ∨ s.projectRevision > maxSafeRevision))
    (.invalidState "v2 Role continuity requires an initialized safe project revision")
  let _ ← s.assignments.valueList.foldlM s.validateAssignment (∅, ∅)
  s.works.valueList.forM s.validateWork
  let _ ← s.commitments.valueList.foldlM s.validateCommitment ∅
  s.checkpoints.valueList.forM s.validateCheckpoint
  s.handoffs.valueList.forM s.validateHandoff

/-! ## Reconstruction from a snapshot -/

def fromCompleteSnapshot (projectRevision : Nat) (roles : List RoleSlot)
    (works : List WorkResponsibility) (members : List MemberGovernance)
    (proposals : List RoleAssignmentProposal) (assignments : List RoleAssignment)
    (commitments : List WorkCommitment) (checkpoints : List RoleCheckpoint)
    (handoffs : List RoleHandoff) (referenceableObjectIds : List Uuid) :
    Result RoleContinuityState := do
  let roles ← OrdMap.collectUnique (·.roleId) (.invalidState "duplicate Role identifier") roles
  let works ← OrdMap.collectUnique (·.workId) (.invalidState "duplicate Work identifier") works
  let referenceableObjects :=
    ((Std.ExtTreeSet.ofList referenceableObjectIds compare).insertMany roles.keys).insertMany
      works.keys
  let members ← OrdMap.collectUnique (·.pubkey) (.invalidState "duplicate Member identifier")
    members
  let proposals ← OrdMap.collectUnique (·.proposalId)
    (.invalidState "duplicate Proposal identifier") proposals
  let assignments ← OrdMap.collectUnique (·.assignmentId)
    (.invalidState "duplicate Assignment identifier") assignments
  let commitments ← OrdMap.collectUnique (·.commitmentId)
    (.invalidState "duplicate Commitment identifier") commitments
  let checkpoints ← OrdMap.collectUnique (·.checkpointId)
    (.invalidState "duplicate Checkpoint identifier") checkpoints
  let handoffs ← OrdMap.collectUnique (·.handoffId)
    (.invalidState "duplicate Handoff identifier") handoffs
  let state : RoleContinuityState :=
    { projectRevision, referenceableObjects, roles, works, members, proposals, assignments,
      commitments, checkpoints, handoffs }
  state.validate
  return state

/-- Reconstruct a state without Work, Commitments and Checkpoints. -/
def fromSnapshot (projectRevision : Nat) (roles : List RoleSlot) (members : List MemberGovernance)
    (proposals : List RoleAssignmentProposal) (assignments : List RoleAssignment)
    (handoffs : List RoleHandoff) : Result RoleContinuityState :=
  fromCompleteSnapshot projectRevision roles [] members proposals assignments [] [] handoffs []

end RoleContinuityState

end RoleContinuity

end Carryforth
