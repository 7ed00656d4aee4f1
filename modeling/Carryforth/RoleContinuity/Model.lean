import Carryforth.Lib.Versioned
import Carryforth.Types

/-!
# Role continuity: entities

The records of the Role Proposal and Assignment protocol: membership facts, Roles, Work
responsibility, and the five versioned entity kinds (Proposal, Assignment, Commitment, Checkpoint,
Handoff) with the lifecycle predicates the reducer reads.
-/

namespace Carryforth

namespace RoleContinuity

/-! ## Members, Roles and Work -/

inductive CommunityMemberRole
  | owner
  | admin
  | member
deriving DecidableEq, Repr

def CommunityMemberRole.asStr : CommunityMemberRole → String
  | .owner => "owner"
  | .admin => "admin"
  | .member => "member"

/-- Membership and managed-Agent facts of one principal. -/
structure MemberGovernance where
  pubkey : PublicKey
  communityRole : Option CommunityMemberRole
  eligible : Bool
  managedAgentOwner : Option PublicKey
deriving DecidableEq, Repr

def MemberGovernance.isOwner (m : MemberGovernance) : Bool := m.communityRole == some .owner

def MemberGovernance.isManagedAgent (m : MemberGovernance) : Bool := m.managedAgentOwner.isSome

/-- Governance-relevant state of one Role. -/
structure RoleSlot where
  roleId : Uuid
  level : RoleLevel
  active : Bool
deriving DecidableEq, Repr

/-- Complete projection of one Role, as a change head carries it. -/
structure RoleDefinition where
  roleId : Uuid
  name : String
  purpose : String
  responsibilities : List String
  boundaries : List String
  level : RoleLevel
  active : Bool
  objectRevision : Nat
  projectRevision : Nat
  createdAt : DateTime
  updatedAt : DateTime
  createdBy : PublicKey
  updatedBy : PublicKey
deriving DecidableEq, Repr

/-- Responsibility and lifecycle of one Work object; `status` is absent for a tombstone. -/
structure WorkResponsibility where
  workId : Uuid
  status : Option WorkStatus
  responsibleRoleId : Option Uuid
  objectRevision : Nat
  projectRevision : Nat
  updatedAt : DateTime
  updatedBy : PublicKey
deriving DecidableEq, Repr

/-- The Work can still be executed. -/
def WorkResponsibility.isOpen (w : WorkResponsibility) : Bool :=
  match w.status with
  | some .pending | some .inProgress | some .paused | some .submitted => true
  | _ => false

/-! ## Proposals and Assignments -/

inductive ProposalType
  | request
  | offer
deriving DecidableEq, Repr

inductive ProposalStatus
  | open
  | consumed
  | rejected
  | withdrawn
  | expired
deriving DecidableEq, Repr

structure RoleAssignmentProposal where
  proposalId : Uuid
  roleId : Uuid
  candidatePubkey : PublicKey
  proposalType : ProposalType
  candidateAcceptedAt : Option DateTime
  authorizedBy : Option PublicKey
  authorizedAt : Option DateTime
  expectedTargetAssignmentId : Option Uuid
  expectedCandidateAssignmentId : Option Uuid
  expiresAt : DateTime
  status : ProposalStatus
  reason : Option String
  createdBy : PublicKey
  createdAt : DateTime
  resolvedAt : Option DateTime
  entityRevision : Nat
  projectRevision : Nat
deriving DecidableEq, Repr

/-- The status readers see: an open Proposal is expired from its deadline on. -/
def RoleAssignmentProposal.effectiveStatus (p : RoleAssignmentProposal) (canonicalTime : DateTime) :
    ProposalStatus :=
  if p.status = .open ∧ canonicalTime ≥ p.expiresAt then .expired else p.status

inductive AssignmentEndReason
  | revoked
  | replaced
  | unrecoverable
  | membershipEnded
  | roleDeactivated
deriving DecidableEq, Repr

structure RoleAssignment where
  assignmentId : Uuid
  roleId : Uuid
  memberPubkey : PublicKey
  proposalId : Uuid
  startedAt : DateTime
  startedBy : PublicKey
  replacementRequestedAt : Option DateTime
  replacementRequestReason : Option String
  unableReportedAt : Option DateTime
  unableReportReason : Option String
  endedAt : Option DateTime
  endedBy : Option PublicKey
  endedReason : Option AssignmentEndReason
  replacedByAssignmentId : Option Uuid
  entityRevision : Nat
  projectRevision : Nat
deriving DecidableEq, Repr

def RoleAssignment.isActive (a : RoleAssignment) : Bool := a.endedAt.isNone

/-! ## Commitments -/

inductive CommitmentEndReason
  | released
  | replaced
  | assignmentEnded
  | workClosed
deriving DecidableEq, Repr

structure WorkCommitment where
  commitmentId : Uuid
  workId : Uuid
  assignmentId : Uuid
  memberPubkey : PublicKey
  startedAt : DateTime
  startedBy : PublicKey
  endedAt : Option DateTime
  endedBy : Option PublicKey
  endedReason : Option CommitmentEndReason
  entityRevision : Nat
  projectRevision : Nat
deriving DecidableEq, Repr

def WorkCommitment.isActive (c : WorkCommitment) : Bool := c.endedAt.isNone

/-! ## Checkpoints and Handoffs -/

/-- A typed reference kept by a Checkpoint or Handoff. -/
inductive RoleContinuityReference
  | object (objectId : Uuid) (label : Option String)
  | assignment (assignmentId : Uuid) (label : Option String)
  | commitment (commitmentId : Uuid) (label : Option String)
  | nostrEvent (eventId : EventId) (label : Option String)
deriving DecidableEq, Repr

def RoleContinuityReference.label : RoleContinuityReference → Option String
  | .object _ label | .assignment _ label | .commitment _ label | .nostrEvent _ label => label

structure RoleCheckpointContent where
  summary : String
  currentFocus : List String
  progress : List String
  blockers : List String
  risks : List String
  openQuestions : List String
  nextSteps : List String
  references : List RoleContinuityReference
deriving DecidableEq, Repr

/-- An append-only snapshot authored by one Assignment. -/
structure RoleCheckpoint where
  checkpointId : Uuid
  roleId : Uuid
  assignmentId : Uuid
  basedOnProjectRevision : Nat
  content : RoleCheckpointContent
  supersedesCheckpointId : Option Uuid
  createdBy : PublicKey
  createdAt : DateTime
  entityRevision : Nat
  projectRevision : Nat
deriving DecidableEq, Repr

inductive HandoffCause
  | planned
  | revoked
  | replaced
  | membershipEnded
  | unrecoverable
  | roleDeactivated
  | other
deriving DecidableEq, Repr

structure RoleHandoffContent where
  summary : Option String
  unresolvedItems : List String
  references : List RoleContinuityReference
deriving DecidableEq, Repr

/-- An append-only transition record; the Relay generates one whenever a tenure is replaced. -/
structure RoleHandoff where
  handoffId : Uuid
  roleId : Uuid
  fromAssignmentId : Uuid
  toAssignmentId : Option Uuid
  checkpointId : Option Uuid
  affectedCommitmentIds : List Uuid
  content : RoleHandoffContent
  cause : HandoffCause
  systemGenerated : Bool
  createdBy : Option PublicKey
  createdAt : DateTime
  entityRevision : Nat
  projectRevision : Nat
deriving DecidableEq, Repr

/-! ## Revisions -/

instance : Versioned RoleAssignmentProposal where
  revision p := p.entityRevision
  writtenAt p := p.projectRevision
  stamp p n r := { p with entityRevision := n, projectRevision := r }
  revision_stamp _ _ _ := rfl
  writtenAt_stamp _ _ _ := rfl

instance : Versioned RoleAssignment where
  revision a := a.entityRevision
  writtenAt a := a.projectRevision
  stamp a n r := { a with entityRevision := n, projectRevision := r }
  revision_stamp _ _ _ := rfl
  writtenAt_stamp _ _ _ := rfl

instance : Versioned WorkCommitment where
  revision c := c.entityRevision
  writtenAt c := c.projectRevision
  stamp c n r := { c with entityRevision := n, projectRevision := r }
  revision_stamp _ _ _ := rfl
  writtenAt_stamp _ _ _ := rfl

instance : Versioned RoleCheckpoint where
  revision c := c.entityRevision
  writtenAt c := c.projectRevision
  stamp c n r := { c with entityRevision := n, projectRevision := r }
  revision_stamp _ _ _ := rfl
  writtenAt_stamp _ _ _ := rfl

instance : Versioned RoleHandoff where
  revision h := h.entityRevision
  writtenAt h := h.projectRevision
  stamp h n r := { h with entityRevision := n, projectRevision := r }
  revision_stamp _ _ _ := rfl
  writtenAt_stamp _ _ _ := rfl

end RoleContinuity

end Carryforth
