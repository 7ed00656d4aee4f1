import Carryforth.RoleContinuity.State

/-!
# Role continuity: authority

Who may do what: the fence on the signer of a command, the authority over a complete move and over
ending one Assignment, and the check that is repeated before an accepted command is replayed.
-/

namespace Carryforth

namespace RoleContinuity

open Fallible

/-- The Assignments a Proposal expects to supersede: the target Role's, then the candidate's. -/
def RoleAssignmentProposal.expectedAssignmentIds (p : RoleAssignmentProposal) : List Uuid :=
  p.expectedTargetAssignmentId.toList ++ p.expectedCandidateAssignmentId.toList

namespace RoleContinuityState

variable (s : RoleContinuityState)

def isManagedMember (pubkey : PublicKey) : Bool := s.members[pubkey]?.any (·.isManagedAgent)

/-- The signer is eligible, and acts through its own active Assignment where it must. -/
def validateActorFence (command : RoleCommand) (actor : PublicKey) : Result Unit := do
  let member ← s.eligibleMember actor .candidateIneligible
  checkSome command.actingAssignmentId fun assignmentId => do
    let assignment ← okOr s.assignments[assignmentId]? .actingAssignmentInvalid
    ensure (assignment.isActive = true ∧ assignment.memberPubkey = actor) .actingAssignmentInvalid
  let active := s.activeAssignmentForMember actor
  let actorIntent := command.request.actorIntent
  ensure (¬(actorIntent = .roleBearing ∧ command.actingAssignmentId = none))
    .actingAssignmentRequired
  ensure (¬(member.isManagedAgent = true ∧ active.isSome = true ∧
      command.actingAssignmentId = none ∧
      (actorIntent = .governor ∨ actorIntent = .roleBearing))) .actingAssignmentRequired

/-- One tenure a Leader would supersede: not its own, not a Leader's, and for a managed Leader only
a managed Agent's. -/
def authorizeSupersede (actorMember : MemberGovernance) (actor : PublicKey) (assignmentId : Uuid) :
    Result Unit := do
  let assignment ← s.activeAssignment assignmentId
  ensure (¬assignment.memberPubkey = actor) .selfEndForbidden
  let role ← okOr s.roles[assignment.roleId]? .roleNotFound
  ensure (¬role.level = .admin) .peerLeaderForbidden
  ensure (¬(actorMember.isManagedAgent = true ∧ ¬s.isManagedMember assignment.memberPubkey = true))
    .managedLeaderTargetUnknown

/-- The actor may authorize the whole move of a Proposal: the owner may authorize any, a Leader
only a move to an ordinary Role. -/
def authorizeCompleteMove (proposal : RoleAssignmentProposal) (actor : PublicKey) :
    Result Unit := do
  let actorMember ← s.eligibleMember actor .notAuthorized
  if actorMember.isOwner = true then .ok () else do
    let actingAssignment ←
      okOr ((s.activeAssignmentForMember actor).bind fun id => s.assignments[id]?) .notAuthorized
    let actingRole ← okOr s.roles[actingAssignment.roleId]? .roleNotFound
    ensure (actingRole.level = .admin ∧ actorMember.communityRole = some .admin) .notAuthorized
    let targetRole ← okOr s.roles[proposal.roleId]? .roleNotFound
    ensure (¬targetRole.level = .admin) .ownerRequired
    proposal.expectedAssignmentIds.forM (s.authorizeSupersede actorMember actor)

def authorizeAssignmentEnd (actor : PublicKey) (target : RoleAssignment) : Result Unit := do
  ensure (¬actor = target.memberPubkey) .selfEndForbidden
  let actorMember ← s.eligibleMember actor .notAuthorized
  if actorMember.isOwner = true then .ok () else do
    let targetMember ← okOr s.members[target.memberPubkey]? .candidateIneligible
    if targetMember.managedAgentOwner = some actor then .ok () else do
      let actorAssignment ←
        okOr ((s.activeAssignmentForMember actor).bind fun id => s.assignments[id]?) .notAuthorized
      let actorRole ← okOr s.roles[actorAssignment.roleId]? .roleNotFound
      let targetRole ← okOr s.roles[target.roleId]? .roleNotFound
      ensure (actorRole.level = .admin ∧ actorMember.communityRole = some .admin) .notAuthorized
      ensure (¬targetRole.level = .admin) .peerLeaderForbidden
      ensure (¬(actorMember.isManagedAgent = true ∧ ¬targetMember.isManagedAgent = true))
        .managedLeaderTargetUnknown

/-- Ending the Assignment needs Leader authority: the actor is neither owner nor the owner of the
managed Agent that holds it. -/
def assignmentEndRequiresRoleAuthority (actor : PublicKey) (target : RoleAssignment) :
    Result Bool := do
  let actorMember ← s.eligibleMember actor .notAuthorized
  if actorMember.isOwner = true then .ok false else do
    let targetMember ← okOr s.members[target.memberPubkey]? .candidateIneligible
    return targetMember.managedAgentOwner ≠ some actor

/-- The signer is the owner, or a Leader acting through its own Leader Assignment. -/
def requireGovernorFence (command : RoleCommand) (actor : PublicKey) : Result Unit := do
  let member ← s.eligibleMember actor .notAuthorized
  if member.isOwner = true then .ok () else do
    let activeAssignment ← okOr (s.activeAssignmentForMember actor) .actingAssignmentRequired
    ensure (command.actingAssignmentId = some activeAssignment)
      (if command.actingAssignmentId.isSome = true then .actingAssignmentInvalid
        else .actingAssignmentRequired)
    let assignment ← okOr s.assignments[activeAssignment]? .actingAssignmentInvalid
    let role ← okOr s.roles[assignment.roleId]? .roleNotFound
    ensure (member.communityRole = some .admin ∧ role.level = .admin) .notAuthorized

/-- The governor fence for a target Role and member, as checked again before a replay. -/
def requireCurrentGovernorForRole (command : RoleCommand) (actor : PublicKey) (targetRoleId : Uuid)
    (targetMember : Option PublicKey) : Result Unit := do
  s.requireGovernorFence command actor
  let actorMember ← s.eligibleMember actor .notAuthorized
  if actorMember.isOwner = true then .ok () else do
    let targetRole ← okOr s.roles[targetRoleId]? .roleNotFound
    ensure (targetRole.active = true) .roleInactive
    ensure (¬targetRole.level = .admin) .ownerRequired
    ensure (¬(actorMember.isManagedAgent = true ∧
        (targetMember.any fun target => !s.isManagedMember target) = true))
      .managedLeaderTargetUnknown

/-- The Assignments a Proposal expects to supersede are still the current ones. -/
def validateCompoundFence (proposal : RoleAssignmentProposal) : Result Unit := do
  ensure (s.activeAssignmentForRole proposal.roleId = proposal.expectedTargetAssignmentId)
    .compoundFenceConflict
  let candidateAssignment := (s.activeAssignmentForMember proposal.candidatePubkey).filter
    fun id => some id ≠ proposal.expectedTargetAssignmentId
  ensure (candidateAssignment = proposal.expectedCandidateAssignmentId) .compoundFenceConflict
  let _ ← s.eligibleMember proposal.candidatePubkey .candidateIneligible

/-- The signer acts through the named Assignment, which is active and its own. -/
def requireAssigneeAction (command : RoleCommand) (actor : PublicKey) (assignmentId : Uuid) :
    Result Unit := do
  ensure (command.actingAssignmentId = some assignmentId) .actingAssignmentInvalid
  let assignment ← s.activeAssignment assignmentId
  ensure (assignment.memberPubkey = actor) .assigneeRequired

/-- The security fence that is run again before an idempotency receipt is returned. -/
def validateActorForReplay (command : RoleCommand) (actor : PublicKey) : Result Unit := do
  command.validateForSubmission
  s.validateActorFence command actor
  match command.request with
  | .offerRole _ roleId candidatePubkey _ _ =>
    s.requireCurrentGovernorForRole command actor roleId (some candidatePubkey)
  | .authorizeProposal proposalId => do
    let proposal ← okOr s.proposals[proposalId]? .proposalNotFound
    s.requireCurrentGovernorForRole command actor proposal.roleId (some proposal.candidatePubkey)
  | .rejectProposal proposalId _ => do
    let proposal ← okOr s.proposals[proposalId]? .proposalNotFound
    checkIf (proposal.candidatePubkey ≠ actor)
      (s.requireCurrentGovernorForRole command actor proposal.roleId
        (some proposal.candidatePubkey))
  | .endAssignment assignmentId _ => do
    let assignment ← okOr s.assignments[assignmentId]? .assignmentNotFound
    s.authorizeAssignmentEnd actor assignment
    let needed ← s.assignmentEndRequiresRoleAuthority actor assignment
    checkIf (needed = true) (s.requireGovernorFence command actor)
  | .setWorkResponsibility .. => s.requireGovernorFence command actor
  | .requestRole .. | .acceptProposal .. | .withdrawProposal .. | .expireProposal ..
  | .requestReplacement .. | .reportUnableToContinue .. | .acceptWork .. | .endCommitment ..
  | .replaceCommitment .. | .appendCheckpoint .. | .appendHandoff .. => .ok ()

end RoleContinuityState

end RoleContinuity

end Carryforth
