import Carryforth.RoleContinuity.Governance

/-!
# Role continuity: replaying an accepted command

The fence on the signer runs before a command is reduced, and again before its idempotency receipt
is returned.  The reducer and this fence ask for different things: `GovernsTarget` and
`SelfAppointed` name the difference, and `replay_iff` says that an immediate retry passes exactly
when the command is `Replayable`.  A command that has passed the fence is, unless its signer is both
the owner and a managed Agent (`replay_of_fence`).
-/

namespace Carryforth

namespace RoleContinuity

open Fallible

namespace RoleContinuityState

variable {s s' next : RoleContinuityState} {command : RoleCommand} {actor g : PublicKey}
  {t : DateTime} {r : Nat} {ids : GeneratedRoleContinuityIds} {d : Draft}
  {outcome : RoleContinuityOutcome}

/-! ## The fences read backwards -/

theorem isManagedMember_of_found {m : MemberGovernance} (found : s.members[actor]? = some m) :
    s.isManagedMember actor = m.isManagedAgent := by
  rw [isManagedMember, found]
  rfl

theorem requireGovernorFence_eq_ok : s.requireGovernorFence command actor = .ok () ↔
    ∃ m, s.members[actor]? = some m ∧ m.eligible = true ∧
      (m.isOwner = true ∨ m.communityRole = some .admin ∧
        ∃ id a, s.activeAssignmentForMember actor = some id ∧
          command.actingAssignmentId = some id ∧ s.assignments[id]? = some a ∧ s.AdminLevel a) := by
  unfold requireGovernorFence
  simp only [bind_eq_ok, eligibleMember_eq_ok, and_assoc]
  apply exists_congr
  intro m
  apply and_congr_right
  intro _
  apply and_congr_right
  intro _
  by_cases owner : m.isOwner = true
  · simp only [owner, if_true, true_or]
  simp only [owner, if_false, false_or, bind_eq_ok, okOr_eq_ok, ensure_eq_ok, AdminLevel,
    Bool.false_eq_true]
  constructor
  · rintro ⟨id, holds, _, acting, a, found, role, foundRole, admin, level⟩
    exact ⟨admin, id, a, holds, acting, found, role, foundRole, level⟩
  · rintro ⟨admin, id, a, holds, acting, found, role, foundRole, level⟩
    exact ⟨id, holds, (), acting, a, found, role, foundRole, admin, level⟩

theorem validateActorFence_eq_ok : s.validateActorFence command actor = .ok () ↔
    (∃ m, s.members[actor]? = some m ∧ m.eligible = true) ∧
    (∀ id, command.actingAssignmentId = some id →
      ∃ a, s.assignments[id]? = some a ∧ a.isActive = true ∧ a.memberPubkey = actor) ∧
    ¬(command.request.actorIntent = .roleBearing ∧ command.actingAssignmentId = none) ∧
    ¬(s.isManagedMember actor = true ∧ (s.activeAssignmentForMember actor).isSome = true ∧
      command.actingAssignmentId = none ∧ (command.request.actorIntent = .governor ∨
        command.request.actorIntent = .roleBearing)) := by
  unfold validateActorFence
  simp only [bind_eq_ok, eligibleMember_eq_ok, checkSome_eq_ok, okOr_eq_ok, ensure_eq_ok]
  constructor
  · rintro ⟨m, ⟨found, eligible⟩, _, acting, _, bearing, managed⟩
    rw [isManagedMember_of_found found]
    exact ⟨⟨m, found, eligible⟩, acting, bearing, managed⟩
  · rintro ⟨⟨m, found, eligible⟩, acting, bearing, managed⟩
    rw [isManagedMember_of_found found] at managed
    exact ⟨m, ⟨found, eligible⟩, (), acting, (), bearing, managed⟩

theorem requireCurrentGovernorForRole_eq_ok {role : Uuid} {candidate : PublicKey} :
    s.requireCurrentGovernorForRole command actor role (some candidate) = .ok () ↔
      s.requireGovernorFence command actor = .ok () ∧ (s.EligibleOwner actor ∨
        ∃ slot, s.roles[role]? = some slot ∧ slot.active = true ∧ slot.level ≠ .admin ∧
          (s.isManagedMember actor = true → s.isManagedMember candidate = true)) := by
  unfold requireCurrentGovernorForRole
  rw [then_eq_ok]
  apply and_congr_right
  intro fence
  obtain ⟨m, found, eligible, -⟩ := requireGovernorFence_eq_ok.1 fence
  have self : s.eligibleMember actor .notAuthorized = .ok m :=
    eligibleMember_eq_ok.2 ⟨found, eligible⟩
  have owner : s.EligibleOwner actor ↔ m.isOwner = true := by
    constructor
    · rintro ⟨m', found', -, isOwner⟩
      cases found.symm.trans found'
      exact isOwner
    · exact fun isOwner => ⟨m, found, eligible, isOwner⟩
  rw [self, ok_bind, owner, isManagedMember_of_found found]
  by_cases isOwner : m.isOwner = true
  · simp only [isOwner, if_true, true_or]
  simp only [isOwner, if_false, false_or, bind_eq_ok, okOr_eq_ok, ensure_eq_ok, Option.any_some,
    Bool.not_eq_true', Bool.false_eq_true]
  constructor
  · rintro ⟨slot, foundSlot, _, active, _, ordinary, managed⟩
    refine ⟨slot, foundSlot, active, ordinary, fun self => ?_⟩
    by_contra other
    exact managed ⟨self, by simpa using other⟩
  · rintro ⟨slot, foundSlot, active, ordinary, managed⟩
    refine ⟨slot, foundSlot, (), active, (), ordinary, ?_⟩
    rintro ⟨self, other⟩
    rw [managed self] at other
    cases other

/-! ## What a command keeps of its signer -/

/-- The facts about a member that no command changes. -/
structure MemberKept (m m' : MemberGovernance) : Prop where
  eligible : m'.eligible = m.eligible
  agent : m'.managedAgentOwner = m.managedAgentOwner
  owner : m'.isOwner = m.isOwner

theorem reduce_member (valid : s.Valid)
    (run : s.reduce command actor t ids = .ok (next, outcome)) {member : PublicKey}
    {m : MemberGovernance} (found : s.members[member]? = some m) :
    ∃ m', next.members[member]? = some m' ∧ MemberKept m m' := by
  obtain ⟨d, reduced⟩ := reduce_eq_ok.1 run
  have effect := reduced.effect valid
  have stored : d.next.members[member]? =
      some ((d.membershipRoles[member]?).elim m m.withRole) := by
    rw [effect.members, get_withMembershipRoles, found, Option.map_some]
  rw [reduced.next_eq]
  refine ⟨_, stored, ?_⟩
  obtain ⟨m₀, found₀, same | same | ⟨notOwner, level, same, -⟩⟩ := effect.member stored
  all_goals
    cases found.symm.trans found₀
    rw [same]
  · exact ⟨rfl, rfl, rfl⟩
  · exact ⟨rfl, rfl, m.isOwner_withRole_baseRole⟩
  · refine ⟨rfl, rfl, ?_⟩
    rw [Bool.not_eq_true] at notOwner
    rw [notOwner]
    cases level <;> rfl

/-- No command adds or drops a member, or makes one a managed Agent. -/
theorem reduce_isManagedMember (valid : s.Valid)
    (run : s.reduce command actor t ids = .ok (next, outcome)) (member : PublicKey) :
    next.isManagedMember member = s.isManagedMember member := by
  cases found : s.members[member]? with
  | some m =>
    obtain ⟨m', found', kept⟩ := reduce_member valid run found
    rw [isManagedMember_of_found found, isManagedMember_of_found found',
      MemberGovernance.isManagedAgent, MemberGovernance.isManagedAgent, kept.agent]
  | none =>
    obtain ⟨d, reduced⟩ := reduce_eq_ok.1 run
    have absent : next.members[member]? = none := by
      rw [reduced.next_eq]
      change d.next.members[member]? = none
      rw [(reduced.effect valid).members, get_withMembershipRoles, found, Option.map_none]
    rw [isManagedMember, isManagedMember, found, absent]

theorem reduce_eligibleOwner (valid : s.Valid)
    (run : s.reduce command actor t ids = .ok (next, outcome)) {m : MemberGovernance}
    (found : s.members[g]? = some m) : next.EligibleOwner g ↔ s.EligibleOwner g := by
  obtain ⟨m', found', kept⟩ := reduce_member valid run found
  unfold EligibleOwner
  simp only [found, found', Option.some.injEq, exists_eq_left', kept.eligible, kept.owner]

def StillActing (next : RoleContinuityState) (command : RoleCommand) : Prop :=
  ∀ id, command.actingAssignmentId = some id →
    ∃ a, next.assignments[id]? = some a ∧ a.isActive = true

/-- A signer whose acting tenure is still active passes the governor fence again. -/
theorem requireGovernorFence_kept (valid : s.Valid)
    (run : s.reduce command actor t ids = .ok (next, outcome)) (acting : next.StillActing command)
    (fence : s.requireGovernorFence command actor = .ok ()) :
    next.requireGovernorFence command actor = .ok () := by
  have valid' := reduce_valid valid run
  have tenures := valid.tenuresApart
  obtain ⟨m, found, eligible, authority⟩ := requireGovernorFence_eq_ok.1 fence
  obtain ⟨m', found', kept⟩ := reduce_member valid run found
  refine requireGovernorFence_eq_ok.2 ⟨m', found', kept.eligible.trans eligible, ?_⟩
  rcases authority with owner | ⟨-, id, a, holds, same, foundA, role, foundRole, level⟩
  · exact .inl (kept.owner.trans owner)
  obtain ⟨a₀, foundA₀, member, active⟩ := tenures.forMember_eq_some_iff.1 holds
  cases foundA.symm.trans foundA₀
  obtain ⟨a', foundA', active'⟩ := acting id same
  obtain ⟨-, sameRole, sameMember⟩ := active_before valid run foundA foundA' active'
  have holds' : next.activeAssignmentForMember actor = some id :=
    valid'.tenuresApart.forMember_eq_some_iff.2 ⟨a', foundA', sameMember.trans member, active'⟩
  have foundRole' : next.roles[a'.roleId]? = some role := by
    rwa [reduce_roles valid run, sameRole]
  -- the next state is valid, so the holder of a Leader Role is an admin or the owner there
  obtain ⟨m₁, found₁, admin | owner⟩ := valid'.admin_or_owner
    ⟨id, a', role, foundA', active', sameMember.trans member, foundRole', level⟩
  · cases found'.symm.trans found₁
    exact .inr ⟨admin, id, a', holds', same, foundA', role, foundRole', level⟩
  · cases found'.symm.trans found₁
    exact .inl owner

theorem Effect.proposal (effect : Effect s command actor t r ids d) {id : Uuid}
    {p : RoleAssignmentProposal} (stored : s.proposals[id]? = some p) :
    ∃ p', d.next.proposals[id]? = some p' ∧ p'.roleId = p.roleId ∧
      p'.candidatePubkey = p.candidatePubkey := by
  -- writing one Proposal under a key, with the terms of what was stored there
  have write : ∀ {k : Uuid} {q : RoleAssignmentProposal},
      (k = id → q.roleId = p.roleId ∧ q.candidatePubkey = p.candidatePubkey) →
      ∃ p', (s.proposals.insert k q)[id]? = some p' ∧ p'.roleId = p.roleId ∧
        p'.candidatePubkey = p.candidatePubkey := by
    intro k q same
    rw [OrdMap.get_insert]
    split_ifs with h
    · exact ⟨q, rfl, same h.symm⟩
    · exact ⟨p, stored, rfl, rfl⟩
  cases effect with
  | proposed fresh =>
    refine write fun same => ?_
    rw [same, stored] at fresh
    cases fresh
  | rewritten stored' _ _ terms =>
    refine write fun same => ?_
    rw [same, stored] at stored'
    cases stored'
    exact ⟨terms.roleId, terms.candidatePubkey⟩
  | @completed k q q' g m stored' _ _ confirmation =>
    have terms := confirmation.terms
    change ∃ p', ((s.proposals.insert k q').insert k (q'.consumed t r))[id]? = some p' ∧ _
    rw [OrdMap.get_insert]
    split_ifs with h
    · rw [← h, stored] at stored'
      cases stored'
      exact ⟨_, rfl, terms.roleId, terms.candidatePubkey⟩
    · exact write fun same => absurd same.symm h
  | _ => exact ⟨p, stored, rfl, rfl⟩

theorem reduce_proposal (valid : s.Valid)
    (run : s.reduce command actor t ids = .ok (next, outcome)) {id : Uuid}
    {p : RoleAssignmentProposal} (stored : s.proposals[id]? = some p) :
    ∃ p', next.proposals[id]? = some p' ∧ p'.roleId = p.roleId ∧
      p'.candidatePubkey = p.candidatePubkey := by
  obtain ⟨d, reduced⟩ := reduce_eq_ok.1 run
  rw [reduced.next_eq]
  exact (reduced.effect valid).proposal stored

/-! ## Where the two fences differ -/

/-- What the replay fence asks about the target of a move and the accepting path does not: the
owner may address any, a Leader only an active Role and, if managed, only a managed candidate. -/
def GovernsTarget (s : RoleContinuityState) (actor : PublicKey) (role : Uuid)
    (candidate : PublicKey) : Prop :=
  s.EligibleOwner actor ∨ (∃ slot, s.roles[role]? = some slot ∧ slot.active = true) ∧
    (s.isManagedMember actor = true → s.isManagedMember candidate = true)

/-- A managed signer without an acting tenure completes its own accepted request: afterwards it
holds a tenure that the command does not name. -/
structure SelfAppointed (s : RoleContinuityState) (command : RoleCommand) (actor : PublicKey)
    (p : RoleAssignmentProposal) : Prop where
  acting : command.actingAssignmentId = none
  managed : s.isManagedMember actor = true
  candidate : p.candidatePubkey = actor
  accepted : p.candidateAcceptedAt.isSome = true

/-- The commands whose acceptance carries over to a replay. -/
def Replayable (s : RoleContinuityState) (command : RoleCommand) (actor : PublicKey) : Prop :=
  match command.request with
  | .offerRole _ role candidate _ _ => s.GovernsTarget actor role candidate
  | .authorizeProposal id => ∀ p, s.proposals[id]? = some p →
      s.GovernsTarget actor p.roleId p.candidatePubkey ∧ ¬s.SelfAppointed command actor p
  | .rejectProposal id _ => ∀ p, s.proposals[id]? = some p → p.candidatePubkey ≠ actor →
      s.GovernsTarget actor p.roleId p.candidatePubkey
  | _ => True

theorem governor_replay_iff (valid : s.Valid)
    (run : s.reduce command actor t ids = .ok (next, outcome)) (acting : next.StillActing command)
    {p : RoleAssignmentProposal} (fence : s.requireGovernorFence command actor = .ok ())
    (authorized : s.authorizeCompleteMove p actor = .ok ()) :
    next.requireCurrentGovernorForRole command actor p.roleId (some p.candidatePubkey) = .ok () ↔
      s.GovernsTarget actor p.roleId p.candidatePubkey := by
  obtain ⟨m, found, eligible, authority⟩ := authorizeCompleteMove_eq_ok.1 authorized
  rw [requireCurrentGovernorForRole_eq_ok, reduce_eligibleOwner valid run found,
    reduce_isManagedMember valid run, reduce_isManagedMember valid run, reduce_roles valid run]
  have again := requireGovernorFence_kept valid run acting fence
  simp only [again, true_and, GovernsTarget]
  rcases authority with owner | ⟨-, ⟨slot, foundSlot, ordinary⟩, -⟩
  · have isOwner : s.EligibleOwner actor := ⟨m, found, eligible, owner⟩
    simp only [isOwner, true_or]
  · apply or_congr_right
    constructor
    · rintro ⟨slot, foundSlot, active, -, managed⟩
      exact ⟨⟨slot, foundSlot, active⟩, managed⟩
    · rintro ⟨⟨slot', foundSlot', active⟩, managed⟩
      cases foundSlot.symm.trans foundSlot'
      exact ⟨slot, foundSlot, active, ordinary, managed⟩

/-- Authorizing an accepted Proposal gives its candidate a tenure. -/
theorem authorize_starts (valid : s.Valid)
    (run : s.reduce command actor t ids = .ok (next, outcome)) {id : Uuid}
    {p : RoleAssignmentProposal} (request : command.request = .authorizeProposal id)
    (stored : s.proposals[id]? = some p) (accepted : p.candidateAcceptedAt.isSome = true) :
    (next.activeAssignmentForMember p.candidatePubkey).isSome = true := by
  have valid' := reduce_valid valid run
  obtain ⟨d, reduced⟩ := reduce_eq_ok.1 run
  have applied := reduced.applied
  rw [applyRequest, request] at applied
  obtain ⟨-, q, stored', -, -, -, -, -, confirmed⟩ :=
    (applyAuthorizeProposal_eq_ok valid.tenuresApart valid.keyed.commitments).1 applied
  cases stored.symm.trans stored'
  obtain ⟨time, accepted⟩ := Option.isSome_iff_exists.1 accepted
  have both : (p.authorized actor t (s.projectRevision + 1)).candidateAcceptedAt = some time ∧
      (p.authorized actor t (s.projectRevision + 1)).authorizedBy = some actor := ⟨accepted, rfl⟩
  rw [Confirmed, both.1, both.2] at confirmed
  obtain ⟨-, m, -, rfl⟩ := confirmed
  have started : next.assignments[ids.assignmentId]? =
      some ((p.authorized actor t (s.projectRevision + 1)).startedAssignment id ids.assignmentId
        actor t (s.projectRevision + 1)) := by
    rw [reduced.next_eq]
    exact (OrdMap.get_insert _ _ _ _).trans (if_pos rfl)
  have holds := valid'.tenuresApart.forMember_eq_some_iff.2 ⟨_, started, rfl, rfl⟩
  exact Option.isSome_iff_exists.2 ⟨_, holds⟩

/-- The fence on the signer passes again unless a managed signer has just appointed itself. -/
theorem actorFence_replay_iff (valid : s.Valid)
    (run : s.reduce command actor t ids = .ok (next, outcome)) (acting : next.StillActing command) :
    next.validateActorFence command actor = .ok () ↔
      ∀ id p, command.request = .authorizeProposal id → s.proposals[id]? = some p →
        ¬s.SelfAppointed command actor p := by
  have valid' := reduce_valid valid run
  obtain ⟨d, reduced⟩ := reduce_eq_ok.1 run
  obtain ⟨⟨m, found, eligible⟩, acting₀, bearing, managed₀⟩ :=
    validateActorFence_eq_ok.1 reduced.fence
  rw [validateActorFence_eq_ok, reduce_isManagedMember valid run]
  constructor
  · rintro ⟨-, -, -, managed⟩ id p request stored self
    have holds := authorize_starts valid run request stored self.accepted
    rw [self.candidate] at holds
    exact managed ⟨self.managed, holds, self.acting, .inl (by rw [request]; rfl)⟩
  · intro others
    obtain ⟨m', found', kept⟩ := reduce_member valid run found
    refine ⟨⟨m', found', kept.eligible.trans eligible⟩, fun id same => ?_, bearing,
      fun ⟨managed, holds, unnamed, intent⟩ => ?_⟩
    · obtain ⟨a, foundA, -, member⟩ := acting₀ id same
      obtain ⟨a', foundA', active'⟩ := acting id same
      obtain ⟨-, -, sameMember⟩ := active_before valid run foundA foundA' active'
      exact ⟨a', foundA', active', sameMember.trans member⟩
    · obtain ⟨id, holds⟩ := Option.isSome_iff_exists.1 holds
      obtain ⟨a, foundA, member, active⟩ := valid'.tenuresApart.forMember_eq_some_iff.1 holds
      cases before : s.assignments[id]? with
      | some a₀ =>
        -- the tenure was there before, and the first fence would have asked for it
        obtain ⟨active₀, -, sameMember⟩ := active_before valid run before foundA active
        have held := valid.tenuresApart.forMember_eq_some_iff.2
          ⟨a₀, before, sameMember.symm.trans member, active₀⟩
        exact managed₀ ⟨managed, Option.isSome_iff_exists.2 ⟨id, held⟩, unnamed, intent⟩
      | none =>
        rw [reduced.next_eq] at foundA
        obtain ⟨key, p, p', g, stored, confirmation, -, rfl⟩ :=
          (reduced.effect valid).started before foundA
        have candidate := confirmation.terms.candidatePubkey.symm.trans member
        cases confirmation with
        | accept request =>
          rw [request] at intent
          rcases intent with intent | intent <;> cases intent
        | authorize request accepted =>
          exact others key p request stored ⟨unnamed, managed, candidate, accepted⟩

theorem assignmentEndRequiresRoleAuthority_eq_ok {a : RoleAssignment} {needed : Bool} :
    s.assignmentEndRequiresRoleAuthority actor a = .ok needed ↔
      ∃ m, s.members[actor]? = some m ∧ m.eligible = true ∧
        (m.isOwner = true ∧ needed = false ∨ m.isOwner = false ∧
          ∃ holder, s.members[a.memberPubkey]? = some holder ∧
            decide (holder.managedAgentOwner ≠ some actor) = needed) := by
  unfold assignmentEndRequiresRoleAuthority
  simp only [bind_eq_ok, eligibleMember_eq_ok, and_assoc]
  apply exists_congr
  intro m
  apply and_congr_right
  intro _
  apply and_congr_right
  intro _
  by_cases owner : m.isOwner = true
  · simp [owner, eq_comm]
  · simp only [owner, if_false, bind_eq_ok, okOr_eq_ok, pure_eq_ok, Bool.false_eq_true, false_and,
      false_or, true_and]

/-- A revocation stays authorized: whoever revoked the tenure is still its owner, the owner of its
Agent, or a Leader through the acting tenure. -/
theorem endAssignment_replay (valid : s.Valid)
    (run : s.reduce command actor t ids = .ok (next, outcome)) (acting : next.StillActing command)
    {id : Uuid} {reason : Option String} (request : command.request = .endAssignment id reason) :
    ∃ a needed, next.assignments[id]? = some a ∧ next.authorizeAssignmentEnd actor a = .ok () ∧
      next.assignmentEndRequiresRoleAuthority actor a = .ok needed ∧
      (needed = true → next.requireGovernorFence command actor = .ok ()) := by
  obtain ⟨d, reduced⟩ := reduce_eq_ok.1 run
  have applied := reduced.applied
  rw [applyRequest, request] at applied
  obtain ⟨a, m, needed, authorized, requires, fence, ends, member, rfl⟩ :=
    (applyEndAssignment_eq_ok valid.tenuresApart valid.keyed.commitments).1 applied
  have after : next.assignments[id]? =
      some (a.ended actor .revoked none t (s.projectRevision + 1)) := by
    rw [reduced.next_eq]
    refine (get_endTenures_assignments id).trans ?_
    rw [ends.found, Option.map_some, if_pos (List.mem_singleton_self id)]
  have again := fun h => requireGovernorFence_kept valid run acting (fence h)
  obtain ⟨other, m₁, found₁, eligible, authority⟩ := authorizeAssignmentEnd_eq_ok.1 authorized
  obtain ⟨m₁', found₁', kept₁⟩ := reduce_member valid run found₁
  obtain ⟨m', member', kept⟩ := reduce_member valid run member
  obtain ⟨m₂, found₂, -, required⟩ := assignmentEndRequiresRoleAuthority_eq_ok.1 requires
  cases found₁.symm.trans found₂
  refine ⟨_, needed, after, ?_, ?_, again⟩
  · refine authorizeAssignmentEnd_eq_ok.2 ⟨other, m₁', found₁', kept₁.eligible.trans eligible, ?_⟩
    rcases required with ⟨owner, -⟩ | ⟨-, holder, held, rfl⟩
    · exact .inl (kept₁.owner.trans owner)
    cases member.symm.trans held
    by_cases agent : m.managedAgentOwner = some actor
    · exact .inr ⟨m', member', .inl (kept.agent.trans agent)⟩
    -- neither owner nor the owner of the Agent, so the governor fence was passed and still is
    obtain ⟨m₃, found₃, -, lead⟩ := requireGovernorFence_eq_ok.1 (again (by simpa using agent))
    cases found₁'.symm.trans found₃
    rcases lead with owner | ⟨admin, k, b, holds, -, foundB, level⟩
    · exact .inl owner
    rcases authority with owner | ⟨holder, held, agent' | ⟨-, ordinary, managed⟩⟩
    · exact .inl (kept₁.owner.trans owner)
    · cases member.symm.trans held
      exact absurd agent' agent
    · cases member.symm.trans held
      refine .inr ⟨m', member', .inr ⟨⟨admin, k, b, holds, foundB, level⟩, ?_, ?_⟩⟩
      · rw [reduce_roles valid run]
        exact ordinary
      · rw [MemberGovernance.isManagedAgent, MemberGovernance.isManagedAgent, kept.agent, kept₁.agent]
        exact managed
  · refine assignmentEndRequiresRoleAuthority_eq_ok.2
      ⟨m₁', found₁', kept₁.eligible.trans eligible, ?_⟩
    rcases required with ⟨owner, rfl⟩ | ⟨notOwner, holder, held, same⟩
    · exact .inl ⟨kept₁.owner.trans owner, rfl⟩
    · cases member.symm.trans held
      refine .inr ⟨kept₁.owner.trans notOwner, m', member', ?_⟩
      rw [kept.agent]
      exact same

/-- An accepted command whose acting tenure is still active passes the replay fence on the state it
led to iff it is replayable. -/
theorem replay_iff (valid : s.Valid) (run : s.reduce command actor t ids = .ok (next, outcome))
    (acting : ∀ id, command.actingAssignmentId = some id →
      ∃ a, next.assignments[id]? = some a ∧ a.isActive = true) :
    next.validateActorForReplay command actor = .ok () ↔ s.Replayable command actor := by
  obtain ⟨d, reduced⟩ := reduce_eq_ok.1 run
  have applied := reduced.applied
  have tenures := valid.tenuresApart
  have keyed := valid.keyed.commitments
  rw [applyRequest] at applied
  rw [validateActorForReplay, then_eq_ok, then_eq_ok, actorFence_replay_iff valid run acting,
    Replayable]
  simp only [reduced.submitted, true_and]
  cases request : command.request <;> rw [request] at applied
  case offerRole id role candidate expiresAt reason =>
    obtain ⟨fence, -, authorized, -⟩ := (applyOfferRole_eq_ok rfl).1 applied
    refine (and_iff_right fun k p same => ?_).trans
      (governor_replay_iff valid run acting fence authorized)
    cases same
  case authorizeProposal id =>
    obtain ⟨fence, p, stored, -, -, authorized, -⟩ :=
      (applyAuthorizeProposal_eq_ok tenures keyed).1 applied
    obtain ⟨p', stored', role, candidate⟩ := reduce_proposal valid run stored
    dsimp only
    rw [stored', okOr_some, ok_bind, role, candidate,
      governor_replay_iff valid run acting fence authorized]
    constructor
    · rintro ⟨notSelf, governs⟩ q found
      cases stored.symm.trans found
      exact ⟨governs, notSelf id p rfl stored⟩
    · intro h
      refine ⟨fun k q same found => ?_, (h p stored).1⟩
      cases same
      exact (h q found).2
  case rejectProposal id reason =>
    obtain ⟨p, opened, rest⟩ := bind_eq_ok.1 applied
    rw [then_eq_ok, checkIf_eq_ok] at rest
    have stored := (openProposal_eq_ok.1 opened).1
    obtain ⟨p', stored', role, candidate⟩ := reduce_proposal valid run stored
    dsimp only
    rw [stored', okOr_some, ok_bind, checkIf_eq_ok, role, candidate]
    refine (and_iff_right fun k q same => ?_).trans ?_
    · cases same
    by_cases own : p.candidatePubkey = actor
    · refine iff_of_true (fun other => absurd own other) fun q found other => ?_
      cases stored.symm.trans found
      exact absurd own other
    · obtain ⟨fence, authorized⟩ := then_eq_ok.1 (rest.1 own)
      have target := governor_replay_iff valid run acting fence authorized
      constructor
      · intro again q found _
        cases stored.symm.trans found
        exact target.1 (again own)
      · exact fun governs _ => target.2 (governs p stored own)
  case endAssignment id reason =>
    obtain ⟨a, needed, found, authorized, requires, fence⟩ :=
      endAssignment_replay valid run acting request
    refine iff_of_true ⟨fun k p same => ?_, ?_⟩ trivial
    · cases same
    · simp only [found, okOr_some, ok_bind, authorized, requires, checkIf_eq_ok]
      exact fence
  case setWorkResponsibility id role =>
    obtain ⟨fence, -⟩ := applySetWorkResponsibility_ok applied
    refine iff_of_true ⟨fun k p same => ?_, requireGovernorFence_kept valid run acting fence⟩ trivial
    cases same
  all_goals
    refine iff_of_true ⟨fun k p same => ?_, rfl⟩ trivial
    cases same

theorem governsTarget_of_fence {role : Uuid} {candidate : PublicKey}
    (fence : s.requireCurrentGovernorForRole command actor role (some candidate) = .ok ()) :
    s.GovernsTarget actor role candidate := by
  obtain ⟨-, owner | ⟨slot, found, active, -, managed⟩⟩ :=
    requireCurrentGovernorForRole_eq_ok.1 fence
  · exact .inl owner
  · exact .inr ⟨⟨slot, found, active⟩, managed⟩

/-- Only an owner governs without an acting tenure, so a managed signer that is not the owner does
not appoint itself. -/
theorem not_selfAppointed_of_fence {p : RoleAssignmentProposal}
    (human : ∀ m, s.members[actor]? = some m → m.isOwner = true → m.isManagedAgent = false)
    (fence : s.requireGovernorFence command actor = .ok ()) : ¬s.SelfAppointed command actor p := by
  intro self
  obtain ⟨m, found, -, owner | ⟨-, id, -, -, acting, -⟩⟩ := requireGovernorFence_eq_ok.1 fence
  · have managed := self.managed
    rw [isManagedMember_of_found found, human m found owner] at managed
    cases managed
  · cases self.acting.symm.trans acting

theorem replayable_of_fence
    (human : ∀ m, s.members[actor]? = some m → m.isOwner = true → m.isManagedAgent = false)
    (before : s.validateActorForReplay command actor = .ok ()) : s.Replayable command actor := by
  rw [validateActorForReplay, then_eq_ok, then_eq_ok] at before
  obtain ⟨-, -, target⟩ := before
  rw [Replayable]
  cases request : command.request <;> rw [request] at target
  case offerRole => exact governsTarget_of_fence target
  case authorizeProposal id =>
    intro p stored
    dsimp only at target
    rw [stored, okOr_some, ok_bind] at target
    exact ⟨governsTarget_of_fence target,
      not_selfAppointed_of_fence human (requireCurrentGovernorForRole_eq_ok.1 target).1⟩
  case rejectProposal id reason =>
    intro p stored other
    dsimp only at target
    rw [stored, okOr_some, ok_bind, checkIf_eq_ok] at target
    exact governsTarget_of_fence (target other)
  all_goals trivial

/-- A command that passed the fence before it was accepted, and whose acting tenure is still active,
passes it on the state it led to. -/
theorem replay_of_fence (valid : s.Valid)
    (human : ∀ m, s.members[actor]? = some m → m.isOwner = true → m.isManagedAgent = false)
    (before : s.validateActorForReplay command actor = .ok ())
    (run : s.reduce command actor t ids = .ok (next, outcome))
    (acting : ∀ id, command.actingAssignmentId = some id →
      ∃ a, next.assignments[id]? = some a ∧ a.isActive = true) :
    next.validateActorForReplay command actor = .ok () :=
  (replay_iff valid run acting).2 (replayable_of_fence human before)

/-- A human Leader offers the ordinary Role to key 3, and may retry. -/
theorem replay_of_fence_sample : ∃ next outcome,
    sample.reduce (.new 1 (some 40) (.offerRole 30 11 3 100 none)) 2 5 ⟨0, []⟩ =
      .ok (next, outcome) ∧
    next.validateActorForReplay (.new 1 (some 40) (.offerRole 30 11 3 100 none)) 2 = .ok () := by
  have accepted : Fallible.yields
      (sample.reduce (.new 1 (some 40) (.offerRole 30 11 3 100 none)) 2 5 ⟨0, []⟩)
      (fun x => decide (x.1.assignments[(40 : Uuid)]? = some (sampleTenure 40 10 2))) = true := by
    decide +kernel
  obtain ⟨⟨next, outcome⟩, run, after⟩ := Fallible.yields_iff.1 accepted
  have leader : sample.members[(2 : PublicKey)]? = some ⟨2, some .admin, true, none⟩ := by
    decide +kernel
  refine ⟨next, outcome, run, replay_of_fence sample_valid (fun m found _ => ?_) (by decide +kernel)
    run fun id acting => ?_⟩
  · cases leader.symm.trans found
    rfl
  · cases acting
    exact ⟨_, of_decide_eq_true after, rfl⟩

/-- Key 5, the owner and a managed Agent, has asked for the ordinary Role. -/
def sampleAgentOwner : RoleContinuityState :=
  community [⟨11, .member, true⟩] [] [⟨1, some .member, true, none⟩, ⟨5, some .owner, true, some 1⟩]
    [{ proposalId := 30
       roleId := 11
       candidatePubkey := 5
       proposalType := .request
       candidateAcceptedAt := some 0
       authorizedBy := none
       authorizedAt := none
       expectedTargetAssignmentId := none
       expectedCandidateAssignmentId := none
       expiresAt := 100
       status := .open
       reason := none
       createdBy := 5
       createdAt := 0
       resolvedAt := none
       entityRevision := 1
       projectRevision := 1 }] [] []

/-- A managed Leader offers the ordinary Role to key 3, a human: the reducer accepts what the fence
refuses, before and after.  A managed owner authorizes its own request: the fence passes before and
refuses after. -/
theorem replay_refused :
    (sampleAgentLeader.Valid ∧ ∃ next outcome,
      sampleAgentLeader.reduce (.new 1 (some 42) (.offerRole 30 11 3 100 none)) 5 5 ⟨0, []⟩ =
        .ok (next, outcome) ∧
      (∃ a, next.assignments[(42 : Uuid)]? = some a ∧ a.isActive = true) ∧
      next.validateActorForReplay (.new 1 (some 42) (.offerRole 30 11 3 100 none)) 5 =
        .error .managedLeaderTargetUnknown) ∧
    (sampleAgentOwner.Valid ∧
      sampleAgentOwner.validateActorForReplay (.new 1 none (.authorizeProposal 30)) 5 = .ok () ∧
      ∃ next outcome,
        sampleAgentOwner.reduce (.new 1 none (.authorizeProposal 30)) 5 5 ⟨60, []⟩ =
          .ok (next, outcome) ∧
        next.validateActorForReplay (.new 1 none (.authorizeProposal 30)) 5 =
          .error .actingAssignmentRequired) := by
  constructor
  · have accepted : Fallible.yields
        (sampleAgentLeader.reduce (.new 1 (some 42) (.offerRole 30 11 3 100 none)) 5 5 ⟨0, []⟩)
        (fun x => decide (x.1.assignments[(42 : Uuid)]? = some (sampleTenure 42 12 5) ∧
          x.1.validateActorForReplay (.new 1 (some 42) (.offerRole 30 11 3 100 none)) 5 =
            .error .managedLeaderTargetUnknown)) = true := by decide +kernel
    obtain ⟨⟨next, outcome⟩, run, after⟩ := Fallible.yields_iff.1 accepted
    obtain ⟨acting, refused⟩ := of_decide_eq_true after
    exact ⟨sampleAgentLeader_valid, next, outcome, run, ⟨_, acting, rfl⟩, refused⟩
  · have accepted : Fallible.yields
        (sampleAgentOwner.reduce (.new 1 none (.authorizeProposal 30)) 5 5 ⟨60, []⟩)
        (fun x => decide (x.1.validateActorForReplay (.new 1 none (.authorizeProposal 30)) 5 =
          .error .actingAssignmentRequired)) = true := by decide +kernel
    obtain ⟨⟨next, outcome⟩, run, after⟩ := Fallible.yields_iff.1 accepted
    exact ⟨community_valid (by decide +kernel), by decide +kernel, next, outcome, run,
      of_decide_eq_true after⟩

end RoleContinuityState

end RoleContinuity

end Carryforth
