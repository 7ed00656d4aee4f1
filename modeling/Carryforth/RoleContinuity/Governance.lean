import Carryforth.RoleContinuity.Delta

/-!
# Role continuity: governance

Who can start and end tenures.  The authority checks of the reducer are read backwards once
(`authorizeCompleteMove_eq_ok`, `authorizeAssignmentEnd_eq_ok`); together with the list of effects
they bound what a Leader can do.  Admin comes only from an owner (`no_escalation`), and a managed
Leader never displaces a human (`managed_leader_displaces_no_human`).
-/

namespace Carryforth

namespace RoleContinuity

open Fallible

theorem MemberGovernance.baseRole_ne_admin (m : MemberGovernance) : m.baseRole ≠ .admin := by
  unfold baseRole
  split_ifs <;> decide

theorem MemberGovernance.isOwner_iff_baseRole {m : MemberGovernance} :
    m.isOwner = true ↔ m.baseRole = .owner := by
  unfold baseRole
  split_ifs with owner <;> simp [owner]

namespace RoleContinuityState

variable {s s' next : RoleContinuityState} {command : RoleCommand} {actor g : PublicKey}
  {t : DateTime} {r : Nat} {ids : GeneratedRoleContinuityIds} {d : Draft}
  {outcome : RoleContinuityOutcome}

/-! ## Authority -/

/-- The key belongs to an eligible member that owns the Community. -/
def EligibleOwner (s : RoleContinuityState) (g : PublicKey) : Prop :=
  ∃ m, s.members[g]? = some m ∧ m.eligible = true ∧ m.isOwner = true

/-- The Assignment is to a Leader Role. -/
def AdminLevel (s : RoleContinuityState) (a : RoleAssignment) : Prop :=
  ∃ role, s.roles[a.roleId]? = some role ∧ role.level = .admin

/-- The member acts as a Leader: an admin of the Community that holds a Leader Role. -/
def Leads (s : RoleContinuityState) (g : PublicKey) (m : MemberGovernance) : Prop :=
  m.communityRole = some .admin ∧ ∃ id a, s.activeAssignmentForMember g = some id ∧
    s.assignments[id]? = some a ∧ s.AdminLevel a

structure MaySupersede (s : RoleContinuityState) (g : PublicKey) (m : MemberGovernance)
    (a : RoleAssignment) : Prop where
  active : a.isActive = true
  other : a.memberPubkey ≠ g
  ordinary : ∃ role, s.roles[a.roleId]? = some role ∧ role.level ≠ .admin
  managed : m.isManagedAgent = true → s.isManagedMember a.memberPubkey = true

theorem authorizeSupersede_eq_ok {m : MemberGovernance} {id : Uuid} :
    s.authorizeSupersede m g id = .ok () ↔
      ∃ a, s.assignments[id]? = some a ∧ s.MaySupersede g m a := by
  simp only [authorizeSupersede, bind_eq_ok, activeAssignment_eq_ok, ensure_eq_ok, okOr_eq_ok]
  constructor
  · rintro ⟨a, ⟨found, active⟩, _, other, role, foundRole, _, ordinary, managed⟩
    have managed : m.isManagedAgent = true → s.isManagedMember a.memberPubkey = true := by
      intro h
      by_contra unknown
      exact managed ⟨h, unknown⟩
    exact ⟨a, found, active, other, ⟨role, foundRole, ordinary⟩, managed⟩
  · rintro ⟨a, found, active, other, ⟨role, foundRole, ordinary⟩, managed⟩
    exact ⟨a, ⟨found, active⟩, (), other, role, foundRole, (), ordinary, fun h => h.2 (managed h.1)⟩

/-- The owner may authorize any move, a Leader a move to an ordinary Role that supersedes only
tenures it may supersede. -/
theorem authorizeCompleteMove_eq_ok {p : RoleAssignmentProposal} :
    s.authorizeCompleteMove p g = .ok () ↔ ∃ m, s.members[g]? = some m ∧ m.eligible = true ∧
      (m.isOwner = true ∨ s.Leads g m ∧
        (∃ role, s.roles[p.roleId]? = some role ∧ role.level ≠ .admin) ∧
        ∀ id ∈ p.expectedAssignmentIds, ∃ a, s.assignments[id]? = some a ∧ s.MaySupersede g m a) := by
  unfold authorizeCompleteMove
  simp only [bind_eq_ok, eligibleMember_eq_ok]
  apply exists_congr
  intro m
  rw [and_assoc]
  apply and_congr_right
  intro _
  apply and_congr_right
  intro _
  by_cases owner : m.isOwner = true
  · simp only [owner, if_true, true_or]
  · simp only [owner, if_false, false_or, bind_eq_ok, okOr_eq_ok, ensure_eq_ok,
      Option.bind_eq_some_iff, Bool.false_eq_true]
    rw [Leads]
    simp only [AdminLevel]
    constructor
    · rintro ⟨a, ⟨id, holds, found⟩, role, foundRole, _, ⟨level, admin⟩, target, foundTarget, _,
        ordinary, supersede⟩
      rw [forM_eq_ok] at supersede
      exact ⟨⟨admin, id, a, holds, found, role, foundRole, level⟩, ⟨target, foundTarget, ordinary⟩,
        fun k hk => authorizeSupersede_eq_ok.1 (supersede k hk)⟩
    · rintro ⟨⟨admin, id, a, holds, found, role, foundRole, level⟩, ⟨target, foundTarget, ordinary⟩,
        supersede⟩
      refine ⟨a, ⟨id, holds, found⟩, role, foundRole, (), ⟨level, admin⟩, target, foundTarget, (),
        ordinary, ?_⟩
      rw [forM_eq_ok]
      exact fun k hk => authorizeSupersede_eq_ok.2 (supersede k hk)

/-- The owner may end any other tenure, the owner of a managed Agent that Agent's, and a Leader an
ordinary one; a managed Leader only a managed Agent's. -/
theorem authorizeAssignmentEnd_eq_ok {a : RoleAssignment} :
    s.authorizeAssignmentEnd g a = .ok () ↔ g ≠ a.memberPubkey ∧
      ∃ m, s.members[g]? = some m ∧ m.eligible = true ∧
        (m.isOwner = true ∨ ∃ holder, s.members[a.memberPubkey]? = some holder ∧
          (holder.managedAgentOwner = some g ∨ s.Leads g m ∧
            (∃ role, s.roles[a.roleId]? = some role ∧ role.level ≠ .admin) ∧
            (m.isManagedAgent = true → holder.isManagedAgent = true))) := by
  unfold authorizeAssignmentEnd
  simp only [bind_eq_ok, ensure_eq_ok, eligibleMember_eq_ok, exists_and_left, exists_const]
  apply and_congr_right
  intro _
  apply exists_congr
  intro m
  rw [and_assoc]
  apply and_congr_right
  intro _
  apply and_congr_right
  intro _
  by_cases owner : m.isOwner = true
  · simp only [owner, if_true, true_or]
  simp only [owner, if_false, false_or, bind_eq_ok, okOr_eq_ok, Bool.false_eq_true]
  apply exists_congr
  intro holder
  apply and_congr_right
  intro _
  by_cases agent : holder.managedAgentOwner = some g
  · simp only [agent, if_true, true_or]
  simp only [agent, if_false, false_or, bind_eq_ok, okOr_eq_ok, ensure_eq_ok,
    Option.bind_eq_some_iff, Leads, AdminLevel]
  constructor
  · rintro ⟨own, ⟨id, holds, found⟩, role, foundRole, target, foundTarget, _, ⟨level, admin⟩, _,
      ordinary, managed⟩
    have managed : m.isManagedAgent = true → holder.isManagedAgent = true := by
      intro h
      by_contra unknown
      exact managed ⟨h, unknown⟩
    exact ⟨⟨admin, id, own, holds, found, role, foundRole, level⟩, ⟨target, foundTarget, ordinary⟩,
      managed⟩
  · rintro ⟨⟨admin, id, own, holds, found, role, foundRole, level⟩, ⟨target, foundTarget, ordinary⟩,
      managed⟩
    exact ⟨own, ⟨id, holds, found⟩, role, foundRole, target, foundTarget, (), ⟨level, admin⟩, (),
      ordinary, fun h => h.2 (managed h.1)⟩

/-! ## What a step does to tenures -/

/-- How a command ended an active tenure, and on whose authority. -/
inductive TenureEnd (s : RoleContinuityState) (command : RoleCommand) (actor : PublicKey)
    (t : DateTime) (r : Nat) (ids : GeneratedRoleContinuityIds) (id : Uuid) (a : RoleAssignment) :
    RoleAssignment → Prop
  | revoked (request : ∃ reason, command.request = .endAssignment id reason)
      (authorized : s.authorizeAssignmentEnd actor a = .ok ()) :
      TenureEnd s command actor t r ids id a (a.ended actor .revoked none t r)
  | replaced {p : RoleAssignmentProposal} {g : PublicKey}
      (authorized : s.authorizeCompleteMove p g = .ok ()) (superseded : id ∈ p.endedIds) :
      TenureEnd s command actor t r ids id a (a.ended g .replaced (some ids.assignmentId) t r)

theorem TenureEnd.inactive {id : Uuid} {a a' : RoleAssignment}
    (ended : TenureEnd s command actor t r ids id a a') : a'.isActive = false := by
  cases ended <;> rfl

/-- A tenure that exists before a command keeps its identity; it stays as active as it was, or the
command ends it. -/
theorem Effect.tenure (effect : Effect s command actor t r ids d) {id : Uuid} {a a' : RoleAssignment}
    (before : s.assignments[id]? = some a) (after : d.next.assignments[id]? = some a') :
    a'.identity = a.identity ∧ (a'.isActive = a.isActive ∨
      a.isActive = true ∧ TenureEnd s command actor t r ids id a a') := by
  have same : s.assignments[id]? = some a' → a'.identity = a.identity ∧ a'.isActive = a.isActive := by
    intro found
    cases before.symm.trans found
    exact ⟨rfl, rfl⟩
  cases effect with
  | @completed _ p p' g m _ _ _ _ _ ready _ =>
    change ((s.endTenures p'.endedIds g .replaced (some ids.assignmentId) t r).assignments.insert
      ids.assignmentId _)[id]? = some a' at after
    have old : id ≠ ids.assignmentId := by
      rintro rfl
      cases before.symm.trans ready.assignmentFree
    rw [OrdMap.get_insert_of_ne old, get_endTenures_assignments, before, Option.map_some] at after
    by_cases ended : id ∈ p'.endedIds
    · rw [if_pos ended] at after
      obtain ⟨b, _, ends, -⟩ := ready.ends id ended
      cases before.symm.trans ends.found
      cases after
      exact ⟨rfl, .inr ⟨ends.active, .replaced ready.authorized ended⟩⟩
    · rw [if_neg ended] at after
      cases after
      exact ⟨rfl, .inl rfl⟩
  | @ended k b m request authorized ends _ =>
    change (s.endTenures [k] actor .revoked none t r).assignments[id]? = some a' at after
    rw [get_endTenures_assignments, before, Option.map_some] at after
    by_cases this : id ∈ [k]
    · cases List.mem_singleton.1 this
      cases before.symm.trans ends.found
      rw [if_pos this] at after
      cases after
      exact ⟨rfl, .inr ⟨ends.active, .revoked request authorized⟩⟩
    · rw [if_neg this] at after
      cases after
      exact ⟨rfl, .inl rfl⟩
  | @reported k b b' found active _ kept =>
    change (s.assignments.insert k b')[id]? = some a' at after
    rw [OrdMap.get_insert] at after
    split_ifs at after with h
    · subst h
      cases after
      cases before.symm.trans found
      refine ⟨kept.identity, .inl ?_⟩
      rw [RoleAssignment.isActive, RoleAssignment.isActive, kept.endedAt]
    · exact ⟨(same after).1, .inl (same after).2⟩
  | _ => exact ⟨(same after).1, .inl (same after).2⟩

/-- Only a completed Proposal starts a tenure. -/
theorem Effect.started (effect : Effect s command actor t r ids d) {id : Uuid} {a : RoleAssignment}
    (before : s.assignments[id]? = none) (after : d.next.assignments[id]? = some a) :
    ∃ proposalId p p' g, s.proposals[proposalId]? = some p ∧
      Confirmation command actor t r proposalId p g p' ∧ s.CompletionReady p' g r ids ∧
      a = p'.startedAssignment proposalId id g t r := by
  have absent : s.assignments[id]? ≠ some a := by rw [before]; exact nofun
  cases effect with
  | @completed key p p' g m stored _ _ confirmation _ ready _ =>
    change ((s.endTenures p'.endedIds g .replaced (some ids.assignmentId) t r).assignments.insert
      ids.assignmentId _)[id]? = some a at after
    rw [OrdMap.get_insert, get_endTenures_assignments, before, Option.map_none] at after
    split_ifs at after with h
    subst h
    cases after
    exact ⟨key, p, p', g, stored, confirmation, ready, rfl⟩
  | @ended k =>
    change (s.endTenures [k] actor .revoked none t r).assignments[id]? = some a at after
    rw [get_endTenures_assignments, before] at after
    cases after
  | @reported k b b' found =>
    change (s.assignments.insert k b')[id]? = some a at after
    rw [OrdMap.get_insert] at after
    split_ifs at after with h
    · subst h
      cases before.symm.trans found
    · exact absurd after absent
  | _ => exact absurd after absent

/-! ## What a step does to Community roles -/

def HoldsLevel (s : RoleContinuityState) (member : PublicKey) (level : RoleLevel) : Prop :=
  ∃ (id : Uuid) (a : RoleAssignment) (role : RoleSlot), s.assignments[id]? = some a ∧
    a.isActive = true ∧ a.memberPubkey = member ∧ s.roles[a.roleId]? = some role ∧ role.level = level

/-- A command records a base Community role, or for a member other than the owner the one that a
Role it now holds grants. -/
theorem Effect.recorded (effect : Effect s command actor t r ids d) {member : PublicKey}
    {role : CommunityMemberRole} (found : d.membershipRoles[member]? = some role) :
    ∃ m, s.members[member]? = some m ∧ (role = m.baseRole ∨
      ¬m.isOwner = true ∧ ∃ level, role = grantedRole level ∧ d.next.HoldsLevel member level) := by
  have empty : (∅ : OrdMap PublicKey CommunityMemberRole)[member]? ≠ some role := by
    rw [Std.ExtTreeMap.getElem?_empty]
    exact nofun
  cases effect with
  | @completed key p p' g m stored _ _ confirmation _ ready member' =>
    rw [← confirmation.terms.candidatePubkey] at member'
    change ((s.baseRoles (s.holders ((p'.supersededPairs ids).map Prod.fst))).insert
      p'.candidatePubkey (s.startedRole p' m))[member]? = some role at found
    rw [OrdMap.get_insert] at found
    split_ifs at found with h
    · subst h
      cases found
      refine ⟨m, member', ?_⟩
      by_cases owner : m.isOwner = true
      · left
        simp [startedRole, MemberGovernance.baseRole, owner]
      · cases foundRole : s.roles[p'.roleId]? with
        | none =>
          left
          simp [startedRole, MemberGovernance.baseRole, owner, foundRole]
        | some slot =>
          refine .inr ⟨owner, slot.level, ?_, ids.assignmentId,
            p'.startedAssignment key ids.assignmentId g t r, slot, ?_, rfl, rfl, foundRole, rfl⟩
          · simp [startedRole, owner, foundRole]
          · exact (OrdMap.get_insert _ _ _ _).trans (if_pos rfl)
    · rw [get_baseRoles] at found
      split_ifs at found
      obtain ⟨m', found', rfl⟩ := Option.map_eq_some_iff.1 found
      exact ⟨m', found', .inl rfl⟩
  | @ended _ a m _ _ _ member' =>
    change (Std.ExtTreeMap.insert ∅ a.memberPubkey m.baseRole)[member]? = some role at found
    rw [OrdMap.get_insert] at found
    split_ifs at found with h
    · subst h
      cases found
      exact ⟨m, member', .inl rfl⟩
    · exact absurd found empty
  | _ => exact absurd found empty

/-- After a command a member is as before, or has a recorded Community role. -/
theorem Effect.member (effect : Effect s command actor t r ids d) {member : PublicKey}
    {m' : MemberGovernance} (found : d.next.members[member]? = some m') :
    ∃ m, s.members[member]? = some m ∧ (m' = m ∨ m' = m.withRole m.baseRole ∨
      ¬m.isOwner = true ∧ ∃ level, m' = m.withRole (grantedRole level) ∧
        d.next.HoldsLevel member level) := by
  rw [effect.members, get_withMembershipRoles] at found
  obtain ⟨m, before, same⟩ := Option.map_eq_some_iff.1 found
  refine ⟨m, before, ?_⟩
  cases recorded : d.membershipRoles[member]? with
  | none =>
    rw [recorded] at same
    exact .inl same.symm
  | some role =>
    rw [recorded] at same
    obtain ⟨m₀, before', base | ⟨owner, level, granted, holds⟩⟩ := effect.recorded recorded
    · cases before.symm.trans before'
      exact .inr (.inl (by rw [← same, base]; rfl))
    · cases before.symm.trans before'
      exact .inr (.inr ⟨owner, level, by rw [← same, granted]; rfl, holds⟩)

/-! ## No escalation -/

/-- What no step of a command may violate. -/
structure NoEscalation (s : RoleContinuityState) (command : RoleCommand)
    (next : RoleContinuityState) : Prop where
  granted : ∀ (id : Uuid) a, next.assignments[id]? = some a → a.isActive = true →
    next.AdminLevel a → s.assignments[id]? = none → s.EligibleOwner a.startedBy
  revoked : ∀ (id : Uuid) a a', s.assignments[id]? = some a → a.isActive = true → s.AdminLevel a →
    next.assignments[id]? = some a' → a'.isActive = false →
    ∃ g, a'.endedBy = some g ∧ (s.EligibleOwner g ∨
      (∃ reason, command.request = .endAssignment id reason) ∧
        ∃ holder, s.members[a.memberPubkey]? = some holder ∧ holder.managedAgentOwner = some g)
  obtained : ∀ (member : PublicKey) m', next.members[member]? = some m' →
    m'.communityRole = some .admin →
    (∀ m, s.members[member]? = some m → m.communityRole ≠ some .admin) →
    next.HoldsLevel member .admin
  ownerKept : ∀ (member : PublicKey) m, s.members[member]? = some m → m.isOwner = true →
    ∃ m', next.members[member]? = some m' ∧ m'.communityRole = m.communityRole
  ownerOnly : ∀ (member : PublicKey) m', next.members[member]? = some m' → m'.isOwner = true →
    ∃ m, s.members[member]? = some m ∧ m.isOwner = true

theorem owner_of_authorized_target {p : RoleAssignmentProposal}
    (authorized : s.authorizeCompleteMove p g = .ok ())
    (admin : ∃ role, s.roles[p.roleId]? = some role ∧ role.level = .admin) : s.EligibleOwner g := by
  obtain ⟨m, found, eligible, owner | ⟨-, ⟨role, foundRole, ordinary⟩, -⟩⟩ :=
    authorizeCompleteMove_eq_ok.1 authorized
  · exact ⟨m, found, eligible, owner⟩
  · obtain ⟨role', foundRole', level⟩ := admin
    cases foundRole.symm.trans foundRole'
    exact absurd level ordinary

theorem TenureEnd.admin {id : Uuid} {a a' : RoleAssignment}
    (ended : TenureEnd s command actor t r ids id a a') (found : s.assignments[id]? = some a)
    (admin : s.AdminLevel a) : ∃ g, a'.endedBy = some g ∧ (s.EligibleOwner g ∨
      (∃ reason, command.request = .endAssignment id reason) ∧
        ∃ holder, s.members[a.memberPubkey]? = some holder ∧ holder.managedAgentOwner = some g) := by
  obtain ⟨role, foundRole, level⟩ := admin
  cases ended with
  | revoked request authorized =>
    refine ⟨actor, rfl, ?_⟩
    obtain ⟨-, m, member, eligible,
      owner | ⟨holder, held, agent | ⟨-, ⟨role', foundRole', ordinary⟩, -⟩⟩⟩ :=
      authorizeAssignmentEnd_eq_ok.1 authorized
    · exact .inl ⟨m, member, eligible, owner⟩
    · exact .inr ⟨request, holder, held, agent⟩
    · cases foundRole.symm.trans foundRole'
      exact absurd level ordinary
  | @replaced p g authorized superseded =>
    refine ⟨g, rfl, .inl ?_⟩
    obtain ⟨m, member, eligible, owner | ⟨-, -, supersede⟩⟩ :=
      authorizeCompleteMove_eq_ok.1 authorized
    · exact ⟨m, member, eligible, owner⟩
    · obtain ⟨b, found', may⟩ := supersede id (((endedIds_spec p).2 id).1 superseded)
      cases found.symm.trans found'
      obtain ⟨role', foundRole', ordinary⟩ := may.ordinary
      cases foundRole.symm.trans foundRole'
      exact absurd level ordinary

theorem Effect.noEscalation (effect : Effect s command actor t r ids d) :
    NoEscalation s command d.next := by
  constructor
  · rintro id a found - ⟨role, foundRole, level⟩ fresh
    obtain ⟨_, _, p, g, -, -, ready, rfl⟩ := effect.started fresh found
    rw [effect.roles] at foundRole
    exact owner_of_authorized_target ready.authorized ⟨role, foundRole, level⟩
  · intro id a a' found active admin found' ended
    rcases effect.tenure found found' with ⟨-, same | ⟨-, tenure⟩⟩
    · rw [ended, active] at same
      cases same
    · exact tenure.admin found admin
  · intro member m' found admin before
    obtain ⟨m, found₀, rfl | rfl | ⟨-, level, rfl, holds⟩⟩ := effect.member found
    · exact absurd admin (before _ found₀)
    · exact absurd (Option.some.inj admin) m.baseRole_ne_admin
    · cases level with
      | admin => exact holds
      | member => cases admin
  · intro member m found owner
    have kept := congrArg (fun map : OrdMap PublicKey MemberGovernance => map[member]?) effect.members
    simp only [get_withMembershipRoles, found, Option.map_some] at kept
    refine ⟨_, kept, ?_⟩
    obtain ⟨m₀, found₀, same | same | ⟨notOwner, -⟩⟩ := effect.member kept
    all_goals cases found.symm.trans found₀
    · rw [same]
    · rw [same, MemberGovernance.isOwner_iff.1 owner]
      exact congrArg some (MemberGovernance.isOwner_iff_baseRole.1 owner)
    · exact absurd owner notOwner
  · intro member m' found owner
    obtain ⟨m, found₀, rfl | rfl | ⟨-, level, rfl, -⟩⟩ := effect.member found
    · exact ⟨m', found₀, owner⟩
    · rw [MemberGovernance.isOwner_withRole_baseRole] at owner
      exact ⟨m, found₀, owner⟩
    · cases level <;> cases owner

theorem reduce_noEscalation (valid : s.Valid)
    (run : s.reduce command actor t ids = .ok (next, outcome)) : NoEscalation s command next := by
  obtain ⟨d, reduced⟩ := reduce_eq_ok.1 run
  have step := (reduced.effect valid).noEscalation
  rw [reduced.next_eq]
  exact ⟨step.granted, step.revoked, step.obtained, step.ownerKept, step.ownerOnly⟩

def IsAdmin (s : RoleContinuityState) (member : PublicKey) : Prop :=
  ∃ m, s.members[member]? = some m ∧ m.communityRole = some .admin

/-- Some command leads from `s` to `s'`. -/
def Accepts (s s' : RoleContinuityState) : Prop :=
  ∃ command actor t ids outcome, s.reduce command actor t ids = .ok (s', outcome)

/-- The step from `s` to `s'` starts a tenure of a Leader Role, and an eligible owner of `s`
authorized it. -/
structure OwnerGrant (s s' : RoleContinuityState) (member : PublicKey) : Prop where
  accepted : Accepts s s'
  started : ∃ (id : Uuid) (a : RoleAssignment), s.assignments[id]? = none ∧
    s'.assignments[id]? = some a ∧ a.isActive = true ∧ a.memberPubkey = member ∧ s'.AdminLevel a ∧
    s.EligibleOwner a.startedBy

theorem Valid.admin_or_owner (valid : s.Valid) {member : PublicKey}
    (holds : s.HoldsLevel member .admin) :
    ∃ m, s.members[member]? = some m ∧ (m.communityRole = some .admin ∨ m.isOwner = true) := by
  obtain ⟨id, a, role, found, active, rfl, foundRole, level⟩ := holds
  obtain ⟨role', foundRole', ok, -⟩ := valid.consistent.assignment id a found
  cases foundRole.symm.trans foundRole'
  obtain ⟨m, member, -, fits⟩ := (ok active).member
  rw [MemberGovernance.Fits, level] at fits
  exact ⟨m, member, fits.symm⟩

/-- A tenure that is active after a command and existed before it was active before it, with the
same Role and holder. -/
theorem active_before (valid : s.Valid)
    (run : s.reduce command actor t ids = .ok (next, outcome)) {id : Uuid} {a a' : RoleAssignment}
    (before : s.assignments[id]? = some a) (after : next.assignments[id]? = some a')
    (active : a'.isActive = true) :
    a.isActive = true ∧ a'.roleId = a.roleId ∧ a'.memberPubkey = a.memberPubkey := by
  obtain ⟨d, reduced⟩ := reduce_eq_ok.1 run
  rw [reduced.next_eq] at after
  obtain ⟨identity, same | ⟨-, ended⟩⟩ := (reduced.effect valid).tenure before after
  · simp only [RoleAssignment.identity, Prod.mk.injEq] at identity
    exact ⟨same ▸ active, identity.1, identity.2.1⟩
  · rw [ended.inactive] at active
    cases active

theorem reduce_roles (valid : s.Valid)
    (run : s.reduce command actor t ids = .ok (next, outcome)) : next.roles = s.roles := by
  obtain ⟨d, reduced⟩ := reduce_eq_ok.1 run
  rw [reduced.next_eq]
  exact (reduced.effect valid).roles

/-- A member that a command makes an admin is granted a Leader Role by it, on an owner's
authority. -/
theorem ownerGrant_of_reduce (valid : s.Valid)
    (run : s.reduce command actor t ids = .ok (next, outcome)) {member : PublicKey}
    (before : ¬s.IsAdmin member) (after : next.IsAdmin member) : OwnerGrant s next member := by
  have step := reduce_noEscalation valid run
  obtain ⟨m', found', admin⟩ := after
  obtain ⟨id, a, role, found, active, rfl, foundRole, level⟩ :=
    step.obtained member m' found' admin fun m found h => before ⟨m, found, h⟩
  have fresh : s.assignments[id]? = none := by
    by_contra present
    obtain ⟨a₀, found₀⟩ := Option.ne_none_iff_exists'.1 present
    obtain ⟨active₀, sameRole, sameMember⟩ := active_before valid run found₀ found active
    rw [reduce_roles valid run, sameRole] at foundRole
    -- a Leader Role held before the step makes its holder an admin or the owner already
    obtain ⟨m, found₁, isAdmin | owner⟩ :=
      valid.admin_or_owner ⟨id, a₀, role, found₀, active₀, sameMember.symm, foundRole, level⟩
    · exact before ⟨m, found₁, isAdmin⟩
    · obtain ⟨m₂, found₂, kept⟩ := step.ownerKept _ m found₁ owner
      cases found'.symm.trans found₂
      rw [admin, MemberGovernance.isOwner_iff.1 owner] at kept
      cases kept
  have adminLevel : next.AdminLevel a := ⟨role, foundRole, level⟩
  exact ⟨⟨command, actor, t, ids, outcome, run⟩, id, a, fresh, found, active, rfl, adminLevel,
    step.granted id a found active adminLevel fresh⟩

/-- The system never makes a member an admin. -/
theorem isAdmin_of_unrecoverable (valid : s.Valid) {id handoffId : Uuid}
    (run : s.reduceUnrecoverableAssignment t id actor handoffId = .ok (next, outcome))
    {member : PublicKey} (after : next.IsAdmin member) : s.IsAdmin member := by
  obtain ⟨a, m, given⟩ := (reduceUnrecoverableAssignment_eq_ok valid).1 run
  obtain ⟨m', found, admin⟩ := after
  rw [given.next_eq] at found
  change (s.vacateHolders [id])[member]? = some m' at found
  rw [get_vacateHolders] at found
  obtain ⟨m₀, found₀, rfl⟩ := Option.map_eq_some_iff.1 found
  split_ifs at admin
  · exact absurd (Option.some.inj admin) m₀.baseRole_ne_admin
  · exact ⟨m₀, found₀, admin⟩

/-- Over a run, every admin was one at the start or was granted a Leader Role by a step that an
owner authorized. -/
theorem Run.admin (run : Run s next) (valid : s.Valid) {member : PublicKey}
    (admin : next.IsAdmin member) :
    s.IsAdmin member ∨ ∃ s₁ s₂, Run s s₁ ∧ OwnerGrant s₁ s₂ member ∧ Run s₂ next := by
  induction run with
  | refl => exact .inl admin
  | @tail s₁ s₂ before step ih =>
    have valid₁ := Run.valid before valid
    by_cases already : s₁.IsAdmin member
    · rcases ih already with start | ⟨s₃, s₄, run, grant, later⟩
      · exact .inl start
      · exact .inr ⟨s₃, s₄, run, grant, later.tail step⟩
    · cases step with
      | command run => exact .inr ⟨s₁, s₂, before, ownerGrant_of_reduce valid₁ run already admin, .refl⟩
      | unrecoverable run => exact absurd (isAdmin_of_unrecoverable valid₁ run admin) already

/-- No privilege escalation: in every state of a run no command violates `NoEscalation`, and every
admin was one at the start or owes it to an owner who was eligible when the grant was made. -/
theorem no_escalation {s₁ : RoleContinuityState} (valid : s.Valid) (run : Run s s₁) :
    (∀ command actor t ids next outcome,
      s₁.reduce command actor t ids = .ok (next, outcome) → NoEscalation s₁ command next) ∧
    ∀ member, s₁.IsAdmin member → s.IsAdmin member ∨
      ∃ s₂ s₃, Run s s₂ ∧ OwnerGrant s₂ s₃ member ∧ Run s₃ s₁ :=
  ⟨fun _ _ _ _ _ _ accepted => reduce_noEscalation (run.valid valid) accepted,
    fun _ admin => run.admin valid admin⟩

/-- The owner revokes the tenure of the Agent; the Leader was an admin from the start. -/
theorem no_escalation_sample : ∃ next outcome,
    sample.reduce (.new 1 none (.endAssignment 41 none)) 1 5 ⟨0, []⟩ = .ok (next, outcome) ∧
      NoEscalation sample (.new 1 none (.endAssignment 41 none)) next ∧
      (next.IsAdmin 2 → sample.IsAdmin 2 ∨
        ∃ s₂ s₃, Run sample s₂ ∧ OwnerGrant s₂ s₃ 2 ∧ Run s₃ next) := by
  obtain ⟨next, outcome, run⟩ := sample_revoked
  have later := no_escalation sample_valid (.single (.command run))
  exact ⟨next, outcome, run, (no_escalation sample_valid .refl).1 _ _ _ _ _ _ run, later.2 2⟩

/-! ## Managed Leaders -/

/-- The tenure is one that a managed Agent `g` may end: another managed Agent's, and an ordinary
one unless that Agent is `g`'s own. -/
def AgentTenure (s : RoleContinuityState) (g : PublicKey) (a : RoleAssignment) : Prop :=
  ∃ holder, s.members[a.memberPubkey]? = some holder ∧ holder.isManagedAgent = true ∧
    a.memberPubkey ≠ g ∧ (holder.managedAgentOwner = some g ∨
      ∃ role, s.roles[a.roleId]? = some role ∧ role.level = .member)

theorem TenureEnd.agentTenure {id : Uuid} {a a' : RoleAssignment}
    (ended : TenureEnd s command actor t r ids id a a') (found : s.assignments[id]? = some a)
    {m : MemberGovernance} (endedBy : a'.endedBy = some g) (member : s.members[g]? = some m)
    (managed : m.isManagedAgent = true) (notOwner : ¬m.isOwner = true) : s.AgentTenure g a := by
  cases ended with
  | revoked _ authorized =>
    cases endedBy
    obtain ⟨other, m', member', -,
      owner | ⟨holder, held, agent | ⟨-, ⟨role, foundRole, ordinary⟩, both⟩⟩⟩ :=
      authorizeAssignmentEnd_eq_ok.1 authorized
    all_goals cases member.symm.trans member'
    · exact absurd owner notOwner
    · have managedHolder : holder.isManagedAgent = true := by
        rw [MemberGovernance.isManagedAgent, agent]
        rfl
      exact ⟨holder, held, managedHolder, other.symm, .inl agent⟩
    · exact ⟨holder, held, both managed, other.symm,
        .inr ⟨role, foundRole, RoleLevel.eq_member_of_ne ordinary⟩⟩
  | @replaced p g' authorized superseded =>
    cases endedBy
    obtain ⟨m', member', -, owner | ⟨-, -, supersede⟩⟩ := authorizeCompleteMove_eq_ok.1 authorized
    all_goals cases member.symm.trans member'
    · exact absurd owner notOwner
    · obtain ⟨b, found', may⟩ := supersede id (((endedIds_spec p).2 id).1 superseded)
      cases found.symm.trans found'
      have known := may.managed managed
      rw [isManagedMember, Option.any_eq_true] at known
      obtain ⟨holder, held, managedHolder⟩ := known
      obtain ⟨role, foundRole, ordinary⟩ := may.ordinary
      exact ⟨holder, held, managedHolder, may.other,
        .inr ⟨role, foundRole, RoleLevel.eq_member_of_ne ordinary⟩⟩

/-- A managed Leader never displaces a human: in every state of a run, a tenure that a command ends
on the authority of a managed Agent other than the owner is another managed Agent's, and an
ordinary one unless that Agent is its own. -/
theorem managed_leader_displaces_no_human {s₀ : RoleContinuityState} (valid : s₀.Valid)
    (run : Run s₀ s) (accepted : s.reduce command actor t ids = .ok (next, outcome)) {id : Uuid}
    {a a' : RoleAssignment} {m : MemberGovernance} (before : s.assignments[id]? = some a)
    (active : a.isActive = true) (after : next.assignments[id]? = some a')
    (ended : a'.isActive = false) (endedBy : a'.endedBy = some g) (member : s.members[g]? = some m)
    (managed : m.isManagedAgent = true) (notOwner : ¬m.isOwner = true) :
    ∃ holder, s.members[a.memberPubkey]? = some holder ∧ holder.isManagedAgent = true ∧
      a.memberPubkey ≠ g ∧ (holder.managedAgentOwner = some g ∨
        ∃ role, s.roles[a.roleId]? = some role ∧ role.level = .member) := by
  have valid := run.valid valid
  obtain ⟨d, reduced⟩ := reduce_eq_ok.1 accepted
  rw [reduced.next_eq] at after
  obtain ⟨-, same | ⟨-, tenure⟩⟩ := (reduced.effect valid).tenure before after
  · rw [ended, active] at same
    cases same
  · exact tenure.agentTenure before endedBy member managed notOwner

/-- The small Community with a second Leader Role, which a managed Agent, key 5, holds. -/
def sampleAgentLeader : RoleContinuityState :=
  community [⟨10, .admin, true⟩, ⟨11, .member, true⟩, ⟨12, .admin, true⟩] []
    [⟨1, some .owner, true, none⟩, ⟨2, some .admin, true, none⟩, ⟨3, some .member, true, none⟩,
      ⟨4, some .member, true, some 2⟩, ⟨5, some .admin, true, some 1⟩]
    [] [sampleTenure 40 10 2, sampleTenure 41 11 4, sampleTenure 42 12 5] []

theorem sampleAgentLeader_valid : sampleAgentLeader.Valid := community_valid (by decide +kernel)

/-- The managed Leader ends the tenure of the other managed Agent. -/
theorem managed_leader_displaces_no_human_sample : ∃ next outcome,
    sampleAgentLeader.reduce (.new 1 (some 42) (.endAssignment 41 none)) 5 5 ⟨0, []⟩ =
      .ok (next, outcome) ∧
    ∃ holder, sampleAgentLeader.members[(4 : PublicKey)]? = some holder ∧
      holder.isManagedAgent = true ∧ (4 : PublicKey) ≠ 5 ∧ (holder.managedAgentOwner = some 5 ∨
        ∃ role, sampleAgentLeader.roles[(11 : Uuid)]? = some role ∧ role.level = .member) := by
  have accepted : Fallible.yields
      (sampleAgentLeader.reduce (.new 1 (some 42) (.endAssignment 41 none)) 5 5 ⟨0, []⟩)
      (fun x => decide (x.1.assignments[(41 : Uuid)]? =
        some ((sampleTenure 41 11 4).ended 5 .revoked none 5 2))) = true := by decide +kernel
  obtain ⟨⟨next, outcome⟩, run, after⟩ := Fallible.yields_iff.1 accepted
  have before : sampleAgentLeader.assignments[(41 : Uuid)]? = some (sampleTenure 41 11 4) := by
    decide +kernel
  have member : sampleAgentLeader.members[(5 : PublicKey)]? = some ⟨5, some .admin, true, some 1⟩ := by
    decide +kernel
  exact ⟨next, outcome, run, managed_leader_displaces_no_human sampleAgentLeader_valid .refl run
    before rfl (of_decide_eq_true after) rfl rfl member rfl (by decide)⟩

end RoleContinuityState

end RoleContinuity

end Carryforth
