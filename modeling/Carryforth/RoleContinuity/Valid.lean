import Carryforth.RoleContinuity.Authority

/-!
# Role continuity: valid states

`Consistent` says what the whole-state validation accepts, record by record (`validate_eq_ok_iff`).
A `Valid` state has in addition every record under its own key and every Role and Work among the
referenceable objects; these are exactly the states a snapshot can produce
(`valid_iff_fromCompleteSnapshot`).  In such a state the searches of the reducer find the one
record there is.
-/

namespace Carryforth

namespace RoleContinuity

open Fallible

def grantedRole : RoleLevel → CommunityMemberRole
  | .admin => .admin
  | .member => .member

/-- The Community role of a member agrees with a Role it holds; owners agree with every Role. -/
def MemberGovernance.Fits (m : MemberGovernance) (level : RoleLevel) : Prop :=
  m.isOwner = true ∨ m.communityRole = some (grantedRole level)

theorem MemberGovernance.isOwner_iff {m : MemberGovernance} :
    m.isOwner = true ↔ m.communityRole = some .owner := by
  unfold MemberGovernance.isOwner
  exact beq_iff_eq

theorem asStr_eq_iff {role : CommunityMemberRole} {level : RoleLevel} :
    role.asStr = level.asStr ↔ role = grantedRole level := by
  cases role <;> cases level <;> decide

theorem RoleAssignment.isActive_iff {a : RoleAssignment} : a.isActive = true ↔ a.endedAt = none :=
  Option.isNone_iff_eq_none

theorem WorkCommitment.isActive_iff {c : WorkCommitment} : c.isActive = true ↔ c.endedAt = none :=
  Option.isNone_iff_eq_none

namespace RoleContinuityState

variable (s : RoleContinuityState)

/-! ## What validation accepts -/

/-- An active Assignment is to an active Role and held by an eligible member that fits it. -/
structure ActiveAssignmentOk (a : RoleAssignment) (role : RoleSlot) : Prop where
  roleActive : role.active = true
  member : ∃ m, s.members[a.memberPubkey]? = some m ∧ m.eligible = true ∧ m.Fits role.level

def AssignmentOk (a : RoleAssignment) : Prop :=
  ∃ role, s.roles[a.roleId]? = some role ∧
    (a.isActive = true → s.ActiveAssignmentOk a role) ∧
    (a.isActive = false → a.endedBy.isSome = true ∧ a.endedReason.isSome = true)

/-- Two different Assignments are not both active for one Role or one member. -/
def AssignmentsApart (a b : RoleAssignment) : Prop :=
  a.isActive = true → b.isActive = true → a.roleId ≠ b.roleId ∧ a.memberPubkey ≠ b.memberPubkey

def CommitmentOk (c : WorkCommitment) : Prop :=
  ∃ a w, s.assignments[c.assignmentId]? = some a ∧ s.works[c.workId]? = some w ∧
    c.memberPubkey = a.memberPubkey ∧
    (c.isActive = true →
      a.isActive = true ∧ w.isOpen = true ∧ w.responsibleRoleId = some a.roleId) ∧
    (c.isActive = false → c.endedBy.isSome = true ∧ c.endedReason.isSome = true)

/-- Two different Commitments are not both active for one Work. -/
def CommitmentsApart (c d : WorkCommitment) : Prop :=
  c.isActive = true → d.isActive = true → c.workId ≠ d.workId

/-- Every record is stored under its own identifier. -/
structure Keyed : Prop where
  roles : s.roles.Keyed (·.roleId)
  works : s.works.Keyed (·.workId)
  members : s.members.Keyed (·.pubkey)
  proposals : s.proposals.Keyed (·.proposalId)
  assignments : s.assignments.Keyed (·.assignmentId)
  commitments : s.commitments.Keyed (·.commitmentId)
  checkpoints : s.checkpoints.Keyed (·.checkpointId)
  handoffs : s.handoffs.Keyed (·.handoffId)

/-- What whole-state validation accepts. -/
structure Consistent : Prop where
  revision : 0 < s.projectRevision ∧ s.projectRevision ≤ maxSafeRevision
  assignment : ∀ (id : Uuid) a, s.assignments[id]? = some a → s.AssignmentOk a
  assignmentsApart : ∀ (i j : Uuid) a b, s.assignments[i]? = some a → s.assignments[j]? = some b →
    i ≠ j → AssignmentsApart a b
  work : ∀ (id : Uuid) w, s.works[id]? = some w → s.validateWork w = .ok ()
  commitment : ∀ (id : Uuid) c, s.commitments[id]? = some c → s.CommitmentOk c
  commitmentsApart : ∀ (i j : Uuid) c d, s.commitments[i]? = some c → s.commitments[j]? = some d →
    i ≠ j → CommitmentsApart c d
  checkpoint : ∀ (id : Uuid) c, s.checkpoints[id]? = some c → s.validateCheckpoint c = .ok ()
  handoff : ∀ (id : Uuid) h, s.handoffs[id]? = some h → s.validateHandoff h = .ok ()

/-- A state that a snapshot or a reduction can produce. -/
structure Valid : Prop where
  keyed : s.Keyed
  rolesReferenceable : ∀ id : Uuid, s.roles.contains id = true → id ∈ s.referenceableObjects
  worksReferenceable : ∀ id : Uuid, s.works.contains id = true → id ∈ s.referenceableObjects
  consistent : s.Consistent

variable {s}

/-! ## The validation loops -/

theorem eligibleMember_eq_ok {pubkey : PublicKey} {e : RoleContinuityError}
    {m : MemberGovernance} :
    s.eligibleMember pubkey e = .ok m ↔ s.members[pubkey]? = some m ∧ m.eligible = true := by
  rw [eligibleMember, okOr_eq_ok, Option.filter_eq_some_iff]

theorem activeAssignment_eq_ok {id : Uuid} {a : RoleAssignment} :
    s.activeAssignment id = .ok a ↔ s.assignments[id]? = some a ∧ a.isActive = true := by
  simp only [activeAssignment, bind_eq_ok, okOr_eq_ok, ensure_eq_ok, pure_eq_ok]
  constructor
  · rintro ⟨_, found, _, active, rfl⟩
    exact ⟨found, active⟩
  · rintro ⟨found, active⟩
    exact ⟨a, found, (), active, rfl⟩

/-- The seen Roles and members after one more Assignment. -/
def seeAssignment (seen : SeenActive) (a : RoleAssignment) : SeenActive :=
  if a.isActive = true then (seen.1.insert a.roleId, seen.2.insert a.memberPubkey) else seen

/-- No active Assignment seen so far has the Role or the member of this one. -/
def UnseenAssignment (seen : SeenActive) (a : RoleAssignment) : Prop :=
  a.isActive = true →
    ¬seen.1.contains a.roleId = true ∧ ¬seen.2.contains a.memberPubkey = true

theorem validateAssignment_eq_ok {seen seen' : SeenActive} {a : RoleAssignment} :
    s.validateAssignment seen a = .ok seen' ↔
      s.AssignmentOk a ∧ UnseenAssignment seen a ∧ seen' = seeAssignment seen a := by
  unfold validateAssignment AssignmentOk UnseenAssignment seeAssignment
  cases active : a.isActive with
  | false =>
    simp only [bind_eq_ok, okOr_eq_ok, ensure_eq_ok, pure_eq_ok, Bool.false_eq_true, if_false]
    constructor
    · rintro ⟨role, found, _, attributed, rfl⟩
      exact ⟨⟨role, found, False.elim, fun _ => attributed⟩, False.elim, rfl⟩
    · rintro ⟨⟨role, found, -, attributed⟩, -, rfl⟩
      exact ⟨role, found, (), attributed trivial, rfl⟩
  | true =>
    simp only [bind_eq_ok, okOr_eq_ok, ensure_eq_ok, pure_eq_ok, if_true, Option.filter_eq_some_iff,
      Bool.and_eq_true]
    constructor
    · rintro ⟨role, found, _, roleActive, _, freshRole, _, freshMember, m, ⟨hm, eligible, hasRole⟩,
        _, fits, rfl⟩
      refine ⟨⟨role, found, fun _ => ⟨roleActive, m, hm, eligible, fits.imp_right fun h => ?_⟩,
        Bool.noConfusion⟩, fun _ => ⟨freshRole, freshMember⟩, rfl⟩
      obtain ⟨r, hr⟩ := Option.isSome_iff_exists.1 hasRole
      rw [hr, Option.map_some, Option.some.injEq, asStr_eq_iff] at h
      rw [hr, h]
    · rintro ⟨⟨role, found, ok, -⟩, fresh, rfl⟩
      obtain ⟨roleActive, m, hm, eligible, fits⟩ := ok trivial
      obtain ⟨freshRole, freshMember⟩ := fresh trivial
      refine ⟨role, found, (), roleActive, (), freshRole, (), freshMember, m, ⟨hm, eligible, ?_⟩,
        (), fits.imp_right fun h => ?_, rfl⟩
      · rcases fits with owner | h
        · rw [MemberGovernance.isOwner_iff.1 owner]
          rfl
        · rw [h]
          rfl
      · rw [h, Option.map_some, asStr_eq_iff.2 rfl]

theorem unseen_seeAssignment (seen : SeenActive) (a b : RoleAssignment) :
    UnseenAssignment (seeAssignment seen a) b ↔ UnseenAssignment seen b ∧ AssignmentsApart a b := by
  unfold UnseenAssignment seeAssignment AssignmentsApart
  cases a.isActive <;> cases b.isActive <;>
    simp [Std.ExtTreeSet.contains_insert, not_or, and_assoc, and_left_comm, and_comm]

theorem AssignmentsApart.symm {a b : RoleAssignment} (apart : AssignmentsApart a b) :
    AssignmentsApart b a :=
  fun hb ha => ⟨(apart ha hb).1.symm, (apart ha hb).2.symm⟩

/-- The Work already seen with an active Commitment, after one more Commitment. -/
def seeCommitment (seen : OrdSet Uuid) (c : WorkCommitment) : OrdSet Uuid :=
  if c.isActive = true then seen.insert c.workId else seen

theorem validateCommitment_eq_ok {seen seen' : OrdSet Uuid} {c : WorkCommitment} :
    s.validateCommitment seen c = .ok seen' ↔
      s.CommitmentOk c ∧ (c.isActive = true → ¬seen.contains c.workId = true) ∧
        seen' = seeCommitment seen c := by
  unfold validateCommitment CommitmentOk seeCommitment
  cases active : c.isActive with
  | false =>
    simp only [bind_eq_ok, okOr_eq_ok, ensure_eq_ok, pure_eq_ok, Bool.false_eq_true, if_false]
    constructor
    · rintro ⟨a, ha, w, hw, _, member, _, attributed, rfl⟩
      exact ⟨⟨a, w, ha, hw, member, False.elim, fun _ => attributed⟩, False.elim, rfl⟩
    · rintro ⟨⟨a, w, ha, hw, member, -, attributed⟩, -, rfl⟩
      exact ⟨a, ha, w, hw, (), member, (), attributed trivial, rfl⟩
  | true =>
    simp only [bind_eq_ok, okOr_eq_ok, ensure_eq_ok, pure_eq_ok, if_true]
    constructor
    · rintro ⟨a, ha, w, hw, _, member, _, held, _, isOpen, _, responsible, _, fresh, rfl⟩
      exact ⟨⟨a, w, ha, hw, member, fun _ => ⟨held, isOpen, responsible⟩, Bool.noConfusion⟩,
        fun _ => fresh, rfl⟩
    · rintro ⟨⟨a, w, ha, hw, member, ok, -⟩, fresh, rfl⟩
      obtain ⟨held, isOpen, responsible⟩ := ok trivial
      exact ⟨a, ha, w, hw, (), member, (), held, (), isOpen, (), responsible, (), fresh trivial, rfl⟩

theorem unseen_seeCommitment (seen : OrdSet Uuid) (c d : WorkCommitment) :
    (d.isActive = true → ¬(seeCommitment seen c).contains d.workId = true) ↔
      (d.isActive = true → ¬seen.contains d.workId = true) ∧ CommitmentsApart c d := by
  unfold seeCommitment CommitmentsApart
  cases c.isActive <;> cases d.isActive <;>
    simp [Std.ExtTreeSet.contains_insert, not_or, and_comm]

/-- Whole-state validation accepts exactly the consistent states. -/
theorem validate_eq_ok_iff (keyed : s.Keyed) : s.validate = .ok () ↔ s.Consistent := by
  have assignments : (∃ seen, s.assignments.valueList.foldlM s.validateAssignment (∅, ∅) = .ok seen) ↔
      (∀ (id : Uuid) a, s.assignments[id]? = some a → s.AssignmentOk a) ∧
      ∀ (i j : Uuid) a b, s.assignments[i]? = some a → s.assignments[j]? = some b → i ≠ j →
        AssignmentsApart a b := by
    rw [foldlM_isOk_iff (f := s.validateAssignment) (fun seen a seen' =>
        validateAssignment_eq_ok (s := s) (a := a)) unseen_seeAssignment,
      keyed.assignments.pairwise_valueList fun _ _ => AssignmentsApart.symm]
    simp [OrdMap.mem_valueList, UnseenAssignment, forall_comm (α := RoleAssignment)]
  have commitments : (∃ seen, s.commitments.valueList.foldlM s.validateCommitment ∅ = .ok seen) ↔
      (∀ (id : Uuid) c, s.commitments[id]? = some c → s.CommitmentOk c) ∧
      ∀ (i j : Uuid) c d, s.commitments[i]? = some c → s.commitments[j]? = some d → i ≠ j →
        CommitmentsApart c d := by
    rw [foldlM_isOk_iff (f := s.validateCommitment) (fun seen c seen' =>
        validateCommitment_eq_ok (s := s) (c := c)) unseen_seeCommitment,
      keyed.commitments.pairwise_valueList fun _ _ apart hd hc => (apart hc hd).symm]
    simp [OrdMap.mem_valueList, forall_comm (α := WorkCommitment)]
  have values : ∀ {ν : Type} (m : OrdMap Uuid ν) (check : ν → Result Unit),
      m.valueList.forM check = .ok () ↔ ∀ (id : Uuid) v, m[id]? = some v → check v = .ok () := by
    intro ν m check
    rw [forM_eq_ok]
    simp [OrdMap.mem_valueList, forall_comm (α := ν)]
  unfold validate
  simp only [bind_eq_ok, ensure_eq_ok, values]
  constructor
  · rintro ⟨_, revision, seen, runA, _, work, seenC, runC, _, checkpoint, handoff⟩
    obtain ⟨assignment, apart⟩ := assignments.1 ⟨seen, runA⟩
    obtain ⟨commitment, commitmentsApart⟩ := commitments.1 ⟨seenC, runC⟩
    exact ⟨by omega, assignment, apart, work, commitment, commitmentsApart, checkpoint, handoff⟩
  · intro h
    obtain ⟨seen, runA⟩ := assignments.2 ⟨h.assignment, h.assignmentsApart⟩
    obtain ⟨seenC, runC⟩ := commitments.2 ⟨h.commitment, h.commitmentsApart⟩
    have revision := h.revision
    exact ⟨(), by omega, seen, runA, (), h.work, seenC, runC, (), h.checkpoint, h.handoff⟩

/-! ## Snapshots -/

theorem fromCompleteSnapshot_valid {revision : Nat} {roles works members proposals assignments
    commitments checkpoints handoffs objects}
    (accepted : fromCompleteSnapshot revision roles works members proposals assignments commitments
      checkpoints handoffs objects = .ok s) : s.Valid := by
  unfold fromCompleteSnapshot at accepted
  simp only [bind_eq_ok, pure_eq_ok] at accepted
  obtain ⟨roles, hRoles, works, hWorks, members, hMembers, proposals, hProposals, assignments,
    hAssignments, commitments, hCommitments, checkpoints, hCheckpoints, handoffs, hHandoffs, _,
    validated, rfl⟩ := accepted
  have keyed : ∀ objects, Keyed ⟨revision, objects, roles, works, members, proposals, assignments,
      commitments, checkpoints, handoffs⟩ := fun _ =>
    ⟨OrdMap.collectUnique_keyed hRoles, OrdMap.collectUnique_keyed hWorks,
      OrdMap.collectUnique_keyed hMembers, OrdMap.collectUnique_keyed hProposals,
      OrdMap.collectUnique_keyed hAssignments, OrdMap.collectUnique_keyed hCommitments,
      OrdMap.collectUnique_keyed hCheckpoints, OrdMap.collectUnique_keyed hHandoffs⟩
  refine ⟨keyed _, fun id hid => ?_, fun id hid => ?_,
    (validate_eq_ok_iff (keyed _)).1 validated⟩
  · simp only [Std.ExtTreeSet.mem_insertMany_list, List.contains_iff_mem, Std.ExtTreeMap.mem_keys]
    exact .inl (.inr hid)
  · simp only [Std.ExtTreeSet.mem_insertMany_list, List.contains_iff_mem, Std.ExtTreeMap.mem_keys]
    exact .inr hid

/-- The state is restored from its rows, in whatever order they are read. -/
def Restorable (s : RoleContinuityState) : Prop :=
  ∀ {roles works members proposals assignments commitments checkpoints handoffs ids},
    roles.Perm s.roles.valueList → works.Perm s.works.valueList →
    members.Perm s.members.valueList → proposals.Perm s.proposals.valueList →
    assignments.Perm s.assignments.valueList → commitments.Perm s.commitments.valueList →
    checkpoints.Perm s.checkpoints.valueList → handoffs.Perm s.handoffs.valueList →
    (∀ id, id ∈ ids ↔ id ∈ s.referenceableObjects) →
    fromCompleteSnapshot s.projectRevision roles works members proposals assignments commitments
      checkpoints handoffs ids = .ok s

theorem Valid.restorable (valid : s.Valid) : s.Restorable := by
  intro roles works members proposals assignments commitments checkpoints handoffs ids hRoles hWorks
    hMembers hProposals hAssignments hCommitments hCheckpoints hHandoffs hIds
  have keyed := valid.keyed
  have objects : ((Std.ExtTreeSet.ofList ids compare).insertMany s.roles.keys).insertMany
      s.works.keys = s.referenceableObjects := by
    refine Std.ExtTreeSet.ext_mem fun id => ?_
    simp only [Std.ExtTreeSet.mem_insertMany_list, Std.ExtTreeSet.mem_ofList,
      List.contains_iff_mem, Std.ExtTreeMap.mem_keys, hIds]
    constructor
    · rintro ((h | h) | h)
      · exact h
      · exact valid.rolesReferenceable id h
      · exact valid.worksReferenceable id h
    · exact fun h => .inl (.inl h)
  unfold fromCompleteSnapshot
  simp only [keyed.roles.collectUnique_of_perm hRoles, keyed.works.collectUnique_of_perm hWorks,
    keyed.members.collectUnique_of_perm hMembers, keyed.proposals.collectUnique_of_perm hProposals,
    keyed.assignments.collectUnique_of_perm hAssignments,
    keyed.commitments.collectUnique_of_perm hCommitments,
    keyed.checkpoints.collectUnique_of_perm hCheckpoints,
    keyed.handoffs.collectUnique_of_perm hHandoffs, ok_bind, objects,
    (validate_eq_ok_iff keyed).2 valid.consistent]
  rfl

/-- The valid states are exactly the accepted snapshots. -/
theorem valid_iff_fromCompleteSnapshot :
    s.Valid ↔ ∃ revision roles works members proposals assignments commitments checkpoints handoffs
      objects, fromCompleteSnapshot revision roles works members proposals assignments commitments
        checkpoints handoffs objects = .ok s := by
  constructor
  · intro valid
    exact ⟨_, _, _, _, _, _, _, _, _, _, valid.restorable (.refl _) (.refl _) (.refl _) (.refl _)
      (.refl _) (.refl _) (.refl _) (.refl _) fun _ => Std.ExtTreeSet.mem_toList⟩
  · rintro ⟨_, _, _, _, _, _, _, _, _, _, accepted⟩
    exact fromCompleteSnapshot_valid accepted

/-! ## Searches in a state with at most one active tenure per Role and member -/

/-- What the searches for an active Assignment rely on. -/
structure TenuresApart (s : RoleContinuityState) : Prop where
  keyed : s.assignments.Keyed (·.assignmentId)
  apart : ∀ (i j : Uuid) a b, s.assignments[i]? = some a → s.assignments[j]? = some b → i ≠ j →
    AssignmentsApart a b

theorem Valid.tenuresApart (valid : s.Valid) : s.TenuresApart :=
  ⟨valid.keyed.assignments, valid.consistent.assignmentsApart⟩

/-- A search for the active tenure with a property that determines it. -/
theorem TenuresApart.find_eq_some_iff (tenures : s.TenuresApart) {p : RoleAssignment → Bool}
    (unique : ∀ a b, p a = true → p b = true → a.isActive = true → b.isActive = true →
      a.roleId = b.roleId ∨ a.memberPubkey = b.memberPubkey) {id : Uuid} :
    (s.assignments.valueList.find? fun a => p a && a.isActive).map (·.assignmentId) = some id ↔
      ∃ a, s.assignments[id]? = some a ∧ p a = true ∧ a.isActive = true := by
  rw [Option.map_eq_some_iff]
  simp only [tenures.keyed.mem_valueList, Bool.and_eq_true, List.find?_eq_some_iff_of_unique (a := _)
    (l := s.assignments.valueList) (p := fun a => p a && a.isActive) (by
      intro a ha b hb pa pb
      rw [Bool.and_eq_true] at pa pb
      rw [tenures.keyed.mem_valueList] at ha hb
      by_contra different
      have apart := tenures.apart _ _ a b ha hb (fun same => different (by
        rw [same, hb] at ha
        exact (Option.some.inj ha).symm)) pa.2 pb.2
      exact (unique a b pa.1 pb.1 pa.2 pb.2).elim apart.1 apart.2)]
  constructor
  · rintro ⟨a, ⟨found, hp, active⟩, rfl⟩
    exact ⟨a, found, hp, active⟩
  · rintro ⟨a, found, hp, active⟩
    have key : a.assignmentId = id := tenures.keyed id a found
    exact ⟨a, ⟨by rwa [key], hp, active⟩, key⟩

theorem TenuresApart.forMember_eq_some_iff (tenures : s.TenuresApart) {member : PublicKey}
    {id : Uuid} : s.activeAssignmentForMember member = some id ↔
      ∃ a, s.assignments[id]? = some a ∧ a.memberPubkey = member ∧ a.isActive = true := by
  unfold activeAssignmentForMember
  rw [tenures.find_eq_some_iff]
  · simp only [beq_iff_eq]
  · intro a b ha hb _ _
    exact .inr ((beq_iff_eq.1 ha).trans (beq_iff_eq.1 hb).symm)

theorem TenuresApart.forRole_eq_some_iff (tenures : s.TenuresApart) {role id : Uuid} :
    s.activeAssignmentForRole role = some id ↔
      ∃ a, s.assignments[id]? = some a ∧ a.roleId = role ∧ a.isActive = true := by
  unfold activeAssignmentForRole
  rw [tenures.find_eq_some_iff]
  · simp only [beq_iff_eq]
  · intro a b ha hb _ _
    exact .inl ((beq_iff_eq.1 ha).trans (beq_iff_eq.1 hb).symm)

end RoleContinuityState

end RoleContinuity

end Carryforth
