import Carryforth.RoleContinuity.Transition
import Carryforth.RoleContinuity.Valid

/-!
# Role continuity: ending tenures

The loops of the reducer that end tenures, in closed form.  `endTenures` rewrites a state in one
go: the named Assignments and their active Commitments are ended and their holders fall back to
their base Community role.  `endAssignment_eq_ok` and `foldlM_supersede` say that the loops succeed
exactly when every record they touch can advance, and then compute this closed form.
-/

namespace Carryforth

namespace RoleContinuity

open Fallible

/-- The record may be written at store revision `r` without overflowing. -/
def CanTouch {α : Type} [Versioned α] (r : Nat) (a : α) : Prop :=
  Versioned.writtenAt a = r ∨ Versioned.revision a < maxSafeRevision

/-! ## Ended records -/

def RoleAssignment.ended (a : RoleAssignment) (actor : PublicKey) (reason : AssignmentEndReason)
    (replacedBy : Option Uuid) (t : DateTime) (r : Nat) : RoleAssignment :=
  Versioned.touched { a with
    endedAt := some t
    endedBy := some actor
    endedReason := some reason
    replacedByAssignmentId := replacedBy } r

def WorkCommitment.ended (c : WorkCommitment) (actor : PublicKey) (reason : CommitmentEndReason)
    (t : DateTime) (r : Nat) : WorkCommitment :=
  Versioned.touched { c with
    endedAt := some t
    endedBy := some actor
    endedReason := some reason } r

theorem RoleAssignment.ended_isActive (a : RoleAssignment) (actor : PublicKey)
    (reason : AssignmentEndReason) (replacedBy : Option Uuid) (t : DateTime) (r : Nat) :
    (a.ended actor reason replacedBy t r).isActive = false := rfl

theorem WorkCommitment.ended_isActive (c : WorkCommitment) (actor : PublicKey)
    (reason : CommitmentEndReason) (t : DateTime) (r : Nat) :
    (c.ended actor reason t r).isActive = false := rfl

namespace RoleContinuityState

variable {s s' : RoleContinuityState} {actor : PublicKey} {t : DateTime} {r : Nat}

/-! ## Ending the Commitments of one Assignment -/

theorem endCommitment_eq_ok {id : Uuid} {reason : CommitmentEndReason} :
    s.endCommitment id actor reason t r = .ok s' ↔
      ∃ c, s.commitments[id]? = some c ∧ c.isActive = true ∧ CanTouch r c ∧
        s' = { s with commitments := s.commitments.insert id (c.ended actor reason t r) } := by
  simp only [endCommitment, touchCommitment, bind_eq_ok, okOr_eq_ok, ensure_eq_ok, pure_eq_ok,
    Versioned.touch_eq_ok]
  constructor
  · rintro ⟨c, found, _, active, _, ⟨room, rfl⟩, rfl⟩
    exact ⟨c, found, active, room, rfl⟩
  · rintro ⟨c, found, active, room, rfl⟩
    exact ⟨c, found, (), active, _, ⟨room, rfl⟩, rfl⟩

/-- Ending a list of active Commitments ends each of them and touches nothing else. -/
theorem foldlM_endCommitment {reason : CommitmentEndReason} {ids : List Uuid} (nodup : ids.Nodup)
    (active : ∀ id ∈ ids, ∃ c, s.commitments[id]? = some c ∧ c.isActive = true) :
    ids.foldlM (fun n id => n.endCommitment id actor reason t r) s = .ok s' ↔
      (∀ id ∈ ids, ∀ c, s.commitments[id]? = some c → CanTouch r c) ∧
      s' = { s with
        commitments := Std.ExtTreeMap.map
          (fun id c => if id ∈ ids then c.ended actor reason t r else c) s.commitments } := by
  induction ids generalizing s with
  | nil =>
    have same : Std.ExtTreeMap.map (fun (_ : Uuid) (c : WorkCommitment) => c) s.commitments =
        s.commitments :=
      Std.ExtTreeMap.ext_getElem? fun k => by rw [Std.ExtTreeMap.getElem?_map, Option.map_id']
    simp [same, eq_comm, pure, Except.pure]
  | cons id ids ih =>
    obtain ⟨fresh, nodup⟩ := List.nodup_cons.1 nodup
    obtain ⟨c, found, live⟩ := active id List.mem_cons_self
    -- the state after the first Commitment agrees with `s` on all later ones
    have later : ∀ j ∈ ids, (s.commitments.insert id (c.ended actor reason t r))[j]? =
        s.commitments[j]? := by
      intro j hj
      have different : j ≠ id := fun same => fresh (by rwa [← same])
      exact OrdMap.get_insert_of_ne different _ _
    have rest := @ih { s with commitments := s.commitments.insert id (c.ended actor reason t r) }
      nodup (fun j hj => by
        rw [later j hj]
        exact active j (List.mem_cons_of_mem _ hj))
    have closed : Std.ExtTreeMap.map (fun j d => if j ∈ ids then d.ended actor reason t r else d)
          (s.commitments.insert id (c.ended actor reason t r)) =
        Std.ExtTreeMap.map (fun j d => if j ∈ id :: ids then d.ended actor reason t r else d)
          s.commitments := by
      refine Std.ExtTreeMap.ext_getElem? fun j => ?_
      rw [Std.ExtTreeMap.getElem?_map, Std.ExtTreeMap.getElem?_map, OrdMap.get_insert]
      by_cases same : j = id
      · subst same
        simp [found, fresh]
      · simp [same]
    simp only [closed] at rest
    rw [List.foldlM_cons, bind_eq_ok]
    constructor
    · rintro ⟨s₁, step, run⟩
      obtain ⟨c', found', -, room, rfl⟩ := endCommitment_eq_ok.1 step
      cases found.symm.trans found'
      obtain ⟨rooms, rfl⟩ := rest.1 run
      refine ⟨fun j hj d hd => ?_, rfl⟩
      rcases List.mem_cons.1 hj with rfl | hj
      · cases found.symm.trans hd
        exact room
      · exact rooms j hj d (by rw [later j hj, hd])
    · rintro ⟨rooms, rfl⟩
      refine ⟨_, endCommitment_eq_ok.2 ⟨c, found, live, rooms id List.mem_cons_self c found, rfl⟩,
        rest.2 ⟨fun j hj d hd => ?_, rfl⟩⟩
      rw [later j hj] at hd
      exact rooms j (List.mem_cons_of_mem _ hj) d hd

theorem mem_activeCommitmentIds (keyed : s.commitments.Keyed (·.commitmentId)) {id k : Uuid} :
    k ∈ s.activeCommitmentIds id ↔
      ∃ c, s.commitments[k]? = some c ∧ c.assignmentId = id ∧ c.isActive = true := by
  simp only [activeCommitmentIds, List.mem_map, List.mem_filter, keyed.mem_valueList,
    Bool.and_eq_true, beq_iff_eq]
  constructor
  · rintro ⟨c, ⟨found, held, active⟩, rfl⟩
    exact ⟨c, found, held, active⟩
  · rintro ⟨c, found, held, active⟩
    have key : c.commitmentId = k := keyed k c found
    exact ⟨c, ⟨by rwa [key], held, active⟩, key⟩

theorem nodup_activeCommitmentIds (keyed : s.commitments.Keyed (·.commitmentId)) (id : Uuid) :
    (s.activeCommitmentIds id).Nodup :=
  keyed.nodup_keys.sublist (List.filter_sublist.map _)

/-- The Commitments once the active ones of the named Assignments have ended. -/
def endCommitmentsOf (s : RoleContinuityState) (ids : List Uuid) (actor : PublicKey) (t : DateTime)
    (r : Nat) : OrdMap Uuid WorkCommitment :=
  Std.ExtTreeMap.map (fun _ c =>
    if c.assignmentId ∈ ids ∧ c.isActive = true then c.ended actor .assignmentEnded t r else c)
    s.commitments

/-- Every record that ends with this Assignment can be written at revision `r`. -/
structure CanEnd (s : RoleContinuityState) (r : Nat) (id : Uuid) (a : RoleAssignment) : Prop where
  found : s.assignments[id]? = some a
  active : a.isActive = true
  room : CanTouch r a
  commitments : ∀ (k : Uuid) c, s.commitments[k]? = some c → c.assignmentId = id →
    c.isActive = true → CanTouch r c

theorem endAssignment_eq_ok (keyed : s.commitments.Keyed (·.commitmentId)) {id : Uuid}
    {reason : AssignmentEndReason} {replacedBy : Option Uuid} {ids : List Uuid} :
    s.endAssignment id actor reason replacedBy t r = .ok (ids, s') ↔
      ∃ a, s.CanEnd r id a ∧ ids = s.activeCommitmentIds id ∧
        s' = { s with
          assignments := s.assignments.insert id (a.ended actor reason replacedBy t r)
          commitments := s.endCommitmentsOf [id] actor t r } := by
  have members : ∀ k, k ∈ s.activeCommitmentIds id ↔
      ∃ c, s.commitments[k]? = some c ∧ c.assignmentId = id ∧ c.isActive = true :=
    fun _ => mem_activeCommitmentIds keyed
  have closed : Std.ExtTreeMap.map (fun k c =>
      if k ∈ s.activeCommitmentIds id then c.ended actor .assignmentEnded t r else c)
      s.commitments = s.endCommitmentsOf [id] actor t r := by
    refine Std.ExtTreeMap.ext_getElem? fun k => ?_
    rw [endCommitmentsOf, Std.ExtTreeMap.getElem?_map, Std.ExtTreeMap.getElem?_map]
    cases found : s.commitments[k]? with
    | none => rfl
    | some c => simp [members, found]
  have loop : ∀ a : RoleAssignment,
      (s.activeCommitmentIds id).foldlM
          (fun n k => n.endCommitment k actor .assignmentEnded t r)
          { s with assignments := s.assignments.insert id a } = .ok s' ↔
        (∀ k ∈ s.activeCommitmentIds id, ∀ c, s.commitments[k]? = some c → CanTouch r c) ∧
        s' = { s with
          assignments := s.assignments.insert id a
          commitments := s.endCommitmentsOf [id] actor t r } := by
    intro a
    rw [← closed]
    refine foldlM_endCommitment (nodup_activeCommitmentIds keyed id) fun k hk => ?_
    obtain ⟨c, found, -, active⟩ := (members k).1 hk
    exact ⟨c, found, active⟩
  have rooms : (∀ k ∈ s.activeCommitmentIds id, ∀ c, s.commitments[k]? = some c → CanTouch r c) ↔
      ∀ (k : Uuid) c, s.commitments[k]? = some c → c.assignmentId = id → c.isActive = true →
        CanTouch r c := by
    constructor
    · exact fun h k c found held active => h k ((members k).2 ⟨c, found, held, active⟩) c found
    · intro h k hk c found
      obtain ⟨c', found', held, active⟩ := (members k).1 hk
      cases found.symm.trans found'
      exact h k c found held active
  simp only [endAssignment, touchAssignment, bind_eq_ok, okOr_eq_ok, ensure_eq_ok, pure_eq_ok,
    Versioned.touch_eq_ok, Prod.mk.injEq]
  constructor
  · rintro ⟨a, found, _, active, _, ⟨room, rfl⟩, _, run, rfl, rfl⟩
    obtain ⟨commitments, rfl⟩ := (loop _).1 run
    exact ⟨a, ⟨found, active, room, rooms.1 commitments⟩, rfl, rfl⟩
  · rintro ⟨a, ⟨found, active, room, commitments⟩, rfl, rfl⟩
    exact ⟨a, found, (), active, _, ⟨room, rfl⟩, _, (loop _).2 ⟨rooms.2 commitments, rfl⟩, rfl, rfl⟩

end RoleContinuityState

/-! ## Community roles that follow tenures -/

def MemberGovernance.baseRole (m : MemberGovernance) : CommunityMemberRole :=
  if m.isOwner = true then .owner else .member

def MemberGovernance.withRole (m : MemberGovernance) (role : CommunityMemberRole) :
    MemberGovernance :=
  { m with communityRole := some role }

theorem MemberGovernance.isOwner_withRole_baseRole (m : MemberGovernance) :
    (m.withRole m.baseRole).isOwner = m.isOwner := by
  unfold withRole baseRole
  cases h : m.isOwner <;> rfl

theorem MemberGovernance.baseRole_withRole_baseRole (m : MemberGovernance) :
    (m.withRole m.baseRole).baseRole = m.baseRole := by
  rw [baseRole, isOwner_withRole_baseRole, ← baseRole]

namespace RoleContinuityState

variable {s s' : RoleContinuityState} {actor : PublicKey} {t : DateTime} {r : Nat}

/-- The level of the Role a member currently holds. -/
def tenureLevel (s : RoleContinuityState) (member : PublicKey) : Option RoleLevel :=
  (((s.activeAssignmentForMember member).bind fun id => s.assignments[id]?).bind
    fun a => s.roles[a.roleId]?).map RoleSlot.level

def memberRole (s : RoleContinuityState) (m : MemberGovernance) (member : PublicKey) :
    CommunityMemberRole :=
  if m.isOwner = true then .owner else ((s.tenureLevel member).map grantedRole).getD .member

theorem recordDesiredMemberRole_eq_ok {member : PublicKey}
    {roles roles' : OrdMap PublicKey CommunityMemberRole} :
    s.recordDesiredMemberRole member roles = .ok (s', roles') ↔
      ∃ m, s.members[member]? = some m ∧
        s' = { s with members := s.members.insert member (m.withRole (s.memberRole m member)) } ∧
        roles' = roles.insert member (s.memberRole m member) := by
  have desired : s.desiredMemberRole member =
      okOr (s.members[member]?.map fun m => s.memberRole m member) .candidateIneligible := by
    unfold desiredMemberRole memberRole tenureLevel
    cases s.members[member]? with
    | none => rfl
    | some m =>
      simp only [okOr_some, ok_bind, Option.map_some]
      cases m.isOwner with
      | true => rfl
      | false =>
        generalize Option.map RoleSlot.level _ = level
        rcases level with _ | _ | _ <;> rfl
  simp only [recordDesiredMemberRole, desired, bind_eq_ok, okOr_eq_ok, pure_eq_ok, Prod.mk.injEq,
    Option.map_eq_some_iff]
  constructor
  · rintro ⟨_, ⟨m, found, rfl⟩, m', found', rfl, rfl⟩
    cases found.symm.trans found'
    exact ⟨m, found, rfl, rfl⟩
  · rintro ⟨m, found, rfl, rfl⟩
    exact ⟨_, ⟨m, found, rfl⟩, m, found, rfl, rfl⟩

/-! ## Several tenures at once -/

/-- The members that hold the named Assignments. -/
def holders (s : RoleContinuityState) (ids : List Uuid) : List PublicKey :=
  ids.filterMap fun id => s.assignments[id]?.map (·.memberPubkey)

theorem mem_holders {ids : List Uuid} {member : PublicKey} :
    member ∈ s.holders ids ↔ ∃ id ∈ ids, ∃ a, s.assignments[id]? = some a ∧
      a.memberPubkey = member := by
  simp only [holders, List.mem_filterMap, Option.map_eq_some_iff]

/-- The members once the holders of the named Assignments are back at their base Community role. -/
def vacateHolders (s : RoleContinuityState) (ids : List Uuid) : OrdMap PublicKey MemberGovernance :=
  Std.ExtTreeMap.map
    (fun member m => if member ∈ s.holders ids then m.withRole m.baseRole else m) s.members

/-- The state once the named Assignments have ended and their holders are back at their base
Community role. -/
def endTenures (s : RoleContinuityState) (ids : List Uuid) (actor : PublicKey)
    (reason : AssignmentEndReason) (replacedBy : Option Uuid) (t : DateTime) (r : Nat) :
    RoleContinuityState :=
  { s with
    assignments := Std.ExtTreeMap.map
      (fun id a => if id ∈ ids then a.ended actor reason replacedBy t r else a) s.assignments
    commitments := s.endCommitmentsOf ids actor t r
    members := s.vacateHolders ids }

section EndTenures

variable {ids : List Uuid} {reason : AssignmentEndReason} {replacedBy : Option Uuid}

theorem get_endTenures_assignments (id : Uuid) :
    (s.endTenures ids actor reason replacedBy t r).assignments[id]? =
      s.assignments[id]?.map fun a =>
        if id ∈ ids then a.ended actor reason replacedBy t r else a :=
  Std.ExtTreeMap.getElem?_map

theorem get_endCommitmentsOf (k : Uuid) :
    (s.endCommitmentsOf ids actor t r)[k]? = s.commitments[k]?.map fun c =>
      if c.assignmentId ∈ ids ∧ c.isActive = true then c.ended actor .assignmentEnded t r else c :=
  Std.ExtTreeMap.getElem?_map

theorem get_vacateHolders (member : PublicKey) :
    (s.vacateHolders ids)[member]? = s.members[member]?.map fun m =>
      if member ∈ s.holders ids then m.withRole m.baseRole else m :=
  Std.ExtTreeMap.getElem?_map

theorem endCommitmentsOf_keyed (keyed : s.commitments.Keyed (·.commitmentId)) :
    (s.endCommitmentsOf ids actor t r).Keyed (·.commitmentId) := by
  refine OrdMap.Keyed.map keyed fun k c => ?_
  split_ifs <;> rfl

theorem vacateHolders_keyed (keyed : s.members.Keyed (·.pubkey)) :
    (s.vacateHolders ids).Keyed (·.pubkey) := by
  refine OrdMap.Keyed.map keyed fun k m => ?_
  split_ifs <;> rfl

theorem endTenures_active {id : Uuid} {a : RoleAssignment}
    (found : (s.endTenures ids actor reason replacedBy t r).assignments[id]? = some a)
    (active : a.isActive = true) : s.assignments[id]? = some a ∧ id ∉ ids := by
  rw [get_endTenures_assignments, Option.map_eq_some_iff] at found
  obtain ⟨b, hb, rfl⟩ := found
  split_ifs at active ⊢ with h
  · cases active
  · exact ⟨hb, h⟩

theorem endTenures_assignments_keyed (keyed : s.assignments.Keyed (·.assignmentId)) :
    (s.endTenures ids actor reason replacedBy t r).assignments.Keyed (·.assignmentId) := by
  refine OrdMap.Keyed.map keyed fun id a => ?_
  split_ifs <;> rfl

theorem endTenures_tenuresApart (tenures : s.TenuresApart) :
    (s.endTenures ids actor reason replacedBy t r).TenuresApart := by
  constructor
  · exact endTenures_assignments_keyed tenures.keyed
  · intro i j a b ha hb different activeA activeB
    exact tenures.apart i j a b (endTenures_active ha activeA).1 (endTenures_active hb activeB).1
      different activeA activeB

end EndTenures

/-- The text of a system Handoff depends only on the Work of the listed Commitments. -/
theorem systemHandoff_congr (s₁ s₂ : RoleContinuityState)
    (works : ∀ k : Uuid, s₁.commitments[k]?.map (·.workId) = s₂.commitments[k]?.map (·.workId)) :
    s₁.systemHandoff = s₂.systemHandoff := by
  have items : s₁.interruptedItems = s₂.interruptedItems := by
    funext ids
    refine List.filterMap_congr fun k _ => ?_
    have h := congrArg (Option.map fun work : Uuid =>
      "Work " ++ work.toText ++ " requires explicit successor acceptance") (works k)
    rw [Option.map_map, Option.map_map] at h
    exact h
  have references : s₁.interruptedReferences = s₂.interruptedReferences := by
    funext ids
    refine List.flatMap_congr fun k _ => ?_
    have h := works k
    cases h₁ : s₁.commitments[k]? <;> cases h₂ : s₂.commitments[k]? <;> simp_all
  unfold systemHandoff
  rw [items, references]

theorem endCommitmentsOf_workId (ids : List Uuid) (k : Uuid) :
    (s.endCommitmentsOf ids actor t r)[k]?.map (·.workId) = s.commitments[k]?.map (·.workId) := by
  rw [get_endCommitmentsOf, Option.map_map]
  congr 1
  funext c
  dsimp only [Function.comp]
  split_ifs <;> rfl

def supersededHandoff (s : RoleContinuityState) (proposal : RoleAssignmentProposal)
    (newAssignmentId : Uuid) (t : DateTime) (r : Nat) (old : RoleAssignment) (handoffId : Uuid) :
    RoleHandoff :=
  s.replacedHandoff handoffId old.roleId old.assignmentId
    (if old.roleId = proposal.roleId then some newAssignmentId else none)
    (s.latestCheckpointForAssignment old.assignmentId) (s.activeCommitmentIds old.assignmentId) t r

end RoleContinuityState

/-- The draft once the tenure `a` is superseded and its holder `m` has `role`. -/
def Draft.afterSupersede (d : Draft) (proposal : RoleAssignmentProposal) (authorizer : PublicKey)
    (newAssignmentId : Uuid) (t : DateTime) (r : Nat) (id handoffId : Uuid) (a : RoleAssignment)
    (m : MemberGovernance) (role : CommunityMemberRole) : Draft where
  next := { d.next with
    assignments := d.next.assignments.insert id
      (a.ended authorizer .replaced (some newAssignmentId) t r)
    commitments := d.next.endCommitmentsOf [id] authorizer t r
    handoffs := d.next.handoffs.insert handoffId
      (d.next.supersededHandoff proposal newAssignmentId t r a handoffId)
    members := d.next.members.insert a.memberPubkey (m.withRole role) }
  membershipRoles := d.membershipRoles.insert a.memberPubkey role
  affectedCommitments := d.affectedCommitments.insert id (d.next.activeCommitmentIds id)

def RoleContinuityState.supersededHandoffs (s : RoleContinuityState)
    (proposal : RoleAssignmentProposal) (newAssignmentId : Uuid) (t : DateTime) (r : Nat)
    (pairs : List (Uuid × Uuid)) : List RoleHandoff :=
  pairs.filterMap fun x => s.assignments[x.1]?.map fun old =>
    s.supersededHandoff proposal newAssignmentId t r old x.2

/-- The Community roles that the listed members fall back to. -/
def RoleContinuityState.baseRoles (s : RoleContinuityState) (members : List PublicKey) :
    OrdMap PublicKey CommunityMemberRole :=
  members.foldl (fun roles member =>
    (s.members[member]?).elim roles fun m => roles.insert member m.baseRole) ∅

theorem RoleContinuityState.get_baseRoles {s : RoleContinuityState} {members : List PublicKey}
    (member : PublicKey) : (s.baseRoles members)[member]? =
      if member ∈ members then s.members[member]?.map (·.baseRole) else none := by
  induction members using List.reverseRecOn with
  | nil => exact Std.ExtTreeMap.getElem?_empty
  | append_singleton members last ih =>
    rw [baseRoles, List.foldl_append, List.foldl_cons, List.foldl_nil, ← baseRoles]
    by_cases same : member = last
    · subst same
      cases found : s.members[member]? with
      | none => simp [ih, found]
      | some m => simp
    · cases s.members[last]? with
      | none => simp [ih, same]
      | some m => simp [OrdMap.get_insert, ih, same]

/-- The draft once the listed pairs of Assignment and Handoff identifiers have been superseded. -/
def Draft.superseded (s : RoleContinuityState) (proposal : RoleAssignmentProposal)
    (authorizer : PublicKey) (newAssignmentId : Uuid) (t : DateTime) (r : Nat)
    (pairs : List (Uuid × Uuid)) : Draft where
  next := { s.endTenures (pairs.map Prod.fst) authorizer .replaced (some newAssignmentId) t r with
    handoffs := OrdMap.overlay RoleHandoff.handoffId s.handoffs
      (s.supersededHandoffs proposal newAssignmentId t r pairs) }
  membershipRoles := s.baseRoles (s.holders (pairs.map Prod.fst))
  affectedCommitments := pairs.foldl (fun m x => m.insert x.1 (s.activeCommitmentIds x.1)) ∅

namespace RoleContinuityState

variable {s s' : RoleContinuityState} {authorizer : PublicKey} {t : DateTime} {r : Nat}
  {proposal : RoleAssignmentProposal} {newId : Uuid}

/-- In the state after other tenures ended, one more can end iff it could at the start. -/
theorem endTenures_canEnd {ids : List Uuid} {id : Uuid} (other : id ∉ ids)
    {reason : AssignmentEndReason} {replacedBy : Option Uuid} {a : RoleAssignment} :
    (s.endTenures ids authorizer reason replacedBy t r).CanEnd r id a ↔ s.CanEnd r id a := by
  have assignment : (s.endTenures ids authorizer reason replacedBy t r).assignments[id]? =
      s.assignments[id]? := by
    rw [get_endTenures_assignments]
    simp [other]
  constructor
  · rintro ⟨found, active, room, commitments⟩
    refine ⟨assignment ▸ found, active, room, fun k c hc held live => ?_⟩
    refine commitments k c ?_ held live
    have untouched : ¬(c.assignmentId ∈ ids ∧ c.isActive = true) := fun h => other (held ▸ h.1)
    exact get_endCommitmentsOf k |>.trans (by rw [hc, Option.map_some, if_neg untouched])
  · rintro ⟨found, active, room, commitments⟩
    refine ⟨assignment.trans found, active, room, fun k c hc held live => ?_⟩
    obtain ⟨d, hd, same⟩ := Option.map_eq_some_iff.1 ((get_endCommitmentsOf k).symm.trans hc)
    split_ifs at same with h
    · subst same
      cases live
    · subst same
      exact commitments k d hd held live

theorem activeCommitmentIds_of_ended {ids : List Uuid} {id : Uuid} (other : id ∉ ids)
    (ended : s'.commitments = s.endCommitmentsOf ids authorizer t r) :
    s'.activeCommitmentIds id = s.activeCommitmentIds id := by
  unfold activeCommitmentIds
  rw [ended, endCommitmentsOf, OrdMap.valueList_map, List.filter_map, List.map_map]
  have kept : ((fun c : WorkCommitment => c.commitmentId) ∘ fun c =>
      if c.assignmentId ∈ ids ∧ c.isActive = true then c.ended authorizer .assignmentEnded t r
      else c) = (·.commitmentId) := by
    funext c
    dsimp only [Function.comp]
    split_ifs <;> rfl
  have same : ((fun c : WorkCommitment => c.assignmentId == id && c.isActive) ∘ fun c =>
      if c.assignmentId ∈ ids ∧ c.isActive = true then c.ended authorizer .assignmentEnded t r
      else c) = fun c => c.assignmentId == id && c.isActive := by
    funext c
    dsimp only [Function.comp]
    split_ifs with h
    · have different : c.assignmentId ≠ id := fun same => other (same ▸ h.1)
      simp [WorkCommitment.ended_isActive, different]
    · rfl
  rw [kept, same]

theorem endCommitmentsOf_of_ended {ids : List Uuid} {id : Uuid}
    (ended : s'.commitments = s.endCommitmentsOf ids authorizer t r) :
    s'.endCommitmentsOf [id] authorizer t r = s.endCommitmentsOf (ids ++ [id]) authorizer t r := by
  refine Std.ExtTreeMap.ext_getElem? fun k => ?_
  rw [get_endCommitmentsOf, get_endCommitmentsOf, ended, get_endCommitmentsOf, Option.map_map]
  congr 1
  funext c
  dsimp only [Function.comp]
  by_cases live : c.isActive = true
  · by_cases h : c.assignmentId ∈ ids
    · simp [h, live, WorkCommitment.ended_isActive]
    · simp [h, live]
  · simp [live]

/-- A holder whose tenure is among those that ended holds no Role any more. -/
theorem tenureLevel_endTenures (tenures : s.TenuresApart) {ids : List Uuid} {id : Uuid}
    {a : RoleAssignment} (found : s.assignments[id]? = some a) (active : a.isActive = true)
    (ended : id ∈ ids) {reason : AssignmentEndReason} {replacedBy : Option Uuid} :
    (s.endTenures ids authorizer reason replacedBy t r).tenureLevel a.memberPubkey = none := by
  have none : (s.endTenures ids authorizer reason replacedBy t r).activeAssignmentForMember
      a.memberPubkey = none := by
    by_contra h
    obtain ⟨j, hj⟩ := Option.ne_none_iff_exists'.1 h
    obtain ⟨b, hb, same, live⟩ := (endTenures_tenuresApart tenures).forMember_eq_some_iff.1 hj
    obtain ⟨hb, outside⟩ := endTenures_active hb live
    have different : j ≠ id := fun h => outside (h ▸ ended)
    exact (tenures.apart j id b a hb found different live active).2 same
  rw [tenureLevel, none]
  rfl

theorem supersede_eq_ok {d d' : Draft} (tenures : d.next.assignments.Keyed (·.assignmentId))
    (keyed : d.next.commitments.Keyed (·.commitmentId)) {id handoffId : Uuid} :
    d.supersede proposal authorizer newId t r (id, handoffId) = .ok d' ↔
      ∃ a m, d.next.CanEnd r id a ∧ d.next.members[a.memberPubkey]? = some m ∧
        d' = d.afterSupersede proposal authorizer newId t r id handoffId a m
          (memberRole { d.next with
            assignments := d.next.assignments.insert id
              (a.ended authorizer .replaced (some newId) t r) } m a.memberPubkey) := by
  simp only [Draft.supersede, bind_eq_ok, activeAssignment_eq_ok, pure_eq_ok, Prod.exists,
    endAssignment_eq_ok keyed, recordDesiredMemberRole_eq_ok]
  have handoff : ∀ a : RoleAssignment, d.next.assignments[id]? = some a →
      ∀ n : RoleContinuityState, n.commitments = d.next.endCommitmentsOf [id] authorizer t r →
      n.replacedHandoff handoffId a.roleId a.assignmentId
        (if a.roleId = proposal.roleId then some newId else none)
        (d.next.latestCheckpointForAssignment a.assignmentId) (d.next.activeCommitmentIds id) t r =
      d.next.supersededHandoff proposal newId t r a handoffId := by
    intro a found n same
    have key : a.assignmentId = id := tenures id a found
    unfold supersededHandoff replacedHandoff
    rw [systemHandoff_congr n d.next (fun k => by rw [same, endCommitmentsOf_workId]),
      key]
  constructor
  · rintro ⟨a, ⟨found, -⟩, _, _, ⟨b, ends, rfl, rfl⟩, _, _, ⟨m, member, rfl, rfl⟩, rfl⟩
    cases found.symm.trans ends.found
    exact ⟨a, m, ends, member, by rw [handoff a found _ rfl]; rfl⟩
  · rintro ⟨a, m, ends, member, rfl⟩
    refine ⟨a, ⟨ends.found, ends.active⟩, _, _, ⟨a, ends, rfl, rfl⟩, _, _, ⟨m, member, rfl, rfl⟩, ?_⟩
    rw [handoff a ends.found _ rfl]
    rfl

theorem memberRole_congr {s₁ s₂ : RoleContinuityState} (assignments : s₁.assignments = s₂.assignments)
    (roles : s₁.roles = s₂.roles) : s₁.memberRole = s₂.memberRole := by
  unfold memberRole tenureLevel activeAssignmentForMember
  rw [assignments, roles]

theorem memberRole_of_none {member : PublicKey} (none : s.tenureLevel member = none)
    (m : MemberGovernance) : s.memberRole m member = m.baseRole := by
  rw [memberRole, none]
  rfl

section OneMore

variable {ids : List Uuid} {id : Uuid} {a : RoleAssignment} {reason : AssignmentEndReason}
  {replacedBy : Option Uuid}

theorem holders_append (found : s.assignments[id]? = some a) :
    s.holders (ids ++ [id]) = s.holders ids ++ [a.memberPubkey] := by
  simp [holders, found]

theorem endTenures_insert_assignment (found : s.assignments[id]? = some a) :
    (s.endTenures ids authorizer reason replacedBy t r).assignments.insert id
        (a.ended authorizer reason replacedBy t r) =
      (s.endTenures (ids ++ [id]) authorizer reason replacedBy t r).assignments := by
  refine Std.ExtTreeMap.ext_getElem? fun k => ?_
  rw [OrdMap.get_insert, get_endTenures_assignments, get_endTenures_assignments]
  by_cases same : k = id
  · subst same
    simp [found]
  · simp [same]

theorem vacateHolders_insert (found : s.assignments[id]? = some a) {m : MemberGovernance}
    (member : s.members[a.memberPubkey]? = some m) :
    (s.vacateHolders ids).insert a.memberPubkey (m.withRole m.baseRole) =
      s.vacateHolders (ids ++ [id]) := by
  refine Std.ExtTreeMap.ext_getElem? fun k => ?_
  rw [OrdMap.get_insert, get_vacateHolders, get_vacateHolders, holders_append found]
  by_cases same : k = a.memberPubkey
  · subst same
    simp [member]
  · simp [same]

end OneMore

section Superseded

variable {pairs : List (Uuid × Uuid)} {id handoffId : Uuid} {a : RoleAssignment}

theorem superseded_commitments :
    (Draft.superseded s proposal authorizer newId t r pairs).next.commitments =
      s.endCommitmentsOf (pairs.map Prod.fst) authorizer t r := rfl

theorem superseded_supersededHandoff (tenures : s.TenuresApart) (found : s.assignments[id]? = some a)
    (other : id ∉ pairs.map Prod.fst) :
    (Draft.superseded s proposal authorizer newId t r pairs).next.supersededHandoff proposal newId
        t r a handoffId = s.supersededHandoff proposal newId t r a handoffId := by
  have key : a.assignmentId = id := tenures.keyed id a found
  unfold supersededHandoff replacedHandoff
  rw [systemHandoff_congr _ s fun k => by rw [superseded_commitments, endCommitmentsOf_workId],
    activeCommitmentIds_of_ended (key ▸ other) superseded_commitments]
  rfl

theorem superseded_afterSupersede (tenures : s.TenuresApart) {m m₀ : MemberGovernance}
    (found : s.assignments[id]? = some a) (member : s.members[a.memberPubkey]? = some m₀)
    (other : id ∉ pairs.map Prod.fst) (same : m.withRole m₀.baseRole = m₀.withRole m₀.baseRole) :
    (Draft.superseded s proposal authorizer newId t r pairs).afterSupersede proposal authorizer newId
        t r id handoffId a m m₀.baseRole =
      Draft.superseded s proposal authorizer newId t r (pairs ++ [(id, handoffId)]) := by
  refine Draft.ext (RoleContinuityState.ext rfl rfl rfl rfl ?members rfl ?assignments ?commitments
    rfl ?handoffs) ?roles ?affected
  case members =>
    rw [Draft.afterSupersede, same]
    refine (vacateHolders_insert found member).trans ?_
    simp only [Draft.superseded, endTenures, List.map_append, List.map_cons, List.map_nil]
  case assignments =>
    refine (endTenures_insert_assignment found).trans ?_
    simp only [Draft.superseded, List.map_append, List.map_cons, List.map_nil]
  case commitments =>
    refine (endCommitmentsOf_of_ended rfl).trans ?_
    simp only [Draft.superseded, endTenures, List.map_append, List.map_cons, List.map_nil]
  case handoffs =>
    rw [Draft.afterSupersede, superseded_supersededHandoff tenures found other]
    simp only [Draft.superseded, supersededHandoffs, List.filterMap_append, List.filterMap_cons,
      List.filterMap_nil, found, Option.map_some, OrdMap.overlay_append_singleton]
    rfl
  case roles =>
    simp only [Draft.afterSupersede, Draft.superseded, baseRoles, List.map_append, List.map_cons,
      List.map_nil, holders_append found, List.foldl_append, List.foldl_cons, List.foldl_nil, member,
      Option.elim_some]
  case affected =>
    rw [Draft.afterSupersede, activeCommitmentIds_of_ended other superseded_commitments]
    simp only [Draft.superseded, List.foldl_append, List.foldl_cons, List.foldl_nil]

/-- The holder of a further tenure falls back to its base role, whether or not an earlier one was
its own. -/
theorem superseded_memberRole (tenures : s.TenuresApart) (ends : s.CanEnd r id a) {ids : List Uuid}
    {m : MemberGovernance}
    (member : (s.vacateHolders ids)[a.memberPubkey]? = some m) :
    ∃ m₀, s.members[a.memberPubkey]? = some m₀ ∧
      m.withRole m₀.baseRole = m₀.withRole m₀.baseRole ∧
      ∀ s' : RoleContinuityState,
        s'.assignments = (s.endTenures ids authorizer .replaced (some newId) t
          r).assignments.insert id (a.ended authorizer .replaced (some newId) t r) →
        s'.roles = s.roles → s'.memberRole m a.memberPubkey = m₀.baseRole := by
  rw [get_vacateHolders, Option.map_eq_some_iff] at member
  obtain ⟨m₀, found, rfl⟩ := member
  refine ⟨m₀, found, by split_ifs <;> rfl, fun s' assignments roles => ?_⟩
  have level : (s.endTenures (ids ++ [id]) authorizer .replaced (some newId) t r).tenureLevel
      a.memberPubkey = none :=
    tenureLevel_endTenures tenures ends.found ends.active (by simp)
  rw [endTenures_insert_assignment ends.found] at assignments
  rw [memberRole_congr assignments roles, memberRole_of_none level]
  split_ifs
  · exact m₀.baseRole_withRole_baseRole
  · rfl

theorem supersede_superseded (tenures : s.TenuresApart)
    (keyed : s.commitments.Keyed (·.commitmentId)) (other : id ∉ pairs.map Prod.fst) {d : Draft} :
    (Draft.superseded s proposal authorizer newId t r pairs).supersede proposal authorizer newId t r
        (id, handoffId) = .ok d ↔
      (∃ a m, s.CanEnd r id a ∧ s.members[a.memberPubkey]? = some m) ∧
        d = Draft.superseded s proposal authorizer newId t r (pairs ++ [(id, handoffId)]) := by
  have keyedBefore : (s.endCommitmentsOf (pairs.map Prod.fst) authorizer t r).Keyed
      (·.commitmentId) := endCommitmentsOf_keyed keyed
  have canEnd : ∀ a, (Draft.superseded s proposal authorizer newId t r pairs).next.CanEnd r id a ↔
      s.CanEnd r id a := by
    intro a
    have start : (s.endTenures (pairs.map Prod.fst) authorizer .replaced (some newId) t r).CanEnd r
        id a ↔ s.CanEnd r id a := endTenures_canEnd other
    exact ⟨fun ⟨found, active, room, rest⟩ => start.1 ⟨found, active, room, rest⟩,
      fun ends => let ⟨found, active, room, rest⟩ := start.2 ends; ⟨found, active, room, rest⟩⟩
  rw [supersede_eq_ok (endTenures_tenuresApart tenures).keyed keyedBefore]
  simp only [canEnd]
  constructor
  · rintro ⟨a, m, ends, member, rfl⟩
    obtain ⟨m₀, found, same, role⟩ := superseded_memberRole tenures ends member
    refine ⟨⟨a, m₀, ends, found⟩, ?_⟩
    rw [← superseded_afterSupersede tenures ends.found found other same]
    exact congrArg _ (role _ rfl rfl)
  · rintro ⟨⟨a, m₀, ends, found⟩, rfl⟩
    obtain ⟨m, member⟩ : ∃ m, (s.vacateHolders (pairs.map Prod.fst))[a.memberPubkey]? = some m := by
      rw [get_vacateHolders, found]
      exact ⟨_, rfl⟩
    obtain ⟨m₁, found₁, same, role⟩ := superseded_memberRole tenures ends member
    cases found.symm.trans found₁
    refine ⟨a, m, ends, member, ?_⟩
    rw [← superseded_afterSupersede tenures ends.found found other same]
    refine congrArg _ (Eq.symm (role _ ?_ ?_)) <;> rfl

end Superseded

theorem foldlM_supersede (pairs : List (Uuid × Uuid)) (tenures : s.TenuresApart)
    (keyed : s.commitments.Keyed (·.commitmentId)) (nodup : (pairs.map Prod.fst).Nodup) {d : Draft} :
    pairs.foldlM (Draft.supersede proposal authorizer newId t r) s.draft = .ok d ↔
      (∀ x ∈ pairs, ∃ a m, s.CanEnd r x.1 a ∧ s.members[a.memberPubkey]? = some m) ∧
        d = Draft.superseded s proposal authorizer newId t r pairs := by
  induction pairs using List.reverseRecOn generalizing d with
  | nil =>
    have same : Draft.superseded s proposal authorizer newId t r [] = s.draft := by
      refine Draft.ext (RoleContinuityState.ext rfl rfl rfl rfl ?members rfl ?assignments ?commitments
        rfl rfl) rfl rfl
      all_goals
        refine Std.ExtTreeMap.ext_getElem? fun k => ?_
        simp [Draft.superseded, endTenures, endCommitmentsOf, vacateHolders, holders, draft]
    rw [same, List.foldlM_nil, pure_eq_ok]
    exact ⟨fun h => ⟨nofun, h.symm⟩, fun h => h.2.symm⟩
  | append_singleton pairs x ih =>
    obtain ⟨id, handoffId⟩ := x
    rw [List.map_append, List.map_singleton, List.nodup_append] at nodup
    have other : id ∉ pairs.map Prod.fst := fun h =>
      nodup.2.2 _ h _ (List.mem_singleton_self _) rfl
    rw [List.foldlM_append, bind_eq_ok]
    simp only [ih nodup.1, List.foldlM_cons, List.foldlM_nil, bind_pure]
    constructor
    · rintro ⟨_, ⟨ends, rfl⟩, step⟩
      obtain ⟨last, rfl⟩ := (supersede_superseded tenures keyed other).1 step
      refine ⟨fun y hy => ?_, rfl⟩
      rcases List.mem_append.1 hy with hy | hy
      · exact ends y hy
      · rw [List.mem_singleton.1 hy]
        exact last
    · rintro ⟨ends, rfl⟩
      exact ⟨_, ⟨fun y hy => ends y (List.mem_append_left _ hy), rfl⟩,
        (supersede_superseded tenures keyed other).2 ⟨ends (id, handoffId) (by simp), rfl⟩⟩

end RoleContinuityState

end RoleContinuity

end Carryforth
