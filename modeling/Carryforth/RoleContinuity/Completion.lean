import Carryforth.RoleContinuity.Tenure

/-!
# Role continuity: completing a Proposal

A Proposal with both confirmations is completed in one move.  `CompletionReady` collects every
condition of the move and `Draft.completed` is its result; `completeProposal_eq_ok` says that the
reducer computes exactly this.  The compound fence makes the superseded tenures the active ones of
the target Role and of the candidate (`mem_endedIds_iff`).
-/

namespace Carryforth

namespace RoleContinuity

open Fallible

theorem mem_expectedAssignmentIds {p : RoleAssignmentProposal} {id : Uuid} :
    id ∈ p.expectedAssignmentIds ↔
      p.expectedTargetAssignmentId = some id ∨ p.expectedCandidateAssignmentId = some id := by
  simp [RoleAssignmentProposal.expectedAssignmentIds]

/-- At most two identifiers are sorted and deduplicated, so the cases are written out. -/
theorem endedIds_spec (p : RoleAssignmentProposal) :
    p.endedIds.Nodup ∧ ∀ id, id ∈ p.endedIds ↔ id ∈ p.expectedAssignmentIds := by
  unfold RoleAssignmentProposal.endedIds RoleAssignmentProposal.expectedAssignmentIds
  cases p.expectedTargetAssignmentId with
  | none => cases p.expectedCandidateAssignmentId <;> simp
  | some a =>
    cases p.expectedCandidateAssignmentId with
    | none => simp
    | some b =>
      by_cases same : a = b
      · subst same
        simp [List.destutter, List.destutter']
      · have same' : b ≠ a := fun h => same h.symm
        by_cases le : (compare a b).isLE = true
        · simp [le, List.destutter, List.destutter', same]
        · simp [List.orderedInsert, le, List.destutter, List.destutter', same', or_comm]

namespace RoleContinuityState

variable {s s' : RoleContinuityState} {p : RoleAssignmentProposal} {g : PublicKey} {t : DateTime}
  {r : Nat} {ids : GeneratedRoleContinuityIds}

theorem validateCompoundFence_eq_ok :
    s.validateCompoundFence p = .ok () ↔
      s.activeAssignmentForRole p.roleId = p.expectedTargetAssignmentId ∧
      (s.activeAssignmentForMember p.candidatePubkey).filter
        (fun id => some id ≠ p.expectedTargetAssignmentId) = p.expectedCandidateAssignmentId ∧
      ∃ m, s.members[p.candidatePubkey]? = some m ∧ m.eligible = true := by
  simp only [validateCompoundFence, bind_eq_ok, ensure_eq_ok, eligibleMember_eq_ok, pure_eq_ok]
  constructor
  · rintro ⟨_, target, _, candidate, m, member, -⟩
    exact ⟨target, candidate, m, member⟩
  · rintro ⟨target, candidate, m, member⟩
    exact ⟨(), target, (), candidate, m, member, trivial⟩

/-- Under the compound fence a completion supersedes exactly the active tenures of the target Role
and of the candidate. -/
theorem mem_endedIds_iff (tenures : s.TenuresApart) (fence : s.validateCompoundFence p = .ok ())
    {id : Uuid} :
    id ∈ p.endedIds ↔ ∃ a, s.assignments[id]? = some a ∧ a.isActive = true ∧
      (a.roleId = p.roleId ∨ a.memberPubkey = p.candidatePubkey) := by
  obtain ⟨target, candidate, -⟩ := validateCompoundFence_eq_ok.1 fence
  rw [(endedIds_spec p).2, mem_expectedAssignmentIds, ← target, ← candidate,
    Option.filter_eq_some_iff, ← target, tenures.forRole_eq_some_iff,
    tenures.forMember_eq_some_iff]
  constructor
  · rintro (⟨a, found, role, active⟩ | ⟨⟨a, found, member, active⟩, -⟩)
    · exact ⟨a, found, active, .inl role⟩
    · exact ⟨a, found, active, .inr member⟩
  · rintro ⟨a, found, active, role | member⟩
    · exact .inl ⟨a, found, role, active⟩
    · by_cases role : a.roleId = p.roleId
      · exact .inl ⟨a, found, role, active⟩
      · refine .inr ⟨⟨a, found, member, active⟩, ?_⟩
        rw [decide_eq_true_iff]
        intro h
        obtain ⟨b, found', role', -⟩ := tenures.forRole_eq_some_iff.1 h.symm
        cases found.symm.trans found'
        exact role role'

end RoleContinuityState

/-! ## The move in closed form -/

def RoleAssignmentProposal.supersededPairs (p : RoleAssignmentProposal)
    (ids : GeneratedRoleContinuityIds) : List (Uuid × Uuid) :=
  p.endedIds.zip (ids.handoffIds.take p.endedIds.length)

def RoleAssignmentProposal.consumed (p : RoleAssignmentProposal) (t : DateTime) (r : Nat) :
    RoleAssignmentProposal :=
  Versioned.touched { p with status := .consumed, resolvedAt := some t } r

namespace RoleContinuityState

/-- Everything the completion of `p` under the authority of `g` depends on. -/
structure CompletionReady (s : RoleContinuityState) (p : RoleAssignmentProposal) (g : PublicKey)
    (r : Nat) (ids : GeneratedRoleContinuityIds) : Prop where
  authorized : s.authorizeCompleteMove p g = .ok ()
  fence : s.validateCompoundFence p = .ok ()
  assignmentId : ¬ids.assignmentId.isNil = true
  assignmentFree : s.assignments[ids.assignmentId]? = none
  enough : p.endedIds.length ≤ ids.handoffIds.length
  handoffsNodup : (ids.handoffIds.take p.endedIds.length).Nodup
  handoffsFree : ∀ id ∈ ids.handoffIds.take p.endedIds.length,
    ¬id.isNil = true ∧ s.handoffs[id]? = none
  ends : ∀ id ∈ p.endedIds, ∃ a m, s.CanEnd r id a ∧ s.members[a.memberPubkey]? = some m
  room : CanTouch r p

def startedRole (s : RoleContinuityState) (p : RoleAssignmentProposal) (m : MemberGovernance) :
    CommunityMemberRole :=
  if m.isOwner = true then .owner
  else ((s.roles[p.roleId]?.map RoleSlot.level).map grantedRole).getD .member

end RoleContinuityState

/-- The draft once `p` is completed for the candidate `m`. -/
def Draft.completed (s : RoleContinuityState) (proposalId : Uuid) (p : RoleAssignmentProposal)
    (g : PublicKey) (t : DateTime) (r : Nat) (ids : GeneratedRoleContinuityIds)
    (m : MemberGovernance) : Draft where
  next := { (Draft.superseded s p g ids.assignmentId t r (p.supersededPairs ids)).next with
    proposals := s.proposals.insert proposalId (p.consumed t r)
    assignments := (s.endTenures p.endedIds g .replaced (some ids.assignmentId) t
      r).assignments.insert ids.assignmentId (p.startedAssignment proposalId ids.assignmentId g t r)
    members := (s.vacateHolders p.endedIds).insert p.candidatePubkey
      (m.withRole (s.startedRole p m)) }
  membershipRoles := (Draft.superseded s p g ids.assignmentId t r
    (p.supersededPairs ids)).membershipRoles.insert p.candidatePubkey (s.startedRole p m)
  affectedCommitments := (Draft.superseded s p g ids.assignmentId t r
    (p.supersededPairs ids)).affectedCommitments

namespace RoleContinuityState

variable {s s' : RoleContinuityState} {p : RoleAssignmentProposal} {g : PublicKey} {t : DateTime}
  {r : Nat} {ids : GeneratedRoleContinuityIds} {proposalId : Uuid}

theorem supersededPairs_fst (enough : p.endedIds.length ≤ ids.handoffIds.length) :
    (p.supersededPairs ids).map Prod.fst = p.endedIds := by
  rw [RoleAssignmentProposal.supersededPairs, List.map_fst_zip]
  rw [List.length_take]
  omega

theorem supersededPairs_snd (enough : p.endedIds.length ≤ ids.handoffIds.length) :
    (p.supersededPairs ids).map Prod.snd = ids.handoffIds.take p.endedIds.length := by
  rw [RoleAssignmentProposal.supersededPairs, List.map_snd_zip]
  rw [List.length_take]
  omega

/-- The tenures after a completed move: the superseded ones have ended, the new one is active. -/
theorem started_tenuresApart (tenures : s.TenuresApart) (fence : s.validateCompoundFence p = .ok ())
    (assignments : s'.assignments = (s.endTenures p.endedIds g .replaced (some ids.assignmentId) t
      r).assignments.insert ids.assignmentId
        (p.startedAssignment proposalId ids.assignmentId g t r)) : s'.TenuresApart := by
  -- an active tenure other than the new one is of another Role and another member
  have others : ∀ (id : Uuid) b, id ≠ ids.assignmentId → s'.assignments[id]? = some b →
      b.isActive = true → s.assignments[id]? = some b ∧ b.roleId ≠ p.roleId ∧
        b.memberPubkey ≠ p.candidatePubkey := by
    intro id b different found active
    rw [assignments, OrdMap.get_insert_of_ne different] at found
    obtain ⟨found, outside⟩ := endTenures_active found active
    rw [mem_endedIds_iff tenures fence] at outside
    exact ⟨found, fun h => outside ⟨b, found, active, .inl h⟩,
      fun h => outside ⟨b, found, active, .inr h⟩⟩
  have new : ∀ b, s'.assignments[ids.assignmentId]? = some b →
      b.roleId = p.roleId ∧ b.memberPubkey = p.candidatePubkey := by
    intro b found
    rw [assignments, OrdMap.get_insert, if_pos rfl] at found
    cases found
    exact ⟨rfl, rfl⟩
  constructor
  · rw [assignments]
    exact (endTenures_tenuresApart tenures).keyed.insert rfl
  · intro i j a b ha hb different activeA activeB
    by_cases hi : i = ids.assignmentId
    · subst hi
      obtain ⟨-, role, member⟩ := others j b different.symm hb activeB
      rw [(new a ha).1, (new a ha).2]
      exact ⟨role.symm, member.symm⟩
    · obtain ⟨foundA, role, member⟩ := others i a hi ha activeA
      by_cases hj : j = ids.assignmentId
      · subst hj
        rw [(new b hb).1, (new b hb).2]
        exact ⟨role, member⟩
      · exact tenures.apart i j a b foundA (others j b hj hb activeB).1 different activeA activeB

/-- After a completed move the candidate holds the target Role. -/
theorem started_tenureLevel (tenures : s.TenuresApart) (fence : s.validateCompoundFence p = .ok ())
    (assignments : s'.assignments = (s.endTenures p.endedIds g .replaced (some ids.assignmentId) t
      r).assignments.insert ids.assignmentId
        (p.startedAssignment proposalId ids.assignmentId g t r)) (roles : s'.roles = s.roles) :
    s'.tenureLevel p.candidatePubkey = s.roles[p.roleId]?.map RoleSlot.level := by
  have found : s'.assignments[ids.assignmentId]? =
      some (p.startedAssignment proposalId ids.assignmentId g t r) := by
    rw [assignments, OrdMap.get_insert, if_pos rfl]
  have holds : s'.activeAssignmentForMember p.candidatePubkey = some ids.assignmentId :=
    (started_tenuresApart tenures fence assignments).forMember_eq_some_iff.2 ⟨_, found, rfl, rfl⟩
  rw [tenureLevel, holds, Option.bind_some, found, Option.bind_some, roles]
  rfl

theorem updateProposal_eq_ok {update : RoleAssignmentProposal → Result RoleAssignmentProposal} :
    s.updateProposal proposalId update = .ok s' ↔
      ∃ p p', s.proposals[proposalId]? = some p ∧ update p = .ok p' ∧
        s' = { s with proposals := s.proposals.insert proposalId p' } := by
  simp only [updateProposal, bind_eq_ok, okOr_eq_ok, pure_eq_ok]
  constructor
  · rintro ⟨p, found, p', updated, rfl⟩
    exact ⟨p, p', found, updated, rfl⟩
  · rintro ⟨p, p', found, updated, rfl⟩
    exact ⟨p, found, p', updated, rfl⟩

/-- The record of the candidate after the superseded holders stepped down. -/
theorem vacateHolders_candidate {ended : List Uuid} {m : MemberGovernance}
    (member : (s.vacateHolders ended)[p.candidatePubkey]? = some m) :
    ∃ m₀, s.members[p.candidatePubkey]? = some m₀ ∧ m.isOwner = m₀.isOwner ∧
      ∀ role, m.withRole role = m₀.withRole role := by
  rw [get_vacateHolders, Option.map_eq_some_iff] at member
  obtain ⟨m₀, found, rfl⟩ := member
  refine ⟨m₀, found, ?_, fun role => by split_ifs <;> rfl⟩
  split_ifs
  · exact m₀.isOwner_withRole_baseRole
  · rfl

/-- The last steps of a completion: start the tenure, consume the Proposal, record the role. -/
theorem startTenure_eq_ok (tenures : s.TenuresApart) (fence : s.validateCompoundFence p = .ok ())
    (stored : s.proposals[proposalId]? = some p)
    (enough : p.endedIds.length ≤ ids.handoffIds.length) {d : Draft} :
    (Draft.superseded s p g ids.assignmentId t r (p.supersededPairs ids)).startTenure proposalId p g
        ids.assignmentId t r = .ok d ↔
      CanTouch r p ∧ ∃ m, s.members[p.candidatePubkey]? = some m ∧
        d = Draft.completed s proposalId p g t r ids m := by
  have ended := supersededPairs_fst enough
  have assignments : (Draft.superseded s p g ids.assignmentId t r
      (p.supersededPairs ids)).next.assignments =
        (s.endTenures p.endedIds g .replaced (some ids.assignmentId) t r).assignments := by
    rw [← ended]
    rfl
  have members : (Draft.superseded s p g ids.assignmentId t r (p.supersededPairs ids)).next.members =
      s.vacateHolders p.endedIds := by
    rw [← ended]
    rfl
  have role : ∀ (m m₀ : MemberGovernance) (n : RoleContinuityState), m.isOwner = m₀.isOwner →
      n.assignments = (s.endTenures p.endedIds g .replaced (some ids.assignmentId) t
        r).assignments.insert ids.assignmentId
          (p.startedAssignment proposalId ids.assignmentId g t r) → n.roles = s.roles →
      n.memberRole m p.candidatePubkey = s.startedRole p m₀ := by
    intro m m₀ n owner assignments roles
    rw [memberRole, started_tenureLevel tenures fence assignments roles, owner]
    rfl
  simp only [Draft.startTenure, bind_eq_ok, updateProposal_eq_ok, touchProposal,
    Versioned.touch_eq_ok, Prod.exists, recordDesiredMemberRole_eq_ok, pure_eq_ok, assignments,
    members]
  constructor
  · rintro ⟨_, ⟨p', _, stored', ⟨room, rfl⟩, rfl⟩, _, _, ⟨m, member, rfl, rfl⟩, rfl⟩
    cases stored.symm.trans stored'
    obtain ⟨m₀, found, owner, same⟩ := vacateHolders_candidate member
    refine ⟨room, m₀, found, ?_⟩
    rw [role m m₀ _ owner, same]
    all_goals rfl
  · rintro ⟨room, m₀, found, rfl⟩
    obtain ⟨m, member⟩ : ∃ m, (s.vacateHolders p.endedIds)[p.candidatePubkey]? = some m := by
      rw [get_vacateHolders, found]
      exact ⟨_, rfl⟩
    obtain ⟨m₁, found₁, owner, same⟩ := vacateHolders_candidate member
    cases found.symm.trans found₁
    refine ⟨_, ⟨p, _, stored, ⟨room, rfl⟩, rfl⟩, _, _, ⟨m, member, rfl, rfl⟩, ?_⟩
    rw [role m m₀ _ owner, same]
    all_goals rfl

theorem completeProposal_eq_ok (tenures : s.TenuresApart)
    (keyed : s.commitments.Keyed (·.commitmentId)) (stored : s.proposals[proposalId]? = some p)
    {d : Draft} :
    s.draft.completeProposal proposalId p g t r ids = .ok d ↔
      s.CompletionReady p g r ids ∧ ∃ m, s.members[p.candidatePubkey]? = some m ∧
        d = Draft.completed s proposalId p g t r ids m := by
  have nodup := (endedIds_spec p).1
  have any : ∀ l : List Uuid,
      (¬(l.any fun id => id.isNil || s.handoffs.contains id) = true) ↔
        ∀ id ∈ l, ¬id.isNil = true ∧ s.handoffs[id]? = none := by
    intro l
    simp only [List.any_eq_true, Bool.or_eq_true, not_exists, not_and, not_or,
      OrdMap.not_contains_iff]
  simp only [Draft.completeProposal, requireId, bind_eq_ok, ensure_eq_ok]
  constructor
  · rintro ⟨_, authorized, _, fence, _, assignmentId, _, free, _, enough, _, ⟨nodupH, freeH⟩, d₀, loop,
      finish⟩
    have enough : p.endedIds.length ≤ ids.handoffIds.length := by omega
    have pairs := supersededPairs_fst enough
    obtain ⟨ends, rfl⟩ := (foldlM_supersede (p.supersededPairs ids) tenures keyed
      (by rwa [pairs])).1 loop
    obtain ⟨room, m, member, rfl⟩ := (startTenure_eq_ok tenures fence stored enough).1 finish
    refine ⟨⟨authorized, fence, assignmentId, OrdMap.not_contains_iff.1 free, enough, nodupH,
      (any _).1 freeH, fun id hid => ?_, room⟩, m, member, rfl⟩
    rw [← pairs, List.mem_map] at hid
    obtain ⟨x, hx, rfl⟩ := hid
    exact ends x hx
  · rintro ⟨ready, m, member, rfl⟩
    have pairs := supersededPairs_fst ready.enough
    refine ⟨(), ready.authorized, (), ready.fence, (), ready.assignmentId, (),
      OrdMap.not_contains_iff.2 ready.assignmentFree, (), by have := ready.enough; omega, (),
      ⟨ready.handoffsNodup, (any _).2 ready.handoffsFree⟩, _,
      (foldlM_supersede (p.supersededPairs ids) tenures keyed (by rwa [pairs])).2
        ⟨fun x hx => ready.ends x.1 ?_, rfl⟩,
      (startTenure_eq_ok tenures ready.fence stored ready.enough).2 ⟨ready.room, m, member, rfl⟩⟩
    rw [← pairs]
    exact List.mem_map_of_mem hx

/-! ## The Handoffs of a completed move -/

theorem CompletionReady.pairs_found (ready : s.CompletionReady p g r ids) {x : Uuid × Uuid}
    (mem : x ∈ p.supersededPairs ids) : ∃ a, s.CanEnd r x.1 a := by
  have ended : x.1 ∈ p.endedIds := by
    rw [← supersededPairs_fst ready.enough]
    exact List.mem_map_of_mem mem
  obtain ⟨a, -, ends, -⟩ := ready.ends x.1 ended
  exact ⟨a, ends⟩

theorem mem_supersededHandoffs {newId : Uuid} {pairs : List (Uuid × Uuid)} {h : RoleHandoff} :
    h ∈ s.supersededHandoffs p newId t r pairs ↔ ∃ x ∈ pairs, ∃ a, s.assignments[x.1]? = some a ∧
      s.supersededHandoff p newId t r a x.2 = h := by
  simp only [supersededHandoffs, List.mem_filterMap, Option.map_eq_some_iff]

/-- The Handoffs carry the generated identifiers, in order. -/
theorem supersededHandoffs_ids {newId : Uuid} {pairs : List (Uuid × Uuid)}
    (found : ∀ x ∈ pairs, ∃ a, s.assignments[x.1]? = some a) :
    (s.supersededHandoffs p newId t r pairs).map (·.handoffId) = pairs.map Prod.snd := by
  induction pairs with
  | nil => rfl
  | cons x pairs ih =>
    obtain ⟨a, ha⟩ := found x List.mem_cons_self
    have tail := ih fun y hy => found y (List.mem_cons_of_mem _ hy)
    simp only [supersededHandoffs, List.filterMap_cons, ha, Option.map_some, List.map_cons]
    exact congrArg₂ List.cons rfl tail

theorem CompletionReady.handoffs_fresh (ready : s.CompletionReady p g r ids) :
    ((s.supersededHandoffs p ids.assignmentId t r (p.supersededPairs ids)).map (·.handoffId)).Nodup ∧
      ∀ h ∈ s.supersededHandoffs p ids.assignmentId t r (p.supersededPairs ids),
        ¬h.handoffId.isNil = true ∧ s.handoffs[h.handoffId]? = none := by
  have idsEq : (s.supersededHandoffs p ids.assignmentId t r (p.supersededPairs ids)).map (·.handoffId) =
      ids.handoffIds.take p.endedIds.length := by
    rw [supersededHandoffs_ids, supersededPairs_snd ready.enough]
    intro x mem
    obtain ⟨a, ends⟩ := ready.pairs_found mem
    exact ⟨a, ends.found⟩
  rw [idsEq]
  refine ⟨ready.handoffsNodup, fun h mem => ready.handoffsFree _ ?_⟩
  rw [← idsEq]
  exact List.mem_map_of_mem mem

end RoleContinuityState

end RoleContinuity

end Carryforth
