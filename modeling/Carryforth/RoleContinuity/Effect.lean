import Carryforth.RoleContinuity.Completion
import Carryforth.RoleContinuity.Reduce

/-!
# Role continuity: what a command can do

`Effect` lists, case by case, every change an accepted command makes to a valid state, with the
guards that led to it; `applyRequest_effect` shows that the list is complete.  The invariants of
the protocol are derived from this list, not from the reducer.
-/

namespace Carryforth

namespace RoleContinuity

open Fallible

/-- The entity is new at store revision `r`. -/
structure IsNew {α : Type} [Versioned α] (r : Nat) (a : α) : Prop where
  first : Versioned.revision a = 1
  now : Versioned.writtenAt a = r

/-- The entity `b` is a version of `a` written at store revision `r`. -/
structure IsRewrite {α : Type} [Versioned α] (r : Nat) (a b : α) : Prop where
  room : CanTouch r a
  next : Versioned.revision b = Versioned.revision (Versioned.touched a r)
  now : Versioned.writtenAt b = r

structure RoleAssignmentProposal.SameTerms (p p' : RoleAssignmentProposal) : Prop where
  proposalId : p'.proposalId = p.proposalId
  roleId : p'.roleId = p.roleId
  candidatePubkey : p'.candidatePubkey = p.candidatePubkey
  expiresAt : p'.expiresAt = p.expiresAt
  target : p'.expectedTargetAssignmentId = p.expectedTargetAssignmentId
  candidate : p'.expectedCandidateAssignmentId = p.expectedCandidateAssignmentId

def RoleAssignmentProposal.accepted (p : RoleAssignmentProposal) (t : DateTime) (r : Nat) :
    RoleAssignmentProposal :=
  Versioned.touched { p with candidateAcceptedAt := some t } r

def RoleAssignmentProposal.authorized (p : RoleAssignmentProposal) (g : PublicKey) (t : DateTime)
    (r : Nat) : RoleAssignmentProposal :=
  Versioned.touched { p with authorizedBy := some g, authorizedAt := some t } r

structure RoleAssignment.Reported (a a' : RoleAssignment) : Prop where
  assignmentId : a'.assignmentId = a.assignmentId
  roleId : a'.roleId = a.roleId
  memberPubkey : a'.memberPubkey = a.memberPubkey
  proposalId : a'.proposalId = a.proposalId
  startedAt : a'.startedAt = a.startedAt
  startedBy : a'.startedBy = a.startedBy
  endedAt : a'.endedAt = a.endedAt
  endedBy : a'.endedBy = a.endedBy
  endedReason : a'.endedReason = a.endedReason

namespace RoleContinuityState

def withProposal (s : RoleContinuityState) (id : Uuid) (p : RoleAssignmentProposal) :
    RoleContinuityState :=
  { s with proposals := s.proposals.insert id p }

/-- Which confirmation completed a Proposal, and under whose authority. -/
inductive Confirmation (command : RoleCommand) (actor : PublicKey) (t : DateTime) (r : Nat)
    (id : Uuid) (p : RoleAssignmentProposal) : PublicKey → RoleAssignmentProposal → Prop
  | accept {g : PublicKey} (request : command.request = .acceptProposal id)
      (candidate : p.candidatePubkey = actor) (stored : p.authorizedBy = some g) :
      Confirmation command actor t r id p g (p.accepted t r)
  | authorize (request : command.request = .authorizeProposal id)
      (accepted : p.candidateAcceptedAt.isSome = true) :
      Confirmation command actor t r id p actor (p.authorized actor t r)

/-- Everything an accepted command can do to a state, with the guards that matter later. -/
inductive Effect (s : RoleContinuityState) (command : RoleCommand) (actor : PublicKey)
    (t : DateTime) (r : Nat) (ids : GeneratedRoleContinuityIds) : Draft → Prop
  | proposed {p : RoleAssignmentProposal} (fresh : s.proposals[p.proposalId]? = none)
      (isNew : IsNew r p) (alive : t < p.expiresAt)
      (sole : ∀ (id : Uuid) q, s.proposals[id]? = some q → q.status = .open →
        q.roleId = p.roleId → q.candidatePubkey = p.candidatePubkey → q.expiresAt ≤ t) :
      Effect s command actor t r ids (s.withProposal p.proposalId p).draft
  | rewritten {id : Uuid} {p p' : RoleAssignmentProposal} (stored : s.proposals[id]? = some p)
      (isOpen : p.status = .open) (rewrite : IsRewrite r p p') (terms : p.SameTerms p')
      (unconsumed : p'.status ≠ .consumed) :
      Effect s command actor t r ids (s.withProposal id p').draft
  | completed {id : Uuid} {p p' : RoleAssignmentProposal} {g : PublicKey} {m : MemberGovernance}
      (stored : s.proposals[id]? = some p) (isOpen : p.status = .open) (alive : t < p.expiresAt)
      (confirmation : Confirmation command actor t r id p g p') (room : CanTouch r p)
      (ready : s.CompletionReady p' g r ids) (member : s.members[p.candidatePubkey]? = some m) :
      Effect s command actor t r ids (Draft.completed (s.withProposal id p') id p' g t r ids m)
  | ended {id : Uuid} {a : RoleAssignment} {m : MemberGovernance}
      (request : ∃ reason, command.request = .endAssignment id reason)
      (authorized : s.authorizeAssignmentEnd actor a = .ok ()) (ends : s.CanEnd r id a)
      (member : s.members[a.memberPubkey]? = some m) :
      Effect s command actor t r ids ⟨s.endTenures [id] actor .revoked none t r,
        Std.ExtTreeMap.insert ∅ a.memberPubkey m.baseRole,
        Std.ExtTreeMap.insert ∅ id (s.activeCommitmentIds id)⟩
  | reported {id : Uuid} {a a' : RoleAssignment} (found : s.assignments[id]? = some a)
      (active : a.isActive = true) (rewrite : IsRewrite r a a') (kept : a.Reported a') :
      Effect s command actor t r ids
        (draft { s with assignments := s.assignments.insert id a' })
  | responsibility {id : Uuid} {role : Option Uuid} {w : WorkResponsibility}
      (request : command.request = .setWorkResponsibility id role)
      (found : s.works[id]? = some w) (changed : w.responsibleRoleId ≠ role) :
      Effect s command actor t r ids (draft { s with works := s.works.insert id { w with
        responsibleRoleId := role
        objectRevision := w.objectRevision + 1
        projectRevision := r
        updatedAt := t
        updatedBy := actor } })
  | committed {c : WorkCommitment} (fresh : s.commitments[c.commitmentId]? = none)
      (isNew : IsNew r c) (active : c.isActive = true) :
      Effect s command actor t r ids
        (draft { s with commitments := s.commitments.insert c.commitmentId c })
  | released {id : Uuid} {c : WorkCommitment} (found : s.commitments[id]? = some c)
      (active : c.isActive = true) (room : CanTouch r c) :
      Effect s command actor t r ids
        (draft { s with commitments := s.commitments.insert id (c.ended actor .released t r) })
  | recommitted {id : Uuid} {c c' : WorkCommitment} (found : s.commitments[id]? = some c)
      (active : c.isActive = true) (room : CanTouch r c)
      (fresh : s.commitments[c'.commitmentId]? = none) (isNew : IsNew r c')
      (active' : c'.isActive = true) :
      Effect s command actor t r ids (draft { s with commitments :=
        (s.commitments.insert id (c.ended actor .replaced t r)).insert c'.commitmentId c' })
  | checkpointed {c : RoleCheckpoint} (fresh : s.checkpoints[c.checkpointId]? = none)
      (isNew : IsNew r c) :
      Effect s command actor t r ids
        (draft { s with checkpoints := s.checkpoints.insert c.checkpointId c })
  | noted {h : RoleHandoff} (fresh : s.handoffs[h.handoffId]? = none) (isNew : IsNew r h)
      (written : h.systemGenerated = false) :
      Effect s command actor t r ids
        (draft { s with handoffs := s.handoffs.insert h.handoffId h })

variable {s s' : RoleContinuityState} {command : RoleCommand} {actor : PublicKey} {t : DateTime}
  {r : Nat} {ids : GeneratedRoleContinuityIds} {d : Draft}

theorem Confirmation.terms {id : Uuid} {p p' : RoleAssignmentProposal} {g : PublicKey}
    (confirmation : Confirmation command actor t r id p g p') : p.SameTerms p' := by
  cases confirmation <;> exact ⟨rfl, rfl, rfl, rfl, rfl, rfl⟩

theorem Confirmation.rewrite {id : Uuid} {p p' : RoleAssignmentProposal} {g : PublicKey}
    (confirmation : Confirmation command actor t r id p g p') (room : CanTouch r p) :
    IsRewrite r p p' := by
  cases confirmation <;> exact ⟨room, rfl, rfl⟩

theorem Confirmation.status {id : Uuid} {p p' : RoleAssignmentProposal} {g : PublicKey}
    (confirmation : Confirmation command actor t r id p g p') : p'.status = p.status := by
  cases confirmation <;> rfl

/-! ## Proposal commands -/

structure CanPropose (s : RoleContinuityState) (p : RoleAssignmentProposal) (t : DateTime) : Prop where
  fresh : s.proposals[p.proposalId]? = none
  role : ∃ role, s.roles[p.roleId]? = some role ∧ role.active = true
  alive : t < p.expiresAt
  lifetime : p.expiresAt ≤ t + days maxProposalLifetimeDays
  candidate : ∃ m, s.members[p.candidatePubkey]? = some m ∧ m.eligible = true
  sole : ∀ (id : Uuid) q, s.proposals[id]? = some q → q.status = .open → q.roleId = p.roleId →
    q.candidatePubkey = p.candidatePubkey → q.expiresAt ≤ t

theorem createProposal_eq_ok {id roleId : Uuid} {candidate : PublicKey} {type : ProposalType}
    {expiresAt : DateTime} {reason : Option String} {authorizer : Option PublicKey}
    {p : RoleAssignmentProposal}
    (hp : p = s.newProposal id roleId candidate type expiresAt reason actor t r authorizer) :
    s.createProposal id roleId candidate type expiresAt reason actor t r authorizer = .ok s' ↔
      s.CanPropose p t ∧
        (authorizer.isSome = true → s.authorizeCompleteMove p actor = .ok ()) ∧
        s' = s.withProposal id p := by
  have sole : (¬(s.proposals.valueList.any fun q => q.status == .open && q.roleId == roleId &&
        q.candidatePubkey == candidate && decide (t < q.expiresAt)) = true) ↔
      ∀ (id : Uuid) q, s.proposals[id]? = some q → q.status = .open → q.roleId = p.roleId →
        q.candidatePubkey = p.candidatePubkey → q.expiresAt ≤ t := by
    subst hp
    simp only [List.any_eq_true, not_exists, not_and, OrdMap.mem_valueList, Bool.and_eq_true,
      beq_iff_eq, decide_eq_true_eq, newProposal, not_lt]
    constructor
    · exact fun h id q found isOpen role member => h q ⟨id, found⟩ ⟨⟨isOpen, role⟩, member⟩
    · rintro h q ⟨id, found⟩ ⟨⟨isOpen, role⟩, member⟩
      exact h id q found isOpen role member
  simp only [createProposal, bind_eq_ok, ensure_eq_ok, okOr_eq_ok, eligibleMember_eq_ok, pure_eq_ok,
    checkIf_eq_ok, sole, ← hp, OrdMap.not_contains_iff, not_or, not_le, not_lt, gt_iff_lt]
  constructor
  · rintro ⟨_, fresh, role, foundRole, _, active, _, ⟨alive, lifetime⟩, m, member, _, sole, _, auth,
      rfl⟩
    refine ⟨?_, auth, rfl⟩
    subst hp
    exact ⟨fresh, ⟨role, foundRole, active⟩, alive, lifetime, ⟨m, member⟩, sole⟩
  · rintro ⟨can, auth, rfl⟩
    obtain ⟨role, foundRole, active⟩ := can.role
    obtain ⟨m, member⟩ := can.candidate
    have sole := can.sole
    subst hp
    exact ⟨(), can.fresh, role, foundRole, (), active, (), ⟨can.alive, can.lifetime⟩, m, member, (),
      sole, (), auth, rfl⟩

theorem CanPropose.effect {p : RoleAssignmentProposal} (can : s.CanPropose p t) (isNew : IsNew r p) :
    Effect s command actor t r ids (s.withProposal p.proposalId p).draft :=
  .proposed can.fresh isNew can.alive can.sole

theorem openProposal_eq_ok {id : Uuid} {p : RoleAssignmentProposal} :
    s.openProposal id t = .ok p ↔
      s.proposals[id]? = some p ∧ p.status = .open ∧ t < p.expiresAt := by
  simp only [openProposal, bind_eq_ok, okOr_eq_ok, ensure_eq_ok, pure_eq_ok, ge_iff_le, not_le]
  constructor
  · rintro ⟨q, found, _, isOpen, _, alive, rfl⟩
    exact ⟨found, isOpen, alive⟩
  · rintro ⟨found, isOpen, alive⟩
    exact ⟨p, found, (), isOpen, (), alive, rfl⟩

theorem withProposal_tenuresApart (tenures : s.TenuresApart) (id : Uuid)
    (p : RoleAssignmentProposal) : (s.withProposal id p).TenuresApart :=
  ⟨tenures.keyed, tenures.apart⟩

/-- Whether a completion is possible does not depend on the stored Proposals. -/
theorem withProposal_completionReady {id : Uuid} {p q : RoleAssignmentProposal} {g : PublicKey} :
    (s.withProposal id q).CompletionReady p g r ids ↔ s.CompletionReady p g r ids := by
  constructor <;> rintro ⟨authorized, fence, newId, free, enough, nodup, freeH, ends, room⟩ <;>
    refine ⟨authorized, fence, newId, free, enough, nodup, freeH, fun k hk => ?_, room⟩ <;>
    obtain ⟨a, m, ⟨found, active, room, commitments⟩, member⟩ := ends k hk <;>
    exact ⟨a, m, ⟨found, active, room, commitments⟩, member⟩

section Complete

variable {id : Uuid} {p : RoleAssignmentProposal} {g : PublicKey}

theorem completeProposalIfReady_eq_ok (tenures : s.TenuresApart)
    (keyed : s.commitments.Keyed (·.commitmentId)) (isOpen : p.status = .open)
    (alive : t < p.expiresAt) (accepted : p.candidateAcceptedAt.isSome = true)
    (authorized : p.authorizedBy = some g) :
    (s.withProposal id p).draft.completeProposalIfReady id t r ids = .ok d ↔
      s.CompletionReady p g r ids ∧ ∃ m, s.members[p.candidatePubkey]? = some m ∧
        d = Draft.completed (s.withProposal id p) id p g t r ids m := by
  have stored : (s.withProposal id p).proposals[id]? = some p := by
    rw [withProposal, OrdMap.get_insert, if_pos rfl]
  obtain ⟨time, accepted⟩ := Option.isSome_iff_exists.1 accepted
  have complete : (s.withProposal id p).draft.completeProposal id p g t r ids = .ok d ↔ _ :=
    completeProposal_eq_ok (withProposal_tenuresApart tenures id p) keyed stored
  rw [withProposal_completionReady] at complete
  rw [Draft.completeProposalIfReady, bind_eq_ok]
  constructor
  · rintro ⟨q, found, run⟩
    cases stored.symm.trans (openProposal_eq_ok.1 found).1
    rw [accepted, authorized] at run
    exact complete.1 run
  · intro h
    refine ⟨p, openProposal_eq_ok.2 ⟨stored, isOpen, alive⟩, ?_⟩
    rw [accepted, authorized]
    exact complete.2 h

theorem completeProposalIfReady_of_missing (isOpen : p.status = .open) (alive : t < p.expiresAt)
    (missing : p.candidateAcceptedAt = none ∨ p.authorizedBy = none) :
    (s.withProposal id p).draft.completeProposalIfReady id t r ids =
      .ok (s.withProposal id p).draft := by
  have stored : (s.withProposal id p).proposals[id]? = some p := by
    rw [withProposal, OrdMap.get_insert, if_pos rfl]
  have found : (s.withProposal id p).openProposal id t = .ok p :=
    openProposal_eq_ok.2 ⟨stored, isOpen, alive⟩
  rw [Draft.completeProposalIfReady]
  change ((s.withProposal id p).openProposal id t >>= _) = _
  rw [found, ok_bind]
  rcases missing with h | h
  · rw [h]
    rfl
  · rw [h]
    cases p.candidateAcceptedAt <;> rfl

theorem updateProposal_touch_eq_ok (stored : s.proposals[id]? = some p)
    {write : RoleAssignmentProposal → RoleAssignmentProposal}
    (kept : ∀ q, (write q).entityRevision = q.entityRevision ∧
      (write q).projectRevision = q.projectRevision) :
    s.updateProposal id (fun q => touchProposal (write q) r) = .ok s' ↔
      CanTouch r p ∧ s' = s.withProposal id (Versioned.touched (write p) r) := by
  have room : CanTouch r (write p) ↔ CanTouch r p := by
    unfold CanTouch
    change (write p).projectRevision = r ∨ (write p).entityRevision < maxSafeRevision ↔ _
    rw [(kept p).1, (kept p).2]
    rfl
  simp only [updateProposal_eq_ok, touchProposal, Versioned.touch_eq_ok]
  constructor
  · rintro ⟨q, _, found, ⟨fits, rfl⟩, rfl⟩
    cases stored.symm.trans found
    exact ⟨room.1 fits, rfl⟩
  · rintro ⟨fits, rfl⟩
    exact ⟨p, _, stored, ⟨room.2 fits, rfl⟩, rfl⟩

end Complete

theorem newProposal_isNew {id roleId : Uuid} {candidate : PublicKey} {type : ProposalType}
    {expiresAt : DateTime} {reason : Option String} {authorizer : Option PublicKey} :
    IsNew r (s.newProposal id roleId candidate type expiresAt reason actor t r authorizer) :=
  ⟨rfl, rfl⟩

theorem applyRequestRole_eq_ok {id roleId : Uuid} {expiresAt : DateTime} {reason : Option String}
    {p : RoleAssignmentProposal}
    (hp : p = s.newProposal id roleId actor .request expiresAt reason actor t r none) :
    s.applyRequestRole actor t r id roleId expiresAt reason = .ok d ↔
      s.CanPropose p t ∧ d = (s.withProposal id p).draft := by
  simp only [applyRequestRole, bind_eq_ok, createProposal_eq_ok hp, pure_eq_ok]
  constructor
  · rintro ⟨_, ⟨can, -, rfl⟩, rfl⟩
    exact ⟨can, rfl⟩
  · rintro ⟨can, rfl⟩
    exact ⟨_, ⟨can, Bool.noConfusion, rfl⟩, rfl⟩

/-- An offer is authorized but not accepted, so it is never completed by its own command. -/
theorem applyOfferRole_eq_ok {id roleId : Uuid} {candidate : PublicKey} {expiresAt : DateTime}
    {reason : Option String} {p : RoleAssignmentProposal}
    (hp : p = s.newProposal id roleId candidate .offer expiresAt reason actor t r (some actor)) :
    s.applyOfferRole command actor t r ids id roleId candidate expiresAt reason = .ok d ↔
      s.requireGovernorFence command actor = .ok () ∧ s.CanPropose p t ∧
        s.authorizeCompleteMove p actor = .ok () ∧ d = (s.withProposal id p).draft := by
  have isOpen : p.status = .open := by rw [hp]; rfl
  have missing : p.candidateAcceptedAt = none := by rw [hp]; rfl
  simp only [applyOfferRole, bind_eq_ok, createProposal_eq_ok hp]
  constructor
  · rintro ⟨_, fence, _, ⟨can, authorized, rfl⟩, complete⟩
    rw [completeProposalIfReady_of_missing isOpen can.alive (.inl missing)] at complete
    cases complete
    exact ⟨fence, can, authorized rfl, rfl⟩
  · rintro ⟨fence, can, authorized, rfl⟩
    exact ⟨(), fence, _, ⟨can, fun _ => authorized, rfl⟩,
      completeProposalIfReady_of_missing isOpen can.alive (.inl missing)⟩

section Confirm

variable {id : Uuid}

/-- What a confirmation leads to: the Proposal with it, or the completed move. -/
def Confirmed (s : RoleContinuityState) (t : DateTime) (r : Nat) (ids : GeneratedRoleContinuityIds)
    (id : Uuid) (p' : RoleAssignmentProposal) (d : Draft) : Prop :=
  match p'.candidateAcceptedAt, p'.authorizedBy with
  | some _, some g => s.CompletionReady p' g r ids ∧ ∃ m, s.members[p'.candidatePubkey]? = some m ∧
      d = Draft.completed (s.withProposal id p') id p' g t r ids m
  | _, _ => d = (s.withProposal id p').draft

theorem completeProposalIfReady_iff (tenures : s.TenuresApart)
    (keyed : s.commitments.Keyed (·.commitmentId)) {q : RoleAssignmentProposal}
    (isOpen : q.status = .open) (alive : t < q.expiresAt) :
    (s.withProposal id q).draft.completeProposalIfReady id t r ids = .ok d ↔
      s.Confirmed t r ids id q d := by
  unfold Confirmed
  cases accepted : q.candidateAcceptedAt with
  | none =>
    rw [completeProposalIfReady_of_missing isOpen alive (.inl accepted)]
    exact ⟨fun h => (Except.ok.inj h).symm, fun h => congrArg _ h.symm⟩
  | some time =>
    cases authorized : q.authorizedBy with
    | none =>
      rw [completeProposalIfReady_of_missing isOpen alive (.inr authorized)]
      exact ⟨fun h => (Except.ok.inj h).symm, fun h => congrArg _ h.symm⟩
    | some g =>
      exact completeProposalIfReady_eq_ok tenures keyed isOpen alive (by rw [accepted]; rfl)
        authorized

theorem applyAcceptProposal_eq_ok (tenures : s.TenuresApart)
    (keyed : s.commitments.Keyed (·.commitmentId)) :
    s.applyAcceptProposal actor t r ids id = .ok d ↔
      ∃ p, s.proposals[id]? = some p ∧ p.status = .open ∧ t < p.expiresAt ∧
        p.candidatePubkey = actor ∧ p.candidateAcceptedAt = none ∧
        (∀ g, p.authorizedBy = some g → s.authorizeCompleteMove p g = .ok ()) ∧ CanTouch r p ∧
        s.Confirmed t r ids id (p.accepted t r) d := by
  simp only [applyAcceptProposal, bind_eq_ok, openProposal_eq_ok, ensure_eq_ok, checkSome_eq_ok]
  constructor
  · rintro ⟨p, ⟨stored, isOpen, alive⟩, _, candidate, _, missing, _, authorized, _, updated, complete⟩
    obtain ⟨room, rfl⟩ := (updateProposal_touch_eq_ok stored (by exact fun _ => ⟨rfl, rfl⟩)).1 updated
    exact ⟨p, stored, isOpen, alive, candidate, missing, authorized, room,
      (completeProposalIfReady_iff (q := p.accepted t r) tenures keyed isOpen alive).1 complete⟩
  · rintro ⟨p, stored, isOpen, alive, candidate, missing, authorized, room, complete⟩
    exact ⟨p, ⟨stored, isOpen, alive⟩, (), candidate, (), missing, (), authorized, _,
      (updateProposal_touch_eq_ok stored (by exact fun _ => ⟨rfl, rfl⟩)).2 ⟨room, rfl⟩,
      (completeProposalIfReady_iff (q := p.accepted t r) tenures keyed isOpen alive).2 complete⟩

theorem applyAuthorizeProposal_eq_ok (tenures : s.TenuresApart)
    (keyed : s.commitments.Keyed (·.commitmentId)) :
    s.applyAuthorizeProposal command actor t r ids id = .ok d ↔
      s.requireGovernorFence command actor = .ok () ∧
      ∃ p, s.proposals[id]? = some p ∧ p.status = .open ∧ t < p.expiresAt ∧
        s.authorizeCompleteMove p actor = .ok () ∧ p.authorizedAt = none ∧ CanTouch r p ∧
        s.Confirmed t r ids id (p.authorized actor t r) d := by
  simp only [applyAuthorizeProposal, bind_eq_ok, openProposal_eq_ok, ensure_eq_ok]
  constructor
  · rintro ⟨_, fence, p, ⟨stored, isOpen, alive⟩, _, authorized, _, missing, _, updated, complete⟩
    obtain ⟨room, rfl⟩ := (updateProposal_touch_eq_ok stored (by exact fun _ => ⟨rfl, rfl⟩)).1 updated
    exact ⟨fence, p, stored, isOpen, alive, authorized, missing, room,
      (completeProposalIfReady_iff (q := p.authorized actor t r) tenures keyed isOpen alive).1 complete⟩
  · rintro ⟨fence, p, stored, isOpen, alive, authorized, missing, room, complete⟩
    exact ⟨(), fence, p, ⟨stored, isOpen, alive⟩, (), authorized, (), missing, _,
      (updateProposal_touch_eq_ok stored (by exact fun _ => ⟨rfl, rfl⟩)).2 ⟨room, rfl⟩,
      (completeProposalIfReady_iff (q := p.authorized actor t r) tenures keyed isOpen alive).2 complete⟩

end Confirm

theorem resolveStored_effect {id : Uuid} {p : RoleAssignmentProposal} {status : ProposalStatus}
    {reason : Option String} (stored : s.proposals[id]? = some p) (isOpen : p.status = .open)
    (unconsumed : status ≠ .consumed) (run : s.resolveStored t r id status reason = .ok d) :
    Effect s command actor t r ids d := by
  simp only [resolveStored, resolveProposal, bind_eq_ok, pure_eq_ok] at run
  obtain ⟨_, updated, rfl⟩ := run
  obtain ⟨room, rfl⟩ := (updateProposal_touch_eq_ok stored (by exact fun _ => ⟨rfl, rfl⟩)).1 updated
  exact .rewritten stored isOpen ⟨room, rfl, rfl⟩ ⟨rfl, rfl, rfl, rfl, rfl, rfl⟩ unconsumed

theorem applyRejectProposal_effect {id : Uuid} {reason : Option String}
    (run : s.applyRejectProposal command actor t r id reason = .ok d) :
    Effect s command actor t r ids d := by
  simp only [applyRejectProposal, bind_eq_ok, openProposal_eq_ok] at run
  obtain ⟨p, ⟨stored, isOpen, -⟩, _, -, resolved⟩ := run
  exact resolveStored_effect stored isOpen (by decide) resolved

theorem applyWithdrawProposal_effect {id : Uuid} {reason : Option String}
    (run : s.applyWithdrawProposal actor t r id reason = .ok d) :
    Effect s command actor t r ids d := by
  simp only [applyWithdrawProposal, bind_eq_ok, openProposal_eq_ok] at run
  obtain ⟨p, ⟨stored, isOpen, -⟩, _, -, resolved⟩ := run
  exact resolveStored_effect stored isOpen (by decide) resolved

theorem applyExpireProposal_effect {id : Uuid} (run : s.applyExpireProposal t r id = .ok d) :
    Effect s command actor t r ids d := by
  simp only [applyExpireProposal, bind_eq_ok, okOr_eq_ok, ensure_eq_ok] at run
  obtain ⟨p, stored, _, isOpen, _, -, resolved⟩ := run
  exact resolveStored_effect stored isOpen (by decide) resolved

/-- A confirmation either rewrites the Proposal or completes it. -/
theorem Confirmed.effect {id : Uuid} {p p' : RoleAssignmentProposal} {g : PublicKey}
    (confirmed : s.Confirmed t r ids id p' d) (stored : s.proposals[id]? = some p)
    (isOpen : p.status = .open) (alive : t < p.expiresAt) (rewrite : IsRewrite r p p')
    (terms : p.SameTerms p') (unconsumed : p'.status ≠ .consumed)
    (confirmation : p'.candidateAcceptedAt.isSome = true →
      p'.authorizedBy = some g → Confirmation command actor t r id p g p')
    (authorizer : ∀ g', p'.authorizedBy = some g' → g' = g) : Effect s command actor t r ids d := by
  unfold Confirmed at confirmed
  cases accepted : p'.candidateAcceptedAt with
  | none =>
    rw [accepted] at confirmed
    cases confirmed
    exact .rewritten stored isOpen rewrite terms unconsumed
  | some time =>
    cases authorized : p'.authorizedBy with
    | none =>
      rw [accepted, authorized] at confirmed
      cases confirmed
      exact .rewritten stored isOpen rewrite terms unconsumed
    | some g' =>
      rw [accepted, authorized] at confirmed
      obtain ⟨ready, m, member, rfl⟩ := confirmed
      cases authorizer g' authorized
      exact .completed stored isOpen alive (confirmation (by rw [accepted]; rfl) authorized)
        rewrite.room ready (terms.candidatePubkey ▸ member)

theorem applyAcceptProposal_effect (tenures : s.TenuresApart)
    (keyed : s.commitments.Keyed (·.commitmentId)) {id : Uuid}
    (request : command.request = .acceptProposal id)
    (run : s.applyAcceptProposal actor t r ids id = .ok d) : Effect s command actor t r ids d := by
  obtain ⟨p, stored, isOpen, alive, candidate, -, -, room, confirmed⟩ :=
    (applyAcceptProposal_eq_ok tenures keyed).1 run
  have rewrite : IsRewrite r p (p.accepted t r) := ⟨room, rfl, rfl⟩
  have terms : p.SameTerms (p.accepted t r) := ⟨rfl, rfl, rfl, rfl, rfl, rfl⟩
  have unconsumed : (p.accepted t r).status ≠ .consumed := by
    change p.status ≠ .consumed
    rw [isOpen]
    decide
  cases authorized : p.authorizedBy with
  | none =>
    -- without a stored authorization the acceptance is only written
    refine confirmed.effect (g := actor) stored isOpen alive rewrite terms unconsumed
      (fun _ h => ?_) fun g h => ?_ <;> cases authorized.symm.trans h
  | some g =>
    exact confirmed.effect stored isOpen alive rewrite terms unconsumed
      (fun _ h => .accept request candidate h) fun g' h => Option.some.inj (h.symm.trans authorized)

theorem applyAuthorizeProposal_effect (tenures : s.TenuresApart)
    (keyed : s.commitments.Keyed (·.commitmentId)) {id : Uuid}
    (request : command.request = .authorizeProposal id)
    (run : s.applyAuthorizeProposal command actor t r ids id = .ok d) :
    Effect s command actor t r ids d := by
  obtain ⟨-, p, stored, isOpen, alive, -, -, room, confirmed⟩ :=
    (applyAuthorizeProposal_eq_ok tenures keyed).1 run
  have unconsumed : (p.authorized actor t r).status ≠ .consumed := by
    change p.status ≠ .consumed
    rw [isOpen]
    decide
  exact confirmed.effect (g := actor) stored isOpen alive ⟨room, rfl, rfl⟩
    ⟨rfl, rfl, rfl, rfl, rfl, rfl⟩ unconsumed (fun accepted _ => .authorize request accepted)
    fun g h => (Option.some.inj h).symm

/-! ## Assignment commands -/

section EndOne

variable {id : Uuid} {a : RoleAssignment} {reason : AssignmentEndReason} {replacedBy : Option Uuid}

theorem endTenures_singleton_assignments (found : s.assignments[id]? = some a) :
    s.assignments.insert id (a.ended actor reason replacedBy t r) =
      (s.endTenures [id] actor reason replacedBy t r).assignments := by
  refine Std.ExtTreeMap.ext_getElem? fun k => ?_
  rw [OrdMap.get_insert, get_endTenures_assignments]
  by_cases same : k = id
  · subst same
    simp [found]
  · simp [same]

theorem vacateHolders_singleton (found : s.assignments[id]? = some a) {m : MemberGovernance}
    (member : s.members[a.memberPubkey]? = some m) :
    s.members.insert a.memberPubkey (m.withRole m.baseRole) = s.vacateHolders [id] := by
  refine Std.ExtTreeMap.ext_getElem? fun k => ?_
  rw [OrdMap.get_insert, get_vacateHolders]
  by_cases same : k = a.memberPubkey
  · subst same
    simp [member, holders, found]
  · simp [same, holders, found]

/-- A member whose one tenure has just ended is recorded at its base Community role. -/
theorem endTenures_singleton_memberRole (tenures : s.TenuresApart) (ends : s.CanEnd r id a)
    (assignments : s'.assignments = s.assignments.insert id (a.ended actor reason replacedBy t r))
    (roles : s'.roles = s.roles) (m : MemberGovernance) :
    s'.memberRole m a.memberPubkey = m.baseRole := by
  rw [endTenures_singleton_assignments ends.found] at assignments
  rw [memberRole_congr assignments roles]
  exact memberRole_of_none (tenureLevel_endTenures tenures ends.found ends.active (by simp)) m

end EndOne

theorem applyEndAssignment_eq_ok (tenures : s.TenuresApart)
    (keyed : s.commitments.Keyed (·.commitmentId)) {id : Uuid} :
    s.applyEndAssignment command actor t r id = .ok d ↔
      ∃ a m needed, s.authorizeAssignmentEnd actor a = .ok () ∧
        s.assignmentEndRequiresRoleAuthority actor a = .ok needed ∧
        (needed = true → s.requireGovernorFence command actor = .ok ()) ∧
        s.CanEnd r id a ∧ s.members[a.memberPubkey]? = some m ∧
        d = ⟨s.endTenures [id] actor .revoked none t r,
          Std.ExtTreeMap.insert ∅ a.memberPubkey m.baseRole,
          Std.ExtTreeMap.insert ∅ id (s.activeCommitmentIds id)⟩ := by
  have closed : ∀ a m, s.CanEnd r id a → s.members[a.memberPubkey]? = some m →
      ({ s with
        assignments := s.assignments.insert id (a.ended actor .revoked none t r)
        commitments := s.endCommitmentsOf [id] actor t r
        members := s.members.insert a.memberPubkey (m.withRole m.baseRole) } : RoleContinuityState) =
        s.endTenures [id] actor .revoked none t r := by
    intro a m ends member
    exact RoleContinuityState.ext rfl rfl rfl rfl (vacateHolders_singleton ends.found member) rfl
      (endTenures_singleton_assignments ends.found) rfl rfl rfl
  simp only [applyEndAssignment, bind_eq_ok, activeAssignment_eq_ok, checkIf_eq_ok, Prod.exists,
    endAssignment_eq_ok keyed, recordDesiredMemberRole_eq_ok, pure_eq_ok]
  constructor
  · rintro ⟨a, ⟨found, -⟩, _, authorized, needed, requires, _, fence, _, _, ⟨b, ends, rfl, rfl⟩, _, _,
      ⟨m, member, rfl, rfl⟩, rfl⟩
    cases found.symm.trans ends.found
    refine ⟨a, m, needed, authorized, requires, fence, ends, member, ?_⟩
    rw [endTenures_singleton_memberRole tenures ends, ← closed a m ends member]
    all_goals rfl
  · rintro ⟨a, m, needed, authorized, requires, fence, ends, member, rfl⟩
    refine ⟨a, ⟨ends.found, ends.active⟩, (), authorized, needed, requires, (), fence, _, _,
      ⟨a, ends, rfl, rfl⟩, _, _, ⟨m, member, rfl, rfl⟩, ?_⟩
    rw [endTenures_singleton_memberRole tenures ends, ← closed a m ends member]
    all_goals rfl

theorem applyEndAssignment_effect (tenures : s.TenuresApart)
    (keyed : s.commitments.Keyed (·.commitmentId)) {id : Uuid} {reason : Option String}
    (request : command.request = .endAssignment id reason)
    (run : s.applyEndAssignment command actor t r id = .ok d) : Effect s command actor t r ids d := by
  obtain ⟨a, m, _, authorized, -, -, ends, member, rfl⟩ :=
    (applyEndAssignment_eq_ok tenures keyed).1 run
  exact .ended ⟨reason, request⟩ authorized ends member

theorem requireAssigneeAction_eq_ok {id : Uuid} {u : Unit} :
    s.requireAssigneeAction command actor id = .ok u ↔ command.actingAssignmentId = some id ∧
      ∃ a, s.assignments[id]? = some a ∧ a.isActive = true ∧ a.memberPubkey = actor := by
  simp only [requireAssigneeAction, bind_eq_ok, ensure_eq_ok, activeAssignment_eq_ok]
  constructor
  · rintro ⟨_, acting, a, ⟨found, active⟩, own⟩
    exact ⟨acting, a, found, active, own⟩
  · rintro ⟨acting, a, found, active, own⟩
    exact ⟨(), acting, a, ⟨found, active⟩, own⟩

theorem applyReport_effect {id : Uuid} {reported : RoleAssignment → Option DateTime}
    {write : RoleAssignment → RoleAssignment} (kept : ∀ a, RoleAssignment.Reported a (write a))
    (revisions : ∀ a, Versioned.revision (write a) = Versioned.revision a ∧
      Versioned.writtenAt (write a) = Versioned.writtenAt a)
    (run : s.applyReport command actor r id reported write = .ok d) :
    Effect s command actor t r ids d := by
  simp only [applyReport, bind_eq_ok, requireAssigneeAction_eq_ok, okOr_eq_ok, ensure_eq_ok,
    touchAssignment, Versioned.touch_eq_ok, pure_eq_ok] at run
  obtain ⟨_, ⟨-, a, found, active, -⟩, a', found', _, -, _, ⟨room, rfl⟩, rfl⟩ := run
  cases found.symm.trans found'
  have same := revisions a
  rw [same.1, same.2] at room
  refine .reported found active ⟨room, ?_, rfl⟩ ?_
  · simp [Versioned.touched, same.1, same.2]
  · obtain ⟨h₁, h₂, h₃, h₄, h₅, h₆, h₇, h₈, h₉⟩ := kept a
    exact ⟨h₁, h₂, h₃, h₄, h₅, h₆, h₇, h₈, h₉⟩

/-! ## Work commands -/

theorem applySetWorkResponsibility_ok {id : Uuid} {role : Option Uuid}
    (run : s.applySetWorkResponsibility command actor t r id role = .ok d) :
    s.requireGovernorFence command actor = .ok () ∧
      ∃ w, s.works[id]? = some w ∧ w.responsibleRoleId ≠ role ∧
        d = draft { s with works := s.works.insert id { w with
          responsibleRoleId := role
          objectRevision := w.objectRevision + 1
          projectRevision := r
          updatedAt := t
          updatedBy := actor } } := by
  simp only [applySetWorkResponsibility, touchWork, bind_eq_ok, ensure_eq_ok, okOr_eq_ok,
    Option.filter_eq_some_iff, pure_eq_ok] at run
  obtain ⟨_, fence, _, -, _, -, w, ⟨found, -⟩, _, changed, _, ⟨_, -, rfl⟩, rfl⟩ := run
  exact ⟨fence, w, found, changed, rfl⟩

theorem applySetWorkResponsibility_effect {id : Uuid} {role : Option Uuid}
    (request : command.request = .setWorkResponsibility id role)
    (run : s.applySetWorkResponsibility command actor t r id role = .ok d) :
    Effect s command actor t r ids d := by
  obtain ⟨-, w, found, changed, rfl⟩ := applySetWorkResponsibility_ok run
  exact .responsibility request found changed

theorem createCommitment_ok {id workId assignmentId : Uuid}
    (run : s.createCommitment id workId assignmentId actor t r = .ok s') :
    ∃ c, c.commitmentId = id ∧ s.commitments[id]? = none ∧ IsNew r c ∧ c.isActive = true ∧
      s' = { s with commitments := s.commitments.insert id c } := by
  simp only [createCommitment, bind_eq_ok, ensure_eq_ok, okOr_eq_ok, OrdMap.not_contains_iff,
    pure_eq_ok] at run
  obtain ⟨_, fresh, _, -, _, -, _, -, _, -, _, -, _, -, _, -, rfl⟩ := run
  exact ⟨_, rfl, fresh, ⟨rfl, rfl⟩, rfl, rfl⟩

theorem applyAcceptWork_effect {id workId : Uuid}
    (run : s.applyAcceptWork command actor t r id workId = .ok d) :
    Effect s command actor t r ids d := by
  simp only [applyAcceptWork, bind_eq_ok, pure_eq_ok] at run
  obtain ⟨_, -, _, created, rfl⟩ := run
  obtain ⟨c, rfl, fresh, isNew, active, rfl⟩ := createCommitment_ok created
  exact .committed fresh isNew active

theorem applyEndCommitment_effect {id : Uuid}
    (run : s.applyEndCommitment command actor t r id = .ok d) : Effect s command actor t r ids d := by
  simp only [applyEndCommitment, bind_eq_ok, endCommitment_eq_ok, pure_eq_ok] at run
  obtain ⟨_, -, _, -, _, -, _, ⟨c, found, active, room, rfl⟩, rfl⟩ := run
  exact .released found active room

theorem applyReplaceCommitment_effect {id workId expected : Uuid}
    (run : s.applyReplaceCommitment command actor t r id workId expected = .ok d) :
    Effect s command actor t r ids d := by
  simp only [applyReplaceCommitment, bind_eq_ok, endCommitment_eq_ok, pure_eq_ok] at run
  obtain ⟨_, -, _, -, _, -, _, ⟨c, found, active, room, rfl⟩, _, created, rfl⟩ := run
  obtain ⟨c', rfl, fresh, isNew, active', rfl⟩ := createCommitment_ok created
  have fresh' : s.commitments[c'.commitmentId]? = none := by
    rw [OrdMap.get_insert] at fresh
    split_ifs at fresh
    exact fresh
  exact .recommitted found active room fresh' isNew active'

theorem appendCheckpoint_ok {id assignmentId : Uuid} {baseline : Nat}
    {content : RoleCheckpointContent} {supersedes : Option Uuid}
    (run : s.appendCheckpoint id assignmentId baseline content supersedes actor t r = .ok s') :
    ∃ c, c.checkpointId = id ∧ s.checkpoints[id]? = none ∧ IsNew r c ∧
      s' = { s with checkpoints := s.checkpoints.insert id c } := by
  simp only [appendCheckpoint, bind_eq_ok, ensure_eq_ok, OrdMap.not_contains_iff, pure_eq_ok] at run
  obtain ⟨_, fresh, _, -, _, -, _, -, _, -, _, -, _, -, rfl⟩ := run
  exact ⟨_, rfl, fresh, ⟨rfl, rfl⟩, rfl⟩

theorem applyAppendCheckpoint_effect {id : Uuid} {baseline : Nat} {content : RoleCheckpointContent}
    {supersedes : Option Uuid}
    (run : s.applyAppendCheckpoint command actor t r id baseline content supersedes = .ok d) :
    Effect s command actor t r ids d := by
  simp only [applyAppendCheckpoint, bind_eq_ok, pure_eq_ok] at run
  obtain ⟨_, -, _, appended, rfl⟩ := run
  obtain ⟨c, rfl, fresh, isNew, rfl⟩ := appendCheckpoint_ok appended
  exact .checkpointed fresh isNew

theorem appendHandoff_ok {id assignmentId : Uuid} {target checkpoint : Option Uuid}
    {content : RoleHandoffContent} {cause : HandoffCause}
    (run : s.appendHandoff id assignmentId target checkpoint content cause actor t r = .ok s') :
    ∃ h, h.handoffId = id ∧ s.handoffs[id]? = none ∧ IsNew r h ∧ h.systemGenerated = false ∧
      s' = { s with handoffs := s.handoffs.insert id h } := by
  simp only [appendHandoff, bind_eq_ok, ensure_eq_ok, OrdMap.not_contains_iff, pure_eq_ok] at run
  obtain ⟨_, fresh, _, -, _, -, _, -, _, -, _, -, _, -, _, -, rfl⟩ := run
  exact ⟨_, rfl, fresh, ⟨rfl, rfl⟩, rfl, rfl⟩

theorem applyAppendHandoff_effect {id : Uuid} {target checkpoint : Option Uuid}
    {content : RoleHandoffContent} {cause : HandoffCause}
    (run : s.applyAppendHandoff command actor t r id target checkpoint content cause = .ok d) :
    Effect s command actor t r ids d := by
  simp only [applyAppendHandoff, bind_eq_ok, pure_eq_ok] at run
  obtain ⟨_, -, _, appended, rfl⟩ := run
  obtain ⟨h, rfl, fresh, isNew, written, rfl⟩ := appendHandoff_ok appended
  exact .noted fresh isNew written

/-! ## All commands -/

theorem applyRequest_effect (tenures : s.TenuresApart)
    (keyed : s.commitments.Keyed (·.commitmentId))
    (run : s.applyRequest command actor t r ids = .ok d) : Effect s command actor t r ids d := by
  unfold applyRequest at run
  cases request : command.request <;> rw [request] at run
  case requestRole id role expiresAt reason =>
    obtain ⟨can, rfl⟩ := (applyRequestRole_eq_ok rfl).1 run
    exact can.effect newProposal_isNew
  case offerRole id role candidate expiresAt reason =>
    obtain ⟨-, can, -, rfl⟩ := (applyOfferRole_eq_ok rfl).1 run
    exact can.effect newProposal_isNew
  case acceptProposal => exact applyAcceptProposal_effect tenures keyed request run
  case authorizeProposal => exact applyAuthorizeProposal_effect tenures keyed request run
  case rejectProposal => exact applyRejectProposal_effect run
  case withdrawProposal => exact applyWithdrawProposal_effect run
  case expireProposal => exact applyExpireProposal_effect run
  case endAssignment => exact applyEndAssignment_effect tenures keyed request run
  case requestReplacement =>
    refine applyReport_effect ?_ ?_ run
    · exact fun _ => ⟨rfl, rfl, rfl, rfl, rfl, rfl, rfl, rfl, rfl⟩
    · exact fun _ => ⟨rfl, rfl⟩
  case reportUnableToContinue =>
    refine applyReport_effect ?_ ?_ run
    · exact fun _ => ⟨rfl, rfl, rfl, rfl, rfl, rfl, rfl, rfl, rfl⟩
    · exact fun _ => ⟨rfl, rfl⟩
  case setWorkResponsibility => exact applySetWorkResponsibility_effect request run
  case acceptWork => exact applyAcceptWork_effect run
  case endCommitment => exact applyEndCommitment_effect run
  case replaceCommitment => exact applyReplaceCommitment_effect run
  case appendCheckpoint => exact applyAppendCheckpoint_effect run
  case appendHandoff => exact applyAppendHandoff_effect run

end RoleContinuityState

end RoleContinuity

end Carryforth
