import Carryforth.RoleContinuity.Step

/-!
# Role continuity: history

The five entity stores only grow.  `HistoryStep` says what one step may do to each of them, in the
terms of a store of versioned records: create an entity at revision one, or rewrite one that is
still live.  Over a run nothing disappears, and what has ended or was only ever appended stays as
it is (`run_appendOnly`).
-/

namespace Carryforth

namespace RoleContinuity

open Store

def RoleAssignmentProposal.terms (p : RoleAssignmentProposal) : Uuid × PublicKey × DateTime :=
  (p.roleId, p.candidatePubkey, p.expiresAt)

def RoleAssignment.identity (a : RoleAssignment) : Uuid × PublicKey × Uuid × DateTime × PublicKey :=
  (a.roleId, a.memberPubkey, a.proposalId, a.startedAt, a.startedBy)

def WorkCommitment.identity (c : WorkCommitment) : Uuid × Uuid × PublicKey × DateTime × PublicKey :=
  (c.workId, c.assignmentId, c.memberPubkey, c.startedAt, c.startedBy)

theorem RoleAssignmentProposal.SameTerms.terms {p p' : RoleAssignmentProposal}
    (same : p.SameTerms p') : p'.terms = p.terms := by
  simp only [RoleAssignmentProposal.terms, same.roleId, same.candidatePubkey, same.expiresAt]

theorem RoleAssignment.Reported.identity {a a' : RoleAssignment} (kept : a.Reported a') :
    a'.identity = a.identity := by
  simp only [RoleAssignment.identity, kept.roleId, kept.memberPubkey, kept.proposalId,
    kept.startedAt, kept.startedBy]

namespace RoleContinuityState

variable {s s' next : RoleContinuityState} {command : RoleCommand} {actor : PublicKey}
  {t : DateTime} {r : Nat} {ids : GeneratedRoleContinuityIds} {d : Draft}

/-! ## Entities and revisions -/

/-- No entity is ahead of the state it belongs to. -/
def HeadsCurrent (s : RoleContinuityState) : Prop :=
  ∀ head ∈ s.entityHeads, head.projectRevision ≤ s.projectRevision

/-- Every entity was written before project revision `r`. -/
structure WrittenBefore (s : RoleContinuityState) (r : Nat) : Prop where
  proposals : Store.WrittenBefore r s.proposals
  assignments : Store.WrittenBefore r s.assignments
  commitments : Store.WrittenBefore r s.commitments
  checkpoints : Store.WrittenBefore r s.checkpoints
  handoffs : Store.WrittenBefore r s.handoffs

theorem mem_entityHeads {head : RoleContinuityChange} :
    head ∈ s.entityHeads ↔
      (∃ p, (∃ id : Uuid, s.proposals[id]? = some p) ∧ .proposal p = head) ∨
      (∃ a, (∃ id : Uuid, s.assignments[id]? = some a) ∧ .assignment a = head) ∨
      (∃ c, (∃ id : Uuid, s.commitments[id]? = some c) ∧ .commitment c = head) ∨
      (∃ c, (∃ id : Uuid, s.checkpoints[id]? = some c) ∧ .checkpoint c = head) ∨
      ∃ h, (∃ id : Uuid, s.handoffs[id]? = some h) ∧ .handoff h = head := by
  simp only [entityHeads, List.mem_append, List.mem_map, OrdMap.mem_valueList, or_assoc]

theorem headsCurrent_iff : s.HeadsCurrent ↔ s.WrittenBefore (s.projectRevision + 1) := by
  simp only [HeadsCurrent, mem_entityHeads]
  constructor
  · intro h
    constructor
    · exact fun id p found => Nat.lt_succ_of_le (h _ (.inl ⟨p, ⟨id, found⟩, rfl⟩))
    · exact fun id a found => Nat.lt_succ_of_le (h _ (.inr (.inl ⟨a, ⟨id, found⟩, rfl⟩)))
    · exact fun id c found => Nat.lt_succ_of_le (h _ (.inr (.inr (.inl ⟨c, ⟨id, found⟩, rfl⟩))))
    · exact fun id c found =>
        Nat.lt_succ_of_le (h _ (.inr (.inr (.inr (.inl ⟨c, ⟨id, found⟩, rfl⟩)))))
    · exact fun id h' found =>
        Nat.lt_succ_of_le (h _ (.inr (.inr (.inr (.inr ⟨h', ⟨id, found⟩, rfl⟩)))))
  · rintro written head (⟨p, ⟨id, found⟩, rfl⟩ | ⟨a, ⟨id, found⟩, rfl⟩ | ⟨c, ⟨id, found⟩, rfl⟩ |
      ⟨c, ⟨id, found⟩, rfl⟩ | ⟨h, ⟨id, found⟩, rfl⟩)
    · exact Nat.le_of_lt_succ (written.proposals id p found)
    · exact Nat.le_of_lt_succ (written.assignments id a found)
    · exact Nat.le_of_lt_succ (written.commitments id c found)
    · exact Nat.le_of_lt_succ (written.checkpoints id c found)
    · exact Nat.le_of_lt_succ (written.handoffs id h found)

/-! ## What a step does to the stores -/

/-- What one step at project revision `r` may do to the entity stores. -/
structure HistoryStep (r : Nat) (s next : RoleContinuityState) : Prop where
  proposals : StoreStep (fun p : RoleAssignmentProposal => p.status ≠ .open)
    RoleAssignmentProposal.terms r s.proposals next.proposals
  assignments : StoreStep (fun a : RoleAssignment => a.endedAt ≠ none) RoleAssignment.identity r
    s.assignments next.assignments
  commitments : StoreStep (fun c : WorkCommitment => c.endedAt ≠ none) WorkCommitment.identity r
    s.commitments next.commitments
  checkpoints : StoreStep (fun _ : RoleCheckpoint => True) id r s.checkpoints next.checkpoints
  handoffs : StoreStep (fun _ : RoleHandoff => True) id r s.handoffs next.handoffs

theorem HistoryStep.refl (s : RoleContinuityState) : HistoryStep r s s :=
  ⟨.refl _, .refl _, .refl _, .refl _, .refl _⟩

theorem endTenures_assignments_step (written : Store.WrittenBefore r s.assignments)
    {ended : List Uuid} {reason : AssignmentEndReason} {replacedBy : Option Uuid}
    (active : ∀ id ∈ ended, ∃ a, s.assignments[id]? = some a ∧ a.isActive = true) :
    StoreStep (fun a : RoleAssignment => a.endedAt ≠ none) RoleAssignment.identity r s.assignments
      (s.endTenures ended actor reason replacedBy t r).assignments := by
  refine StoreStep.map fun id a found => ?_
  split_ifs with h
  · obtain ⟨b, found', live⟩ := active id h
    cases found.symm.trans found'
    have before := written id a found
    exact .inr ⟨not_not.2 (RoleAssignment.isActive_iff.1 live), rfl,
      Versioned.revision_touched_of_lt before, rfl⟩
  · exact .inl rfl

theorem endCommitmentsOf_step (written : Store.WrittenBefore r s.commitments) {ended : List Uuid} :
    StoreStep (fun c : WorkCommitment => c.endedAt ≠ none) WorkCommitment.identity r s.commitments
      (s.endCommitmentsOf ended actor t r) := by
  refine StoreStep.map fun id c found => ?_
  split_ifs with h
  · have before := written id c found
    exact .inr ⟨not_not.2 (WorkCommitment.isActive_iff.1 h.2), rfl,
      Versioned.revision_touched_of_lt before, rfl⟩
  · exact .inl rfl

theorem completed_handoffs_step {p : RoleAssignmentProposal} {g : PublicKey}
    (ready : s.CompletionReady p g r ids) :
    StoreStep (fun _ : RoleHandoff => True) id r s.handoffs
      (OrdMap.overlay RoleHandoff.handoffId s.handoffs
        (s.supersededHandoffs p ids.assignmentId t r (p.supersededPairs ids))) := by
  obtain ⟨nodup, free⟩ := ready.handoffs_fresh (t := t)
  apply (StoreStep.refl s.handoffs).overlay nodup
  intro h mem
  obtain ⟨x, _, a, _, rfl⟩ := mem_supersededHandoffs.1 mem
  exact ⟨(free _ mem).2, rfl, rfl⟩

/-- The tenures of a completed move: the superseded ones are ended, the new one is created. -/
theorem completed_assignments_step (written : s.WrittenBefore r) {p : RoleAssignmentProposal}
    {g : PublicKey} {proposalId : Uuid} (ready : s.CompletionReady p g r ids) :
    StoreStep (fun a : RoleAssignment => a.endedAt ≠ none) RoleAssignment.identity r s.assignments
      ((s.endTenures p.endedIds g .replaced (some ids.assignmentId) t r).assignments.insert
        ids.assignmentId (p.startedAssignment proposalId ids.assignmentId g t r)) := by
  have active : ∀ k ∈ p.endedIds, ∃ a, s.assignments[k]? = some a ∧ a.isActive = true := by
    intro k hk
    obtain ⟨a, _, ends, -⟩ := ready.ends k hk
    exact ⟨a, ends.found, ends.active⟩
  apply (endTenures_assignments_step written.assignments active).insert
  · rw [get_endTenures_assignments, ready.assignmentFree]
    rfl
  · rfl
  · rfl

/-- Every effect of a command is a step of the stores. -/
theorem Effect.history (effect : Effect s command actor t r ids d) (written : s.WrittenBefore r) :
    HistoryStep r s d.next := by
  have same := HistoryStep.refl (r := r) s
  cases effect with
  | proposed fresh isNew =>
    exact { same with proposals := same.proposals.insert fresh isNew.first isNew.now }
  | rewritten stored isOpen rewrite terms _ =>
    have step := same.proposals.rewrite written.proposals stored (not_not.2 isOpen) terms.terms
      rewrite.next rewrite.now
    exact { same with proposals := step }
  | @completed id p p' g m stored isOpen _ confirmation room ready _ =>
    have rewrite := confirmation.rewrite room
    have confirmed := same.proposals.rewrite written.proposals stored (not_not.2 isOpen)
      confirmation.terms.terms rewrite.next rewrite.now
    -- the Proposal is written a second time when it is consumed
    have stored' : (s.proposals.insert id p')[id]? = some p' := by
      rw [OrdMap.get_insert, if_pos rfl]
    have isOpen' : p'.status = .open := confirmation.status.trans isOpen
    exact {
      proposals := confirmed.rewrite written.proposals stored' (not_not.2 isOpen') rfl rfl rfl
      assignments := completed_assignments_step written ready
      commitments := endCommitmentsOf_step written.commitments
      checkpoints := same.checkpoints
      handoffs := completed_handoffs_step ready }
  | @ended id a _ _ _ ends =>
    have active : ∀ k ∈ [id], ∃ a, s.assignments[k]? = some a ∧ a.isActive = true :=
      List.forall_mem_singleton.2 ⟨a, ends.found, ends.active⟩
    exact { same with
      assignments := endTenures_assignments_step written.assignments active
      commitments := endCommitmentsOf_step written.commitments }
  | reported found active rewrite kept =>
    have step := same.assignments.rewrite written.assignments found
      (not_not.2 (RoleAssignment.isActive_iff.1 active)) kept.identity rewrite.next rewrite.now
    exact { same with assignments := step }
  | responsibility => exact { same with }
  | committed fresh isNew =>
    exact { same with commitments := same.commitments.insert fresh isNew.first isNew.now }
  | @released id c found active =>
    have ended := same.commitments.rewrite written.commitments found
      (not_not.2 (WorkCommitment.isActive_iff.1 active)) (b := c.ended actor .released t r) rfl rfl rfl
    exact { same with commitments := ended }
  | @recommitted id c c' found active _ fresh isNew =>
    have ended := same.commitments.rewrite written.commitments found
      (not_not.2 (WorkCommitment.isActive_iff.1 active)) (b := c.ended actor .replaced t r) rfl rfl rfl
    have free : (s.commitments.insert id (c.ended actor .replaced t r))[c'.commitmentId]? = none := by
      rw [OrdMap.get_insert_of_ne _, fresh]
      rintro rfl
      cases found.symm.trans fresh
    exact { same with commitments := ended.insert free isNew.first isNew.now }
  | checkpointed fresh isNew =>
    exact { same with checkpoints := same.checkpoints.insert fresh isNew.first isNew.now }
  | noted fresh isNew =>
    exact { same with handoffs := same.handoffs.insert fresh isNew.first isNew.now }

theorem givenUp_history {id handoffId : Uuid} {a : RoleAssignment} (ends : s.CanEnd r id a)
    (fresh : s.handoffs[handoffId]? = none) (written : s.WrittenBefore r) :
    HistoryStep r s (s.givenUp id actor handoffId a t r) := by
  have same := HistoryStep.refl (r := r) s
  have active : ∀ k ∈ [id], ∃ a, s.assignments[k]? = some a ∧ a.isActive = true :=
    List.forall_mem_singleton.2 ⟨a, ends.found, ends.active⟩
  exact { same with
    assignments := endTenures_assignments_step written.assignments active
    commitments := endCommitmentsOf_step written.commitments
    handoffs := same.handoffs.insert fresh rfl rfl }

/-- Every step advances the project revision by one and the stores by a step of histories; Roles
stay and no Work appears or disappears. -/
theorem Step.history (step : Step s next) (valid : s.Valid) (current : s.HeadsCurrent) :
    next.projectRevision = s.projectRevision + 1 ∧ HistoryStep (s.projectRevision + 1) s next ∧
      next.roles = s.roles ∧ ∀ id, next.works.contains id = s.works.contains id := by
  have written := headsCurrent_iff.1 current
  cases step with
  | command run =>
    obtain ⟨d, reduced⟩ := reduce_eq_ok.1 run
    have effect := reduced.effect valid
    rw [reduced.next_eq]
    exact ⟨rfl, { effect.history written with }, effect.roles, effect.works_contains⟩
  | unrecoverable run =>
    obtain ⟨a, m, given⟩ := (reduceUnrecoverableAssignment_eq_ok valid).1 run
    rw [given.next_eq]
    exact ⟨rfl, givenUp_history given.ends given.fresh written, rfl, fun _ => rfl⟩

theorem HistoryStep.writtenBefore (step : HistoryStep r s next) (written : s.WrittenBefore r) :
    next.WrittenBefore (r + 1) where
  proposals := step.proposals.writtenBefore written.proposals
  assignments := step.assignments.writtenBefore written.assignments
  commitments := step.commitments.writtenBefore written.commitments
  checkpoints := step.checkpoints.writtenBefore written.checkpoints
  handoffs := step.handoffs.writtenBefore written.handoffs

theorem Step.headsCurrent (step : Step s next) (valid : s.Valid) (current : s.HeadsCurrent) :
    next.HeadsCurrent := by
  obtain ⟨revision, history, -⟩ := step.history valid current
  rw [headsCurrent_iff, revision]
  exact history.writtenBefore (headsCurrent_iff.1 current)

/-! ## Whole runs -/

/-- The history of the earlier state is kept in the later one. -/
structure AppendOnly (s s' : RoleContinuityState) : Prop where
  proposals : ∀ (id : Uuid) p, s.proposals[id]? = some p →
    ∃ p', s'.proposals[id]? = some p' ∧ (p.status ≠ .open → p' = p)
  assignments : ∀ (id : Uuid) a, s.assignments[id]? = some a →
    ∃ a', s'.assignments[id]? = some a' ∧ (a.endedAt ≠ none → a' = a) ∧ a'.roleId = a.roleId ∧
      a'.memberPubkey = a.memberPubkey ∧ a'.proposalId = a.proposalId ∧
      a'.startedAt = a.startedAt ∧ a'.startedBy = a.startedBy
  commitments : ∀ (id : Uuid) c, s.commitments[id]? = some c →
    ∃ c', s'.commitments[id]? = some c' ∧ (c.endedAt ≠ none → c' = c) ∧ c'.workId = c.workId ∧
      c'.assignmentId = c.assignmentId ∧ c'.memberPubkey = c.memberPubkey ∧
      c'.startedAt = c.startedAt ∧ c'.startedBy = c.startedBy
  checkpoints : ∀ (id : Uuid) c, s.checkpoints[id]? = some c → s'.checkpoints[id]? = some c
  handoffs : ∀ (id : Uuid) h, s.handoffs[id]? = some h → s'.handoffs[id]? = some h
  roles : ∀ id : Uuid, s.roles.contains id = true → s'.roles.contains id = true
  works : ∀ id : Uuid, s.works.contains id = true → s'.works.contains id = true

/-- What remains of the steps of histories over a run. -/
structure HistoryGrows (s s' : RoleContinuityState) : Prop where
  proposals : Grows (fun p : RoleAssignmentProposal => p.status ≠ .open)
    RoleAssignmentProposal.terms s.proposals s'.proposals
  assignments : Grows (fun a : RoleAssignment => a.endedAt ≠ none) RoleAssignment.identity
    s.assignments s'.assignments
  commitments : Grows (fun c : WorkCommitment => c.endedAt ≠ none) WorkCommitment.identity
    s.commitments s'.commitments
  checkpoints : Grows (fun _ : RoleCheckpoint => True) id s.checkpoints s'.checkpoints
  handoffs : Grows (fun _ : RoleHandoff => True) id s.handoffs s'.handoffs
  roles : s'.roles = s.roles
  works : ∀ id : Uuid, s'.works.contains id = s.works.contains id

theorem HistoryGrows.refl (s : RoleContinuityState) : HistoryGrows s s :=
  ⟨.refl _, .refl _, .refl _, .refl _, .refl _, rfl, fun _ => rfl⟩

theorem HistoryGrows.trans {s₁ s₂ s₃ : RoleContinuityState} (first : HistoryGrows s₁ s₂)
    (second : HistoryGrows s₂ s₃) : HistoryGrows s₁ s₃ where
  proposals := first.proposals.trans second.proposals
  assignments := first.assignments.trans second.assignments
  commitments := first.commitments.trans second.commitments
  checkpoints := first.checkpoints.trans second.checkpoints
  handoffs := first.handoffs.trans second.handoffs
  roles := second.roles.trans first.roles
  works id := (second.works id).trans (first.works id)

theorem Step.historyGrows (step : Step s next) (valid : s.Valid) (current : s.HeadsCurrent) :
    HistoryGrows s next := by
  obtain ⟨-, history, roles, works⟩ := step.history valid current
  exact ⟨history.proposals.grows, history.assignments.grows, history.commitments.grows,
    history.checkpoints.grows, history.handoffs.grows, roles, works⟩

theorem Run.headsCurrent (run : Run s next) (valid : s.Valid) (current : s.HeadsCurrent) :
    next.HeadsCurrent := by
  induction run with
  | refl => exact current
  | tail before step ih => exact step.headsCurrent (Run.valid before valid) ih

theorem Run.historyGrows (run : Run s next) (valid : s.Valid) (current : s.HeadsCurrent) :
    HistoryGrows s next := by
  induction run with
  | refl => exact .refl s
  | tail before step ih =>
    exact ih.trans (step.historyGrows (Run.valid before valid) (Run.headsCurrent before valid current))

theorem HistoryGrows.appendOnly (grows : HistoryGrows s s') : AppendOnly s s' := by
  constructor
  · intro id p found
    obtain ⟨p', found', -, same⟩ := grows.proposals id p found
    exact ⟨p', found', same⟩
  · intro id a found
    obtain ⟨a', found', identity, same⟩ := grows.assignments id a found
    simp only [RoleAssignment.identity, Prod.mk.injEq] at identity
    exact ⟨a', found', same, identity⟩
  · intro id c found
    obtain ⟨c', found', identity, same⟩ := grows.commitments id c found
    simp only [WorkCommitment.identity, Prod.mk.injEq] at identity
    exact ⟨c', found', same, identity⟩
  · intro id c found
    obtain ⟨c', found', -, same⟩ := grows.checkpoints id c found
    rw [found', same trivial]
  · intro id h found
    obtain ⟨h', found', -, same⟩ := grows.handoffs id h found
    rw [found', same trivial]
  · intro id present
    rwa [grows.roles]
  · intro id present
    rwa [grows.works]

/-- History is append-only over whole runs: between any two states of a run that starts from an
accepted snapshot, nothing disappears and nothing that has ended changes. -/
theorem run_appendOnly {s₀ s₁ s₂ : RoleContinuityState} {revision : Nat} {roles works members
    proposals assignments commitments checkpoints handoffs objects}
    (accepted : fromCompleteSnapshot revision roles works members proposals assignments commitments
      checkpoints handoffs objects = .ok s₀) (current : s₀.HeadsCurrent)
    (before : Run s₀ s₁) (later : Run s₁ s₂) : AppendOnly s₁ s₂ := by
  have valid := fromCompleteSnapshot_valid accepted
  exact (later.historyGrows (before.valid valid) (before.headsCurrent valid current)).appendOnly

/-- Every state of a run from a valid one is restored from its rows. -/
theorem run_restorable {s₀ s : RoleContinuityState} (valid : s₀.Valid) (run : Run s₀ s) :
    s.Restorable := (run.valid valid).restorable

/-! ## Small Communities -/

/-- An active tenure as a snapshot at revision one carries it. -/
def sampleTenure (id role : Uuid) (member : PublicKey) : RoleAssignment :=
  { assignmentId := id
    roleId := role
    memberPubkey := member
    proposalId := 9
    startedAt := 0
    startedBy := 1
    replacementRequestedAt := none
    replacementRequestReason := none
    unableReportedAt := none
    unableReportReason := none
    endedAt := none
    endedBy := none
    endedReason := none
    replacedByAssignmentId := none
    entityRevision := 1
    projectRevision := 1 }

/-- An active Commitment as a snapshot at revision one carries it. -/
def sampleCommitment (id work assignment : Uuid) (member : PublicKey) : WorkCommitment :=
  { commitmentId := id
    workId := work
    assignmentId := assignment
    memberPubkey := member
    startedAt := 0
    startedBy := member
    endedAt := none
    endedBy := none
    endedReason := none
    entityRevision := 1
    projectRevision := 1 }

/-- The state at revision one with the listed records. -/
def community (roles : List RoleSlot) (works : List WorkResponsibility)
    (members : List MemberGovernance) (proposals : List RoleAssignmentProposal)
    (assignments : List RoleAssignment) (commitments : List WorkCommitment) :
    RoleContinuityState where
  projectRevision := 1
  referenceableObjects := .ofList ((OrdMap.overlay (·.roleId) ∅ roles).keys ++
    (OrdMap.overlay (·.workId) ∅ works).keys) compare
  roles := OrdMap.overlay (·.roleId) ∅ roles
  works := OrdMap.overlay (·.workId) ∅ works
  members := OrdMap.overlay (·.pubkey) ∅ members
  proposals := OrdMap.overlay (·.proposalId) ∅ proposals
  assignments := OrdMap.overlay (·.assignmentId) ∅ assignments
  commitments := OrdMap.overlay (·.commitmentId) ∅ commitments
  checkpoints := ∅
  handoffs := ∅

theorem community_valid {roles works members proposals assignments commitments}
    (validated : (community roles works members proposals assignments commitments).validate =
      .ok ()) : (community roles works members proposals assignments commitments).Valid := by
  have keyed : (community roles works members proposals assignments commitments).Keyed :=
    ⟨OrdMap.keyed_empty.overlay _, OrdMap.keyed_empty.overlay _, OrdMap.keyed_empty.overlay _,
      OrdMap.keyed_empty.overlay _, OrdMap.keyed_empty.overlay _, OrdMap.keyed_empty.overlay _,
      OrdMap.keyed_empty, OrdMap.keyed_empty⟩
  refine ⟨keyed, ?_, ?_, (validate_eq_ok_iff keyed).1 validated⟩
  all_goals
    intro id present
    simp only [community, Std.ExtTreeSet.mem_ofList, List.contains_iff_mem, List.mem_append,
      Std.ExtTreeMap.mem_keys]
  · exact .inl present
  · exact .inr present

/-- A Leader Role and an ordinary Role.  The owner, key 1, holds none, the human Leader has key 2,
key 3 is a member without a Role, and key 4 is a managed Agent of key 2 that holds the ordinary
Role and works on the one Work. -/
def sample : RoleContinuityState :=
  community [⟨10, .admin, true⟩, ⟨11, .member, true⟩] [⟨20, some .inProgress, some 11, 1, 1, 0, 1⟩]
    [⟨1, some .owner, true, none⟩, ⟨2, some .admin, true, none⟩, ⟨3, some .member, true, none⟩,
      ⟨4, some .member, true, some 2⟩]
    [] [sampleTenure 40 10 2, sampleTenure 41 11 4] [sampleCommitment 50 20 41 4]

theorem sample_valid : sample.Valid := community_valid (by decide +kernel)

theorem sample_headsCurrent : sample.HeadsCurrent := by
  unfold HeadsCurrent
  decide +kernel

theorem sample_givenUp :
    ∃ next outcome, sample.reduceUnrecoverableAssignment 5 41 0 60 = .ok (next, outcome) := by
  have accepted : Fallible.yields (sample.reduceUnrecoverableAssignment 5 41 0 60)
      (fun _ => true) = true := by decide +kernel
  obtain ⟨⟨next, outcome⟩, run, -⟩ := Fallible.yields_iff.1 accepted
  exact ⟨next, outcome, run⟩

theorem run_appendOnly_sample : ∃ next, Step sample next ∧ AppendOnly sample next := by
  obtain ⟨_, _, _, _, _, _, _, _, _, _, accepted⟩ := valid_iff_fromCompleteSnapshot.1 sample_valid
  obtain ⟨next, outcome, run⟩ := sample_givenUp
  have step : Step sample next := .unrecoverable run
  exact ⟨next, step, run_appendOnly accepted sample_headsCurrent .refl (.single step)⟩

theorem run_restorable_sample : ∃ next, Step sample next ∧ next.Restorable := by
  obtain ⟨next, outcome, run⟩ := sample_givenUp
  exact ⟨next, .unrecoverable run, run_restorable sample_valid (.single (.unrecoverable run))⟩

end RoleContinuityState

end RoleContinuity

end Carryforth
