import Carryforth.RoleContinuity.History

/-!
# Role continuity: outcomes are exact deltas

The database persists the outcome of a reduction and nothing else.  `applyOutcome` is what it makes
of an outcome: the changed entity heads, Works and Community roles are written over the old ones.
Applied to the state before a step it gives the state after it, and no change is listed in vain
(`outcome_exactDelta`).
-/

namespace Carryforth

namespace RoleContinuity

open Store

namespace RoleContinuityState

variable {s s' next : RoleContinuityState} {command : RoleCommand} {actor : PublicKey}
  {t : DateTime} {r : Nat} {ids : GeneratedRoleContinuityIds} {d : Draft}
  {outcome : RoleContinuityOutcome}

/-! ## Applying an outcome -/

/-- Write one entity head over the state; Role heads are not part of it. -/
def applyChange (s : RoleContinuityState) : RoleContinuityChange → RoleContinuityState
  | .role _ => s
  | .proposal p => { s with proposals := s.proposals.insert p.proposalId p }
  | .assignment a => { s with assignments := s.assignments.insert a.assignmentId a }
  | .commitment c => { s with commitments := s.commitments.insert c.commitmentId c }
  | .checkpoint c => { s with checkpoints := s.checkpoints.insert c.checkpointId c }
  | .handoff h => { s with handoffs := s.handoffs.insert h.handoffId h }

def withMembershipRoles (s : RoleContinuityState)
    (membershipRoles : OrdMap PublicKey CommunityMemberRole) : OrdMap PublicKey MemberGovernance :=
  Std.ExtTreeMap.map (fun member m => (membershipRoles[member]?).elim m m.withRole) s.members

/-- The state that an outcome makes of the state it was computed for. -/
def applyOutcome (s : RoleContinuityState) (outcome : RoleContinuityOutcome) :
    RoleContinuityState :=
  { outcome.changes.foldl applyChange s with
    projectRevision := outcome.projectRevision
    works := OrdMap.overlay (·.workId) s.works outcome.workChanges
    members := s.withMembershipRoles outcome.membershipRoles }

def head (s : RoleContinuityState) (key : EntityKey) : Option RoleContinuityChange :=
  match key.entity with
  | .role => none
  | .roleAssignmentProposal => s.proposals[key.id]?.map .proposal
  | .roleAssignment => s.assignments[key.id]?.map .assignment
  | .workCommitment => s.commitments[key.id]?.map .commitment
  | .roleCheckpoint => s.checkpoints[key.id]?.map .checkpoint
  | .roleHandoff => s.handoffs[key.id]?.map .handoff

/-- What an outcome must say about the step from `s` to `next`. -/
structure ExactDelta (s next : RoleContinuityState) (outcome : RoleContinuityOutcome) : Prop where
  applied : s.applyOutcome outcome = next
  revision : next.projectRevision = s.projectRevision + 1
  changed : ∀ head ∈ outcome.changes, next.head head.key = some head ∧
    head.projectRevision = next.projectRevision ∧
    (s.head head.key = none ∧ head.entityRevision = 1 ∨
      ∃ old, s.head head.key = some old ∧ head.entityRevision = old.entityRevision + 1)
  unchanged : ∀ key, (∀ head ∈ outcome.changes, head.key ≠ key) → next.head key = s.head key
  worksUnchanged : ∀ id : Uuid, (∀ w ∈ outcome.workChanges, w.workId ≠ id) →
    next.works[id]? = s.works[id]?

/-! ## Entity heads -/

theorem key_of_head (keyed : s.Keyed) {k : EntityKey} {h : RoleContinuityChange}
    (found : s.head k = some h) : h.key = k := by
  obtain ⟨entity, id⟩ := k
  unfold head at found
  cases entity <;> simp only [Option.map_eq_some_iff, reduceCtorEq] at found
  all_goals
    obtain ⟨a, found, rfl⟩ := found
    apply congrArg (EntityKey.mk _)
  · exact keyed.proposals id a found
  · exact keyed.assignments id a found
  · exact keyed.commitments id a found
  · exact keyed.checkpoints id a found
  · exact keyed.handoffs id a found

theorem mem_entityHeads_iff_head (keyed : s.Keyed) {h : RoleContinuityChange} :
    h ∈ s.entityHeads ↔ s.head h.key = some h := by
  rw [mem_entityHeads]
  cases h <;>
    simp [head, RoleContinuityChange.key, RoleContinuityChange.entityType,
      RoleContinuityChange.entityId, ← OrdMap.mem_valueList, keyed.proposals.mem_valueList,
      keyed.assignments.mem_valueList, keyed.commitments.mem_valueList,
      keyed.checkpoints.mem_valueList, keyed.handoffs.mem_valueList]

/-- The entity map holds exactly the heads of the state. -/
theorem get_entityMap (keyed : s.Keyed) (k : EntityKey) : s.entityMap[k]? = s.head k := by
  cases found : s.head k with
  | none =>
    apply (OrdMap.get_overlay_of_notMem _).trans Std.ExtTreeMap.getElem?_empty
    rintro h mem rfl
    rw [mem_entityHeads_iff_head keyed, found] at mem
    cases mem
  | some h =>
    have key := key_of_head keyed found
    subst key
    apply OrdMap.get_overlay_of_mem ((mem_entityHeads_iff_head keyed).2 found)
    intro w mem same
    rw [mem_entityHeads_iff_head keyed, same, found] at mem
    exact (Option.some.inj mem).symm

theorem entityMap_keyed (keyed : s.Keyed) : s.entityMap.Keyed RoleContinuityChange.key :=
  fun k _ found => key_of_head keyed ((get_entityMap keyed k).symm.trans found)

/-- Two states with the same heads have the same entity stores. -/
theorem stores_eq_of_head (same : ∀ k, s.head k = s'.head k) :
    s.proposals = s'.proposals ∧ s.assignments = s'.assignments ∧ s.commitments = s'.commitments ∧
      s.checkpoints = s'.checkpoints ∧ s.handoffs = s'.handoffs := by
  have inj : ∀ {α : Type} {wrap : α → RoleContinuityChange} {m m' : OrdMap Uuid α},
      Function.Injective wrap →
      (∀ id : Uuid, m[id]?.map wrap = m'[id]?.map wrap) → m = m' := fun wrap same =>
    Std.ExtTreeMap.ext_getElem? fun id => Option.map_injective wrap (same id)
  refine ⟨?_, ?_, ?_, ?_, ?_⟩
  · exact inj (fun _ _ h => RoleContinuityChange.proposal.inj h)
      fun id => same ⟨.roleAssignmentProposal, id⟩
  · exact inj (fun _ _ h => RoleContinuityChange.assignment.inj h)
      fun id => same ⟨.roleAssignment, id⟩
  · exact inj (fun _ _ h => RoleContinuityChange.commitment.inj h)
      fun id => same ⟨.workCommitment, id⟩
  · exact inj (fun _ _ h => RoleContinuityChange.checkpoint.inj h)
      fun id => same ⟨.roleCheckpoint, id⟩
  · exact inj (fun _ _ h => RoleContinuityChange.handoff.inj h) fun id => same ⟨.roleHandoff, id⟩

theorem head_applyChange {h : RoleContinuityChange} (stored : h.entityType ≠ .role)
    (k : EntityKey) : (s.applyChange h).head k = if k = h.key then some h else s.head k := by
  obtain ⟨entity, id⟩ := k
  cases h <;> cases entity <;>
    simp [applyChange, head, RoleContinuityChange.key, RoleContinuityChange.entityType,
      RoleContinuityChange.entityId, OrdMap.get_insert] at stored ⊢ <;>
    split_ifs <;> rfl

theorem head_foldl_applyChange {heads : OrdMap EntityKey RoleContinuityChange}
    {changes : List RoleContinuityChange} (same : ∀ k, s.head k = heads[k]?)
    (stored : ∀ h ∈ changes, h.entityType ≠ .role) (k : EntityKey) :
    (changes.foldl applyChange s).head k =
      (OrdMap.overlay RoleContinuityChange.key heads changes)[k]? := by
  induction changes generalizing s heads with
  | nil => exact same k
  | cons h changes ih =>
    refine ih (fun j => ?_) fun h' mem => stored h' (List.mem_cons_of_mem _ mem)
    rw [head_applyChange (stored h List.mem_cons_self), OrdMap.get_insert, same j]

/-- Writing heads touches nothing but the entity stores. -/
theorem foldl_applyChange_frame (changes : List RoleContinuityChange) :
    (changes.foldl applyChange s).roles = s.roles ∧
      (changes.foldl applyChange s).referenceableObjects = s.referenceableObjects := by
  induction changes generalizing s with
  | nil => exact ⟨rfl, rfl⟩
  | cons h changes ih =>
    rw [List.foldl_cons, ih.1, ih.2]
    cases h <;> exact ⟨rfl, rfl⟩

/-! ## The heads of a step -/

theorem entryStep_head {α ι : Type} [Versioned α] {closed : α → Prop} {ident : α → ι}
    {o o' : Option α} (step : EntryStep closed ident r o o') {wrap : α → RoleContinuityChange}
    (revision : ∀ a, (wrap a).entityRevision = Versioned.revision a)
    (writtenAt : ∀ a, (wrap a).projectRevision = Versioned.writtenAt a) {h : RoleContinuityChange}
    (found : o'.map wrap = some h) (changed : o.map wrap ≠ some h) :
    h.projectRevision = r ∧ (o.map wrap = none ∧ h.entityRevision = 1 ∨
      ∃ old, o.map wrap = some old ∧ h.entityRevision = old.entityRevision + 1) := by
  cases step with
  | same => exact absurd found changed
  | created first now =>
    cases found
    exact ⟨by rw [writtenAt, now], .inl ⟨rfl, by rw [revision, first]⟩⟩
  | revised _ _ next now =>
    cases found
    exact ⟨by rw [writtenAt, now], .inr ⟨_, rfl, by rw [revision, revision, next]⟩⟩

/-- A head that a step changed is new at revision one or one revision ahead. -/
theorem HistoryStep.head (step : HistoryStep r s next) {k : EntityKey} {h : RoleContinuityChange}
    (found : next.head k = some h) (changed : s.head k ≠ some h) :
    h.projectRevision = r ∧ (s.head k = none ∧ h.entityRevision = 1 ∨
      ∃ old, s.head k = some old ∧ h.entityRevision = old.entityRevision + 1) := by
  obtain ⟨entity, id⟩ := k
  cases entity with
  | role => cases found
  | roleAssignmentProposal =>
    exact entryStep_head (step.proposals id) (fun _ => rfl) (fun _ => rfl) found changed
  | roleAssignment =>
    exact entryStep_head (step.assignments id) (fun _ => rfl) (fun _ => rfl) found changed
  | workCommitment =>
    exact entryStep_head (step.commitments id) (fun _ => rfl) (fun _ => rfl) found changed
  | roleCheckpoint =>
    exact entryStep_head (step.checkpoints id) (fun _ => rfl) (fun _ => rfl) found changed
  | roleHandoff =>
    exact entryStep_head (step.handoffs id) (fun _ => rfl) (fun _ => rfl) found changed

theorem HistoryStep.head_none (step : HistoryStep r s next) {k : EntityKey}
    (missing : next.head k = none) : s.head k = none := by
  obtain ⟨entity, id⟩ := k
  have kept : ∀ {α ι : Type} [Versioned α] {closed : α → Prop} {ident : α → ι} {o o' : Option α},
      EntryStep closed ident r o o' → o' = none → o = none := by
    intro α ι _ closed ident o o' step h
    subst h
    cases step
    rfl
  cases entity <;> simp only [RoleContinuityState.head, Option.map_eq_none_iff] at missing ⊢
  · exact kept (step.proposals id) missing
  · exact kept (step.assignments id) missing
  · exact kept (step.commitments id) missing
  · exact kept (step.checkpoints id) missing
  · exact kept (step.handoffs id) missing

/-! ## Outcomes -/

/-- The changes computed by comparison are exact for any step of the stores. -/
theorem exactDelta_of_history (keyed : s.Keyed) (keyed' : next.Keyed)
    (revision : next.projectRevision = s.projectRevision + 1)
    (history : HistoryStep (s.projectRevision + 1) s next) (roles : next.roles = s.roles)
    (objects : next.referenceableObjects = s.referenceableObjects)
    (works : ∀ id, next.works.contains id = s.works.contains id)
    (members : next.members = s.withMembershipRoles outcome.membershipRoles)
    (outcomeRevision : outcome.projectRevision = s.projectRevision + 1)
    (changes : outcome.changes = changedEntities s.entityMap next.entityMap)
    (workChanges : outcome.workChanges = changedWorks s.works next.works) :
    ExactDelta s next outcome := by
  have mem : ∀ h, h ∈ outcome.changes ↔ next.head h.key = some h ∧ s.head h.key ≠ some h := by
    intro h
    rw [changes, changedEntities, OrdMap.mem_changed]
    constructor
    · rintro ⟨k, found, different⟩
      rw [get_entityMap keyed'] at found
      rw [get_entityMap keyed, ← key_of_head keyed' found] at different
      exact ⟨key_of_head keyed' found ▸ found, different⟩
    · rintro ⟨found, different⟩
      exact ⟨h.key, (get_entityMap keyed' _).trans found, get_entityMap keyed _ ▸ different⟩
  have workNone : ∀ id : Uuid, next.works[id]? = none → s.works[id]? = none := by
    intro id missing
    rw [← OrdMap.not_contains_iff] at missing ⊢
    rwa [← works id]
  refine ⟨?_, revision, ?_, ?_, ?_⟩
  · have heads : ∀ k, (outcome.changes.foldl applyChange s).head k = next.head k := by
      intro k
      rw [head_foldl_applyChange (fun k => (get_entityMap keyed k).symm), changes, changedEntities,
        OrdMap.overlay_changed (entityMap_keyed keyed'), get_entityMap keyed']
      · intro k missing
        rw [get_entityMap keyed'] at missing
        rw [get_entityMap keyed, history.head_none missing]
      · rintro (_ | _ | _ | _ | _ | _) h <;> simp only [RoleContinuityChange.entityType, ne_eq,
          reduceCtorEq, not_false_eq_true]
        cases ((mem _).1 h).1
    obtain ⟨proposals, assignments, commitments, checkpoints, handoffs⟩ := stores_eq_of_head heads
    obtain ⟨sameRoles, sameObjects⟩ := foldl_applyChange_frame (s := s) outcome.changes
    apply RoleContinuityState.ext
    · exact outcomeRevision.trans revision.symm
    · exact sameObjects.trans objects.symm
    · exact sameRoles.trans roles.symm
    · change OrdMap.overlay _ s.works outcome.workChanges = next.works
      rw [workChanges]
      exact OrdMap.overlay_changed keyed'.works workNone
    · exact members.symm
    · exact proposals
    · exact assignments
    · exact commitments
    · exact checkpoints
    · exact handoffs
  · intro h hmem
    obtain ⟨found, different⟩ := (mem h).1 hmem
    rw [revision]
    exact ⟨found, history.head found different⟩
  · intro k other
    cases found : next.head k with
    | none => exact (history.head_none found).symm
    | some h =>
      by_contra different
      have key := key_of_head keyed' found
      subst key
      exact other h ((mem h).2 ⟨found, Ne.symm different⟩) rfl
  · intro id other
    cases found : next.works[id]? with
    | none => exact (workNone id found).symm
    | some w =>
      by_contra different
      apply other w _ (keyed'.works id w found)
      rw [workChanges]
      exact OrdMap.mem_changed.2 ⟨id, found, Ne.symm different⟩

theorem get_withMembershipRoles {roles : OrdMap PublicKey CommunityMemberRole}
    (member : PublicKey) : (s.withMembershipRoles roles)[member]? =
      s.members[member]?.map fun m => (roles[member]?).elim m m.withRole :=
  Std.ExtTreeMap.getElem?_map

theorem withMembershipRoles_empty : s.withMembershipRoles ∅ = s.members := by
  apply Std.ExtTreeMap.ext_getElem?
  intro member
  rw [get_withMembershipRoles, Std.ExtTreeMap.getElem?_empty]
  simp

theorem vacateHolders_eq_withMembershipRoles {id : Uuid} {a : RoleAssignment} {m : MemberGovernance}
    (found : s.assignments[id]? = some a) (member : s.members[a.memberPubkey]? = some m) :
    s.vacateHolders [id] =
      s.withMembershipRoles (Std.ExtTreeMap.insert ∅ a.memberPubkey m.baseRole) := by
  apply Std.ExtTreeMap.ext_getElem?
  intro k
  rw [← vacateHolders_singleton found member, OrdMap.get_insert, get_withMembershipRoles,
    OrdMap.get_insert]
  by_cases same : k = a.memberPubkey
  · subst same
    simp [member]
  · simp [same]

/-- The members change exactly by the recorded Community roles. -/
theorem Effect.members (effect : Effect s command actor t r ids d) :
    d.next.members = s.withMembershipRoles d.membershipRoles := by
  cases effect with
  | @completed id p p' g m stored _ _ confirmation _ ready member =>
    rw [← confirmation.terms.candidatePubkey] at member
    apply Std.ExtTreeMap.ext_getElem?
    intro k
    change ((s.vacateHolders p'.endedIds).insert p'.candidatePubkey
      (m.withRole (s.startedRole p' m)))[k]? = (s.withMembershipRoles
        ((s.baseRoles (s.holders ((p'.supersededPairs ids).map Prod.fst))).insert p'.candidatePubkey
          (s.startedRole p' m)))[k]?
    rw [supersededPairs_fst ready.enough, OrdMap.get_insert, get_withMembershipRoles,
      OrdMap.get_insert, get_vacateHolders, get_baseRoles]
    by_cases same : k = p'.candidatePubkey
    · subst same
      simp [member]
    · cases found : s.members[k]? with
      | none => simp [same]
      | some m' => by_cases held : k ∈ s.holders p'.endedIds <;> simp [same, held]
  | ended _ _ ends member => exact vacateHolders_eq_withMembershipRoles ends.found member
  | _ => exact withMembershipRoles_empty.symm

theorem reduce_delta (valid : s.Valid) (current : s.HeadsCurrent)
    (run : s.reduce command actor t ids = .ok (next, outcome)) : ExactDelta s next outcome := by
  have keyed' := (reduce_valid valid run).keyed
  obtain ⟨revision, history, roles, works⟩ := (Step.command run).history valid current
  obtain ⟨d, reduced⟩ := reduce_eq_ok.1 run
  have effect := reduced.effect valid
  have outcome_eq := reduced.outcome_eq
  subst outcome_eq
  apply exactDelta_of_history valid.keyed keyed' revision history roles _ works _ rfl rfl rfl
  · rw [reduced.next_eq]
    exact effect.referenceableObjects
  · rw [reduced.next_eq]
    exact effect.members

theorem reduceUnrecoverableAssignment_delta (valid : s.Valid) (current : s.HeadsCurrent)
    {id handoffId : Uuid}
    (run : s.reduceUnrecoverableAssignment t id actor handoffId = .ok (next, outcome)) :
    ExactDelta s next outcome := by
  have keyed' := (reduceUnrecoverableAssignment_valid valid run).keyed
  obtain ⟨revision, history, roles, works⟩ := (Step.unrecoverable run).history valid current
  obtain ⟨a, m, given⟩ := (reduceUnrecoverableAssignment_eq_ok valid).1 run
  have outcome_eq := given.outcome_eq
  subst outcome_eq
  apply exactDelta_of_history valid.keyed keyed' revision history roles _ works _ rfl rfl
  · rw [given.next_eq]
    exact (OrdMap.changed_self _).symm
  · rw [given.next_eq]
    rfl
  · rw [given.next_eq]
    exact vacateHolders_eq_withMembershipRoles given.ends.found given.member

/-- The outcome of every accepted step is a complete and exact delta. -/
theorem outcome_exactDelta (valid : s.Valid) (current : s.HeadsCurrent) :
    (∀ command actor t ids next outcome,
      s.reduce command actor t ids = .ok (next, outcome) → ExactDelta s next outcome) ∧
    ∀ t assignmentId systemActor handoffId next outcome,
      s.reduceUnrecoverableAssignment t assignmentId systemActor handoffId = .ok (next, outcome) →
        ExactDelta s next outcome :=
  ⟨fun _ _ _ _ _ _ run => reduce_delta valid current run,
    fun _ _ _ _ _ _ run => reduceUnrecoverableAssignment_delta valid current run⟩

theorem sample_revoked : ∃ next outcome, sample.reduce (.new 1 none (.endAssignment 41 none)) 1 5
    ⟨0, []⟩ = .ok (next, outcome) := by
  have accepted : Fallible.yields (sample.reduce (.new 1 none (.endAssignment 41 none)) 1 5 ⟨0, []⟩)
      (fun _ => true) = true := by decide +kernel
  obtain ⟨⟨next, outcome⟩, run, -⟩ := Fallible.yields_iff.1 accepted
  exact ⟨next, outcome, run⟩

theorem outcome_exactDelta_sample :
    (∃ next outcome, sample.reduce (.new 1 none (.endAssignment 41 none)) 1 5 ⟨0, []⟩ =
      .ok (next, outcome) ∧ ExactDelta sample next outcome) ∧
    ∃ next outcome, sample.reduceUnrecoverableAssignment 5 41 0 60 = .ok (next, outcome) ∧
      ExactDelta sample next outcome := by
  obtain ⟨reduced, unrecoverable⟩ := outcome_exactDelta sample_valid sample_headsCurrent
  obtain ⟨next, outcome, run⟩ := sample_revoked
  obtain ⟨next', outcome', run'⟩ := sample_givenUp
  exact ⟨⟨next, outcome, run, reduced _ _ _ _ _ _ run⟩,
    ⟨next', outcome', run', unrecoverable _ _ _ _ _ _ run'⟩⟩

end RoleContinuityState

end RoleContinuity

end Carryforth
