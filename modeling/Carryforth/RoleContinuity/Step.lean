import Carryforth.RoleContinuity.Effect

/-!
# Role continuity: steps and runs

A step is one accepted command or one transition of the system; a run is a finite sequence of steps.
`reduce_eq_ok` and `reduceUnrecoverableAssignment_eq_ok` say when a step is accepted and what the
next state is.  Every step leads from a valid state to a valid state (`Step.valid`).
-/

namespace Carryforth

namespace RoleContinuity

open Fallible

namespace RoleContinuityState

variable {s s' next : RoleContinuityState} {command : RoleCommand} {actor : PublicKey}
  {t : DateTime} {r : Nat} {ids : GeneratedRoleContinuityIds} {d : Draft}
  {outcome : RoleContinuityOutcome}

/-! ## Accepted commands -/

/-- The outcome of a reduction, read off the states before and after. -/
def outcomeOf (s next : RoleContinuityState) (d : Draft) : RoleContinuityOutcome where
  projectRevision := s.projectRevision + 1
  changes := changedEntities s.entityMap next.entityMap
  workChanges := changedWorks s.works next.works
  membershipRoles := d.membershipRoles
  endedCommitments := d.affectedCommitments

/-- Everything that holds when a command is accepted. -/
structure Reduced (s : RoleContinuityState) (command : RoleCommand) (actor : PublicKey)
    (t : DateTime) (ids : GeneratedRoleContinuityIds) (next : RoleContinuityState)
    (outcome : RoleContinuityOutcome) (d : Draft) : Prop where
  submitted : command.validateForSubmission = .ok ()
  expected : command.expectedProjectRevision = s.projectRevision
  safe : s.projectRevision + 1 ≤ maxSafeRevision
  fence : s.validateActorFence command actor = .ok ()
  applied : s.applyRequest command actor t (s.projectRevision + 1) ids = .ok d
  next_eq : next = { d.next with projectRevision := s.projectRevision + 1 }
  validated : next.validate = .ok ()
  changed : ¬(changedEntities s.entityMap next.entityMap = [] ∧
    changedWorks s.works next.works = [])
  outcome_eq : outcome = outcomeOf s next d

theorem nextRevision_eq_ok {n : Nat} :
    nextRevision n = .ok r ↔ n + 1 ≤ maxSafeRevision ∧ r = n + 1 := by
  simp only [nextRevision, bind_eq_ok, ensure_eq_ok, pure_eq_ok]
  constructor
  · rintro ⟨_, safe, same⟩
    exact ⟨safe, same.symm⟩
  · rintro ⟨safe, same⟩
    exact ⟨(), safe, same.symm⟩

theorem reduce_eq_ok :
    s.reduce command actor t ids = .ok (next, outcome) ↔
      ∃ d, Reduced s command actor t ids next outcome d := by
  simp only [reduce, bind_eq_ok, ensure_eq_ok, nextRevision_eq_ok, pure_eq_ok, Prod.mk.injEq]
  constructor
  · rintro ⟨_, submitted, _, expected, _, ⟨safe, rfl⟩, _, fence, d, applied, _, validated, _, changed,
      rfl, rfl⟩
    exact ⟨d, submitted, expected, safe, fence, applied, rfl, validated, changed, rfl⟩
  · rintro ⟨d, submitted, expected, safe, fence, applied, rfl, validated, changed, rfl⟩
    exact ⟨(), submitted, (), expected, _, ⟨safe, rfl⟩, (), fence, d, applied, (), validated, (),
      changed, rfl, rfl⟩

theorem Reduced.effect (reduced : Reduced s command actor t ids next outcome d)
    (valid : s.Valid) : Effect s command actor t (s.projectRevision + 1) ids d :=
  applyRequest_effect valid.tenuresApart valid.keyed.commitments reduced.applied

/-! ## Transitions of the system -/

section Unrecoverable

variable {id handoffId : Uuid} {a : RoleAssignment}

/-- The state once the runtime behind an Assignment is given up. -/
def givenUp (s : RoleContinuityState) (id : Uuid) (actor : PublicKey) (handoffId : Uuid)
    (a : RoleAssignment) (t : DateTime) (r : Nat) : RoleContinuityState :=
  { s.endTenures [id] actor .unrecoverable none t r with
    handoffs := s.handoffs.insert handoffId (s.unrecoverableHandoff handoffId a.roleId id
      (s.latestCheckpointForAssignment id) (s.activeCommitmentIds id) t r)
    projectRevision := r }

/-- Everything that holds when the system ends a tenure. -/
structure GivenUp (s : RoleContinuityState) (t : DateTime) (id : Uuid) (actor : PublicKey)
    (handoffId : Uuid) (next : RoleContinuityState) (outcome : RoleContinuityOutcome)
    (a : RoleAssignment) (m : MemberGovernance) : Prop where
  nonNil : ¬id.isNil = true
  handoffNonNil : ¬handoffId.isNil = true
  fresh : s.handoffs[handoffId]? = none
  safe : s.projectRevision + 1 ≤ maxSafeRevision
  ends : s.CanEnd (s.projectRevision + 1) id a
  member : s.members[a.memberPubkey]? = some m
  eligible : m.eligible = true
  managed : m.isManagedAgent = true
  notOwner : ¬m.isOwner = true
  next_eq : next = s.givenUp id actor handoffId a t (s.projectRevision + 1)
  validated : next.validate = .ok ()
  changed : changedEntities s.entityMap next.entityMap ≠ []
  outcome_eq : outcome =
    { projectRevision := s.projectRevision + 1
      changes := changedEntities s.entityMap next.entityMap
      workChanges := []
      membershipRoles := Std.ExtTreeMap.insert ∅ a.memberPubkey m.baseRole
      endedCommitments := Std.ExtTreeMap.insert ∅ id (s.activeCommitmentIds id) }

/-- The steps of the transition lead to `givenUp`. -/
theorem givenUp_eq {m : MemberGovernance} (ends : s.CanEnd r id a)
    (member : s.members[a.memberPubkey]? = some m) {n n' : RoleContinuityState}
    {role : CommunityMemberRole} (sameRole : role = m.baseRole)
    (commitments : n.commitments = s.endCommitmentsOf [id] actor t r)
    (same : n' = { s with
      projectRevision := r
      assignments := s.assignments.insert id (a.ended actor .unrecoverable none t r)
      commitments := s.endCommitmentsOf [id] actor t r
      handoffs := s.handoffs.insert handoffId (n.unrecoverableHandoff handoffId a.roleId id
        (s.latestCheckpointForAssignment id) (s.activeCommitmentIds id) t r)
      members := s.members.insert a.memberPubkey (m.withRole role) }) :
    n' = s.givenUp id actor handoffId a t r := by
  have handoff : n.unrecoverableHandoff = s.unrecoverableHandoff := by
    unfold unrecoverableHandoff
    rw [systemHandoff_congr n s fun k => by rw [commitments, endCommitmentsOf_workId]]
  rw [same, handoff, sameRole]
  exact RoleContinuityState.ext rfl rfl rfl rfl (vacateHolders_singleton ends.found member) rfl
    (endTenures_singleton_assignments ends.found) rfl rfl rfl

theorem reduceUnrecoverableAssignment_eq_ok (valid : s.Valid) :
    s.reduceUnrecoverableAssignment t id actor handoffId = .ok (next, outcome) ↔
      ∃ a m, GivenUp s t id actor handoffId next outcome a m := by
  have keyed := valid.keyed.commitments
  have role : ∀ (a : RoleAssignment) (m : MemberGovernance) (n : RoleContinuityState),
      s.CanEnd (s.projectRevision + 1) id a →
      n.assignments = s.assignments.insert id
        (a.ended actor .unrecoverable none t (s.projectRevision + 1)) → n.roles = s.roles →
      n.memberRole m a.memberPubkey = m.baseRole := fun a m n ends assignments roles =>
    endTenures_singleton_memberRole valid.tenuresApart ends assignments roles m
  simp only [reduceUnrecoverableAssignment, requireId, bind_eq_ok, ensure_eq_ok,
    OrdMap.not_contains_iff, activeAssignment_eq_ok, okOr_eq_ok, Option.filter_eq_some_iff,
    Bool.and_eq_true, nextRevision_eq_ok, Prod.exists, endAssignment_eq_ok keyed,
    recordDesiredMemberRole_eq_ok, pure_eq_ok, Prod.mk.injEq]
  constructor
  · rintro ⟨_, nonNil, _, handoffNonNil, _, fresh, a, ⟨found, -⟩, m, ⟨member, eligible, managed⟩, _,
      notOwner, _, ⟨safe, rfl⟩, _, _, ⟨b, ends, rfl, rfl⟩, _, _, ⟨m', member', rfl, rfl⟩, _,
      validated, _, changed, same, rfl⟩
    cases found.symm.trans ends.found
    cases member.symm.trans member'
    rw [same] at validated changed
    refine ⟨a, m, nonNil, handoffNonNil, fresh, safe, ends, member, eligible, managed, notOwner, ?_,
      validated, changed, ?_⟩
    · refine givenUp_eq ends member ?_ ?_ same.symm
      · exact role a m _ ends rfl rfl
      · rfl
    · rw [same, role a m _ ends]
      all_goals rfl
  · rintro ⟨a, m, given⟩
    have finish : ∀ (n : RoleContinuityState) (roles : OrdMap PublicKey CommunityMemberRole),
        n = next → roles = Std.ExtTreeMap.insert ∅ a.memberPubkey m.baseRole →
        ∃ _ : Unit, n.validate = .ok () ∧ ∃ _ : Unit, ¬changedEntities s.entityMap n.entityMap = [] ∧
          n = next ∧ RoleContinuityOutcome.mk (s.projectRevision + 1)
            (changedEntities s.entityMap n.entityMap) [] roles
            (Std.ExtTreeMap.insert ∅ id (s.activeCommitmentIds id)) = outcome := by
      rintro _ _ rfl rfl
      exact ⟨(), given.validated, (), given.changed, rfl, given.outcome_eq.symm⟩
    refine ⟨(), given.nonNil, (), given.handoffNonNil, (), given.fresh, a,
      ⟨given.ends.found, given.ends.active⟩, m, ⟨given.member, given.eligible, given.managed⟩, (),
      given.notOwner, _, ⟨given.safe, rfl⟩, _, _, ⟨a, given.ends, rfl, rfl⟩, _, _,
      ⟨m, given.member, rfl, rfl⟩, finish _ _ ?_ ?_⟩
    · rw [given.next_eq]
      refine givenUp_eq given.ends given.member ?_ ?_ rfl
      · exact role a m _ given.ends rfl rfl
      · rfl
    · rw [role a m _ given.ends]
      all_goals rfl

end Unrecoverable

/-! ## Validity along runs -/

theorem Effect.keyed (effect : Effect s command actor t r ids d) (keyed : s.Keyed) :
    d.next.Keyed := by
  cases effect with
  | proposed => exact { keyed with proposals := keyed.proposals.insert rfl }
  | rewritten stored _ _ terms _ =>
    exact { keyed with
      proposals := keyed.proposals.insert (terms.proposalId.trans (keyed.proposals _ _ stored)) }
  | @completed id p p' g m stored _ _ confirmation _ _ member =>
    have terms := confirmation.terms
    have proposalId : p'.proposalId = id := terms.proposalId.trans (keyed.proposals _ _ stored)
    have pubkey : m.pubkey = p'.candidatePubkey :=
      (keyed.members _ _ member).trans terms.candidatePubkey.symm
    exact {
      roles := keyed.roles
      works := keyed.works
      members := (vacateHolders_keyed keyed.members).insert pubkey
      proposals := (keyed.proposals.insert proposalId).insert proposalId
      assignments := OrdMap.Keyed.insert (endTenures_assignments_keyed keyed.assignments) rfl
      commitments := endCommitmentsOf_keyed keyed.commitments
      checkpoints := keyed.checkpoints
      handoffs := keyed.handoffs.overlay _ }
  | ended => exact { keyed with
      members := vacateHolders_keyed keyed.members
      assignments := endTenures_assignments_keyed keyed.assignments
      commitments := endCommitmentsOf_keyed keyed.commitments }
  | reported found _ _ kept =>
    exact { keyed with
      assignments := keyed.assignments.insert
        (kept.assignmentId.trans (keyed.assignments _ _ found)) }
  | @responsibility id _ w _ found =>
    have key : w.workId = id := keyed.works _ _ found
    exact { keyed with works := keyed.works.insert key }
  | committed => exact { keyed with commitments := keyed.commitments.insert rfl }
  | @released id c found =>
    have key : c.commitmentId = id := keyed.commitments _ _ found
    exact { keyed with commitments := keyed.commitments.insert key }
  | @recommitted id c _ found =>
    have key : c.commitmentId = id := keyed.commitments _ _ found
    have ended : OrdMap.Keyed WorkCommitment.commitmentId
        (s.commitments.insert id (c.ended actor .replaced t r)) := keyed.commitments.insert key
    exact { keyed with commitments := ended.insert rfl }
  | checkpointed => exact { keyed with checkpoints := keyed.checkpoints.insert rfl }
  | noted => exact { keyed with handoffs := keyed.handoffs.insert rfl }

theorem Effect.roles (effect : Effect s command actor t r ids d) : d.next.roles = s.roles := by
  cases effect <;> rfl

theorem Effect.referenceableObjects (effect : Effect s command actor t r ids d) :
    d.next.referenceableObjects = s.referenceableObjects := by
  cases effect <;> rfl

theorem Effect.works_contains (effect : Effect s command actor t r ids d) (id : Uuid) :
    d.next.works.contains id = s.works.contains id := by
  cases effect with
  | @responsibility key _ _ _ found =>
    have present : s.works.contains key = true := OrdMap.contains_iff.2 ⟨_, found⟩
    change (s.works.insert key _).contains id = _
    rw [Std.ExtTreeMap.contains_insert]
    by_cases same : id = key
    · subst same
      simp [present]
    · simp [Ne.symm same]
  | _ => rfl

/-- An accepted command leads from a valid state to a valid state. -/
theorem reduce_valid (valid : s.Valid) (run : s.reduce command actor t ids = .ok (next, outcome)) :
    next.Valid := by
  obtain ⟨d, reduced⟩ := reduce_eq_ok.1 run
  have effect := reduced.effect valid
  have keyed : next.Keyed := by
    rw [reduced.next_eq]
    exact { effect.keyed valid.keyed with }
  refine ⟨keyed, ?_, ?_, (validate_eq_ok_iff keyed).1 reduced.validated⟩
  · rw [reduced.next_eq]
    change ∀ id : Uuid, d.next.roles.contains id = true → id ∈ d.next.referenceableObjects
    rw [effect.roles, effect.referenceableObjects]
    exact valid.rolesReferenceable
  · rw [reduced.next_eq]
    change ∀ id : Uuid, d.next.works.contains id = true → id ∈ d.next.referenceableObjects
    simp only [effect.works_contains, effect.referenceableObjects]
    exact valid.worksReferenceable

theorem givenUp_keyed {id handoffId : Uuid} {a : RoleAssignment} (keyed : s.Keyed) :
    (s.givenUp id actor handoffId a t r).Keyed :=
  { keyed with
    members := vacateHolders_keyed keyed.members
    assignments := endTenures_assignments_keyed keyed.assignments
    commitments := endCommitmentsOf_keyed keyed.commitments
    handoffs := keyed.handoffs.insert rfl }

theorem reduceUnrecoverableAssignment_valid (valid : s.Valid) {id handoffId : Uuid}
    (run : s.reduceUnrecoverableAssignment t id actor handoffId = .ok (next, outcome)) :
    next.Valid := by
  obtain ⟨a, m, given⟩ := (reduceUnrecoverableAssignment_eq_ok valid).1 run
  have keyed : next.Keyed := by
    rw [given.next_eq]
    exact givenUp_keyed valid.keyed
  refine ⟨keyed, ?_, ?_, (validate_eq_ok_iff keyed).1 given.validated⟩
  · rw [given.next_eq]
    exact valid.rolesReferenceable
  · rw [given.next_eq]
    exact valid.worksReferenceable

/-- One accepted command or one transition of the system. -/
inductive Step (s : RoleContinuityState) : RoleContinuityState → Prop
  | command {command : RoleCommand} {actor : PublicKey} {t : DateTime}
      {ids : GeneratedRoleContinuityIds} {next : RoleContinuityState}
      {outcome : RoleContinuityOutcome}
      (run : s.reduce command actor t ids = .ok (next, outcome)) : Step s next
  | unrecoverable {t : DateTime} {assignmentId : Uuid} {systemActor : PublicKey} {handoffId : Uuid}
      {next : RoleContinuityState} {outcome : RoleContinuityOutcome}
      (run : s.reduceUnrecoverableAssignment t assignmentId systemActor handoffId =
        .ok (next, outcome)) : Step s next

def Run : RoleContinuityState → RoleContinuityState → Prop := Relation.ReflTransGen Step

theorem Step.valid (step : Step s next) (valid : s.Valid) : next.Valid := by
  cases step with
  | command run => exact reduce_valid valid run
  | unrecoverable run => exact reduceUnrecoverableAssignment_valid valid run

theorem Run.valid (run : Run s next) (valid : s.Valid) : next.Valid := by
  induction run with
  | refl => exact valid
  | tail _ step ih => exact step.valid ih

end RoleContinuityState

end RoleContinuity

end Carryforth
