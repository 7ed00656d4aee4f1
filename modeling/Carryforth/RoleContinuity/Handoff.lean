import Carryforth.RoleContinuity.Governance

/-!
# Role continuity: nothing is lost with a tenure

When a tenure is replaced, or its runtime is given up, the step itself writes one Handoff for it.
`Covers` says what that Handoff must hold: the Commitments that were active, the latest Checkpoint
and the successor in the same Role.  No other step ends Commitments together with a tenure, and
Work changes only by its own command (`step_nothingLost`).
-/

namespace Carryforth

namespace RoleContinuity

open Fallible

namespace RoleContinuityState

variable {s s' next : RoleContinuityState} {command : RoleCommand} {actor g : PublicKey}
  {t : DateTime} {r : Nat} {ids : GeneratedRoleContinuityIds} {d : Draft}
  {outcome : RoleContinuityOutcome}

/-! ## The latest Checkpoint -/

/-- The Checkpoint of the Assignment with the greatest project revision and, among equal ones, the
greatest identifier; none when the Assignment has no Checkpoint. -/
def LatestCheckpoint (s : RoleContinuityState) (id : Uuid) : Option Uuid → Prop
  | none => ∀ (k : Uuid) c, s.checkpoints[k]? = some c → c.assignmentId ≠ id
  | some k => ∃ c, s.checkpoints[k]? = some c ∧ c.assignmentId = id ∧
      ∀ (j : Uuid) c', s.checkpoints[j]? = some c' → c'.assignmentId = id →
        c'.projectRevision < c.projectRevision ∨ c'.projectRevision = c.projectRevision ∧ j ≤ k

theorem checkpointOrder_isLE {c c' : RoleCheckpoint} (le : (checkpointOrder c' c).isLE = true) :
    c'.projectRevision < c.projectRevision ∨
      c'.projectRevision = c.projectRevision ∧ c'.checkpointId ≤ c.checkpointId := by
  simp only [checkpointOrder, compareLex, compareOn] at le
  rcases lt_trichotomy c'.projectRevision c.projectRevision with below | same | above
  · exact .inl below
  · rw [same, Std.ReflOrd.compare_self, Ordering.eq_then] at le
    exact .inr ⟨same, Uuid.le_of_compare le⟩
  · rw [Nat.compare_eq_gt.2 above] at le
    cases le

instance : Std.TransCmp checkpointOrder :=
  inferInstanceAs (Std.TransCmp (compareLex (compareOn _) (compareOn _)))

theorem latestCheckpointForAssignment_spec (keyed : s.checkpoints.Keyed (·.checkpointId))
    (id : Uuid) : s.LatestCheckpoint id (s.latestCheckpointForAssignment id) := by
  have mem : ∀ c, c ∈ s.checkpoints.valueList.filter (fun c => c.assignmentId == id) ↔
      s.checkpoints[c.checkpointId]? = some c ∧ c.assignmentId = id := by
    intro c
    rw [List.mem_filter, keyed.mem_valueList, beq_iff_eq]
  have key : ∀ (k : Uuid) c, s.checkpoints[k]? = some c → c.checkpointId = k := keyed
  unfold latestCheckpointForAssignment
  cases latest : (s.checkpoints.valueList.filter fun c => c.assignmentId == id).maxBy
      checkpointOrder with
  | none =>
    intro k c found held
    rw [List.maxBy_eq_none_iff] at latest
    have absent : c ∉ s.checkpoints.valueList.filter fun c => c.assignmentId == id := by
      rw [latest]
      exact List.not_mem_nil
    rw [mem, key k c found] at absent
    exact absent ⟨found, held⟩
  | some c =>
    obtain ⟨inList, greatest⟩ := List.maxBy_spec latest
    obtain ⟨found, held⟩ := (mem c).1 inList
    refine ⟨c, found, held, fun j c' found' held' => ?_⟩
    have le := greatest c' ((mem c').2 ⟨by rwa [key j c' found'], held'⟩)
    rw [← key j c' found']
    exact checkpointOrder_isLE le

/-! ## The Handoff of a tenure that was cut over -/

/-- The step from `s` to `next` generated this Handoff for the tenure. -/
structure GeneratedFor (s next : RoleContinuityState) (id : Uuid) (handoffId : Uuid)
    (h : RoleHandoff) : Prop where
  new : s.handoffs[handoffId]? = none
  written : next.handoffs[handoffId]? = some h
  system : h.systemGenerated = true
  source : h.fromAssignmentId = id

/-- What a Handoff for the tenure `a` must hold. -/
structure Covers (s next : RoleContinuityState) (id : Uuid) (a : RoleAssignment) (h : RoleHandoff) :
    Prop where
  commitments : ∀ k, k ∈ h.affectedCommitmentIds ↔
    ∃ c, s.commitments[k]? = some c ∧ c.assignmentId = id ∧ c.isActive = true
  checkpoint : s.LatestCheckpoint id h.checkpointId
  successor : ∀ k, h.toAssignmentId = some k ↔
    s.assignments[k]? = none ∧ ∃ b, next.assignments[k]? = some b ∧ b.roleId = a.roleId

/-- The one Handoff of a tenure that the step cut over. -/
def HasHandoff (s next : RoleContinuityState) (id : Uuid) (a : RoleAssignment) : Prop :=
  ∃ handoffId h, GeneratedFor s next id handoffId h ∧ Covers s next id a h ∧
    ∀ handoffId' h', GeneratedFor s next id handoffId' h' → handoffId' = handoffId

/-- Nothing is lost in the step from `s` to `next`. -/
structure NothingLost (s next : RoleContinuityState) : Prop where
  handoff : ∀ (id : Uuid) a a', s.assignments[id]? = some a → a.isActive = true →
    next.assignments[id]? = some a' → a'.isActive = false →
    a'.endedReason = some .replaced ∨ a'.endedReason = some .unrecoverable → HasHandoff s next id a
  commitment : ∀ (k : Uuid) c c', s.commitments[k]? = some c → c.isActive = true →
    next.commitments[k]? = some c' →
    (c'.isActive = false ∧ c'.endedReason = some .assignmentEnded ↔
      ∃ a a', s.assignments[c.assignmentId]? = some a ∧ a.isActive = true ∧
        next.assignments[c.assignmentId]? = some a' ∧ a'.isActive = false)
  consumed : ∀ (k : Uuid) p p', s.proposals[k]? = some p → p.status ≠ .consumed →
    next.proposals[k]? = some p' → p'.status = .consumed →
    ∀ (id : Uuid) a, s.assignments[id]? = some a → a.isActive = true →
      ((∃ a', next.assignments[id]? = some a' ∧ a'.isActive = false) ↔
        a.roleId = p.roleId ∨ a.memberPubkey = p.candidatePubkey)

/-- A generated Handoff lists what the state says about its tenure. -/
theorem systemHandoff_covers (valid : s.Valid) {id : Uuid} {a : RoleAssignment} {h : RoleHandoff}
    (commitments : h.affectedCommitmentIds = s.activeCommitmentIds id)
    (checkpoint : h.checkpointId = s.latestCheckpointForAssignment id)
    (successor : ∀ k, h.toAssignmentId = some k ↔
      s.assignments[k]? = none ∧ ∃ b, next.assignments[k]? = some b ∧ b.roleId = a.roleId) :
    Covers s next id a h where
  commitments k := by
    rw [commitments]
    exact mem_activeCommitmentIds valid.keyed.commitments
  checkpoint := by
    rw [checkpoint]
    exact latestCheckpointForAssignment_spec valid.keyed.checkpoints id
  successor := successor

section Completed

variable {p : RoleAssignmentProposal} {proposalId : Uuid}

/-- The new tenure is the only new one. -/
theorem completed_successor (ready : s.CompletionReady p g r ids)
    (assignments : next.assignments = (s.endTenures p.endedIds g .replaced (some ids.assignmentId) t
      r).assignments.insert ids.assignmentId (p.startedAssignment proposalId ids.assignmentId g t r))
    (a : RoleAssignment) (k : Uuid) :
    (if a.roleId = p.roleId then some ids.assignmentId else none) = some k ↔
      s.assignments[k]? = none ∧ ∃ b, next.assignments[k]? = some b ∧ b.roleId = a.roleId := by
  have new : ∀ b, next.assignments[ids.assignmentId]? = some b ↔
      b = p.startedAssignment proposalId ids.assignmentId g t r := by
    intro b
    rw [assignments, OrdMap.get_insert, if_pos rfl, Option.some.injEq, eq_comm]
  constructor
  · intro h
    split_ifs at h with same
    cases h
    exact ⟨ready.assignmentFree, _, (new _).2 rfl, same.symm⟩
  · rintro ⟨absent, b, found, role⟩
    have isNew : k = ids.assignmentId := by
      by_contra old
      rw [assignments, OrdMap.get_insert_of_ne old, get_endTenures_assignments, absent] at found
      cases found
    subst isNew
    rw [(new b).1 found] at role
    exact if_pos role.symm

theorem completed_hasHandoff (valid : s.Valid) (ready : s.CompletionReady p g r ids)
    (assignments : next.assignments = (s.endTenures p.endedIds g .replaced (some ids.assignmentId) t
      r).assignments.insert ids.assignmentId (p.startedAssignment proposalId ids.assignmentId g t r))
    (handoffs : next.handoffs = OrdMap.overlay RoleHandoff.handoffId s.handoffs
      (s.supersededHandoffs p ids.assignmentId t r (p.supersededPairs ids))) {id : Uuid}
    {a : RoleAssignment} (found : s.assignments[id]? = some a) (ended : id ∈ p.endedIds) :
    HasHandoff s next id a := by
  obtain ⟨nodup, fresh⟩ := ready.handoffs_fresh (t := t)
  have key : ∀ (k : Uuid) b, s.assignments[k]? = some b → b.assignmentId = k :=
    valid.keyed.assignments
  have unique := List.inj_on_of_nodup_map nodup
  have written : ∀ h ∈ s.supersededHandoffs p ids.assignmentId t r (p.supersededPairs ids),
      next.handoffs[h.handoffId]? = some h := by
    intro h mem
    rw [handoffs]
    exact OrdMap.get_overlay_of_mem mem fun w hw same => unique hw mem same
  have fst := supersededPairs_fst ready.enough
  obtain ⟨⟨_, handoffId⟩, pair, rfl⟩ := List.mem_map.1 (fst ▸ ended)
  have mem : s.supersededHandoff p ids.assignmentId t r a handoffId ∈
      s.supersededHandoffs p ids.assignmentId t r (p.supersededPairs ids) :=
    mem_supersededHandoffs.2 ⟨_, pair, a, found, rfl⟩
  refine ⟨handoffId, _, ⟨(fresh _ mem).2, written _ mem, rfl, key _ a found⟩, ?_, ?_⟩
  · apply systemHandoff_covers valid
    · exact congrArg s.activeCommitmentIds (key _ a found)
    · exact congrArg s.latestCheckpointForAssignment (key _ a found)
    · exact completed_successor ready assignments a
  · rintro handoffId' h' ⟨new, written', -, source⟩
    -- a Handoff that is new is one of those the move wrote, and its pair has the same Assignment
    obtain ⟨w, hw, rfl⟩ : ∃ w ∈ s.supersededHandoffs p ids.assignmentId t r (p.supersededPairs ids),
        w.handoffId = handoffId' := by
      by_contra none
      push Not at none
      rw [handoffs, OrdMap.get_overlay_of_notMem none, new] at written'
      cases written'
    cases (written w hw).symm.trans written'
    obtain ⟨⟨k, hid⟩, pair', b, foundB, rfl⟩ := mem_supersededHandoffs.1 hw
    have same : k = _ := (key k b foundB).symm.trans source
    have nodupFst : ((p.supersededPairs ids).map Prod.fst).Nodup := by
      rw [fst]
      exact (endedIds_spec p).1
    exact congrArg Prod.snd (List.inj_on_of_nodup_map nodupFst pair' pair same)

end Completed

/-! ## What a step ends -/

/-- The active tenures that the step ends are exactly the listed ones. -/
def EndsExactly (s next : RoleContinuityState) (ended : List Uuid) : Prop :=
  ∀ (id : Uuid) a, s.assignments[id]? = some a → a.isActive = true →
    ((∃ a', next.assignments[id]? = some a' ∧ a'.isActive = false) ↔ id ∈ ended)

/-- The Commitments that the step ends with their tenure are those of the listed tenures. -/
def EndsCommitments (s next : RoleContinuityState) (ended : List Uuid) : Prop :=
  ∀ (k : Uuid) c c', s.commitments[k]? = some c → c.isActive = true →
    next.commitments[k]? = some c' →
    (c'.isActive = false ∧ c'.endedReason = some .assignmentEnded ↔ c.assignmentId ∈ ended)

def ConsumesNone (s next : RoleContinuityState) : Prop :=
  ∀ (k : Uuid) p p', s.proposals[k]? = some p → p.status ≠ .consumed →
    next.proposals[k]? = some p' → p'.status ≠ .consumed

theorem endsExactly_of_eq (same : next.assignments = s.assignments) : EndsExactly s next [] := by
  intro id a found active
  rw [same, found]
  simp [active]

/-- No active Commitment of the earlier map has ended with its tenure in the later one. -/
def QuietCommitments (m m' : OrdMap Uuid WorkCommitment) : Prop :=
  ∀ (k : Uuid) c c', m[k]? = some c → c.isActive = true → m'[k]? = some c' →
    ¬(c'.isActive = false ∧ c'.endedReason = some .assignmentEnded)

theorem QuietCommitments.refl (m : OrdMap Uuid WorkCommitment) : QuietCommitments m m := by
  intro k c c' found active found'
  cases found.symm.trans found'
  simp [active]

theorem QuietCommitments.insert {m m' : OrdMap Uuid WorkCommitment} (quiet : QuietCommitments m m')
    {id : Uuid} {c₀ : WorkCommitment}
    (other : ¬(c₀.isActive = false ∧ c₀.endedReason = some .assignmentEnded)) :
    QuietCommitments m (m'.insert id c₀) := by
  intro k c c' found active found'
  rw [OrdMap.get_insert] at found'
  split_ifs at found'
  · cases found'
    exact other
  · exact quiet k c c' found active found'

theorem QuietCommitments.ends (quiet : QuietCommitments s.commitments next.commitments) :
    EndsCommitments s next [] := by
  intro k c c' found active found'
  simp only [quiet k c c' found active found', List.not_mem_nil]

theorem consumesNone_of_eq (same : next.proposals = s.proposals) : ConsumesNone s next := by
  intro k p p' found unconsumed found'
  rw [same, found] at found'
  cases found'
  exact unconsumed

theorem endTenures_endsExactly {ended : List Uuid} {reason : AssignmentEndReason}
    {replacedBy : Option Uuid}
    (assignments : next.assignments = (s.endTenures ended actor reason replacedBy t r).assignments) :
    EndsExactly s next ended := by
  intro id a found active
  rw [assignments, get_endTenures_assignments, found, Option.map_some]
  by_cases h : id ∈ ended
  · simp [h, RoleAssignment.ended_isActive]
  · simp [h, active]

theorem endCommitmentsOf_endsCommitments {ended : List Uuid}
    (commitments : next.commitments = s.endCommitmentsOf ended actor t r) :
    EndsCommitments s next ended := by
  intro k c c' found active found'
  rw [commitments, get_endCommitmentsOf, found, Option.map_some] at found'
  cases found'
  by_cases h : c.assignmentId ∈ ended
  · simp only [h, active, and_self, if_true, iff_true]
    exact ⟨rfl, rfl⟩
  · simp [h, active]

/-- Commitments end with their tenure exactly when it ends. -/
theorem commitment_ends_iff (valid : s.Valid) {ended : List Uuid} (ends : EndsExactly s next ended)
    (commitments : EndsCommitments s next ended) {k : Uuid} {c c' : WorkCommitment}
    (found : s.commitments[k]? = some c) (active : c.isActive = true)
    (found' : next.commitments[k]? = some c') :
    c'.isActive = false ∧ c'.endedReason = some .assignmentEnded ↔
      ∃ a a', s.assignments[c.assignmentId]? = some a ∧ a.isActive = true ∧
        next.assignments[c.assignmentId]? = some a' ∧ a'.isActive = false := by
  obtain ⟨a, w, foundA, -, -, ok, -⟩ := valid.consistent.commitment k c found
  have held := (ok active).1
  rw [commitments k c c' found active found', ← ends _ a foundA held]
  constructor
  · rintro ⟨a', after, inactive⟩
    exact ⟨a, a', foundA, held, after, inactive⟩
  · rintro ⟨_, a', _, _, after, inactive⟩
    exact ⟨a', after, inactive⟩

/-- A step that ends no tenure and consumes no Proposal loses nothing. -/
theorem nothingLost_of_quiet (valid : s.Valid) (ends : EndsExactly s next [])
    (commitments : EndsCommitments s next []) (consumes : ConsumesNone s next) :
    NothingLost s next where
  handoff id a a' found active after inactive _ :=
    absurd ((ends id a found active).1 ⟨a', after, inactive⟩) List.not_mem_nil
  commitment _ _ _ found active after := commitment_ends_iff valid ends commitments found active after
  consumed k p p' found unconsumed after consumed :=
    absurd consumed (consumes k p p' found unconsumed after)

/-! ## Commands and the system -/

section Completed

variable {p : RoleAssignmentProposal} {proposalId : Uuid}

/-- A completed move ends exactly the tenures it supersedes. -/
theorem completed_endsExactly (ready : s.CompletionReady p g r ids)
    (assignments : next.assignments = (s.endTenures p.endedIds g .replaced (some ids.assignmentId) t
      r).assignments.insert ids.assignmentId
        (p.startedAssignment proposalId ids.assignmentId g t r)) :
    EndsExactly s next p.endedIds := by
  intro id a found active
  have old : id ≠ ids.assignmentId := by
    rintro rfl
    cases found.symm.trans ready.assignmentFree
  rw [assignments, OrdMap.get_insert_of_ne old]
  have ends : EndsExactly s (s.endTenures p.endedIds g .replaced (some ids.assignmentId) t r)
      p.endedIds := endTenures_endsExactly rfl
  exact ends id a found active

end Completed

/-- A step that leaves the tenures and the Proposals alone loses nothing. -/
theorem nothingLost_of_frame (valid : s.Valid) (assignments : next.assignments = s.assignments)
    (proposals : next.proposals = s.proposals)
    (quiet : QuietCommitments s.commitments next.commitments) : NothingLost s next :=
  nothingLost_of_quiet valid (endsExactly_of_eq assignments) quiet.ends (consumesNone_of_eq proposals)

/-- A step that ends one tenure loses nothing once it wrote the Handoff of a cut-over. -/
theorem endTenures_nothingLost (valid : s.Valid) {id : Uuid} {reason : AssignmentEndReason}
    (assignments : next.assignments = (s.endTenures [id] actor reason none t r).assignments)
    (commitments : next.commitments = s.endCommitmentsOf [id] actor t r)
    (proposals : next.proposals = s.proposals)
    (handoff : reason = .replaced ∨ reason = .unrecoverable →
      ∀ a, s.assignments[id]? = some a → HasHandoff s next id a) : NothingLost s next := by
  have ends : EndsExactly s next [id] := endTenures_endsExactly assignments
  have endsC : EndsCommitments s next [id] := endCommitmentsOf_endsCommitments commitments
  refine ⟨?_, fun _ _ _ => commitment_ends_iff valid ends endsC, ?_⟩
  · intro k a a' found active after inactive cutOver
    have this := (ends k a found active).1 ⟨a', after, inactive⟩
    rw [assignments, get_endTenures_assignments, found, Option.map_some, if_pos this] at after
    cases List.mem_singleton.1 this
    cases after
    exact handoff (cutOver.imp Option.some.inj Option.some.inj) a found
  · intro k p p' found unconsumed after consumed
    exact absurd consumed (consumesNone_of_eq proposals k p p' found unconsumed after)

theorem Effect.nothingLost (effect : Effect s command actor t r ids d) (valid : s.Valid) :
    NothingLost s d.next := by
  cases effect with
  | @proposed p fresh =>
    refine nothingLost_of_quiet valid ?_ ?_ ?_
    · exact endsExactly_of_eq rfl
    · exact QuietCommitments.ends (.refl _)
    · intro k q q' found unconsumed found'
      have old : k ≠ p.proposalId := by
        rintro rfl
        cases found.symm.trans fresh
      change (s.proposals.insert p.proposalId p)[k]? = some q' at found'
      rw [OrdMap.get_insert_of_ne old, found] at found'
      cases found'
      exact unconsumed
  | @rewritten id p p' stored _ _ _ unconsumed' =>
    refine nothingLost_of_quiet valid ?_ ?_ ?_
    · exact endsExactly_of_eq rfl
    · exact QuietCommitments.ends (.refl _)
    · intro k q q' found unconsumed found'
      change (s.proposals.insert id p')[k]? = some q' at found'
      rw [OrdMap.get_insert] at found'
      split_ifs at found'
      · cases found'
        exact unconsumed'
      · rw [found] at found'
        cases found'
        exact unconsumed
  | @completed key p p' g m stored isOpen _ confirmation _ ready _ =>
    have terms := confirmation.terms
    have ends : EndsExactly s (Draft.completed (s.withProposal key p') key p' g t r ids m).next
        p'.endedIds := completed_endsExactly ready rfl
    have commitments : EndsCommitments s
        (Draft.completed (s.withProposal key p') key p' g t r ids m).next p'.endedIds := by
      have ended : (Draft.completed (s.withProposal key p') key p' g t r ids m).next.commitments =
          s.endCommitmentsOf p'.endedIds g t r := by
        rw [← supersededPairs_fst ready.enough]
        rfl
      exact endCommitmentsOf_endsCommitments ended
    refine ⟨?_, fun _ _ _ => commitment_ends_iff valid ends commitments, ?_⟩
    · intro id a a' found active after inactive _
      exact completed_hasHandoff valid ready rfl rfl found
        ((ends id a found active).1 ⟨a', after, inactive⟩)
    · intro k q q' found unconsumed found' consumed id a foundA active
      change ((s.proposals.insert key p').insert key (p'.consumed t r))[k]? = some q' at found'
      rw [OrdMap.get_insert, OrdMap.get_insert] at found'
      split_ifs at found' with h
      · subst h
        cases stored.symm.trans found
        rw [ends id a foundA active, mem_endedIds_iff valid.tenuresApart ready.fence, terms.roleId,
          terms.candidatePubkey]
        constructor
        · rintro ⟨b, foundB, _, either⟩
          cases foundA.symm.trans foundB
          exact either
        · exact fun either => ⟨a, foundA, active, either⟩
      · rw [found] at found'
        cases found'
        exact absurd consumed unconsumed
  | @ended id a m _ _ ends _ =>
    have assignments : (s.endTenures [id] actor .revoked none t r).assignments =
      (s.endTenures [id] actor .revoked none t r).assignments := rfl
    apply endTenures_nothingLost valid assignments rfl rfl
    rintro (h | h) <;> cases h
  | @reported id a a' found active _ kept =>
    refine nothingLost_of_quiet valid ?_ ?_ ?_
    · intro k b foundB activeB
      change (∃ b', (s.assignments.insert id a')[k]? = some b' ∧ b'.isActive = false) ↔ k ∈ []
      rw [OrdMap.get_insert]
      split_ifs with h
      · have live : a'.isActive = true := by rw [RoleAssignment.isActive, kept.endedAt]; exact active
        simp [live]
      · simp [foundB, activeB]
    · exact QuietCommitments.ends (.refl _)
    · exact consumesNone_of_eq rfl
  | committed _ _ active =>
    exact nothingLost_of_frame valid rfl rfl ((QuietCommitments.refl _).insert (by simp [active]))
  | @released id c =>
    have other : ¬((c.ended actor .released t r).isActive = false ∧
        (c.ended actor .released t r).endedReason = some .assignmentEnded) := by
      rintro ⟨-, reason⟩
      cases reason
    exact nothingLost_of_frame valid rfl rfl ((QuietCommitments.refl _).insert other)
  | @recommitted id c _ _ _ _ _ _ active =>
    have other : ¬((c.ended actor .replaced t r).isActive = false ∧
        (c.ended actor .replaced t r).endedReason = some .assignmentEnded) := by
      rintro ⟨-, reason⟩
      cases reason
    exact nothingLost_of_frame valid rfl rfl
      (((QuietCommitments.refl _).insert other).insert (by simp [active]))
  | _ => exact nothingLost_of_frame valid rfl rfl (.refl _)

theorem reduce_nothingLost (valid : s.Valid)
    (run : s.reduce command actor t ids = .ok (next, outcome)) : NothingLost s next := by
  obtain ⟨d, reduced⟩ := reduce_eq_ok.1 run
  obtain ⟨handoff, commitment, consumed⟩ := (reduced.effect valid).nothingLost valid
  rw [reduced.next_eq]
  refine ⟨fun id a a' found active after inactive cutOver => ?_, commitment, consumed⟩
  obtain ⟨handoffId, h, generated, covers, unique⟩ :=
    handoff id a a' found active after inactive cutOver
  exact ⟨handoffId, h, { generated with }, { covers with }, fun handoffId' h' generated' =>
    unique handoffId' h' { generated' with }⟩

/-- The system's own transition writes the Handoff of the tenure it ends. -/
theorem givenUp_nothingLost (valid : s.Valid) {id handoffId : Uuid} {a : RoleAssignment}
    (ends : s.CanEnd r id a) (fresh : s.handoffs[handoffId]? = none) :
    NothingLost s (s.givenUp id actor handoffId a t r) := by
  have assignments : (s.givenUp id actor handoffId a t r).assignments =
      (s.endTenures [id] actor .unrecoverable none t r).assignments := rfl
  apply endTenures_nothingLost valid assignments rfl rfl
  intro _ b found
  cases ends.found.symm.trans found
  refine ⟨handoffId, _, ⟨fresh, (OrdMap.get_insert _ _ _ _).trans (if_pos rfl), rfl, rfl⟩, ?_, ?_⟩
  · apply systemHandoff_covers valid rfl rfl
    intro k
    constructor
    · intro h
      cases h
    · rintro ⟨absent, b, found, -⟩
      rw [assignments, get_endTenures_assignments, absent] at found
      cases found
  · rintro handoffId' h' ⟨new, written, -, -⟩
    by_contra other
    change (s.handoffs.insert handoffId _)[handoffId']? = some h' at written
    rw [OrdMap.get_insert_of_ne other, new] at written
    cases written

/-- A command changes the Work it names and no other. -/
theorem reduce_works (valid : s.Valid) (run : s.reduce command actor t ids = .ok (next, outcome))
    (workId : Uuid) : next.works[workId]? ≠ s.works[workId]? ↔
      ∃ role, command.request = .setWorkResponsibility workId role := by
  obtain ⟨d, reduced⟩ := reduce_eq_ok.1 run
  rw [reduced.next_eq]
  change d.next.works[workId]? ≠ s.works[workId]? ↔ _
  constructor
  · intro changed
    cases reduced.effect valid with
    | @responsibility id role w request found _ =>
      change (s.works.insert id _)[workId]? ≠ _ at changed
      by_cases same : workId = id
      · exact ⟨role, same ▸ request⟩
      · rw [OrdMap.get_insert_of_ne same] at changed
        exact absurd rfl changed
    | _ => exact absurd rfl changed
  · rintro ⟨role, request⟩ same
    have applied := reduced.applied
    unfold applyRequest at applied
    rw [request] at applied
    obtain ⟨-, w, found, changed, rfl⟩ := applySetWorkResponsibility_ok applied
    change (s.works.insert workId _)[workId]? = _ at same
    rw [OrdMap.get_insert, if_pos rfl, found, Option.some.injEq] at same
    exact changed (congrArg WorkResponsibility.responsibleRoleId same).symm

/-- No tenure is superseded silently and no Work is lost with it. -/
theorem step_nothingLost (valid : s.Valid) :
    (∀ command actor t ids next outcome, s.reduce command actor t ids = .ok (next, outcome) →
      NothingLost s next ∧ ∀ workId : Uuid, next.works[workId]? ≠ s.works[workId]? ↔
        ∃ role, command.request = .setWorkResponsibility workId role) ∧
    ∀ t assignmentId systemActor handoffId next outcome,
      s.reduceUnrecoverableAssignment t assignmentId systemActor handoffId = .ok (next, outcome) →
        NothingLost s next ∧ next.works = s.works := by
  refine ⟨fun _ _ _ _ _ _ run => ⟨reduce_nothingLost valid run, reduce_works valid run⟩, ?_⟩
  intro t id systemActor handoffId next outcome run
  obtain ⟨a, m, given⟩ := (reduceUnrecoverableAssignment_eq_ok valid).1 run
  rw [given.next_eq]
  exact ⟨givenUp_nothingLost valid given.ends given.fresh, rfl⟩

theorem step_nothingLost_sample : ∃ next outcome,
    sample.reduceUnrecoverableAssignment 5 41 0 60 = .ok (next, outcome) ∧
      NothingLost sample next ∧ next.works = sample.works := by
  obtain ⟨next, outcome, run⟩ := sample_givenUp
  exact ⟨next, outcome, run, (step_nothingLost sample_valid).2 _ _ _ _ _ _ run⟩

end RoleContinuityState

end RoleContinuity

end Carryforth
