import Carryforth.RoleContinuity.Handoff

/-!
# Role continuity: when a tenure can be cut over

The step that ends a tenure ends with the validation of the whole next state, and so with the
validation of the Handoff it has just generated.  Everything but the content of that Handoff passes
(`CutOver.consistent_iff`), and the content passes exactly when the tenure `Fits`: at most 64 active
Commitments, all with non-nil identifiers.  A tenure with more Work than that can neither be given
up nor replaced (`cutover_iff`).
-/

namespace Carryforth

namespace RoleContinuity

open Fallible

theorem validateRequiredText_eq_ok {value field : String} {maxBytes : Nat} {u : Unit} :
    validateRequiredText value field maxBytes = .ok u ↔
      Text.isBlank value = false ∧ Text.byteLength value ≤ maxBytes := by
  rw [validateRequiredText, ensure_eq_ok, not_or, Bool.not_eq_true, not_lt]

namespace RoleContinuityState

variable {s s' next : RoleContinuityState} {command : RoleCommand} {actor g : PublicKey}
  {t : DateTime} {r : Nat} {ids : GeneratedRoleContinuityIds} {d : Draft}
  {outcome : RoleContinuityOutcome}

/-! ## The content of a generated Handoff -/

/-- A tenure whose active Commitments a generated Handoff can list. -/
structure Fits (s : RoleContinuityState) (id : Uuid) : Prop where
  count : (s.activeCommitmentIds id).length ≤ maxContinuityItems
  nonNil : ∀ (k : Uuid) c, s.commitments[k]? = some c → c.assignmentId = id → c.isActive = true →
    ¬k.isNil = true ∧ ¬c.workId.isNil = true

section Content

variable {ks : List Uuid} (found : ∀ k ∈ ks, ∃ c, s.commitments[k]? = some c)
include found

theorem interruptedItems_length : (s.interruptedItems ks).length = ks.length := by
  induction ks with
  | nil => rfl
  | cons k ks ih =>
    obtain ⟨c, hc⟩ := found k List.mem_cons_self
    have rest := ih fun j hj => found j (List.mem_cons_of_mem _ hj)
    simp only [interruptedItems, List.filterMap_cons, hc, Option.map_some, List.length_cons] at rest ⊢
    omega

theorem interruptedReferences_length : (s.interruptedReferences ks).length = 2 * ks.length := by
  induction ks with
  | nil => rfl
  | cons k ks ih =>
    obtain ⟨c, hc⟩ := found k List.mem_cons_self
    have rest := ih fun j hj => found j (List.mem_cons_of_mem _ hj)
    simp only [interruptedReferences, List.flatMap_cons, hc, List.length_append, List.length_cons,
      List.length_nil] at rest ⊢
    omega

end Content

/-- Every item of a generated Handoff is short text. -/
theorem interruptedItems_ok {ks : List Uuid} {item : String} (mem : item ∈ s.interruptedItems ks)
    (field : String) : validateRequiredText item field maxContinuityItemBytes = .ok () := by
  simp only [interruptedItems, List.mem_filterMap, Option.map_eq_some_iff] at mem
  obtain ⟨k, -, c, -, rfl⟩ := mem
  have start : Text.isBlank "Work " = false := by decide
  have lengths : Text.byteLength "Work " = 5 ∧
      Text.byteLength " requires explicit successor acceptance" = 39 := by decide
  rw [validateRequiredText_eq_ok, Text.isBlank_append, Text.isBlank_append, start,
    Text.byteLength_append, Text.byteLength_append, Uuid.byteLength_toText, lengths.1, lengths.2]
  exact ⟨rfl, by decide⟩

theorem mem_interruptedReferences {ks : List Uuid} {x : RoleContinuityReference} :
    x ∈ s.interruptedReferences ks ↔ ∃ k ∈ ks, x = .commitment k (some "interrupted Commitment") ∨
      ∃ c, s.commitments[k]? = some c ∧
        x = .object c.workId (some "Work waiting for continuation") := by
  simp only [interruptedReferences, List.mem_flatMap, List.mem_cons]
  refine exists_congr fun k => and_congr_right fun _ => or_congr_right ?_
  cases s.commitments[k]? <;> simp

/-- The references of a generated Handoff have the right shape iff no identifier is nil. -/
theorem interruptedReferences_ok {ks : List Uuid}
    (found : ∀ k ∈ ks, ∃ c, s.commitments[k]? = some c) :
    validateReferenceShape (s.interruptedReferences ks) = .ok () ↔
      2 * ks.length ≤ maxContinuityReferences ∧ ∀ k ∈ ks, ∀ c, s.commitments[k]? = some c →
        ¬k.isNil = true ∧ ¬c.workId.isNil = true := by
  have labels : validateRequiredText "interrupted Commitment" "reference.label"
        maxContinuityLabelBytes = .ok () ∧
      validateRequiredText "Work waiting for continuation" "reference.label"
        maxContinuityLabelBytes = .ok () := by decide
  simp only [validateReferenceShape, then_eq_ok, ensure_eq_ok, not_lt, forM_eq_ok,
    interruptedReferences_length found, gt_iff_lt, mem_interruptedReferences, checkSome_eq_ok]
  refine and_congr_right fun _ => ⟨fun h k hk c hc => ?_, ?_⟩
  · have commitment := h (.commitment k (some "interrupted Commitment")) ⟨k, hk, .inl rfl⟩
    have work := h (.object c.workId (some "Work waiting for continuation"))
      ⟨k, hk, .inr ⟨c, hc, rfl⟩⟩
    exact ⟨ensure_eq_ok.1 commitment.1, ensure_eq_ok.1 work.1⟩
  · rintro h _ ⟨k, hk, rfl | ⟨c, hc, rfl⟩⟩
    · obtain ⟨c, hc⟩ := found k hk
      refine ⟨ensure_of (h k hk c hc).1 _, fun label same => ?_⟩
      cases same
      exact labels.1
    · refine ⟨ensure_of (h k hk c hc).2 _, fun label same => ?_⟩
      cases same
      exact labels.2

/-- The content of a generated Handoff passes its check iff the tenure fits. -/
theorem systemHandoff_content_ok (keyed : s.commitments.Keyed (·.commitmentId))
    {handoffId roleId id : Uuid} {target checkpoint : Option Uuid} {idle waiting : String}
    {cause : HandoffCause}
    (texts : ∀ text ∈ [idle, waiting],
      validateRequiredText text "handoff.summary" maxContinuitySummaryBytes = .ok ()) :
    validateHandoffContent (s.systemHandoff handoffId roleId id target checkpoint
      (s.activeCommitmentIds id) idle waiting cause t r).content = .ok () ↔ s.Fits id := by
  have found : ∀ k ∈ s.activeCommitmentIds id, ∃ c, s.commitments[k]? = some c := by
    intro k hk
    obtain ⟨c, hc, -⟩ := (mem_activeCommitmentIds keyed).1 hk
    exact ⟨c, hc⟩
  have items : validateContinuityItems "handoff.unresolved_items"
      (s.interruptedItems (s.activeCommitmentIds id)) = .ok () ↔
        (s.activeCommitmentIds id).length ≤ maxContinuityItems := by
    simp only [validateContinuityItems, then_eq_ok, ensure_eq_ok, gt_iff_lt, not_lt, forM_eq_ok,
      interruptedItems_length found]
    exact ⟨fun h => h.1, fun h => ⟨h, fun item mem => interruptedItems_ok mem _⟩⟩
  have caps : maxContinuityReferences = 2 * maxContinuityItems := rfl
  simp only [validateHandoffContent, systemHandoff, then_eq_ok, checkSome_eq_ok, items,
    interruptedReferences_ok found]
  constructor
  · rintro ⟨-, count, -, nonNil⟩
    refine ⟨count, fun k c hc held active => nonNil k ?_ c hc⟩
    exact (mem_activeCommitmentIds keyed).2 ⟨c, hc, held, active⟩
  · intro fits
    have count := fits.count
    refine ⟨fun summary same => ?_, count, by omega, fun k hk c hc => ?_⟩
    · cases same
      split_ifs
      · exact texts idle (by simp)
      · exact texts waiting (by simp)
    · obtain ⟨c', hc', held, active⟩ := (mem_activeCommitmentIds keyed).1 hk
      cases hc.symm.trans hc'
      exact fits.nonNil k c hc held active

/-! ## What a cutover keeps valid -/

/-- The step from `s` to `next` ends the listed tenures and leaves the rest of what the records of
`s` refer to in place. -/
structure CutOver (s next : RoleContinuityState) (ended : List Uuid) (actor : PublicKey)
    (reason : AssignmentEndReason) (replacedBy : Option Uuid) (t : DateTime) : Prop where
  revision : next.projectRevision = s.projectRevision + 1
  objects : next.referenceableObjects = s.referenceableObjects
  roles : next.roles = s.roles
  works : next.works = s.works
  checkpoints : next.checkpoints = s.checkpoints
  commitments : next.commitments = s.endCommitmentsOf ended actor t (s.projectRevision + 1)
  assignments : ∀ (id : Uuid) a, s.assignments[id]? = some a → next.assignments[id]? = some
    (if id ∈ ended then a.ended actor reason replacedBy t (s.projectRevision + 1) else a)

section CutOver

variable {ended : List Uuid} {reason : AssignmentEndReason} {replacedBy : Option Uuid}

theorem CutOver.assignment (cut : CutOver s next ended actor reason replacedBy t) {id : Uuid}
    {a : RoleAssignment} (found : s.assignments[id]? = some a) : ∃ a', next.assignments[id]? = some a' ∧
      a'.roleId = a.roleId ∧ a'.memberPubkey = a.memberPubkey := by
  refine ⟨_, cut.assignments id a found, ?_⟩
  split_ifs <;> exact ⟨rfl, rfl⟩

theorem CutOver.commitment (cut : CutOver s next ended actor reason replacedBy t) {k : Uuid}
    {c : WorkCommitment} (found : s.commitments[k]? = some c) :
    ∃ c', next.commitments[k]? = some c' ∧ c'.assignmentId = c.assignmentId := by
  rw [cut.commitments, get_endCommitmentsOf, found]
  refine ⟨_, rfl, ?_⟩
  dsimp only
  split_ifs <;> rfl

theorem CutOver.reference (cut : CutOver s next ended actor reason replacedBy t)
    {x : RoleContinuityReference} (resolves : s.hasReference x = true) :
    next.hasReference x = true := by
  cases x with
  | object id label =>
    change next.referenceableObjects.contains id = true
    rwa [cut.objects]
  | assignment id label =>
    obtain ⟨a, found⟩ := OrdMap.contains_iff.1 resolves
    obtain ⟨a', found', -⟩ := cut.assignment found
    exact OrdMap.contains_iff.2 ⟨a', found'⟩
  | commitment id label =>
    obtain ⟨c, found⟩ := OrdMap.contains_iff.1 resolves
    obtain ⟨c', found', -⟩ := cut.commitment found
    exact OrdMap.contains_iff.2 ⟨c', found'⟩
  | nostrEvent id label => rfl

theorem validateReferences_eq_ok {references : List RoleContinuityReference} {u : Unit} :
    s.validateReferences references = .ok u ↔ ∀ x ∈ references, s.hasReference x = true := by
  simp only [validateReferences, forM_eq_ok, ensure_eq_ok]

theorem CutOver.checkpoint (cut : CutOver s next ended actor reason replacedBy t)
    {c : RoleCheckpoint} (ok : s.validateCheckpoint c = .ok ()) :
    next.validateCheckpoint c = .ok () := by
  simp only [validateCheckpoint, bind_eq_ok, ensure_eq_ok, okOr_eq_ok, validateReferences_eq_ok,
    cut.checkpoints] at ok ⊢
  obtain ⟨_, revisions, a, found, _, author, _, content, _, references, supersedes⟩ := ok
  obtain ⟨a', found', role, member⟩ := cut.assignment found
  have revision := cut.revision
  exact ⟨(), by omega, a', found', (), by rwa [role, member], (), content, (),
    fun x mem => cut.reference (references x mem), supersedes⟩

/-- A Handoff that was there before stays valid. -/
theorem CutOver.handoff (cut : CutOver s next ended actor reason replacedBy t) {h : RoleHandoff}
    (ok : s.validateHandoff h = .ok ()) : next.validateHandoff h = .ok () := by
  simp only [validateHandoff, bind_eq_ok, ensure_eq_ok, okOr_eq_ok, checkSome_eq_ok, forM_eq_ok,
    validateReferences_eq_ok, cut.checkpoints] at ok ⊢
  obtain ⟨_, revisions, a, found, _, role, _, target, _, checkpoint, _, affected, _, content, _,
    references, author⟩ := ok
  obtain ⟨a', found', sameRole, sameMember⟩ := cut.assignment found
  have revision := cut.revision
  refine ⟨(), by omega, a', found', (), sameRole.trans role, (), ?_, (), checkpoint, (), ?_, (),
    content, (), fun x mem => cut.reference (references x mem), ?_⟩
  · intro k same
    obtain ⟨b, foundB, roleB⟩ := target k same
    obtain ⟨b', foundB', sameB, -⟩ := cut.assignment foundB
    exact ⟨b', foundB', sameB.trans roleB⟩
  · intro k mem
    obtain ⟨c, foundC, held⟩ := affected k mem
    obtain ⟨c', foundC', sameC⟩ := cut.commitment foundC
    exact ⟨c', foundC', sameC.trans held⟩
  · unfold validateHandoffAuthor at author ⊢
    rwa [sameMember]

/-- The Commitments after a cutover: those of the ended tenures have ended with attribution, the
others are as before. -/
theorem CutOver.commitments_ok (cut : CutOver s next ended actor reason replacedBy t)
    (consistent : s.Consistent) :
    (∀ (k : Uuid) c, next.commitments[k]? = some c → next.CommitmentOk c) ∧
      ∀ (i j : Uuid) c d, next.commitments[i]? = some c → next.commitments[j]? = some d → i ≠ j →
        CommitmentsApart c d := by
  have before : ∀ (k : Uuid) c, next.commitments[k]? = some c → ∃ c₀, s.commitments[k]? = some c₀ ∧
      (if c₀.assignmentId ∈ ended ∧ c₀.isActive = true then
        c₀.ended actor .assignmentEnded t (s.projectRevision + 1) else c₀) = c := by
    intro k c found
    rw [cut.commitments, get_endCommitmentsOf] at found
    exact Option.map_eq_some_iff.1 found
  have activeBefore : ∀ (k : Uuid) c, next.commitments[k]? = some c → c.isActive = true →
      s.commitments[k]? = some c := by
    intro k c found active
    obtain ⟨c₀, found₀, rfl⟩ := before k c found
    split_ifs at active ⊢
    · cases active
    · exact found₀
  refine ⟨fun k c found => ?_, fun i j c d hc hd different activeC activeD => ?_⟩
  · obtain ⟨c₀, found₀, rfl⟩ := before k c found
    obtain ⟨a, w, foundA, foundW, member, isOpen, attributed⟩ := consistent.commitment k c₀ found₀
    have foundA' := cut.assignments _ a foundA
    rw [← cut.works] at foundW
    split_ifs with h
    · rw [if_pos h.1] at foundA'
      exact ⟨_, w, foundA', foundW, member, nofun, fun _ => ⟨rfl, rfl⟩⟩
    · by_cases held : c₀.assignmentId ∈ ended
      · rw [if_pos held] at foundA'
        exact ⟨_, w, foundA', foundW, member, fun active => absurd ⟨held, active⟩ h, attributed⟩
      · rw [if_neg held] at foundA'
        exact ⟨a, w, foundA', foundW, member, isOpen, attributed⟩
  · exact consistent.commitmentsApart i j c d (activeBefore i c hc activeC)
      (activeBefore j d hd activeD) different activeC activeD

/-- The state after a cutover is consistent iff the Handoffs it generated are valid. -/
theorem CutOver.consistent_iff (cut : CutOver s next ended actor reason replacedBy t)
    (valid : s.Valid) (safe : s.projectRevision + 1 ≤ maxSafeRevision) (tenures : next.TenuresApart)
    (assignment : ∀ (id : Uuid) a, next.assignments[id]? = some a → next.AssignmentOk a)
    {generated : List RoleHandoff}
    (handoffs : next.handoffs = OrdMap.overlay RoleHandoff.handoffId s.handoffs generated)
    (nodup : (generated.map (·.handoffId)).Nodup) :
    next.Consistent ↔ ∀ h ∈ generated, next.validateHandoff h = .ok () := by
  have stored : ∀ h ∈ generated, next.handoffs[h.handoffId]? = some h := by
    intro h mem
    rw [handoffs]
    exact OrdMap.get_overlay_of_mem mem fun w hw same => List.inj_on_of_nodup_map nodup hw mem same
  constructor
  · exact fun consistent h mem => consistent.handoff _ h (stored h mem)
  · intro generatedOk
    obtain ⟨commitment, commitmentsApart⟩ := cut.commitments_ok valid.consistent
    refine ⟨?_, assignment, tenures.apart, ?_, commitment, commitmentsApart, ?_, ?_⟩
    · have revision := cut.revision
      omega
    · intro id w found
      rw [cut.works] at found
      have ok := valid.consistent.work id w found
      unfold validateWork at ok ⊢
      rwa [cut.roles]
    · intro id c found
      rw [cut.checkpoints] at found
      exact cut.checkpoint (valid.consistent.checkpoint id c found)
    · intro id h found
      by_cases new : ∃ w ∈ generated, w.handoffId = id
      · obtain ⟨w, mem, rfl⟩ := new
        cases (stored w mem).symm.trans found
        exact generatedOk _ mem
      · rw [handoffs, OrdMap.get_overlay_of_notMem fun w mem same => new ⟨w, mem, same⟩] at found
        exact cut.handoff (valid.consistent.handoff id h found)

/-- A generated Handoff is valid iff its tenure fits. -/
theorem CutOver.systemHandoff_ok_iff (cut : CutOver s next ended actor reason replacedBy t)
    (valid : s.Valid) {handoffId id : Uuid} {a : RoleAssignment} {target : Option Uuid}
    {idle waiting : String} {cause : HandoffCause} (found : s.assignments[id]? = some a)
    (successor : ∀ k, target = some k → ∃ b, next.assignments[k]? = some b ∧ b.roleId = a.roleId)
    (texts : ∀ text ∈ [idle, waiting],
      validateRequiredText text "handoff.summary" maxContinuitySummaryBytes = .ok ()) :
    next.validateHandoff (s.systemHandoff handoffId a.roleId id target
      (s.latestCheckpointForAssignment id) (s.activeCommitmentIds id) idle waiting cause t
      (s.projectRevision + 1)) = .ok () ↔ s.Fits id := by
  have keyed := valid.keyed.commitments
  rw [← systemHandoff_content_ok keyed texts]
  simp only [validateHandoff, bind_eq_ok, ensure_eq_ok, okOr_eq_ok, checkSome_eq_ok, forM_eq_ok,
    validateReferences_eq_ok]
  constructor
  · rintro ⟨_, -, _, -, _, -, _, -, _, -, _, -, _, content, -⟩
    exact content
  · intro content
    obtain ⟨a', found', role, -⟩ := cut.assignment found
    have revision := cut.revision
    refine ⟨(), ?_, a', found', (), role, (), successor, (), ?_, (), ?_, (), content, (), ?_, rfl⟩
    · simp only [systemHandoff]
      omega
    · intro k latest
      have spec := latestCheckpointForAssignment_spec valid.keyed.checkpoints id
      change s.latestCheckpointForAssignment id = some k at latest
      rw [latest] at spec
      obtain ⟨c, foundC, held, -⟩ := spec
      have ok := valid.consistent.checkpoint k c foundC
      simp only [validateCheckpoint, bind_eq_ok, okOr_eq_ok, ensure_eq_ok] at ok
      obtain ⟨_, -, b, foundB, _, ⟨roleB, -⟩, -⟩ := ok
      rw [held, found] at foundB
      cases foundB
      rw [cut.checkpoints]
      exact ⟨c, foundC, roleB.symm, held⟩
    · intro k mem
      obtain ⟨c, foundC, held, -⟩ := (mem_activeCommitmentIds keyed).1 mem
      obtain ⟨c', foundC', same⟩ := cut.commitment foundC
      exact ⟨c', foundC', same.trans held⟩
    · intro x mem
      apply cut.reference
      obtain ⟨k, hk, rfl | ⟨c, foundC, rfl⟩⟩ := mem_interruptedReferences.1 mem
      · obtain ⟨c, foundC, -⟩ := (mem_activeCommitmentIds keyed).1 hk
        exact OrdMap.contains_iff.2 ⟨c, foundC⟩
      · obtain ⟨_, w, -, foundW, -⟩ := valid.consistent.commitment k c foundC
        exact valid.worksReferenceable c.workId (OrdMap.contains_iff.2 ⟨w, foundW⟩)

/-- An Assignment of the state before is consistent after a cutover, whether or not it ended, as
long as the member behind a remaining tenure is untouched. -/
theorem CutOver.assignment_ok (cut : CutOver s next ended actor reason replacedBy t)
    (valid : s.Valid) {id : Uuid} {a : RoleAssignment} (found : s.assignments[id]? = some a)
    (member : id ∉ ended → a.isActive = true →
      next.members[a.memberPubkey]? = s.members[a.memberPubkey]?) :
    next.AssignmentOk (if id ∈ ended then
      a.ended actor reason replacedBy t (s.projectRevision + 1) else a) := by
  obtain ⟨role, foundRole, active, attributed⟩ := valid.consistent.assignment id a found
  rw [← cut.roles] at foundRole
  split_ifs with h
  · exact ⟨role, foundRole, nofun, fun _ => ⟨rfl, rfl⟩⟩
  · refine ⟨role, foundRole, fun live => ?_, attributed⟩
    obtain ⟨roleActive, m, foundM, eligible, fits⟩ := active live
    exact ⟨roleActive, m, (member h live).trans foundM, eligible, fits⟩

end CutOver

theorem TenuresApart.notMem_holders (tenures : s.TenuresApart) {ended : List Uuid}
    (active : ∀ id ∈ ended, ∃ a, s.assignments[id]? = some a ∧ a.isActive = true) {id : Uuid}
    {a : RoleAssignment} (found : s.assignments[id]? = some a) (live : a.isActive = true)
    (outside : id ∉ ended) : a.memberPubkey ∉ s.holders ended := by
  intro mem
  obtain ⟨k, hk, b, foundB, same⟩ := mem_holders.1 mem
  obtain ⟨b', foundB', liveB⟩ := active k hk
  cases foundB.symm.trans foundB'
  have different : k ≠ id := fun h => outside (h ▸ hk)
  exact (tenures.apart k id b a foundB found different liveB live).2 same

/-- A head that only the later state has is a change. -/
theorem changedEntities_ne_nil (keyed : s.Keyed) (keyed' : next.Keyed) {k : EntityKey}
    {h : RoleContinuityChange} (before : s.head k = none) (now : next.head k = some h) :
    changedEntities s.entityMap next.entityMap ≠ [] := by
  have mem : h ∈ changedEntities s.entityMap next.entityMap := by
    refine OrdMap.mem_changed.2 ⟨k, (get_entityMap keyed' k).trans now, ?_⟩
    rw [get_entityMap keyed, before]
    exact nofun
  exact List.ne_nil_of_mem mem

/-! ## Giving up a tenure -/

/-- No revision is at the end of the safe range. -/
structure RevisionsBelow (s : RoleContinuityState) : Prop where
  project : s.projectRevision < maxSafeRevision
  heads : ∀ head ∈ s.entityHeads, head.entityRevision < maxSafeRevision

theorem RevisionsBelow.canTouch (revisions : s.RevisionsBelow) {id : Uuid}
    {p : RoleAssignmentProposal} (stored : s.proposals[id]? = some p) : CanTouch r p :=
  .inr (revisions.heads _ (mem_entityHeads.2 (.inl ⟨p, ⟨id, stored⟩, rfl⟩)))

theorem RevisionsBelow.canEnd (revisions : s.RevisionsBelow) {id : Uuid} {a : RoleAssignment}
    (found : s.assignments[id]? = some a) (active : a.isActive = true) : s.CanEnd r id a := by
  refine ⟨found, active, .inr ?_, fun k c foundC _ _ => .inr ?_⟩
  · exact revisions.heads _ (mem_entityHeads.2 (.inr (.inl ⟨a, ⟨id, found⟩, rfl⟩)))
  · exact revisions.heads _ (mem_entityHeads.2 (.inr (.inr (.inl ⟨c, ⟨k, foundC⟩, rfl⟩))))

section GiveUp

variable {id handoffId : Uuid} {a : RoleAssignment}

theorem givenUp_cutOver : CutOver s (s.givenUp id actor handoffId a t (s.projectRevision + 1)) [id]
    actor .unrecoverable none t := by
  refine ⟨rfl, rfl, rfl, rfl, rfl, rfl, fun k b found => ?_⟩
  refine (get_endTenures_assignments k).trans ?_
  rw [found, Option.map_some]

theorem givenUp_consistent_iff (valid : s.Valid) (revisions : s.RevisionsBelow)
    (found : s.assignments[id]? = some a) (active : a.isActive = true) :
    (s.givenUp id actor handoffId a t (s.projectRevision + 1)).Consistent ↔ s.Fits id := by
  have cut : CutOver s (s.givenUp id actor handoffId a t (s.projectRevision + 1)) [id] actor
    .unrecoverable none t := givenUp_cutOver
  have tenures := valid.tenuresApart
  have ended : TenuresApart (s.endTenures [id] actor .unrecoverable none t (s.projectRevision + 1)) :=
    endTenures_tenuresApart tenures
  have handoffs : (s.givenUp id actor handoffId a t (s.projectRevision + 1)).handoffs =
      OrdMap.overlay RoleHandoff.handoffId s.handoffs [s.unrecoverableHandoff handoffId a.roleId id
        (s.latestCheckpointForAssignment id) (s.activeCommitmentIds id) t (s.projectRevision + 1)] :=
    rfl
  rw [cut.consistent_iff valid revisions.project ⟨ended.keyed, ended.apart⟩ ?assignments handoffs
    (List.nodup_singleton _), List.forall_mem_singleton]
  case assignments =>
    intro k b foundB
    obtain ⟨b₀, found₀, rfl⟩ := Option.map_eq_some_iff.1
      ((get_endTenures_assignments k).symm.trans foundB)
    refine cut.assignment_ok valid found₀ fun outside live => ?_
    have others : b₀.memberPubkey ∉ s.holders [id] := tenures.notMem_holders (fun j hj => by
      rw [List.mem_singleton.1 hj]
      exact ⟨a, found, active⟩) found₀ live outside
    refine (get_vacateHolders _).trans ?_
    simp only [others, if_false, Option.map_id']
  exact cut.systemHandoff_ok_iff valid found nofun (by decide)

/-- The system can give up the runtime of a managed tenure iff the tenure fits into a Handoff. -/
theorem reduceUnrecoverableAssignment_iff (valid : s.Valid) (revisions : s.RevisionsBelow)
    {m : MemberGovernance} (found : s.assignments[id]? = some a) (active : a.isActive = true)
    (member : s.members[a.memberPubkey]? = some m) (eligible : m.eligible = true)
    (managed : m.isManagedAgent = true) (notOwner : ¬m.isOwner = true)
    (handoffNonNil : ¬handoffId.isNil = true) (fresh : s.handoffs[handoffId]? = none) :
    (∃ next outcome, s.reduceUnrecoverableAssignment t id actor handoffId = .ok (next, outcome)) ↔
      ¬id.isNil = true ∧ s.Fits id := by
  have keyed : (s.givenUp id actor handoffId a t (s.projectRevision + 1)).Keyed :=
    givenUp_keyed valid.keyed
  simp only [reduceUnrecoverableAssignment_eq_ok valid]
  constructor
  · rintro ⟨next, outcome, a', m', given⟩
    cases found.symm.trans given.ends.found
    have validated := given.validated
    rw [given.next_eq, validate_eq_ok_iff keyed, givenUp_consistent_iff valid revisions found active]
      at validated
    exact ⟨given.nonNil, validated⟩
  · rintro ⟨nonNil, fits⟩
    refine ⟨_, _, a, m, nonNil, handoffNonNil, fresh, revisions.project,
      revisions.canEnd found active, member, eligible, managed, notOwner, rfl, ?_, ?_, rfl⟩
    · rw [validate_eq_ok_iff keyed, givenUp_consistent_iff valid revisions found active]
      exact fits
    · apply changedEntities_ne_nil valid.keyed keyed (k := ⟨.roleHandoff, handoffId⟩)
      · exact congrArg (Option.map _) fresh
      · exact congrArg (Option.map _) ((OrdMap.get_insert _ _ _ _).trans (if_pos rfl))

end GiveUp

/-! ## Replacing a tenure -/

section Replace

variable {id : Uuid} {p p' : RoleAssignmentProposal} {m : MemberGovernance}

/-- The state once the move of `p` is completed for the candidate `m`. -/
def replaced (s : RoleContinuityState) (id : Uuid) (p : RoleAssignmentProposal) (g : PublicKey)
    (t : DateTime) (ids : GeneratedRoleContinuityIds) (m : MemberGovernance) : RoleContinuityState :=
  { (Draft.completed (s.withProposal id p) id p g t (s.projectRevision + 1) ids m).next with
    projectRevision := s.projectRevision + 1 }

theorem replaced_assignments : (s.replaced id p g t ids m).assignments =
    (s.endTenures p.endedIds g .replaced (some ids.assignmentId) t
      (s.projectRevision + 1)).assignments.insert ids.assignmentId
        (p.startedAssignment id ids.assignmentId g t (s.projectRevision + 1)) := rfl

theorem replaced_cutOver (ready : s.CompletionReady p g (s.projectRevision + 1) ids) :
    CutOver s (s.replaced id p g t ids m) p.endedIds g .replaced (some ids.assignmentId) t := by
  refine ⟨rfl, rfl, rfl, rfl, rfl, ?_, fun k a found => ?_⟩
  · rw [← supersededPairs_fst ready.enough]
    rfl
  · have old : k ≠ ids.assignmentId := by
      rintro rfl
      cases ready.assignmentFree.symm.trans found
    rw [replaced_assignments, OrdMap.get_insert_of_ne old, get_endTenures_assignments, found,
      Option.map_some]

/-- The member behind a tenure that goes on is not touched by a completed move. -/
theorem replaced_members (ready : s.CompletionReady p g (s.projectRevision + 1) ids)
    (tenures : s.TenuresApart) {k : Uuid} {a : RoleAssignment} (found : s.assignments[k]? = some a)
    (live : a.isActive = true) (outside : k ∉ p.endedIds) :
    (s.replaced id p g t ids m).members[a.memberPubkey]? = s.members[a.memberPubkey]? := by
  have other : a.memberPubkey ≠ p.candidatePubkey := fun same =>
    outside ((mem_endedIds_iff tenures ready.fence).2 ⟨a, found, live, .inr same⟩)
  have others : a.memberPubkey ∉ s.holders p.endedIds := tenures.notMem_holders (fun j hj => by
    obtain ⟨b, -, ends, -⟩ := ready.ends j hj
    exact ⟨b, ends.found, ends.active⟩) found live outside
  refine (OrdMap.get_insert_of_ne other _ _).trans ((get_vacateHolders _).trans ?_)
  change Option.map (fun m => if a.memberPubkey ∈ s.holders p.endedIds then _ else m)
    s.members[a.memberPubkey]? = _
  simp only [others, if_false, Option.map_id']

theorem replaced_started_ok (ready : s.CompletionReady p g (s.projectRevision + 1) ids)
    (member : s.members[p.candidatePubkey]? = some m) {role : RoleSlot}
    (foundRole : s.roles[p.roleId]? = some role) (active : role.active = true) :
    (s.replaced id p g t ids m).AssignmentOk
      (p.startedAssignment id ids.assignmentId g t (s.projectRevision + 1)) := by
  obtain ⟨-, -, m', member', eligible⟩ := validateCompoundFence_eq_ok.1 ready.fence
  cases member.symm.trans member'
  have stored : (s.replaced id p g t ids m).members[p.candidatePubkey]? =
      some (m.withRole (s.startedRole p m)) := (OrdMap.get_insert _ _ _ _).trans (if_pos rfl)
  refine ⟨role, foundRole, fun _ => ⟨active, _, stored, eligible, ?_⟩, nofun⟩
  rw [startedRole, foundRole]
  split_ifs
  · exact .inl rfl
  · exact .inr rfl

theorem replaced_consistent_iff (valid : s.Valid) (revisions : s.RevisionsBelow)
    (ready : s.CompletionReady p g (s.projectRevision + 1) ids)
    (member : s.members[p.candidatePubkey]? = some m) {role : RoleSlot}
    (foundRole : s.roles[p.roleId]? = some role) (active : role.active = true) :
    (s.replaced id p g t ids m).Consistent ↔ ∀ k ∈ p.endedIds, s.Fits k := by
  have cut : CutOver s (s.replaced id p g t ids m) p.endedIds g .replaced (some ids.assignmentId) t :=
    replaced_cutOver ready
  have tenures := valid.tenuresApart
  have new : (s.replaced id p g t ids m).assignments[ids.assignmentId]? =
      some (p.startedAssignment id ids.assignmentId g t (s.projectRevision + 1)) := by
    rw [replaced_assignments, OrdMap.get_insert, if_pos rfl]
  have handoffs : (s.replaced id p g t ids m).handoffs = OrdMap.overlay RoleHandoff.handoffId s.handoffs
      (s.supersededHandoffs p ids.assignmentId t (s.projectRevision + 1) (p.supersededPairs ids)) :=
    rfl
  rw [cut.consistent_iff valid revisions.project
    (started_tenuresApart tenures ready.fence replaced_assignments) ?assignments handoffs
    ready.handoffs_fresh.1]
  case assignments =>
    intro k a found
    by_cases same : k = ids.assignmentId
    · subst same
      cases new.symm.trans found
      exact replaced_started_ok ready member foundRole active
    · rw [replaced_assignments, OrdMap.get_insert_of_ne same, get_endTenures_assignments,
        Option.map_eq_some_iff] at found
      obtain ⟨a₀, found₀, rfl⟩ := found
      exact cut.assignment_ok valid found₀ fun outside live =>
        replaced_members ready tenures found₀ live outside
  -- the Handoff of one superseded tenure
  have one : ∀ k a handoffId, s.assignments[k]? = some a →
      ((s.replaced id p g t ids m).validateHandoff (s.supersededHandoff p ids.assignmentId t
        (s.projectRevision + 1) a handoffId) = .ok () ↔ s.Fits k) := by
    intro k a handoffId found
    have key : a.assignmentId = k := tenures.keyed k a found
    rw [supersededHandoff, replacedHandoff, key]
    refine cut.systemHandoff_ok_iff valid found (fun j same => ?_) (by decide)
    split_ifs at same with sameRole
    cases same
    exact ⟨_, new, sameRole.symm⟩
  have pairs := supersededPairs_fst ready.enough
  constructor
  · intro generated k ended
    rw [← pairs, List.mem_map] at ended
    obtain ⟨x, hx, rfl⟩ := ended
    obtain ⟨a, ends⟩ := ready.pairs_found hx
    exact (one x.1 a x.2 ends.found).1
      (generated _ (mem_supersededHandoffs.2 ⟨x, hx, a, ends.found, rfl⟩))
  · intro fits h mem
    obtain ⟨x, hx, a, found, rfl⟩ := mem_supersededHandoffs.1 mem
    apply (one x.1 a x.2 found).2 (fits x.1 _)
    rw [← pairs]
    exact List.mem_map_of_mem hx

/-- The command is the confirmation that the Proposal still lacks; the move then rests on the
authority of the governor. -/
inductive Confirms (s : RoleContinuityState) (command : RoleCommand) (actor : PublicKey) (id : Uuid)
    (p : RoleAssignmentProposal) : PublicKey → Prop
  | accept {g : PublicKey} (request : command.request = .acceptProposal id)
      (candidate : p.candidatePubkey = actor) (missing : p.candidateAcceptedAt = none)
      (authorized : p.authorizedBy = some g) : Confirms s command actor id p g
  | authorize (request : command.request = .authorizeProposal id)
      (governor : s.requireGovernorFence command actor = .ok ())
      (accepted : p.candidateAcceptedAt.isSome = true) (missing : p.authorizedAt = none) :
      Confirms s command actor id p actor

/-- A confirming command that passes every fence, with identifiers that are fresh. -/
structure ReadyToConfirm (s : RoleContinuityState) (command : RoleCommand) (actor : PublicKey)
    (t : DateTime) (id : Uuid) (p : RoleAssignmentProposal) (g : PublicKey)
    (ids : GeneratedRoleContinuityIds) : Prop where
  submitted : command.validateForSubmission = .ok ()
  expected : command.expectedProjectRevision = s.projectRevision
  actorFence : s.validateActorFence command actor = .ok ()
  opened : s.openProposal id t = .ok p
  confirms : s.Confirms command actor id p g
  authorized : s.authorizeCompleteMove p g = .ok ()
  compoundFence : s.validateCompoundFence p = .ok ()
  role : ∃ role, s.roles[p.roleId]? = some role ∧ role.active = true
  assignmentNonNil : ¬ids.assignmentId.isNil = true
  assignmentFresh : s.assignments[ids.assignmentId]? = none
  enough : p.endedIds.length ≤ ids.handoffIds.length
  handoffsNodup : (ids.handoffIds.take p.endedIds.length).Nodup
  handoffsFresh : ∀ k ∈ ids.handoffIds.take p.endedIds.length,
    ¬k.isNil = true ∧ s.handoffs[k]? = none

/-- Such a command has everything that the completion depends on. -/
theorem ReadyToConfirm.completionReady (ready : s.ReadyToConfirm command actor t id p g ids)
    (valid : s.Valid) (revisions : s.RevisionsBelow)
    (confirmation : Confirmation command actor t (s.projectRevision + 1) id p g p') :
    s.CompletionReady p' g (s.projectRevision + 1) ids := by
  have move : s.authorizeCompleteMove p' g = s.authorizeCompleteMove p g := by
    cases confirmation <;> rfl
  have fence : s.validateCompoundFence p' = s.validateCompoundFence p := by
    cases confirmation <;> rfl
  have ended : p'.endedIds = p.endedIds := by cases confirmation <;> rfl
  have now : CanTouch (s.projectRevision + 1) p' := by cases confirmation <;> exact .inl rfl
  refine ⟨move.trans ready.authorized, fence.trans ready.compoundFence, ready.assignmentNonNil,
    ready.assignmentFresh, ?_, ?_, ?_, ?_, now⟩
  · rw [ended]
    exact ready.enough
  · rw [ended]
    exact ready.handoffsNodup
  · rw [ended]
    exact ready.handoffsFresh
  · intro k hk
    rw [ended] at hk
    obtain ⟨a, found, active, -⟩ := (mem_endedIds_iff valid.tenuresApart ready.compoundFence).1 hk
    obtain ⟨role, -, ok, -⟩ := valid.consistent.assignment k a found
    obtain ⟨-, m, member, -⟩ := ok active
    exact ⟨a, m, revisions.canEnd found active, member⟩

theorem ReadyToConfirm.applied (ready : s.ReadyToConfirm command actor t id p g ids)
    (valid : s.Valid) (revisions : s.RevisionsBelow) :
    ∃ p', Confirmation command actor t (s.projectRevision + 1) id p g p' ∧
      ∀ d, s.applyRequest command actor t (s.projectRevision + 1) ids = .ok d ↔
        ∃ m, s.members[p.candidatePubkey]? = some m ∧ d =
          Draft.completed (s.withProposal id p') id p' g t (s.projectRevision + 1) ids m := by
  have tenures := valid.tenuresApart
  have keyed := valid.keyed.commitments
  obtain ⟨stored, isOpen, alive⟩ := openProposal_eq_ok.1 ready.opened
  have room : CanTouch (s.projectRevision + 1) p := revisions.canTouch stored
  have completes : ∀ p' d, Confirmation command actor t (s.projectRevision + 1) id p g p' →
      p'.candidateAcceptedAt.isSome = true → p'.authorizedBy = some g →
      (s.Confirmed t (s.projectRevision + 1) ids id p' d ↔ ∃ m, s.members[p.candidatePubkey]? = some m ∧
        d = Draft.completed (s.withProposal id p') id p' g t (s.projectRevision + 1) ids m) := by
    intro p' d confirmation accepted authorized
    obtain ⟨time, accepted⟩ := Option.isSome_iff_exists.1 accepted
    rw [Confirmed, accepted, authorized, ← confirmation.terms.candidatePubkey]
    exact ⟨fun h => h.2, fun h => ⟨ready.completionReady valid revisions confirmation, h⟩⟩
  cases ready.confirms with
  | accept request candidate missing authorized =>
    refine ⟨_, .accept request candidate authorized, fun d => ?_⟩
    rw [← completes _ d (.accept request candidate authorized) rfl authorized, applyRequest, request]
    dsimp only
    rw [applyAcceptProposal_eq_ok tenures keyed]
    constructor
    · rintro ⟨q, stored', -, -, -, -, -, -, confirmed⟩
      cases stored.symm.trans stored'
      exact confirmed
    · intro confirmed
      refine ⟨p, stored, isOpen, alive, candidate, missing, fun g' same => ?_, room, confirmed⟩
      cases authorized.symm.trans same
      exact ready.authorized
  | authorize request governor accepted missing =>
    refine ⟨_, .authorize request accepted, fun d => ?_⟩
    rw [← completes _ d (.authorize request accepted) accepted rfl, applyRequest, request]
    dsimp only
    rw [applyAuthorizeProposal_eq_ok tenures keyed]
    constructor
    · rintro ⟨-, q, stored', -, -, -, -, -, confirmed⟩
      cases stored.symm.trans stored'
      exact confirmed
    · intro confirmed
      exact ⟨governor, p, stored, isOpen, alive, ready.authorized, missing, room, confirmed⟩

/-- A confirming command that passes every fence is accepted iff the tenures it ends fit. -/
theorem ReadyToConfirm.reduce_iff (ready : s.ReadyToConfirm command actor t id p g ids)
    (valid : s.Valid) (revisions : s.RevisionsBelow) :
    (∃ next outcome, s.reduce command actor t ids = .ok (next, outcome)) ↔
      ∀ (k : Uuid) a, s.assignments[k]? = some a → a.isActive = true →
        a.roleId = p.roleId ∨ a.memberPubkey = p.candidatePubkey → s.Fits k := by
  obtain ⟨p', confirmation, applied⟩ := ready.applied valid revisions
  have completion := ready.completionReady valid revisions confirmation
  obtain ⟨role, foundRole, active⟩ := ready.role
  have terms := confirmation.terms
  have ended : p'.endedIds = p.endedIds := by cases confirmation <;> rfl
  have fits : (∀ (k : Uuid) a, s.assignments[k]? = some a → a.isActive = true →
      a.roleId = p.roleId ∨ a.memberPubkey = p.candidatePubkey → s.Fits k) ↔
        ∀ k ∈ p'.endedIds, s.Fits k := by
    simp only [ended, mem_endedIds_iff valid.tenuresApart ready.compoundFence]
    exact ⟨fun h k ⟨a, found, live, same⟩ => h k a found live same,
      fun h k a found live same => h k ⟨a, found, live, same⟩⟩
  rw [fits]
  have consistent : ∀ m, s.members[p.candidatePubkey]? = some m →
      ((s.replaced id p' g t ids m).Consistent ↔ ∀ k ∈ p'.endedIds, s.Fits k) := by
    intro m member
    rw [← terms.candidatePubkey] at member
    rw [← terms.roleId] at foundRole
    exact replaced_consistent_iff valid revisions completion member foundRole active
  have keyed : ∀ m, s.members[p.candidatePubkey]? = some m → (s.replaced id p' g t ids m).Keyed := by
    intro m member
    have effect := applyRequest_effect valid.tenuresApart valid.keyed.commitments
      ((applied _).2 ⟨m, member, rfl⟩)
    exact { effect.keyed valid.keyed with }
  simp only [reduce_eq_ok]
  constructor
  · rintro ⟨next, outcome, d, reduced⟩
    obtain ⟨m, member, rfl⟩ := (applied d).1 reduced.applied
    have validated : (s.replaced id p' g t ids m).validate = .ok () := by
      have h := reduced.validated
      rwa [reduced.next_eq] at h
    rwa [validate_eq_ok_iff (keyed m member), consistent m member] at validated
  · intro all
    obtain ⟨-, -, m, member, -⟩ := validateCompoundFence_eq_ok.1 ready.compoundFence
    refine ⟨s.replaced id p' g t ids m, _, _, ready.submitted, ready.expected, revisions.project,
      ready.actorFence, (applied _).2 ⟨m, member, rfl⟩, rfl, ?_, fun same => ?_, rfl⟩
    · rw [validate_eq_ok_iff (keyed m member), consistent m member]
      exact all
    · have before : s.head ⟨.roleAssignment, ids.assignmentId⟩ = none :=
        congrArg (Option.map _) ready.assignmentFresh
      have now : (s.replaced id p' g t ids m).head ⟨.roleAssignment, ids.assignmentId⟩ = some _ :=
        congrArg (Option.map _) ((OrdMap.get_insert _ _ _ _).trans (if_pos rfl))
      exact changedEntities_ne_nil valid.keyed (keyed m member) before now same.1

end Replace

/-- A tenure can be given up or replaced exactly when its active Commitments fit into the Handoff
that the step generates: nothing else stands in the way, but a tenure with more than 64 of them can
neither be given up nor replaced. -/
theorem cutover_iff (valid : s.Valid) (revisions : s.RevisionsBelow) :
    (∀ (t : DateTime) (id : Uuid) (actor : PublicKey) (handoffId : Uuid) (a : RoleAssignment)
        (m : MemberGovernance), s.assignments[id]? = some a → a.isActive = true →
      s.members[a.memberPubkey]? = some m → m.eligible = true → m.isManagedAgent = true →
      ¬m.isOwner = true → ¬handoffId.isNil = true → s.handoffs[handoffId]? = none →
      ((∃ next outcome, s.reduceUnrecoverableAssignment t id actor handoffId = .ok (next, outcome)) ↔
        ¬id.isNil = true ∧ s.Fits id)) ∧
    ∀ (command : RoleCommand) (actor : PublicKey) (t : DateTime) (id : Uuid)
        (p : RoleAssignmentProposal) (g : PublicKey) (ids : GeneratedRoleContinuityIds),
      s.ReadyToConfirm command actor t id p g ids →
      ((∃ next outcome, s.reduce command actor t ids = .ok (next, outcome)) ↔
        ∀ (k : Uuid) a, s.assignments[k]? = some a → a.isActive = true →
          a.roleId = p.roleId ∨ a.memberPubkey = p.candidatePubkey → s.Fits k) := by
  constructor
  · intro t id actor handoffId a m found active member eligible managed notOwner nonNil fresh
    exact reduceUnrecoverableAssignment_iff valid revisions found active member eligible managed
      notOwner nonNil fresh
  · intro command actor t id p g ids ready
    exact ready.reduce_iff valid revisions

/-! ### At the limit -/

/-- The owner's offer of the ordinary Role to key 3, in place of its holder. -/
def sampleOffer : RoleAssignmentProposal :=
  { proposalId := 30
    roleId := 11
    candidatePubkey := 3
    proposalType := .offer
    candidateAcceptedAt := none
    authorizedBy := some 1
    authorizedAt := some 0
    expectedTargetAssignmentId := some 41
    expectedCandidateAssignmentId := none
    expiresAt := 100
    status := .open
    reason := none
    createdBy := 1
    createdAt := 0
    resolvedAt := none
    entityRevision := 1
    projectRevision := 1 }

/-- A managed Agent of the owner that works on `n` Works at once and is about to be replaced. -/
def sampleBusy (n : Nat) : RoleContinuityState :=
  community [⟨11, .member, true⟩]
    ((List.range n).map fun i =>
      ⟨BitVec.ofNat 128 (1000 + i), some .inProgress, some 11, 1, 1, 0, 1⟩)
    [⟨1, some .owner, true, none⟩, ⟨3, some .member, true, none⟩, ⟨4, some .member, true, some 1⟩]
    [sampleOffer] [sampleTenure 41 11 4]
    ((List.range n).map fun i =>
      sampleCommitment (BitVec.ofNat 128 (2000 + i)) (BitVec.ofNat 128 (1000 + i)) 41 4)

def sampleAcceptance : RoleCommand := .new 1 none (.acceptProposal 30)

/-- Whatever the Agent works on, the acceptance passes every fence. -/
theorem sampleBusy_ready (n : Nat) :
    (sampleBusy n).ReadyToConfirm sampleAcceptance 3 5 30 sampleOffer 1 ⟨42, [60]⟩ where
  submitted := by decide
  expected := rfl
  actorFence := (by decide +kernel : (sampleBusy 0).validateActorFence sampleAcceptance 3 = .ok ())
  opened := (by decide +kernel : (sampleBusy 0).openProposal 30 5 = .ok sampleOffer)
  confirms := .accept rfl rfl rfl rfl
  authorized := (by decide +kernel : (sampleBusy 0).authorizeCompleteMove sampleOffer 1 = .ok ())
  compoundFence := (by decide +kernel : (sampleBusy 0).validateCompoundFence sampleOffer = .ok ())
  role := ⟨⟨11, .member, true⟩,
    (by decide +kernel : (sampleBusy 0).roles[(11 : Uuid)]? = some ⟨11, .member, true⟩), rfl⟩
  assignmentNonNil := by decide
  assignmentFresh := (by decide +kernel : (sampleBusy 0).assignments[(42 : Uuid)]? = none)
  enough := by decide
  handoffsNodup := by decide
  handoffsFresh := by
    intro k hk
    cases List.mem_singleton.1 hk
    exact ⟨by decide, Std.ExtTreeMap.getElem?_empty⟩

theorem sampleBusy_agent (n : Nat) :
    (sampleBusy n).assignments[(41 : Uuid)]? = some (sampleTenure 41 11 4) ∧
      (sampleBusy n).members[(4 : PublicKey)]? = some ⟨4, some .member, true, some 1⟩ := by
  constructor
  · exact (by decide +kernel :
      (sampleBusy 0).assignments[(41 : Uuid)]? = some (sampleTenure 41 11 4))
  · exact (by decide +kernel :
      (sampleBusy 0).members[(4 : PublicKey)]? = some ⟨4, some .member, true, some 1⟩)

/-- With one Commitment more than fits, the Agent can neither be given up nor be replaced: the
reducer rejects the Handoff it has generated itself. -/
theorem sampleBusy_stuck :
    (sampleBusy 65).Valid ∧ (sampleBusy 65).RevisionsBelow ∧
    ((sampleBusy 65).assignments[(41 : Uuid)]? = some (sampleTenure 41 11 4) ∧
      (sampleBusy 65).members[(4 : PublicKey)]? = some ⟨4, some .member, true, some 1⟩) ∧
    (sampleBusy 65).reduceUnrecoverableAssignment 5 41 0 60 =
      .error (.invalidCommand "handoff.unresolved_items cannot contain more than 64 items") ∧
    (sampleBusy 65).ReadyToConfirm sampleAcceptance 3 5 30 sampleOffer 1 ⟨42, [60]⟩ ∧
    (sampleBusy 65).reduce sampleAcceptance 3 5 ⟨42, [60]⟩ =
      .error (.invalidCommand "handoff.unresolved_items cannot contain more than 64 items") :=
  ⟨community_valid (by decide +kernel), ⟨by decide, by decide +kernel⟩, sampleBusy_agent 65,
    by decide +kernel, sampleBusy_ready 65, by decide +kernel⟩

/-- With as many Commitments as fit, both steps are accepted. -/
theorem cutover_iff_sampleBusy :
    (∃ next outcome,
      (sampleBusy 64).reduceUnrecoverableAssignment 5 41 0 60 = .ok (next, outcome)) ∧
    ∃ next outcome, (sampleBusy 64).reduce sampleAcceptance 3 5 ⟨42, [60]⟩ = .ok (next, outcome) := by
  have valid : (sampleBusy 64).Valid := community_valid (by decide +kernel)
  have revisions : (sampleBusy 64).RevisionsBelow := ⟨by decide, by decide +kernel⟩
  have nonNil : ∀ c ∈ (sampleBusy 64).commitments.valueList,
      ¬c.commitmentId.isNil = true ∧ ¬c.workId.isNil = true := by decide +kernel
  have count : ∀ k : Uuid, ((sampleBusy 64).activeCommitmentIds k).length ≤ maxContinuityItems := by
    intro k
    have all : (sampleBusy 64).commitments.valueList.length = 64 := by decide +kernel
    unfold activeCommitmentIds
    rw [List.length_map]
    exact (List.length_filter_le _ _).trans all.le
  have fits : ∀ k, (sampleBusy 64).Fits k := by
    refine fun k => ⟨count k, fun j c found _ _ => ?_⟩
    have key : c.commitmentId = j := valid.keyed.commitments j c found
    rw [← key]
    exact nonNil c (OrdMap.mem_valueList.2 ⟨j, found⟩)
  obtain ⟨giveUp, replace⟩ := cutover_iff valid revisions
  constructor
  · exact (giveUp 5 41 0 60 _ _ (sampleBusy_agent 64).1 rfl (sampleBusy_agent 64).2 rfl rfl (by decide)
      (by decide) (by decide +kernel)).2 ⟨by decide, fits 41⟩
  · exact (replace _ _ _ _ _ _ _ (sampleBusy_ready 64)).2 fun k _ _ _ _ => fits k

end RoleContinuityState

end RoleContinuity

end Carryforth
