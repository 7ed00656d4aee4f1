import Carryforth.RoleContinuity.History

/-!
# Role continuity: open Proposals

Expiry is lazy: a Proposal past its deadline stays stored as open until somebody resolves it, and
only `effectiveStatus` tells.  Still there is at most one effectively open Proposal for a Role and a
candidate, at every time from the last step of a run on (`run_soleOpen`), as long as canonical time
does not run backwards.
-/

namespace Carryforth

namespace RoleContinuity

theorem RoleAssignmentProposal.effectiveStatus_eq_open {p : RoleAssignmentProposal} {t : DateTime} :
    p.effectiveStatus t = .open ↔ p.status = .open ∧ t < p.expiresAt := by
  unfold effectiveStatus
  by_cases late : p.expiresAt ≤ t
  · have alive : ¬t < p.expiresAt := not_lt.2 late
    by_cases isOpen : p.status = .open <;> simp [late, alive, isOpen]
  · have alive : t < p.expiresAt := not_le.1 late
    simp [late, alive]

theorem RoleAssignmentProposal.effectiveStatus_antitone {p : RoleAssignmentProposal}
    {t t' : DateTime} (le : t ≤ t') (later : p.effectiveStatus t' = .open) :
    p.effectiveStatus t = .open := by
  rw [effectiveStatus_eq_open] at later ⊢
  exact ⟨later.1, lt_of_le_of_lt le later.2⟩

namespace RoleContinuityState

variable {s s' next : RoleContinuityState} {command : RoleCommand} {actor : PublicKey}
  {t t' : DateTime} {r : Nat} {ids : GeneratedRoleContinuityIds} {d : Draft}
  {outcome : RoleContinuityOutcome}

/-- No two Proposals for one Role and candidate are effectively open at time `t`. -/
def SoleOpen (s : RoleContinuityState) (t : DateTime) : Prop :=
  ∀ (i j : Uuid) p q, s.proposals[i]? = some p → s.proposals[j]? = some q → i ≠ j →
    p.roleId = q.roleId → p.candidatePubkey = q.candidatePubkey →
    ¬(p.effectiveStatus t = .open ∧ q.effectiveStatus t = .open)

theorem SoleOpen.mono (sole : s.SoleOpen t) (le : t ≤ t') : s.SoleOpen t' :=
  fun i j p q foundP foundQ different role candidate both =>
    sole i j p q foundP foundQ different role candidate
      ⟨RoleAssignmentProposal.effectiveStatus_antitone le both.1,
        RoleAssignmentProposal.effectiveStatus_antitone le both.2⟩

/-- A Proposal that is effectively open after a step was so before it, with the same terms, or it is
new and the only one. -/
theorem Effect.openProposal (effect : Effect s command actor t r ids d) {id : Uuid}
    {p : RoleAssignmentProposal} (found : d.next.proposals[id]? = some p)
    (isOpen : p.effectiveStatus t = .open) :
    (∃ p₀, s.proposals[id]? = some p₀ ∧ p₀.effectiveStatus t = .open ∧ p.terms = p₀.terms) ∨
      ∀ (j : Uuid) q, j ≠ id → d.next.proposals[j]? = some q → q.roleId = p.roleId →
        q.candidatePubkey = p.candidatePubkey → q.effectiveStatus t ≠ .open := by
  have same : s.proposals[id]? = some p →
      ∃ p₀, s.proposals[id]? = some p₀ ∧ p₀.effectiveStatus t = .open ∧ p.terms = p₀.terms :=
    fun found => ⟨p, found, isOpen, rfl⟩
  cases effect with
  | @proposed new fresh _ _ sole =>
    change (s.proposals.insert new.proposalId new)[id]? = some p at found
    rw [OrdMap.get_insert] at found
    split_ifs at found with h
    · subst h
      cases found
      right
      intro j q different foundQ role candidate openQ
      change (s.proposals.insert _ _)[j]? = some q at foundQ
      rw [OrdMap.get_insert_of_ne different] at foundQ
      obtain ⟨stored, alive⟩ := RoleAssignmentProposal.effectiveStatus_eq_open.1 openQ
      exact absurd (sole j q foundQ stored role candidate) (not_le.2 alive)
    · exact .inl (same found)
  | @rewritten k q q' stored open₀ _ terms _ =>
    change (s.proposals.insert k q')[id]? = some p at found
    rw [OrdMap.get_insert] at found
    split_ifs at found with h
    · subst h
      cases found
      have alive := (RoleAssignmentProposal.effectiveStatus_eq_open.1 isOpen).2
      rw [terms.expiresAt] at alive
      exact .inl ⟨q, stored, RoleAssignmentProposal.effectiveStatus_eq_open.2 ⟨open₀, alive⟩,
        terms.terms⟩
    · exact .inl (same found)
  | @completed k q q' g m stored open₀ _ _ _ _ _ =>
    change ((s.proposals.insert k q').insert k (q'.consumed t r))[id]? = some p at found
    rw [OrdMap.get_insert, OrdMap.get_insert] at found
    split_ifs at found with h
    · cases found
      cases (RoleAssignmentProposal.effectiveStatus_eq_open.1 isOpen).1
    · exact .inl (same found)
  | _ => exact .inl (same found)

theorem Effect.soleOpen (effect : Effect s command actor t r ids d) (sole : s.SoleOpen t) :
    d.next.SoleOpen t := by
  rintro i j p q foundP foundQ different role candidate ⟨openP, openQ⟩
  rcases effect.openProposal foundP openP with ⟨p₀, storedP, openP₀, termsP⟩ | onlyP
  · rcases effect.openProposal foundQ openQ with ⟨q₀, storedQ, openQ₀, termsQ⟩ | onlyQ
    · simp only [RoleAssignmentProposal.terms, Prod.mk.injEq] at termsP termsQ
      apply sole i j p₀ q₀ storedP storedQ different _ _ ⟨openP₀, openQ₀⟩
      · rw [← termsP.1, ← termsQ.1, role]
      · rw [← termsP.2.1, ← termsQ.2.1, candidate]
    · exact onlyQ i p different foundP role candidate openP
  · exact onlyP j q different.symm foundQ role.symm candidate.symm openQ

/-- A run in which canonical time never decreases, with the time of its last step. -/
inductive TimedRun (s : RoleContinuityState) (t : DateTime) : RoleContinuityState → DateTime → Prop
  | refl : TimedRun s t s t
  | command {s₁ s₂ : RoleContinuityState} {t₁ t₂ : DateTime} {command : RoleCommand}
      {actor : PublicKey} {ids : GeneratedRoleContinuityIds} {outcome : RoleContinuityOutcome}
      (before : TimedRun s t s₁ t₁) (later : t₁ ≤ t₂)
      (run : s₁.reduce command actor t₂ ids = .ok (s₂, outcome)) : TimedRun s t s₂ t₂
  | unrecoverable {s₁ s₂ : RoleContinuityState} {t₁ t₂ : DateTime} {assignmentId : Uuid}
      {systemActor : PublicKey} {handoffId : Uuid} {outcome : RoleContinuityOutcome}
      (before : TimedRun s t s₁ t₁) (later : t₁ ≤ t₂)
      (run : s₁.reduceUnrecoverableAssignment t₂ assignmentId systemActor handoffId =
        .ok (s₂, outcome)) : TimedRun s t s₂ t₂

theorem TimedRun.run (timed : TimedRun s t next t') : Run s next := by
  induction timed with
  | refl => exact .refl
  | command _ _ run ih => exact Relation.ReflTransGen.tail ih (.command run)
  | unrecoverable _ _ run ih => exact Relation.ReflTransGen.tail ih (.unrecoverable run)

theorem TimedRun.soleOpen (timed : TimedRun s t next t') (valid : s.Valid) (sole : s.SoleOpen t) :
    next.SoleOpen t' := by
  induction timed with
  | refl => exact sole
  | command before later run ih =>
    have valid₁ := before.run.valid valid
    obtain ⟨d, reduced⟩ := reduce_eq_ok.1 run
    rw [reduced.next_eq]
    exact (reduced.effect valid₁).soleOpen (ih.mono later)
  | unrecoverable before later run ih =>
    obtain ⟨a, m, given⟩ := (reduceUnrecoverableAssignment_eq_ok (before.run.valid valid)).1 run
    rw [given.next_eq]
    exact ih.mono later

/-- At most one Proposal for a Role and candidate is effectively open, at every time from the last
step of a run on. -/
theorem run_soleOpen (valid : s.Valid) (sole : s.SoleOpen t) (run : TimedRun s t next t')
    {now : DateTime} (later : t' ≤ now) {i j : Uuid} {p q : RoleAssignmentProposal}
    (foundP : next.proposals[i]? = some p) (foundQ : next.proposals[j]? = some q)
    (different : i ≠ j) (role : p.roleId = q.roleId)
    (candidate : p.candidatePubkey = q.candidatePubkey) :
    ¬(p.effectiveStatus now = .open ∧ q.effectiveStatus now = .open) :=
  (run.soleOpen valid sole).mono later i j p q foundP foundQ different role candidate

/-- Key 3 requests the ordinary Role until time 6, and again at time 7; both requests are stored as
open. -/
theorem run_soleOpen_sample : ∃ next p q, TimedRun sample 5 next 7 ∧
    next.proposals[(30 : Uuid)]? = some p ∧ next.proposals[(31 : Uuid)]? = some q ∧
      p.status = .open ∧ q.status = .open ∧
      ¬(p.effectiveStatus 8 = .open ∧ q.effectiveStatus 8 = .open) := by
  have accepted : Fallible.yields
      (sample.reduce (.new 1 none (.requestRole 30 11 6 none)) 3 5 ⟨0, []⟩) (fun x =>
        Fallible.yields (x.1.reduce (.new 2 none (.requestRole 31 11 9 none)) 3 7 ⟨0, []⟩) fun y =>
          (y.1.proposals[(30 : Uuid)]?.any fun p =>
            decide (p.status = .open ∧ p.roleId = 11 ∧ p.candidatePubkey = 3)) &&
          y.1.proposals[(31 : Uuid)]?.any fun q =>
            decide (q.status = .open ∧ q.roleId = 11 ∧ q.candidatePubkey = 3)) = true := by
    decide +kernel
  obtain ⟨⟨s₁, _⟩, first, accepted⟩ := Fallible.yields_iff.1 accepted
  obtain ⟨⟨s₂, _⟩, second, stored⟩ := Fallible.yields_iff.1 accepted
  simp only [Bool.and_eq_true, Option.any_eq_true, decide_eq_true_eq] at stored
  obtain ⟨⟨p, foundP, openP, roleP, keyP⟩, q, foundQ, openQ, roleQ, keyQ⟩ := stored
  have start : sample.SoleOpen 5 := by
    intro i j p q found
    rw [show sample.proposals = ∅ from rfl, Std.ExtTreeMap.getElem?_empty] at found
    cases found
  have run : TimedRun sample 5 s₂ 7 := .command (.command .refl (by decide) first) (by decide) second
  exact ⟨s₂, p, q, run, foundP, foundQ, openP, openQ,
    run_soleOpen sample_valid start run (by decide) foundP foundQ (by decide)
      (roleP.trans roleQ.symm) (keyP.trans keyQ.symm)⟩

end RoleContinuityState

end RoleContinuity

end Carryforth
