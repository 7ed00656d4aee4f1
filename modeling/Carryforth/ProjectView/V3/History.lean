import Carryforth.Lib.Versioned
import Carryforth.ProjectView.V3.Valid

/-!
# Project View v3: history

What one reduction writes (`Written`, `reduce_written`) and what whole runs keep: entries are a
store of versioned records in which tombstones are closed, so identities, provenance and Role levels
never change and the last Goal stays.
-/

namespace Carryforth

namespace ProjectView

open Fallible

namespace ProjectViewEntryV3

/-- What an entry keeps for as long as its identifier is occupied. -/
def provenance : ProjectViewEntryV3 → ProjectViewObjectType × DateTime × PublicKey
  | .active object => (object.objectType, object.createdAt, object.createdBy)
  | .tombstone t => (t.objectType, t.createdAt, t.createdBy)

def IsTombstone : ProjectViewEntryV3 → Prop
  | .active _ => False
  | .tombstone _ => True

theorem not_isTombstone_active (object : ProjectViewObjectV3) :
    ¬IsTombstone (.active object) := fun h => h

instance : Versioned ProjectViewEntryV3 where
  revision := objectRevision
  writtenAt := projectRevision
  stamp
    | .active object, n, r => .active { object with objectRevision := n, projectRevision := r }
    | .tombstone t, n, r => .tombstone { t with objectRevision := n, projectRevision := r }
  revision_stamp e n r := by cases e <;> rfl
  writtenAt_stamp e n r := by cases e <;> rfl

end ProjectViewEntryV3

/-- A patch changes the body and the relations only. -/
theorem patchObject_kept {object updated : ProjectViewObjectV3} {update : UpdateProjectObjectV3}
    (applied : patchObject object update = .ok updated) :
    updated.toObjectHead = object.toObjectHead := by
  unfold patchObject at applied
  split at applied <;> simp only [bind_eq_ok, pure_eq_ok, reduceCtorEq] at applied
  case h_5 | h_8 => obtain ⟨_, _, _, _, rfl⟩ := applied; rfl
  case h_9 => obtain ⟨_, _, _, _, _, _, rfl⟩ := applied; rfl
  all_goals obtain ⟨_, _, rfl⟩ := applied; rfl

theorem applyUpdate_eq_ok [UrlParser] {object updated : ProjectViewObjectV3}
    {update : UpdateProjectObjectV3} :
    applyUpdate object update = .ok updated ↔
      patchObject object update = .ok updated ∧ validateObjectData updated.data = .ok () := by
  simp only [applyUpdate, bind_eq_ok, exists_unit, pure_eq_ok]
  constructor
  · rintro ⟨_, patched, checked, rfl⟩
    exact ⟨patched, checked⟩
  · rintro ⟨patched, checked⟩
    exact ⟨_, patched, checked, rfl⟩

namespace ProjectViewStateV3

variable {s t next : ProjectViewStateV3}

theorem activeObject_eq_ok {id : Uuid} {object : ProjectViewObjectV3} :
    s.activeObject id = .ok object ↔ s.entries[id]? = some (.active object) := by
  unfold activeObject
  rcases s.entries[id]? with - | (o | t) <;> simp

theorem mem_activeObjects {object : ProjectViewObjectV3} :
    object ∈ s.activeObjects ↔ ∃ id : Uuid, s.entries[id]? = some (.active object) := by
  simp only [activeObjects, List.mem_filterMap, OrdMap.mem_valueList]
  constructor
  · rintro ⟨entry, ⟨id, found⟩, active⟩
    cases entry with
    | active o => exact ⟨id, Option.some.inj active ▸ found⟩
    | tombstone t => cases active
  · rintro ⟨id, found⟩
    exact ⟨_, ⟨id, found⟩, rfl⟩

/-! ## One step -/

/-- What a reduction does to the entries and Role levels: create an object, rewrite an active one,
or bury one that is not the last Goal. -/
inductive Written (s : ProjectViewStateV3) : ProjectViewEntryV3 → OrdMap Uuid RoleLevel → Prop
  | created {object : ProjectViewObjectV3} {levels : OrdMap Uuid RoleLevel}
      (fresh : s.entries[object.id]? = none) (first : object.objectRevision = 1)
      (now : object.projectRevision = s.projectRevision + 1)
      (kept : ∀ id : Uuid, id ≠ object.id → levels[id]? = s.roleLevels[id]?) :
      Written s (.active object) levels
  | updated {old object : ProjectViewObjectV3} (found : s.entries[old.id]? = some (.active old))
      (same : object.id = old.id) (type : object.objectType = old.objectType)
      (created : object.createdAt = old.createdAt ∧ object.createdBy = old.createdBy)
      (revised : object.objectRevision = old.objectRevision + 1)
      (now : object.projectRevision = s.projectRevision + 1) :
      Written s (.active object) s.roleLevels
  | deleted {old : ProjectViewObjectV3} (actor : PublicKey) (now : DateTime)
      (found : s.entries[old.id]? = some (.active old))
      (spared : ¬(old.objectType = .goal ∧
        (s.activeObjects.filter fun object => object.objectType = .goal).length = 1)) :
      Written s (.tombstone (old.toObjectHead.buried (old.objectRevision + 1)
        (s.projectRevision + 1) actor now)) s.roleLevels

section Reduction

variable [UrlParser] {command : ProjectObjectCommandV3} {actor : PublicKey} {now : DateTime}
  {capabilities : V3ReducerCapabilities} {proof : ReferenceTargetProof}
  {outcome : ProjectObjectOutcomeV3}

/-- The candidate of a command is new, an active object with another body, or an active object that
may be deleted. -/
theorem prepareNextEntry_cases {prepared : PreparedEntryV3} {delta : DocumentTargetDelta}
    (keyed : s.entries.Keyed ProjectViewEntryV3.id)
    (run : s.prepareNextEntry command capabilities = .ok (prepared, delta)) :
    (∃ id data relations context, prepared = .create id data relations context ∧
      s.entries[id]? = none) ∨
    (∃ old object : ProjectViewObjectV3, prepared = .update object ∧
      s.entries[old.id]? = some (.active old) ∧ object.toObjectHead = old.toObjectHead) ∨
    (∃ old : ProjectViewObjectV3, prepared = .delete old ∧
      s.entries[old.id]? = some (.active old) ∧
      ¬(old.objectType = .goal ∧
        (s.activeObjects.filter fun object => object.objectType = .goal).length = 1)) := by
  unfold prepareNextEntry at run
  cases request : command.request with
  | create object =>
    simp only [request, prepareCreate, bind_eq_ok, exists_unit, ensure_eq_ok, within_eq_ok,
      pure_eq_ok, Prod.mk.injEq, OrdMap.not_contains_iff] at run
    obtain ⟨-, fresh, context, -, -, -, rfl, -⟩ := run
    exact .inl ⟨_, _, _, _, rfl, fresh⟩
  | update update =>
    simp only [request, prepareUpdate, bind_eq_ok, exists_unit, ensure_eq_ok, within_eq_ok,
      pure_eq_ok, Prod.mk.injEq, activeObject_eq_ok] at run
    obtain ⟨old, found, -, updated, applied, context, -, -, -, -, rfl, -⟩ := run
    have under := keyed _ _ found
    have head := patchObject_kept (applyUpdate_eq_ok.1 applied).1
    exact .inr (.inl ⟨old, _, rfl, by rwa [← under] at found, head⟩)
  | delete delete =>
    simp only [request, prepareDelete, bind_eq_ok, exists_unit, ensure_eq_ok, within_eq_ok,
      pure_eq_ok, Prod.mk.injEq, activeObject_eq_ok] at run
    obtain ⟨old, found, -, -, spared, -, rfl, -⟩ := run
    have under := keyed _ _ found
    exact .inr (.inr ⟨old, rfl, by rwa [← under] at found, spared⟩)

theorem reduce_written (initialized : s.isInitialized = true) (valid : s.validate = .ok ())
    (run : s.reduce command actor now capabilities proof = .ok (next, outcome)) :
    ∃ e levels, Written s e levels ∧ outcome.changedEntries = [e] ∧
      next = { s with
        projectRevision := s.projectRevision + 1
        updatedAt := some now
        entries := s.entries.insert e.id e
        roleLevels := levels } ∧ next.validate = .ok () := by
  obtain ⟨stateUpdatedAt, validAt⟩ := (validate_eq_ok initialized).1 valid
  simp only [reduce, bind_eq_ok, exists_unit, ensure_eq_ok, within_eq_ok, pure_eq_ok,
    nextRevision_eq_ok, Prod.exists, Prod.mk.injEq] at run
  obtain ⟨-, -, -, -, prepared, delta, preparation, -, revision, ⟨-, rfl⟩, e, levels, stamped,
    validNext, rfl, rfl⟩ := run
  refine ⟨e, levels, ?_, rfl, rfl, validNext⟩
  obtain ⟨id, data, relations, context, rfl, fresh⟩ | ⟨old, object, rfl, found, head⟩ |
    ⟨old, rfl, found, spared⟩ := prepareNextEntry_cases validAt.keyed preparation
  · unfold stamp at stamped
    dsimp only at stamped
    split_ifs at stamped with role
    · simp only [bind_eq_ok, okOr_eq_ok, pure_eq_ok, Prod.mk.injEq] at stamped
      obtain ⟨level, -, rfl, rfl⟩ := stamped
      exact .created fresh rfl rfl fun id other => OrdMap.get_insert_of_ne other _ _
    · rw [pure_eq_ok, Prod.mk.injEq] at stamped
      obtain ⟨rfl, rfl⟩ := stamped
      exact .created fresh rfl rfl fun _ _ => rfl
  · simp only [stamp, bind_eq_ok, within_eq_ok, nextRevision_eq_ok, pure_eq_ok,
      Prod.mk.injEq] at stamped
    obtain ⟨_, ⟨-, rfl⟩, rfl, rfl⟩ := stamped
    refine .updated found ?_ ?_ ⟨?_, ?_⟩ ?_ rfl <;> simp only [ObjectHead.updated, head]
  · simp only [stamp, bind_eq_ok, within_eq_ok, nextRevision_eq_ok, pure_eq_ok,
      Prod.mk.injEq] at stamped
    obtain ⟨_, ⟨-, rfl⟩, rfl, rfl⟩ := stamped
    exact .deleted actor now found spared

end Reduction

namespace Written

variable {e : ProjectViewEntryV3} {levels : OrdMap Uuid RoleLevel}

theorem projectRevision_eq (written : Written s e levels) :
    e.projectRevision = s.projectRevision + 1 := by
  cases written with
  | created _ _ now => exact now
  | updated _ _ _ _ _ now => exact now
  | deleted => rfl

theorem objectRevision_of_absent (written : Written s e levels) (absent : s.entries[e.id]? = none) :
    e.objectRevision = 1 := by
  cases written with
  | created _ first => exact first
  | updated found same =>
    rw [ProjectViewEntryV3.id, same, found] at absent
    cases absent
  | deleted _ _ found => cases found.symm.trans absent

/-- What an occupied identifier keeps when it is written. -/
theorem revised (written : Written s e levels) {old : ProjectViewEntryV3}
    (found : s.entries[e.id]? = some old) :
    ¬old.IsTombstone ∧ e.provenance = old.provenance ∧
      e.objectRevision = old.objectRevision + 1 := by
  cases written with
  | created fresh => cases fresh.symm.trans found
  | updated before same type created revised =>
    rw [ProjectViewEntryV3.id, same, before, Option.some.injEq] at found
    subst found
    refine ⟨ProjectViewEntryV3.not_isTombstone_active _, ?_, revised⟩
    simp only [ProjectViewEntryV3.provenance, type, created]
  | deleted _ _ before =>
    have same := Option.some.inj (before.symm.trans found)
    subst same
    exact ⟨ProjectViewEntryV3.not_isTombstone_active _, rfl, rfl⟩

theorem storeStep (written : Written s e levels) :
    Store.StoreStep ProjectViewEntryV3.IsTombstone ProjectViewEntryV3.provenance
      (s.projectRevision + 1) s.entries (s.entries.insert e.id e) := by
  intro id
  rw [OrdMap.get_insert]
  split_ifs with same
  · subst same
    cases found : s.entries[e.id]? with
    | none => exact .created (written.objectRevision_of_absent found) written.projectRevision_eq
    | some old =>
      obtain ⟨live, kept, next⟩ := written.revised found
      exact .revised live kept next written.projectRevision_eq
  · exact .same _

theorem roleLevels_kept (written : Written s e levels) {id : Uuid} {old : ProjectViewEntryV3}
    (found : s.entries[id]? = some old) : levels[id]? = s.roleLevels[id]? := by
  cases written with
  | created fresh _ _ kept =>
    refine kept id fun same => ?_
    rw [same, fresh] at found
    cases found
  | updated => rfl
  | deleted => rfl

end Written

/-! ## Goals -/

def HasGoal (s : ProjectViewStateV3) : Prop :=
  ∃ (id : Uuid) (object : ProjectViewObjectV3),
    s.entries[id]? = some (.active object) ∧ object.objectType = .goal

theorem nodup_activeObjects (keyed : s.entries.Keyed ProjectViewEntryV3.id) :
    s.activeObjects.Nodup := by
  refine keyed.nodup_keys.of_map.filterMap ?_
  intro e e' object mem mem'
  cases e <;> cases e' <;> simp_all

/-- When a Goal that is not the only one is buried, another one stays. -/
theorem exists_other_goal (keyed : s.entries.Keyed ProjectViewEntryV3.id)
    {old : ProjectViewObjectV3} (found : s.entries[old.id]? = some (.active old))
    (goal : old.objectType = .goal)
    (several : (s.activeObjects.filter fun object => object.objectType = .goal).length ≠ 1) :
    ∃ (id : Uuid) (object : ProjectViewObjectV3), id ≠ old.id ∧
      s.entries[id]? = some (.active object) ∧ object.objectType = .goal := by
  by_contra none
  push Not at none
  have mem : old ∈ s.activeObjects.filter fun object => object.objectType = .goal :=
    List.mem_filter.2 ⟨mem_activeObjects.2 ⟨_, found⟩, decide_eq_true goal⟩
  have only : ∀ object ∈ s.activeObjects.filter fun object => object.objectType = .goal,
      object = old := by
    intro object member
    obtain ⟨active, isGoal⟩ := List.mem_filter.1 member
    obtain ⟨id, there⟩ := mem_activeObjects.1 active
    by_contra different
    refine none id object (fun same => ?_) there (of_decide_eq_true isGoal)
    rw [same, found, Option.some.injEq, ProjectViewEntryV3.active.injEq] at there
    exact different there.symm
  have nodup := (nodup_activeObjects keyed).filter fun object => object.objectType = .goal
  rw [List.eq_replicate_of_mem only, List.nodup_replicate] at nodup
  have positive := List.length_pos_of_mem mem
  omega

theorem Written.hasGoal {e : ProjectViewEntryV3} {levels : OrdMap Uuid RoleLevel}
    (written : Written s e levels) (keyed : s.entries.Keyed ProjectViewEntryV3.id)
    (goal : s.HasGoal) :
    ∃ (id : Uuid) (object : ProjectViewObjectV3),
      (s.entries.insert e.id e)[id]? = some (.active object) ∧ object.objectType = .goal := by
  obtain ⟨id, object, found, isGoal⟩ := goal
  by_cases same : id = e.id
  · cases written with
    | created fresh => cases fresh.symm.trans (same ▸ found)
    | updated before sameId type =>
      rw [same, ProjectViewEntryV3.id, sameId, before, Option.some.injEq,
        ProjectViewEntryV3.active.injEq] at found
      exact ⟨_, _, by rw [OrdMap.get_insert, if_pos rfl], by rw [type, found, isGoal]⟩
    | deleted actor now before spared =>
      rw [same] at found
      have old := ProjectViewEntryV3.active.inj (Option.some.inj (before.symm.trans found))
      have old : _ = ProjectViewObjectType.goal := old ▸ isGoal
      obtain ⟨other, object', different, there, isGoal'⟩ :=
        exists_other_goal keyed before old fun one => spared ⟨old, one⟩
      exact ⟨other, object', (OrdMap.get_insert_of_ne different _ _).trans there, isGoal'⟩
  · exact ⟨id, object, by rwa [OrdMap.get_insert_of_ne same], isGoal⟩

/-! ## Runs -/

/-- What one successful reduction does to the history. -/
structure StepHistory (s next : ProjectViewStateV3) (outcome : ProjectObjectOutcomeV3) : Prop where
  revision : next.projectRevision = s.projectRevision + 1
  changed : ∃ e, outcome.changedEntries = [e] ∧ s.entries[e.id]? ≠ some e ∧
    next.entries[e.id]? = some e ∧
    (∀ id : Uuid, id ≠ e.id → next.entries[id]? = s.entries[id]?) ∧
    e.projectRevision = next.projectRevision ∧
    (s.entries[e.id]? = none → e.objectRevision = 1) ∧
    ∀ old, s.entries[e.id]? = some old → e.objectRevision = old.objectRevision + 1

/-- What a run keeps: no identifier leaves, a tombstone never changes, and neither do the type and
provenance of an entry, the level of a Role and the presence of a Goal. -/
structure HistoryKept (s t : ProjectViewStateV3) : Prop where
  entries : ∀ (id : Uuid) e, s.entries[id]? = some e → ∃ e', t.entries[id]? = some e' ∧
    e'.provenance = e.provenance ∧ (e.IsTombstone → e' = e)
  levels : ∀ (id : Uuid) e, s.entries[id]? = some e → e.objectType = .role →
    t.roleLevels[id]? = s.roleLevels[id]?
  goal : s.HasGoal → t.HasGoal

theorem HistoryKept.refl (s : ProjectViewStateV3) : HistoryKept s s :=
  ⟨Store.Grows.refl s.entries, fun _ _ _ _ => rfl, id⟩

theorem HistoryKept.trans {u : ProjectViewStateV3} (first : HistoryKept s t)
    (second : HistoryKept t u) : HistoryKept s u := by
  refine ⟨Store.Grows.trans first.entries second.entries, fun id e found role => ?_,
    second.goal ∘ first.goal⟩
  obtain ⟨e', found', kept, -⟩ := first.entries id e found
  have type : e'.objectType = e.objectType := by
    have type := congrArg Prod.fst kept
    cases e <;> cases e' <;> exact type
  exact (second.levels id e' found' (type.trans role)).trans (first.levels id e found role)

section Runs

variable [UrlParser]

/-- A finite sequence of successful reductions, with their outcomes. -/
inductive Run (s : ProjectViewStateV3) : List ProjectObjectOutcomeV3 → ProjectViewStateV3 → Prop
  | refl : Run s [] s
  | tail {t next : ProjectViewStateV3} {outcomes : List ProjectObjectOutcomeV3}
      {outcome : ProjectObjectOutcomeV3} {command : ProjectObjectCommandV3} {actor : PublicKey}
      {now : DateTime} {capabilities : V3ReducerCapabilities} {proof : ReferenceTargetProof}
      (before : Run s outcomes t)
      (step : t.reduce command actor now capabilities proof = .ok (next, outcome)) :
      Run s (outcomes ++ [outcome]) next

variable {command : ProjectObjectCommandV3} {actor : PublicKey} {now : DateTime}
  {capabilities : V3ReducerCapabilities} {proof : ReferenceTargetProof}
  {outcome : ProjectObjectOutcomeV3} {outcomes : List ProjectObjectOutcomeV3}

theorem reduce_valid (initialized : s.isInitialized = true) (valid : s.validate = .ok ())
    (run : s.reduce command actor now capabilities proof = .ok (next, outcome)) :
    next.isInitialized = true ∧ next.validate = .ok () := by
  obtain ⟨e, levels, -, -, rfl, validNext⟩ := reduce_written initialized valid run
  exact ⟨initialized, validNext⟩

theorem reduce_stepHistory (initialized : s.isInitialized = true) (valid : s.validate = .ok ())
    (run : s.reduce command actor now capabilities proof = .ok (next, outcome)) :
    StepHistory s next outcome := by
  obtain ⟨e, levels, written, changed, rfl, -⟩ := reduce_written initialized valid run
  refine ⟨rfl, e, changed, fun same => ?_, by rw [OrdMap.get_insert, if_pos rfl],
    fun id other => OrdMap.get_insert_of_ne other _ _, written.projectRevision_eq,
    written.objectRevision_of_absent, fun old found => (written.revised found).2.2⟩
  have next := (written.revised same).2.2
  omega

theorem reduce_historyKept (initialized : s.isInitialized = true) (valid : s.validate = .ok ())
    (run : s.reduce command actor now capabilities proof = .ok (next, outcome)) :
    HistoryKept s next := by
  obtain ⟨_, validAt⟩ := (validate_eq_ok initialized).1 valid
  obtain ⟨e, levels, written, -, rfl, -⟩ := reduce_written initialized valid run
  exact ⟨written.storeStep.grows, fun id old found _ => written.roleLevels_kept found,
    written.hasGoal validAt.keyed⟩

theorem Run.valid (run : Run s outcomes t) (initialized : s.isInitialized = true)
    (valid : s.validate = .ok ()) : t.isInitialized = true ∧ t.validate = .ok () := by
  induction run with
  | refl => exact ⟨initialized, valid⟩
  | tail _ step ih => exact reduce_valid ih.1 ih.2 step

theorem Run.historyKept (run : Run s outcomes t) (initialized : s.isInitialized = true)
    (valid : s.validate = .ok ()) :
    t.projectRevision = s.projectRevision + outcomes.length ∧ HistoryKept s t := by
  induction run with
  | refl => exact ⟨rfl, .refl s⟩
  | tail before step ih =>
    obtain ⟨initialized', valid'⟩ := before.valid initialized valid
    refine ⟨?_, ih.2.trans (reduce_historyKept initialized' valid' step)⟩
    rw [(reduce_stepHistory initialized' valid' step).revision, ih.1, List.length_append,
      Nat.add_assoc]
    rfl

/-- Identity and history over whole runs: from a valid initialized state, every step of every run
advances the revision by one and changes exactly the entry it reports, and between any two states
of the run nothing is lost, reused or rewritten that must stay. -/
theorem run_history {u : ProjectViewStateV3} {first second : List ProjectObjectOutcomeV3}
    (initialized : s.isInitialized = true) (valid : s.validate = .ok ()) (before : Run s first t)
    (later : Run t second u) :
    u.projectRevision = t.projectRevision + second.length ∧ HistoryKept t u ∧
      ∀ command actor now capabilities proof next outcome,
        u.reduce command actor now capabilities proof = .ok (next, outcome) →
          StepHistory u next outcome ∧ HistoryKept u next := by
  obtain ⟨initializedT, validT⟩ := before.valid initialized valid
  obtain ⟨initializedU, validU⟩ := later.valid initializedT validT
  obtain ⟨revision, kept⟩ := later.historyKept initializedT validT
  exact ⟨revision, kept, fun command actor now capabilities proof next outcome step =>
    ⟨reduce_stepHistory initializedU validU step, reduce_historyKept initializedU validU step⟩⟩

end Runs

/-! ## A small project -/

/-- An object as a snapshot at revision one carries it. -/
def sampleObject (id : Uuid) (data : ProjectViewObjectDataV3) : ProjectViewEntryV3 :=
  .active
    { id
      objectType := data.objectType
      objectRevision := 1
      projectRevision := 1
      createdAt := 0
      updatedAt := 0
      createdBy := 1
      updatedBy := 1
      data
      relations := {}
      contextReferences := [] }

def sampleGoalId : Uuid := 0x00000000000040008000000000000001
def sampleRoleId : Uuid := 0x00000000000040008000000000000002

/-- A Profile, a Goal and a Role at revision one. -/
def sample : ProjectViewStateV3 :=
  { projectId := 1
    projectRevision := 1
    initializedAt := some 0
    updatedAt := some 0
    entries := OrdMap.overlay ProjectViewEntryV3.id ∅
      [sampleObject 1 (.projectProfile ⟨"P", "p", "p", "p", "p", none⟩),
        sampleObject sampleGoalId (.goal ⟨"G", "g", [], none⟩),
        sampleObject sampleRoleId (.role ⟨"R", "r", [], [], true, none⟩)]
    roleLevels := (∅ : OrdMap Uuid RoleLevel).insert sampleRoleId .admin }

theorem exists_reduce_sample : ∃ next outcome, @reduce noUrls sample
    (.new 1 none (.delete ⟨.role, sampleRoleId⟩)) 2 5 ⟨false, false⟩ .new = .ok (next, outcome) := by
  let _ := noUrls
  have accepted : yields (sample.reduce (.new 1 none (.delete ⟨.role, sampleRoleId⟩)) 2 5
      ⟨false, false⟩ .new) (fun _ => true) = true := by decide +kernel
  obtain ⟨⟨next, outcome⟩, step, -⟩ := yields_iff.1 accepted
  exact ⟨next, outcome, step⟩

theorem run_history_sample :
    ∃ next outcome, @reduce noUrls sample
        (.new 1 none (.delete ⟨.role, sampleRoleId⟩)) 2 5 ⟨false, false⟩ .new = .ok (next, outcome) ∧
      StepHistory sample next outcome ∧ HistoryKept sample next := by
  let _ := noUrls
  have valid : sample.validate = .ok () := by decide +kernel
  obtain ⟨next, outcome, step⟩ := exists_reduce_sample
  exact ⟨next, outcome, step, (run_history rfl valid .refl .refl).2.2 _ _ _ _ _ _ _ step⟩

end ProjectViewStateV3

end ProjectView

end Carryforth
