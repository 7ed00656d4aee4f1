import Carryforth.ProjectView.V3.Transition

/-!
# Project View v3: projection plans

A reduction is published as one head per changed object: an active Role as its `RoleDefinitionV3`,
everything else as its entry.  The definition is validated with text rules of its own, which are
stricter than those of the reducer: `reduce_projectable_iff` says which accepted Role writes can be
projected.
-/

namespace Carryforth

namespace ProjectView

open Fallible

/-! ## Role definitions -/

namespace Contract

/-- Each item of a list of the closed v3 shapes; there is no bound on their number. -/
def validateStringList (field : String) (values : List String) : V3ContractResult Unit :=
  values.forM fun value => validateNonemptyText field value 32768 .invalidWire

def validatePositiveSafe (value : Nat) (field : String) : V3ContractResult Unit :=
  ensure (1 ≤ value ∧ value ≤ maxSafeRevision)
    (.invalidWire s!"{field} must be JavaScript-safe and positive")

end Contract

structure RoleDefinitionV3 where
  roleId : Uuid
  name : String
  purpose : String
  responsibilities : List String
  boundaries : List String
  level : RoleLevel
  active : Bool
  summary : Option String
  contextReferences : List ProjectContextReference
  objectRevision : Nat
  projectRevision : Nat
  createdAt : DateTime
  updatedAt : DateTime
  createdBy : PublicKey
  updatedBy : PublicKey
deriving DecidableEq, Repr

def RoleDefinitionV3.validate (role : RoleDefinitionV3) : V3ContractResult Unit := do
  within .invalidWire (requireUuidV4 role.roleId "role_id")
  validateNonemptyText "name" role.name 256 .invalidWire
  validateNonemptyText "purpose" role.purpose 32768 .invalidWire
  Contract.validateStringList "responsibilities" role.responsibilities
  Contract.validateStringList "boundaries" role.boundaries
  within (fun error => .invalidWire error.toText) (validateSummary role.summary)
  Contract.validatePositiveSafe role.objectRevision "object_revision"
  Contract.validatePositiveSafe role.projectRevision "project_revision"
  ensure (role.createdAt ≤ role.updatedAt) (.invalidWire "updated_at precedes created_at")
  requireCanonicalContext role.contextReferences

def ProjectViewObjectV3.roleDefinition (object : ProjectViewObjectV3) (level : RoleLevel) :
    V3ContractResult RoleDefinitionV3 :=
  match object.data with
  | .role role => do
    let definition : RoleDefinitionV3 :=
      { roleId := object.id
        name := role.name
        purpose := role.purpose
        responsibilities := role.responsibilities
        boundaries := role.boundaries
        level
        active := role.active
        summary := role.summary
        contextReferences := object.contextReferences
        objectRevision := object.objectRevision
        projectRevision := object.projectRevision
        createdAt := object.createdAt
        updatedAt := object.updatedAt
        createdBy := object.createdBy
        updatedBy := object.updatedBy }
    definition.validate
    return definition
  | _ => .error (.invalidWire "RoleDefinitionV3 requires a Role object")

/-! ## Plans -/

/-- One changed head of a v3 object transition. -/
inductive ProjectedHeadV3
  | role (definition : RoleDefinitionV3)
  | object (entry : ProjectViewEntryV3)
deriving DecidableEq, Repr

def ProjectedHeadV3.objectId : ProjectedHeadV3 → Uuid
  | .role definition => definition.roleId
  | .object entry => entry.id

/-- The changed heads of one project revision. -/
structure ProjectionPlanV3 where
  projectRevision : Nat
  heads : List ProjectedHeadV3
deriving DecidableEq, Repr

namespace ProjectionPlanV3

def head (roleLevel : Uuid → Option RoleLevel) (entry : ProjectViewEntryV3) :
    V3Result ProjectedHeadV3 :=
  match entry with
  | .active object =>
    if object.objectType = .role then do
      let level ← okOr (roleLevel object.id)
        (.invalidRoleLevels s!"active Role {object.id.toText} has no governance level")
      let definition ← within .contract (object.roleDefinition level)
      return .role definition
    else return .object entry
  | .tombstone _ => return .object entry

/-- The plan of a reducer outcome, its heads in the order of their identifiers. -/
def forObjectOutcome (outcome : ProjectObjectOutcomeV3) (roleLevel : Uuid → Option RoleLevel) :
    V3Result ProjectionPlanV3 := do
  let (heads, _) ← outcome.changedEntries.foldlM (fun (heads, seen) entry => do
    ensure (entry.id ∉ seen)
      (.invalidRoleLevels s!"duplicate changed head for object {entry.id.toText}")
    let next ← head roleLevel entry
    return (heads ++ [next], entry.id :: seen)) (([], []) : List ProjectedHeadV3 × List Uuid)
  return {
    projectRevision := outcome.projectRevision
    heads := heads.insertionSort fun a b => (compare a.objectId b.objectId).isLE = true }

theorem forObjectOutcome_singleton {outcome : ProjectObjectOutcomeV3} {entry : ProjectViewEntryV3}
    (changed : outcome.changedEntries = [entry]) {roleLevel : Uuid → Option RoleLevel} :
    (∃ plan, forObjectOutcome outcome roleLevel = .ok plan) ↔
      ∃ only, head roleLevel entry = .ok only := by
  unfold forObjectOutcome
  rw [changed, List.foldlM_cons]
  cases projected : head roleLevel entry with
  | ok only => simp [ensure, pure, Except.pure]
  | error failure => simp [ensure]

end ProjectionPlanV3

/-! ## Text rules -/

/-- Text without white space at either end and without NUL. -/
def CanonicalText (text : String) : Prop := Text.trim text = text ∧ '\x00' ∉ text.toList

instance (text : String) : Decidable (CanonicalText text) :=
  inferInstanceAs (Decidable (_ ∧ _))

def ProjectRole.texts (role : ProjectRole) : List String :=
  role.name :: role.purpose :: (role.responsibilities ++ role.boundaries)

/-- What a field that the reducer accepts lacks for the closed shapes. -/
theorem validateNonemptyText_eq_ok_iff {field other text : String} {most limit : Nat}
    {error : String → V3ContractError} (accepted : validateRequiredText field text most = .ok ())
    (wider : most ≤ limit) :
    validateNonemptyText other text limit error = .ok () ↔ CanonicalText text := by
  simp only [validateRequiredText, then_eq_ok, ensure_eq_ok] at accepted
  obtain ⟨visible, short⟩ := accepted
  have nonempty : text ≠ "" := by
    rintro rfl
    exact visible rfl
  rw [validateNonemptyText, ensure_eq_ok]
  exact ⟨fun ⟨_, trimmed, clean, _⟩ => ⟨trimmed, clean⟩,
    fun ⟨trimmed, clean⟩ => ⟨nonempty, trimmed, clean, short.trans wider⟩⟩

theorem validateStringList_eq_ok_iff {field other : String} {values : List String}
    (accepted : validateStringList field values = .ok ()) :
    Contract.validateStringList other values = .ok () ↔ ∀ text ∈ values, CanonicalText text := by
  simp only [validateStringList, then_eq_ok, forM_eq_ok] at accepted
  rw [Contract.validateStringList, forM_eq_ok]
  exact forall₂_congr fun text mem =>
    validateNonemptyText_eq_ok_iff (accepted.2 text mem) (by decide)

/-- An object the reducer accepts as a Role has a definition exactly when its texts are
canonical. -/
theorem ProjectViewObjectV3.roleDefinition_isOk_iff [UrlParser] {object : ProjectViewObjectV3}
    {role : ProjectRole} (data : object.data = .role role) (valid : object.validate = .ok ())
    (id : object.id.isV4 = true) (level : RoleLevel) :
    (∃ definition, object.roleDefinition level = .ok definition) ↔
      ∀ text ∈ role.texts, CanonicalText text := by
  simp only [ProjectViewObjectV3.validate, data, validateObjectData, legacyData, validateData,
    then_eq_ok, ensure_eq_ok, within_eq_ok, Fallible.ok_bind, pure, Except.pure,
    validateRequiredShort, validateRequiredLong] at valid
  obtain ⟨-, positive, safe, ordered, ⟨name, purpose, responsibilities, boundaries, summary⟩, -,
    context⟩ := valid
  have nonnil : object.id.isNil = false := by
    refine beq_eq_false_iff_ne.2 fun nil => ?_
    rw [nil] at id
    exact absurd id (by decide)
  have revision : ∀ {n : Nat}, n ≠ 0 → n ≤ maxSafeRevision → 1 ≤ n ∧ n ≤ maxSafeRevision :=
    fun nonzero inRange => ⟨Nat.one_le_iff_ne_zero.2 nonzero, inRange⟩
  simp only [roleDefinition, data, bind_eq_ok, exists_unit, pure_eq_ok, exists_and_left,
    exists_eq', and_true, RoleDefinitionV3.validate, within_eq_ok, requireUuidV4, ensure_eq_ok,
    Contract.validatePositiveSafe, validateNonemptyText_eq_ok_iff name (by decide : _ ≤ 256),
    validateNonemptyText_eq_ok_iff purpose (by decide : _ ≤ 32768),
    validateStringList_eq_ok_iff responsibilities, validateStringList_eq_ok_iff boundaries,
    summary, context, ordered, nonnil, id, revision positive.1 safe.1, revision positive.2 safe.2,
    ProjectRole.texts, List.forall_mem_cons, List.forall_mem_append, Bool.false_eq_true,
    not_false_eq_true, true_and, and_self]

/-! ## Accepted Role writes -/

namespace ProjectViewStateV3

def roleLevel (s : ProjectViewStateV3) (roleId : Uuid) : Option RoleLevel := s.roleLevels[roleId]?

/-- The body a command asks for: the one it creates, or the current one with its patch. -/
def requestedBody (s : ProjectViewStateV3) (command : ProjectObjectCommandV3) :
    Option ProjectViewObjectDataV3 :=
  match command.request with
  | .create object => some object.intoParts.2.1
  | .update update =>
    match s.entries[update.objectId]? with
    | some (.active current) => (patchObject current update).toOption.map (·.data)
    | _ => none
  | .delete _ => none

section Projectable

variable [UrlParser] {s next : ProjectViewStateV3} {command : ProjectObjectCommandV3}
  {actor : PublicKey} {now : DateTime} {capabilities : V3ReducerCapabilities}
  {proof : ReferenceTargetProof} {outcome : ProjectObjectOutcomeV3}

/-- The entry a command is stamped into has the requested body; a deletion leaves none. -/
theorem stamp_body {prepared : PreparedEntryV3} {delta : DocumentTargetDelta} {revision : Nat}
    {changed : ProjectViewEntryV3} {levels : OrdMap Uuid RoleLevel}
    (preparation : s.prepareNextEntry command capabilities = .ok (prepared, delta))
    (stamped : s.stamp command prepared revision actor now = .ok (changed, levels)) :
    (∃ object, changed = .active object ∧ s.requestedBody command = some object.data) ∨
      (∃ t, changed = .tombstone t) ∧ s.requestedBody command = none := by
  unfold prepareNextEntry at preparation
  cases request : command.request with
  | create object =>
    rw [request] at preparation
    obtain ⟨-, -, context, -, -, rfl, -⟩ := (prepareCreate_eq_ok rfl).1 preparation
    obtain ⟨rfl, -⟩ := (stamp_create_eq_ok (createdRoleLevel_of_role request)).1 stamped
    refine .inl ⟨_, rfl, ?_⟩
    rw [requestedBody, request]
  | update update =>
    rw [request] at preparation
    obtain ⟨current, patched, context, found, -, applied, -, -, -, -, rfl, -⟩ :=
      prepareUpdate_eq_ok.1 preparation
    obtain ⟨-, rfl, -⟩ := stamp_update_eq_ok.1 stamped
    refine .inl ⟨_, rfl, ?_⟩
    rw [requestedBody, request]
    simp only [found, applied, Except.toOption, Option.map_some]
  | delete delete =>
    rw [request] at preparation
    obtain ⟨current, -, -, -, -, -, rfl, -⟩ := prepareDelete_eq_ok.1 preparation
    obtain ⟨-, rfl, -⟩ := stamp_delete_eq_ok.1 stamped
    refine .inr ⟨⟨_, rfl⟩, ?_⟩
    rw [requestedBody, request]

theorem ValidAt.head_isOk_iff {stateUpdatedAt : DateTime}
    (validAt : s.ValidAt stateUpdatedAt) {object : ProjectViewObjectV3}
    (found : s.entries[object.id]? = some (.active object)) :
    (∃ only, ProjectionPlanV3.head s.roleLevel (.active object) = .ok only) ↔
      ∀ role, object.data = .role role → ∀ text ∈ role.texts, CanonicalText text := by
  have accepted := validAt.entry _ _ found
  simp only [validateEntry, validateActive, then_eq_ok] at accepted
  obtain ⟨-, checked, -, -, identity⟩ := accepted
  have type : object.objectType = object.data.objectType := by
    simp only [ProjectViewObjectV3.validate, then_eq_ok, ensure_eq_ok] at checked
    exact checked.1
  unfold ProjectionPlanV3.head
  by_cases isRole : object.objectType = .role
  · obtain ⟨role, data⟩ : ∃ role, object.data = .role role := by
      rw [isRole] at type
      cases data : object.data with
      | role role => exact ⟨role, rfl⟩
      | _ => rw [data] at type; cases type
    have id : object.id.isV4 = true := by
      rw [if_neg (isRole ▸ by decide)] at identity
      simp only [validateClientObjectId, validateClientGeneratedId, within_eq_ok, then_eq_ok,
        ensure_eq_ok] at identity
      exact identity.2
    obtain ⟨level, levelled⟩ := OrdMap.contains_iff.1 ((validAt.levels _).2 ⟨_, found, isRole⟩)
    simp only [isRole, if_true, roleLevel, levelled, okOr_some, ok_bind, data, bind_eq_ok,
      within_eq_ok, pure_eq_ok, ObjectData.role.injEq, forall_eq',
      ← object.roleDefinition_isOk_iff data checked id level]
    constructor
    · rintro ⟨_, definition, projected, _⟩
      exact ⟨definition, projected⟩
    · rintro ⟨definition, projected⟩
      exact ⟨_, definition, projected, rfl⟩
  · simp only [isRole, if_false, pure_eq_ok, exists_eq', true_iff]
    intro role data
    rw [data] at type
    exact absurd type isRole

/-- A successful reduction can be projected exactly when the Role body it writes, if it writes one,
has canonical texts only: no white space at either end of its name, purpose, responsibilities and
boundaries, and no NUL in them. -/
theorem reduce_projectable_iff
    (run : s.reduce command actor now capabilities proof = .ok (next, outcome)) :
    (∃ plan, ProjectionPlanV3.forObjectOutcome outcome next.roleLevel = .ok plan) ↔
      ∀ role, s.requestedBody command = some (.role role) →
        ∀ text ∈ role.texts, CanonicalText text := by
  obtain ⟨-, -, initialized, -, prepared, delta, changed, levels, preparation, -, -, stamped, rfl,
    valid, rfl⟩ := reduce_eq_ok.1 run
  obtain ⟨_, validAt⟩ := (validate_eq_ok (s := s.written changed levels now) initialized).1 valid
  have there : (s.written changed levels now).entries[changed.id]? = some changed := by
    rw [written, OrdMap.get_insert, if_pos rfl]
  rw [ProjectionPlanV3.forObjectOutcome_singleton rfl]
  rcases stamp_body preparation stamped with ⟨object, rfl, body⟩ | ⟨⟨t, rfl⟩, body⟩
  · rw [validAt.head_isOk_iff there, body]
    simp only [Option.some.injEq]
  · simp only [ProjectionPlanV3.head, pure_eq_ok, exists_eq', body, reduceCtorEq, false_implies,
      implies_true]

end Projectable

/-- A command that creates a Role with the given name. -/
def sampleRoleCreation (name : String) : ProjectObjectCommandV3 :=
  .new 1 none (.create (.role 0x00000000000040008000000000000003 name "r" [] [] true none []))

theorem reduce_projectable_iff_sampleRoleCreation :
    ∃ next outcome plan,
      @reduce noUrls sample (sampleRoleCreation "R") 2 5 ⟨false, false⟩ .new =
        .ok (next, outcome) ∧
      ProjectionPlanV3.forObjectOutcome outcome next.roleLevel = .ok plan := by
  let _ := noUrls
  have accepted : yields (sample.reduce (sampleRoleCreation "R") 2 5 ⟨false, false⟩ .new)
      (fun _ => true) = true := by decide +kernel
  obtain ⟨⟨next, outcome⟩, step, -⟩ := yields_iff.1 accepted
  obtain ⟨plan, projected⟩ := (reduce_projectable_iff step).2 fun role body => by
    cases body
    decide +kernel
  exact ⟨next, outcome, plan, step, projected⟩

/-- The reducer accepts a Role name that starts with a space; its definition is refused. -/
theorem reduce_role_unprojectable :
    ∃ next outcome,
      @reduce noUrls sample (sampleRoleCreation " R") 2 5 ⟨false, false⟩ .new =
        .ok (next, outcome) ∧
      ProjectionPlanV3.forObjectOutcome outcome next.roleLevel =
        .error (.contract (.invalidWire
          "name must be canonical non-empty text of at most 256 UTF-8 bytes")) := by
  let _ := noUrls
  have accepted : yields (sample.reduce (sampleRoleCreation " R") 2 5 ⟨false, false⟩ .new)
      (fun (next, outcome) => ProjectionPlanV3.forObjectOutcome outcome next.roleLevel =
        .error (.contract (.invalidWire
          "name must be canonical non-empty text of at most 256 UTF-8 bytes"))) = true := by
    decide +kernel
  obtain ⟨⟨next, outcome⟩, step, refused⟩ := yields_iff.1 accepted
  exact ⟨next, outcome, step, of_decide_eq_true refused⟩

end ProjectViewStateV3

end ProjectView

end Carryforth
