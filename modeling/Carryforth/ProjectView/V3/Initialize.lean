import Carryforth.ProjectView.V3.Projection

/-!
# Project View v3: greenfield initialization

The closed initialization command, the object entries it becomes at revision one, and the snapshot
they form.  The command has list rules of its own for Roles, without a bound on the number of items
and with a wider bound on each: `fromSnapshot_initialEntries_iff` says which accepted commands lead
to a valid state.
-/

namespace Carryforth

namespace ProjectView

open Fallible

/-! ## The command -/

structure InitialRoleDefinitionV3 where
  roleId : Uuid
  name : String
  purpose : String
  responsibilities : List String
  boundaries : List String
  level : RoleLevel
  active : Bool
  summary : Option String
  contextReferences : List ProjectContextReference
deriving DecidableEq, Repr

structure InitialGovernanceAssignmentV3 where
  memberPubkey : PublicKey
  roleId : Uuid
  proposalId : Uuid
  assignmentId : Uuid
deriving DecidableEq, Repr

/-- The greenfield v3 initialization command. -/
structure ProjectViewInitializeV3 where
  schemaVersion : Nat
  expectedProjectRevision : Nat
  preparationOperationId : Uuid
  profile : ProjectProfile
  goals : List InitializeGoal
  initialRoles : List InitialRoleDefinitionV3
  initialGovernanceAssignments : List InitialGovernanceAssignmentV3
deriving DecidableEq, Repr

def validateInitialRole (role : InitialRoleDefinitionV3) : V3ContractResult Unit := do
  within .invalidInitialization (requireUuidV4 role.roleId "role_id")
  validateNonemptyText "name" role.name 256 .invalidInitialization
  validateNonemptyText "purpose" role.purpose 32768 .invalidInitialization
  Contract.validateStringList "responsibilities" role.responsibilities
  Contract.validateStringList "boundaries" role.boundaries
  within (fun error => .invalidInitialization error.toText) (validateSummary role.summary)
  ensure (role.level = .admin ∧ role.active = true ∧ role.contextReferences = [])
    (.invalidInitialization
      "initial governance Roles must be active admin Roles with empty Context")

namespace ProjectViewInitializeV3

/-- The identifiers the governance assignments have used so far. -/
structure Assigned where
  members : List PublicKey := []
  roles : List Uuid := []
  proposals : List Uuid := []
  assignments : List Uuid := []

/-- One Goal: its identifier is new and its body passes the object check. -/
def validateGoal [UrlParser] (objectIds : List Uuid) (goal : InitializeGoal) :
    V3ContractResult (List Uuid) := do
  within .invalidInitialization (requireUuidV4 goal.id "goal.id")
  ensure (goal.id ∉ objectIds)
    (.invalidInitialization "initial Goal and Role IDs must be globally unique")
  within (fun error => .invalidInitialization error.toText) (validateData (.goal goal.intoGoal))
  return goal.id :: objectIds

/-- One Role: it passes its check and its identifier is new. -/
def validateRole (ids : List Uuid × List Uuid) (role : InitialRoleDefinitionV3) :
    V3ContractResult (List Uuid × List Uuid) := do
  validateInitialRole role
  ensure (role.roleId ∉ ids.1 ∧ role.roleId ∉ ids.2)
    (.invalidInitialization "initial Goal and Role IDs must be globally unique")
  return (role.roleId :: ids.1, role.roleId :: ids.2)

/-- One assignment: it targets an initial Role and uses nothing twice. -/
def validateAssignment (roleIds : List Uuid) (seen : Assigned)
    (assignment : InitialGovernanceAssignmentV3) : V3ContractResult Assigned := do
  within .invalidInitialization (requireUuidV4 assignment.roleId "role_id")
  within .invalidInitialization (requireUuidV4 assignment.proposalId "proposal_id")
  within .invalidInitialization (requireUuidV4 assignment.assignmentId "assignment_id")
  ensure (assignment.roleId ∈ roleIds)
    (.invalidInitialization "every governance assignment must target an initial Role")
  ensure (assignment.memberPubkey ∉ seen.members ∧ assignment.roleId ∉ seen.roles ∧
      assignment.proposalId ∉ seen.proposals ∧ assignment.assignmentId ∉ seen.assignments)
    (.invalidInitialization "members, Roles, Proposals, and Assignments must each be unique")
  return {
    members := assignment.memberPubkey :: seen.members
    roles := assignment.roleId :: seen.roles
    proposals := assignment.proposalId :: seen.proposals
    assignments := assignment.assignmentId :: seen.assignments }

/-- The rules that do not need the current membership. -/
def validate [UrlParser] (command : ProjectViewInitializeV3) : V3ContractResult Unit := do
  ensure (command.schemaVersion = projectViewV3SchemaVersion)
    (.invalidInitialization s!"schema_version must be {projectViewV3SchemaVersion}")
  ensure (command.expectedProjectRevision = 0)
    (.invalidInitialization "expected_project_revision must be zero")
  within .invalidInitialization
    (requireUuidV4 command.preparationOperationId "preparation_operation_id")
  within (fun error => .invalidInitialization error.toText)
    (validateData (.projectProfile command.profile))
  ensure (command.goals.length ≤ maxInitialGoals)
    (.invalidInitialization s!"at most {maxInitialGoals} initial Goals are allowed")
  let objectIds ← command.goals.foldlM validateGoal []
  ensure (command.initialRoles ≠ [] ∧ command.initialGovernanceAssignments ≠ [])
    (.invalidInitialization
      "initial_roles and initial_governance_assignments must be non-empty")
  let (roleIds, _) ← command.initialRoles.foldlM validateRole ([], objectIds)
  let assigned ← command.initialGovernanceAssignments.foldlM (validateAssignment roleIds) {}
  ensure (assigned.roles ⊆ roleIds ∧ roleIds ⊆ assigned.roles)
    (.invalidInitialization "every initial governance Role must be assigned exactly once")

end ProjectViewInitializeV3

/-! ## The entries -/

def initialObject (id : Uuid) (data : ProjectViewObjectDataV3)
    (contextReferences : List ProjectContextReference) (actor : PublicKey) (now : DateTime) :
    ProjectViewObjectV3 :=
  { ObjectHead.created id data.objectType 1 actor now with
    data
    relations := {}
    contextReferences }

namespace ProjectViewInitializeV3

def roleBody (role : InitialRoleDefinitionV3) : ProjectRole :=
  { name := role.name
    purpose := role.purpose
    responsibilities := role.responsibilities
    boundaries := role.boundaries
    active := role.active
    summary := role.summary }

/-- The Profile, the Goals and the Roles as objects at revision one. -/
def initialObjects (command : ProjectViewInitializeV3) (communityId : Uuid) (actor : PublicKey)
    (now : DateTime) : List ProjectViewObjectV3 :=
  initialObject communityId (.projectProfile command.profile) [] actor now ::
    (command.goals.map fun goal => initialObject goal.id (.goal goal.intoGoal) [] actor now) ++
    command.initialRoles.map fun role =>
      initialObject role.roleId (.role (roleBody role)) role.contextReferences actor now

def initialEntries (command : ProjectViewInitializeV3) (communityId : Uuid) (actor : PublicKey)
    (now : DateTime) : List ProjectViewEntryV3 :=
  ((command.initialObjects communityId actor now).map .active).insertionSort
    fun a b => (compare a.id b.id).isLE = true

/-- Every initial Role is an admin Role. -/
def initialLevels (command : ProjectViewInitializeV3) : List (Uuid × RoleLevel) :=
  command.initialRoles.map fun role => (role.roleId, .admin)

end ProjectViewInitializeV3

namespace ProjectViewStateV3

def fromSnapshot [UrlParser] (projectId : Uuid) (projectRevision : Nat)
    (initializedAt updatedAt : Option DateTime) (entries : List ProjectViewEntryV3)
    (roleLevels : List (Uuid × RoleLevel)) : V3Result ProjectViewStateV3 := do
  let byId ← entries.foldlM (fun (m : OrdMap Uuid ProjectViewEntryV3) entry => do
    ensure (¬m.contains entry.id = true) (.object (.objectIdAlreadyUsed entry.id))
    return m.insert entry.id entry) ∅
  let levels ← roleLevels.foldlM (fun (m : OrdMap Uuid RoleLevel) keyed => do
    ensure (¬m.contains keyed.1 = true)
      (.invalidRoleLevels s!"duplicate Role level for {keyed.1.toText}")
    return m.insert keyed.1 keyed.2) ∅
  let state : ProjectViewStateV3 :=
    { projectId
      projectRevision
      initializedAt
      updatedAt
      entries := byId
      roleLevels := levels }
  state.validate
  return state

/-- Every state of a run from a valid one is restored from its rows, in whatever order they are
read. -/
theorem run_fromSnapshot [UrlParser] {s t : ProjectViewStateV3} {outcomes : List ProjectObjectOutcomeV3}
    (initialized : s.isInitialized = true) (valid : s.validate = .ok ()) (run : Run s outcomes t)
    {entries : List ProjectViewEntryV3} {levels : List (Uuid × RoleLevel)}
    (rows : entries.Perm t.entries.valueList) (levelRows : levels.Perm t.roleLevels.toList) :
    fromSnapshot t.projectId t.projectRevision t.initializedAt t.updatedAt entries levels = .ok t := by
  obtain ⟨initialized, valid⟩ := run.valid initialized valid
  obtain ⟨_, validAt⟩ := (validate_eq_ok initialized).1 valid
  have distinct : (levels.map Prod.fst).Nodup := by
    rw [(levelRows.map Prod.fst).nodup_iff, Std.ExtTreeMap.map_fst_toList_eq_keys]
    exact Std.ExtTreeMap.nodup_keys
  obtain ⟨collected, levelled, -, found⟩ := OrdMap.foldlM_collectPairs (m := ∅)
    (e := fun keyed : Uuid × RoleLevel => V3ProjectObjectError.invalidRoleLevels
      s!"duplicate Role level for {keyed.1.toText}") distinct fun _ _ => Std.ExtTreeMap.getElem?_empty
  have same : collected = t.roleLevels := by
    refine Std.ExtTreeMap.ext_getElem? fun id => Option.ext fun level => ?_
    rw [found, levelRows.mem_iff, Std.ExtTreeMap.mem_toList_iff_getElem?_eq_some]
    simp
  unfold fromSnapshot
  rw [validAt.keyed.foldlM_collect_of_perm rows, ok_bind, levelled, ok_bind, same]
  dsimp only
  rw [valid]
  rfl

theorem run_fromSnapshot_sample :
    ∃ next outcome, @reduce noUrls sample
        (.new 1 none (.delete ⟨.role, sampleRoleId⟩)) 2 5 ⟨false, false⟩ .new = .ok (next, outcome) ∧
      @fromSnapshot noUrls next.projectId next.projectRevision next.initializedAt next.updatedAt
        next.entries.valueList.reverse next.roleLevels.toList = .ok next := by
  let _ := noUrls
  have valid : sample.validate = .ok () := by decide +kernel
  obtain ⟨next, outcome, step⟩ := exists_reduce_sample
  exact ⟨next, outcome, step,
    run_fromSnapshot rfl valid (.tail .refl step) (List.reverse_perm _) (.refl _)⟩

end ProjectViewStateV3

/-! ## List rules -/

/-- A list within the bounds of the object check: 64 items of 512 bytes. -/
def FitsList (values : List String) : Prop :=
  values.length ≤ listMaxItems ∧ ∀ value ∈ values, Text.byteLength value ≤ listItemMaxBytes

instance (values : List String) : Decidable (FitsList values) :=
  inferInstanceAs (Decidable (_ ∧ _))

theorem not_isBlank_of_canonical {text : String} (nonempty : text ≠ "")
    (trimmed : Text.trim text = text) : ¬Text.isBlank text = true := by
  intro blank
  have all : ∀ c ∈ text.toList, Text.isWhiteSpace c = true := List.all_eq_true.1 blank
  have dropped : text.toList.dropWhile Text.isWhiteSpace = [] := List.dropWhile_eq_nil_iff.2 all
  rw [Text.trim, dropped] at trimmed
  exact nonempty trimmed.symm

/-- What the closed shapes accept as text is text for the object check within its bound. -/
theorem validateRequiredText_eq_ok_iff {field other text : String} {most limit : Nat}
    {error : String → V3ContractError}
    (accepted : validateNonemptyText other text limit error = .ok ()) :
    validateRequiredText field text most = .ok () ↔ Text.byteLength text ≤ most := by
  obtain ⟨nonempty, trimmed, -, -⟩ := ensure_eq_ok.1 accepted
  simp only [validateRequiredText, then_eq_ok, ensure_eq_ok]
  exact and_iff_right (not_isBlank_of_canonical nonempty trimmed)

theorem validateStringList_eq_ok_iff_fitsList {field other : String} {values : List String}
    (accepted : Contract.validateStringList other values = .ok ()) :
    validateStringList field values = .ok () ↔ FitsList values := by
  rw [Contract.validateStringList, forM_eq_ok] at accepted
  simp only [validateStringList, then_eq_ok, ensure_eq_ok, forM_eq_ok, FitsList]
  exact and_congr_right fun _ => forall₂_congr fun value mem =>
    validateRequiredText_eq_ok_iff (accepted value mem)

theorem validateObjectData_roleBody_iff [UrlParser] {role : InitialRoleDefinitionV3}
    (accepted : validateInitialRole role = .ok ()) :
    validateObjectData (.role (ProjectViewInitializeV3.roleBody role)) = .ok () ↔
      FitsList role.responsibilities ∧ FitsList role.boundaries := by
  simp only [validateInitialRole, then_eq_ok, within_eq_ok] at accepted
  obtain ⟨-, name, purpose, responsibilities, boundaries, summary, -⟩ := accepted
  have short : Text.byteLength role.name ≤ shortTextMaxBytes := (ensure_eq_ok.1 name).2.2.2
  have long : Text.byteLength role.purpose ≤ longTextMaxBytes := (ensure_eq_ok.1 purpose).2.2.2
  simp only [validateObjectData, legacyData, pure, Except.pure, ok_bind, within_eq_ok,
    validateData, then_eq_ok, ProjectViewInitializeV3.roleBody, validateRequiredShort,
    validateRequiredLong, validateRequiredText_eq_ok_iff name,
    validateRequiredText_eq_ok_iff purpose, short, long, summary, true_and, and_true,
    validateStringList_eq_ok_iff_fitsList responsibilities,
    validateStringList_eq_ok_iff_fitsList boundaries]

/-! ## Accepted commands -/

namespace ProjectViewInitializeV3

variable [UrlParser] {command : ProjectViewInitializeV3}

structure Accepted (command : ProjectViewInitializeV3) : Prop where
  profile : validateData (.projectProfile command.profile) = .ok ()
  goals : ∀ goal ∈ command.goals, goal.id.isV4 = true ∧
    validateData (.goal goal.intoGoal) = .ok ()
  roles : ∀ role ∈ command.initialRoles, role.roleId.isV4 = true ∧
    validateInitialRole role = .ok () ∧ role.contextReferences = []
  distinct : (command.goals.map (·.id) ++ command.initialRoles.map (·.roleId)).Nodup

/-- An accepted command, read backwards; the governance assignments do not matter to the objects. -/
theorem accepted_of_validate (valid : command.validate = .ok ()) : command.Accepted := by
  simp only [validate, bind_eq_ok, exists_unit, ensure_eq_ok, within_eq_ok, Prod.exists] at valid
  obtain ⟨-, -, -, profile, -, objectIds, goals, -, roleIds, allIds, roles, -⟩ := valid
  have goalStep : ∀ ids goal ids', validateGoal ids goal = .ok ids' →
      (goal.id.isV4 = true ∧ validateData (.goal goal.intoGoal) = .ok ()) ∧ goal.id ∉ ids ∧
        ids' = goal.id :: ids := by
    intro ids goal ids' accepted
    simp only [validateGoal, requireUuidV4, bind_eq_ok, exists_unit, ensure_eq_ok, within_eq_ok,
      pure_eq_ok] at accepted
    exact ⟨⟨accepted.1.2, accepted.2.2.1⟩, accepted.2.1, accepted.2.2.2.symm⟩
  have roleStep : ∀ (ids : List Uuid × List Uuid) role ids', validateRole ids role = .ok ids' →
      validateInitialRole role = .ok () ∧ role.roleId ∉ ids.2 ∧
        ids'.2 = role.roleId :: ids.2 := by
    intro ids role ids' accepted
    simp only [validateRole, bind_eq_ok, exists_unit, ensure_eq_ok, pure_eq_ok] at accepted
    exact ⟨accepted.1, accepted.2.1.2, congrArg Prod.snd accepted.2.2.symm⟩
  obtain ⟨goalsChecked, goalIds, goalNodup⟩ :=
    foldlM_fresh (·.id) id goalStep goals List.nodup_nil
  obtain ⟨rolesChecked, ids, nodup⟩ :=
    foldlM_fresh (·.roleId) Prod.snd roleStep roles goalNodup
  refine ⟨profile, goalsChecked, fun role mem => ?_, ?_⟩
  · have checked := rolesChecked role mem
    refine ⟨?_, checked, ?_⟩
    · simp only [validateInitialRole, requireUuidV4, then_eq_ok, within_eq_ok,
        ensure_eq_ok] at checked
      exact checked.1.2
    · simp only [validateInitialRole, then_eq_ok, ensure_eq_ok] at checked
      exact checked.2.2.2.2.2.2.2.2
  · dsimp only at ids nodup
    rw [ids, show objectIds = _ from goalIds, id, List.append_nil, ← List.reverse_append,
      List.nodup_reverse] at nodup
    exact nodup

variable {communityId : Uuid} {actor : PublicKey} {now : DateTime}

theorem Accepted.nodup_initialEntries (accepted : command.Accepted)
    (community : communityId ∉ command.goals.map (·.id) ++ command.initialRoles.map (·.roleId)) :
    ((command.initialEntries communityId actor now).map ProjectViewEntryV3.id).Nodup := by
  have ids : (command.initialObjects communityId actor now).map (·.id) =
      communityId :: (command.goals.map (·.id) ++ command.initialRoles.map (·.roleId)) := by
    simp only [initialObjects, List.map_cons, List.map_append, List.map_map]
    rfl
  have order := List.perm_insertionSort (fun a b : ProjectViewEntryV3 =>
    (compare a.id b.id).isLE = true) ((command.initialObjects communityId actor now).map .active)
  refine (order.map ProjectViewEntryV3.id).nodup_iff.2 ?_
  rw [List.map_map]
  show ((command.initialObjects communityId actor now).map (·.id)).Nodup
  rw [ids]
  exact List.nodup_cons.2 ⟨community, accepted.distinct⟩

end ProjectViewInitializeV3

namespace ProjectViewStateV3

variable [UrlParser] {s : ProjectViewStateV3} {id : Uuid} {data : ProjectViewObjectDataV3}
  {actor : PublicKey} {now : DateTime}

/-- An initial object of a type without required relations is checked for its body and its
identifier only. -/
theorem validateEntry_initialObject (revision : s.projectRevision = 1)
    (shape : validateRelationShape data.objectType {} = .ok ()) :
    s.validateEntry now (id, .active (initialObject id data [] actor now)) = .ok () ↔
      validateObjectData data = .ok () ∧
        if data.objectType = .projectProfile then id = s.projectId
        else id ≠ s.projectId ∧ id.isV4 = true := by
  have safe : 1 ≤ maxSafeRevision := by decide
  have identity : (if data.objectType = .projectProfile then
      ensure (id = s.projectId) (V3ProjectObjectError.object
        (.invalidFinalState "Profile ID must equal the server-resolved Community ID"))
      else legacy (validateClientObjectId s.projectId id)) = .ok () ↔
      if data.objectType = .projectProfile then id = s.projectId
      else id ≠ s.projectId ∧ id.isV4 = true := by
    split_ifs
    · rw [ensure_eq_ok]
    · rw [within_eq_ok, validateClientObjectId, then_eq_ok, ensure_eq_ok,
        validateClientGeneratedId, ensure_eq_ok]
  rw [← identity]
  simp only [validateEntry, validateActive, ProjectViewObjectV3.validate, initialObject,
    ObjectHead.created, ProjectViewEntryV3.id, revision, then_eq_ok, ensure_eq_ok, within_eq_ok,
    shape, requireCanonicalContext_nil, safe, le_refl, ne_eq, one_ne_zero, not_false_eq_true,
    and_self, true_and, and_true]
  exact Iff.rfl

end ProjectViewStateV3

namespace ProjectViewInitializeV3

open ProjectViewStateV3

section Snapshot

variable [UrlParser] {command : ProjectViewInitializeV3} {communityId : Uuid} {actor : PublicKey}
  {now : DateTime}

omit [UrlParser] in
theorem mem_initialObjects {object : ProjectViewObjectV3} :
    object ∈ command.initialObjects communityId actor now ↔
      object = initialObject communityId (.projectProfile command.profile) [] actor now ∨
      (∃ goal ∈ command.goals, initialObject goal.id (.goal goal.intoGoal) [] actor now = object) ∨
      ∃ role ∈ command.initialRoles,
        initialObject role.roleId (.role (roleBody role)) role.contextReferences actor now =
          object := by
  simp only [initialObjects, List.cons_append, List.mem_cons, List.mem_append, List.mem_map]

theorem Accepted.initialObject_of_mem (accepted : command.Accepted)
    (community : communityId ∉ command.goals.map (·.id) ++ command.initialRoles.map (·.roleId))
    {object : ProjectViewObjectV3}
    (mem : object ∈ command.initialObjects communityId actor now) :
    object = initialObject object.id object.data [] actor now ∧
      validateRelationShape object.data.objectType {} = .ok () ∧
      if object.data.objectType = .projectProfile then object.id = communityId
      else object.id ≠ communityId ∧ object.id.isV4 = true := by
  rcases mem_initialObjects.1 mem with rfl | ⟨goal, goalMem, rfl⟩ | ⟨role, roleMem, rfl⟩
  · exact ⟨rfl, rfl, rfl⟩
  · refine ⟨rfl, rfl, fun same => community ?_, (accepted.goals goal goalMem).1⟩
    exact List.mem_append_left _ (List.mem_map.2 ⟨goal, goalMem, same⟩)
  · obtain ⟨v4, -, context⟩ := accepted.roles role roleMem
    refine ⟨by rw [context]; rfl, rfl, fun same => community ?_, v4⟩
    exact List.mem_append_right _ (List.mem_map.2 ⟨role, roleMem, same⟩)

omit [UrlParser] in
theorem mem_initialEntries {entry : ProjectViewEntryV3} :
    entry ∈ command.initialEntries communityId actor now ↔
      ∃ object ∈ command.initialObjects communityId actor now, .active object = entry := by
  rw [initialEntries, List.mem_insertionSort, List.mem_map]

/-- The state with the entries of a command and the given Role levels. -/
def initialState (command : ProjectViewInitializeV3) (communityId : Uuid) (actor : PublicKey)
    (now : DateTime) (levels : OrdMap Uuid RoleLevel) : ProjectViewStateV3 :=
  { projectId := communityId
    projectRevision := 1
    initializedAt := some now
    updatedAt := some now
    entries := OrdMap.overlay ProjectViewEntryV3.id ∅ (command.initialEntries communityId actor now)
    roleLevels := levels }

section InitialState

variable {levels : OrdMap Uuid RoleLevel} (accepted : command.Accepted)
  (community : communityId ∉ command.goals.map (·.id) ++ command.initialRoles.map (·.roleId))

include accepted community

theorem Accepted.get_initialState {id : Uuid} {e : ProjectViewEntryV3} :
    (command.initialState communityId actor now levels).entries[id]? = some e ↔
      ∃ object ∈ command.initialObjects communityId actor now, .active object = e ∧
        object.id = id := by
  have nodup : ((command.initialEntries communityId actor now).map ProjectViewEntryV3.id).Nodup :=
    accepted.nodup_initialEntries community
  rw [initialState, OrdMap.get_overlay_empty nodup, mem_initialEntries]
  constructor
  · rintro ⟨⟨object, mem, rfl⟩, same⟩
    exact ⟨object, mem, rfl, same⟩
  · rintro ⟨object, mem, rfl, same⟩
    exact ⟨⟨object, mem, rfl⟩, same⟩

theorem Accepted.validateEntry_initialState {object : ProjectViewObjectV3}
    (mem : object ∈ command.initialObjects communityId actor now) :
    (command.initialState communityId actor now levels).validateEntry now
        (object.id, .active object) = .ok () ↔ validateObjectData object.data = .ok () := by
  obtain ⟨same, shape, identity⟩ := accepted.initialObject_of_mem community mem
  rw [same]
  exact (validateEntry_initialObject rfl shape).trans (and_iff_left identity)

theorem Accepted.role_initialState {id : Uuid} :
    id ∈ command.initialLevels.map Prod.fst ↔
      ∃ e, (command.initialState communityId actor now levels).entries[id]? = some e ∧
        e.objectType = .role := by
  rw [initialLevels, List.map_map, List.mem_map]
  constructor
  · rintro ⟨role, mem, rfl⟩
    exact ⟨_, (accepted.get_initialState community).2
      ⟨_, mem_initialObjects.2 (.inr (.inr ⟨role, mem, rfl⟩)), rfl, rfl⟩, rfl⟩
  · rintro ⟨e, there, isRole⟩
    obtain ⟨object, mem, rfl, rfl⟩ := (accepted.get_initialState community).1 there
    rcases mem_initialObjects.1 mem with rfl | ⟨goal, -, rfl⟩ | ⟨role, roleMem, rfl⟩
    · cases isRole
    · cases isRole
    · exact ⟨role, roleMem, rfl⟩

/-- Only the bodies of the objects remain to be checked. -/
theorem Accepted.validate_initialState
    (keys : ∀ id : Uuid, levels.contains id = true ↔ id ∈ command.initialLevels.map Prod.fst) :
    (command.initialState communityId actor now levels).validate = .ok () ↔
      ∀ object ∈ command.initialObjects communityId actor now,
        validateObjectData object.data = .ok () := by
  rw [validate_eq_ok rfl]
  constructor
  · rintro ⟨stateUpdatedAt, valid⟩ object mem
    have same : stateUpdatedAt = now := (Option.some.inj valid.updatedAt).symm
    refine (accepted.validateEntry_initialState community mem).1 (same ▸ valid.entry _ _ ?_)
    exact (accepted.get_initialState community).2 ⟨object, mem, rfl, rfl⟩
  · intro bodies
    have revision : (1 : Nat) ≤ maxSafeRevision := by decide
    refine ⟨now, revision, one_ne_zero, rfl, fun _ same => (Option.some.inj same).ge, ?_, ?_, ?_, ?_⟩
    · intro id e there
      obtain ⟨object, mem, rfl, rfl⟩ := (accepted.get_initialState community).1 there
      exact (accepted.validateEntry_initialState community mem).2 (bodies object mem)
    · exact ⟨_, (accepted.get_initialState community).2
        ⟨_, mem_initialObjects.2 (.inl rfl), rfl, rfl⟩, rfl⟩
    · exact fun id => (keys id).trans (accepted.role_initialState community)
    · rw [validateRelationTargetsAndContext_eq_ok]
      intro id object there
      obtain ⟨_, mem, same, -⟩ := (accepted.get_initialState community).1 there
      cases same
      rw [(accepted.initialObject_of_mem community mem).1]
      exact ⟨rfl, validateContextSource_nil _, fun _ mem => nomatch mem⟩

theorem Accepted.fromSnapshot_isOk_iff :
    (∃ s, fromSnapshot communityId 1 (some now) (some now)
        (command.initialEntries communityId actor now) command.initialLevels = .ok s) ↔
      ∀ object ∈ command.initialObjects communityId actor now,
        validateObjectData object.data = .ok () := by
  have roleIds : (command.initialLevels.map Prod.fst).Nodup := by
    rw [initialLevels, List.map_map]
    exact accepted.distinct.of_append_right
  have nodup : ((command.initialEntries communityId actor now).map ProjectViewEntryV3.id).Nodup :=
    accepted.nodup_initialEntries community
  have collected := OrdMap.foldlM_collect (m := ∅)
    (e := fun e : ProjectViewEntryV3 => V3ProjectObjectError.object (.objectIdAlreadyUsed e.id))
    nodup fun _ _ => Std.ExtTreeMap.getElem?_empty
  obtain ⟨levels, levelled, keys, -⟩ := OrdMap.foldlM_collectPairs (m := ∅)
    (e := fun keyed : Uuid × RoleLevel => V3ProjectObjectError.invalidRoleLevels
      s!"duplicate Role level for {keyed.1.toText}") roleIds fun _ _ => Std.ExtTreeMap.getElem?_empty
  rw [← accepted.validate_initialState community fun id => (keys id).trans (by simp)]
  unfold fromSnapshot
  rw [collected, ok_bind, levelled, ok_bind]
  simp only [bind_eq_ok, exists_unit, pure_eq_ok, exists_and_left, exists_eq', and_true]
  rfl

end InitialState

/-- A command that passes its own contract leads, for every Community that shares no identifier with
it, to a valid state exactly when the lists of its Roles are within the bounds of the object
check. -/
theorem fromSnapshot_initialEntries_iff (valid : command.validate = .ok ())
    (community : communityId ∉ command.goals.map (·.id) ++ command.initialRoles.map (·.roleId)) :
    (∃ s, fromSnapshot communityId 1 (some now) (some now)
        (command.initialEntries communityId actor now) command.initialLevels = .ok s) ↔
      ∀ role ∈ command.initialRoles,
        FitsList role.responsibilities ∧ FitsList role.boundaries := by
  have accepted := accepted_of_validate valid
  rw [accepted.fromSnapshot_isOk_iff community]
  constructor
  · intro bodies role mem
    rw [← validateObjectData_roleBody_iff (accepted.roles role mem).2.1]
    exact bodies _ (mem_initialObjects.2 (.inr (.inr ⟨role, mem, rfl⟩)))
  · intro fits object mem
    rcases mem_initialObjects.1 mem with rfl | ⟨goal, goalMem, rfl⟩ | ⟨role, roleMem, rfl⟩
    · exact within_eq_ok.2 accepted.profile
    · exact within_eq_ok.2 (accepted.goals goal goalMem).2
    · exact (validateObjectData_roleBody_iff (accepted.roles role roleMem).2.1).2 (fits role roleMem)

end Snapshot

/-! ## A small initialization -/

/-- One Goal and one Role with the given responsibilities, assigned to one member. -/
def sample (responsibilities : List String) : ProjectViewInitializeV3 :=
  { schemaVersion := 3
    expectedProjectRevision := 0
    preparationOperationId := 0x00000000000040008000000000000009
    profile := ⟨"P", "p", "p", "p", "p", none⟩
    goals := [⟨0x00000000000040008000000000000001, "G", "g", [], none⟩]
    initialRoles := [
      { roleId := 0x00000000000040008000000000000002
        name := "R"
        purpose := "r"
        responsibilities
        boundaries := []
        level := .admin
        active := true
        summary := none
        contextReferences := [] }]
    initialGovernanceAssignments := [
      ⟨1, 0x00000000000040008000000000000002, 0x00000000000040008000000000000003,
        0x00000000000040008000000000000004⟩] }

theorem fromSnapshot_initialEntries_iff_sample :
    @validate noUrls (sample ["a"]) = .ok () ∧
      ∃ s, @fromSnapshot noUrls 0x00000000000040008000000000000005 1 (some 0) (some 0)
        ((sample ["a"]).initialEntries 0x00000000000040008000000000000005 1 0)
        (sample ["a"]).initialLevels = .ok s := by
  let _ := noUrls
  have valid : (sample ["a"]).validate = .ok () := by decide +kernel
  exact ⟨valid, (fromSnapshot_initialEntries_iff valid (by decide)).2 (by decide +kernel)⟩

/-- Sixty-five responsibilities pass the contract of initialization; the snapshot is refused. -/
theorem fromSnapshot_sample_tooManyItems :
    @validate noUrls (sample (List.replicate 65 "a")) = .ok () ∧
      ¬∃ s, @fromSnapshot noUrls 0x00000000000040008000000000000005 1 (some 0) (some 0)
        ((sample (List.replicate 65 "a")).initialEntries 0x00000000000040008000000000000005 1 0)
        (sample (List.replicate 65 "a")).initialLevels = .ok s := by
  let _ := noUrls
  have valid : (sample (List.replicate 65 "a")).validate = .ok () := by decide +kernel
  have refused : yields (fromSnapshot 0x00000000000040008000000000000005 1 (some 0) (some 0)
      ((sample (List.replicate 65 "a")).initialEntries 0x00000000000040008000000000000005 1 0)
      (sample (List.replicate 65 "a")).initialLevels) (fun _ => true) = false := by decide +kernel
  refine ⟨valid, fun ⟨s, accepted⟩ => ?_⟩
  rw [accepted] at refused
  cases refused

end ProjectViewInitializeV3

end ProjectView

end Carryforth
