import Carryforth.ProjectView.V3.Command

/-!
# Project View v3: the canonical state

The v3 state keeps, beside its entries, the governance level of every Role identity, tombstones
included.  `validate` is the complete check of a snapshot: every entry, the aggregate counts, the
Role levels, and the targets of all relations and Context References.
-/

namespace Carryforth

namespace ProjectView

open Fallible

/-! ## Entries -/

/-- One active schema-v3 object. -/
structure ProjectViewObjectV3 extends ObjectHead where
  data : ProjectViewObjectDataV3
  relations : ProjectViewRelations
  contextReferences : List ProjectContextReference
deriving DecidableEq, Repr

abbrev ProjectViewTombstoneV3 := ProjectViewTombstone

inductive ProjectViewEntryV3
  | active (object : ProjectViewObjectV3)
  | tombstone (tombstone : ProjectViewTombstoneV3)
deriving DecidableEq, Repr

namespace ProjectViewEntryV3

def id : ProjectViewEntryV3 → Uuid
  | .active object => object.id
  | .tombstone t => t.id

def objectType : ProjectViewEntryV3 → ProjectViewObjectType
  | .active object => object.objectType
  | .tombstone t => t.objectType

def objectRevision : ProjectViewEntryV3 → Nat
  | .active object => object.objectRevision
  | .tombstone t => t.objectRevision

def projectRevision : ProjectViewEntryV3 → Nat
  | .active object => object.projectRevision
  | .tombstone t => t.projectRevision

end ProjectViewEntryV3

structure ProjectViewStateV3 where
  projectId : Uuid
  projectRevision : Nat
  initializedAt : Option DateTime
  updatedAt : Option DateTime
  entries : OrdMap Uuid ProjectViewEntryV3
  roleLevels : OrdMap Uuid RoleLevel

/-- Availability facts the reducer consults. -/
structure V3ReducerCapabilities where
  projectContextEnabled : Bool
  documentCapabilityAvailable : Bool
deriving DecidableEq, Repr

/-- What a successful reduction wrote. -/
structure ProjectObjectOutcomeV3 where
  projectRevision : Nat
  changedEntries : List ProjectViewEntryV3
  documentTargetDelta : DocumentTargetDelta

/-- Whether an active object passes its own checks. -/
def ProjectViewObjectV3.validate [UrlParser] (object : ProjectViewObjectV3) : V3Result Unit := do
  ensure (object.objectType = object.data.objectType)
    (.object (.dataTypeMismatch object.objectType object.data.objectType))
  ensure (object.objectRevision ≠ 0 ∧ object.projectRevision ≠ 0)
    (.object (.invalidFinalState
      s!"active object {object.id.toText} must have positive revisions"))
  ensure (object.objectRevision ≤ maxSafeRevision ∧ object.projectRevision ≤ maxSafeRevision)
    (.object (.revisionOutOfRange (max object.objectRevision object.projectRevision)
      maxSafeRevision))
  ensure (object.createdAt ≤ object.updatedAt)
    (.object (.invalidFinalState s!"object {object.id.toText} was updated before creation"))
  validateObjectData object.data
  legacy (validateRelationShape object.objectType object.relations)
  within .contract (requireCanonicalContext object.contextReferences)

namespace ProjectViewStateV3

def new (projectId : Uuid) : ProjectViewStateV3 :=
  { projectId
    projectRevision := 0
    initializedAt := none
    updatedAt := none
    entries := ∅
    roleLevels := ∅ }

def isInitialized (s : ProjectViewStateV3) : Bool := s.initializedAt.isSome

def activeObjects (s : ProjectViewStateV3) : List ProjectViewObjectV3 :=
  s.entries.valueList.filterMap fun entry =>
    match entry with
    | .active object => some object
    | .tombstone _ => none

/-- What a relation finds under an identifier. -/
def resolve (s : ProjectViewStateV3) (id : Uuid) : Option Target :=
  s.entries[id]?.map fun entry =>
    match entry with
    | .active object => .active object.objectType
    | .tombstone _ => .deleted

/-! ## Validation -/

/-- The checks of an active object against the aggregate. -/
def validateActive [UrlParser] (s : ProjectViewStateV3) (stateUpdatedAt : DateTime)
    (object : ProjectViewObjectV3) : V3Result Unit := do
  object.validate
  ensure (object.projectRevision ≤ s.projectRevision)
    (.object (.invalidFinalState s!"object {object.id.toText} has a future Project revision"))
  ensure (object.updatedAt ≤ stateUpdatedAt)
    (.object (.invalidFinalState s!"object {object.id.toText} was updated after aggregate state"))
  if object.objectType = .projectProfile then
    ensure (object.id = s.projectId)
      (.object (.invalidFinalState "Profile ID must equal the server-resolved Community ID"))
  else
    legacy (validateClientObjectId s.projectId object.id)

/-- The checks of a tombstone against the aggregate. -/
def validateTombstone (s : ProjectViewStateV3) (stateUpdatedAt : DateTime)
    (t : ProjectViewTombstoneV3) : V3Result Unit := do
  legacy (validateRevision t.objectRevision)
  legacy (validateRevision t.projectRevision)
  ensure (¬(t.objectRevision = 0 ∨ t.projectRevision = 0 ∨ s.projectRevision < t.projectRevision ∨
      t.deletedAt < t.createdAt ∨ stateUpdatedAt < t.deletedAt))
    (.object (.invalidFinalState s!"invalid v3 tombstone {t.id.toText} lifecycle"))
  ensure (t.objectType ≠ .projectProfile)
    (.object (.invalidFinalState "the Project Profile cannot be tombstoned"))
  legacy (validateClientObjectId s.projectId t.id)

def validateEntry [UrlParser] (s : ProjectViewStateV3) (stateUpdatedAt : DateTime)
    (keyed : Uuid × ProjectViewEntryV3) : V3Result Unit := do
  ensure (keyed.1 = keyed.2.id)
    (.object (.invalidFinalState
      (s!"entry map key {keyed.1.toText} does not match canonical object " ++
        keyed.2.id.toText)))
  match keyed.2 with
  | .active object => s.validateActive stateUpdatedAt object
  | .tombstone t => s.validateTombstone stateUpdatedAt t

/-- Count the active profiles and collect the Role identities, tombstones included. -/
def countEntry (seen : Nat × List Uuid) (keyed : Uuid × ProjectViewEntryV3) : Nat × List Uuid :=
  let roleIds := if keyed.2.objectType = .role then keyed.2.id :: seen.2 else seen.2
  match keyed.2 with
  | .active object =>
    (if object.objectType = .projectProfile then seen.1 + 1 else seen.1, roleIds)
  | .tombstone _ => (seen.1, roleIds)

def validateRelationTargetsAndContext (s : ProjectViewStateV3) : V3Result Unit :=
  s.activeObjects.forM fun object => do
    legacy (validateRelationTargets s.resolve object.id object.relations)
    validateContextSource object.objectType object.contextReferences
    object.contextReferences.forM fun reference =>
      match reference with
      | .resource resourceId =>
        ensure (s.resolve resourceId = some (.active .resource))
          (.invalidResourceTarget resourceId)
      | .document .. => return ()

def validate [UrlParser] (s : ProjectViewStateV3) : V3Result Unit := do
  legacy (validateRevision s.projectRevision)
  match s.initializedAt with
  | none =>
    ensure (s.projectRevision = 0 ∧ s.entries.isEmpty = true ∧ s.updatedAt = none ∧
        s.roleLevels.isEmpty = true)
      (.object (.invalidFinalState
        "an uninitialized v3 state must have revision zero and no canonical rows"))
  | some initializedAt => do
    ensure (s.projectRevision ≠ 0)
      (.object (.invalidFinalState "an initialized v3 state must have a positive revision"))
    let stateUpdatedAt ← okOr s.updatedAt
      (.object (.invalidFinalState "an initialized v3 state must have an update time"))
    ensure (initializedAt ≤ stateUpdatedAt)
      (.object (.invalidFinalState
        "Project initialization time cannot follow its update time"))
    let seen ← s.entries.toList.foldlM (fun seen keyed => do
      s.validateEntry stateUpdatedAt keyed
      return countEntry seen keyed) (0, [])
    ensure (seen.1 = 1)
      (.object (.invalidFinalState s!"expected exactly one active Profile, found {seen.1}"))
    ensure (seen.2.all s.roleLevels.contains = true ∧
        s.roleLevels.keys.all seen.2.contains = true)
      (.invalidRoleLevels
        "every Role identity, including tombstones, must have exactly one level")
    s.validateRelationTargetsAndContext

end ProjectViewStateV3

end ProjectView

end Carryforth
