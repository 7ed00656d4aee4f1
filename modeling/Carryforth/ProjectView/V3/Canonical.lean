import Carryforth.Lib.Postcard
import Carryforth.ProjectView.Validation

/-!
# Canonical values of migration and maintenance

What is reviewed, signed and repaired is named by digests.  Hashed are a tag for the kind of the
value and its postcard encoding, so the digest names the value if these bytes do.  They do for every
kind but one: the relation slots of a legacy Resource are skipped when they are empty, and postcard
writes nothing in their place, so identifiers could move between slots of one type
(`bytes_identify_iff`).  A Resource may carry no relations, and then they cannot (`bytes_identify`).
-/

namespace Carryforth

namespace ProjectView

open Postcard PostcardFormat Delimited

abbrev Digest := BitVec 256

/-! ## Legacy Resources -/

inductive CanonicalLegacyObjectStateV1
  | active
  | deleted
deriving DecidableEq, Repr

structure CanonicalLegacyResourceV1 where
  schemaVersion : Nat
  resourceId : Uuid
  objectRevision : Nat
  projectRevision : Nat
  state : CanonicalLegacyObjectStateV1
  resourceData : Option ProjectResource
  relations : ProjectViewRelations
deriving DecidableEq, Repr

instance : Postcard CanonicalLegacyObjectStateV1 :=
  via CanonicalLegacyObjectStateV1.ctorIdx fun a b same => by
    cases a <;> cases b <;> first | rfl | cases same

theorem ResourceType.eq_of_ctorIdx (a b : ResourceType) (same : a.ctorIdx = b.ctorIdx) : a = b := by
  cases a <;> cases b <;> first | rfl | cases same

theorem LocatorType.eq_of_ctorIdx (a b : LocatorType) (same : a.ctorIdx = b.ctorIdx) : a = b := by
  cases a <;> cases b <;> first | rfl | cases same

instance : Postcard ResourceType := via ResourceType.ctorIdx ResourceType.eq_of_ctorIdx

instance : Postcard LocatorType := via LocatorType.ctorIdx LocatorType.eq_of_ctorIdx

instance : Postcard ResourceLocator :=
  via (fun v => (v.locatorType, v.value)) fun a b same => by cases a; cases b; simpa using same

instance : Postcard ProjectResource :=
  via (fun v => (v.name, v.resourceType, v.locator, v.description)) fun a b same => by
    cases a; cases b; simpa using same

section

variable [PostcardFormat]

/-- An identifier is written as bytes behind their number. -/
def writeUuid (id : Uuid) : List UInt8 := lengthPrefixed (Bytes.bigEndian 16 id.toNat)

def ObjectRef.write (ref : ObjectRef) : List UInt8 :=
  unsigned ref.objectType.ctorIdx ++ writeUuid ref.objectId

/-- A field that is skipped when it is absent. -/
def writeUnlessNone {α : Type} (write : α → List UInt8) : Option α → List UInt8
  | none => []
  | some a => mark true ++ write a

def ProjectViewRelations.write (r : ProjectViewRelations) : List UInt8 :=
  writeUnlessNone writeUuid r.underGoalId ++ writeUnlessNone writeUuid r.underPlanId ++
    writeUnlessNone writeUuid r.plannedInStageId ++ writeUnlessNone ObjectRef.write r.about ++
    writeUnlessNone ObjectRef.write r.handles

def CanonicalLegacyResourceV1.write (v : CanonicalLegacyResourceV1) : List UInt8 :=
  Postcard.write (v.schemaVersion, v.resourceId, v.objectRevision, v.projectRevision, v.state,
    v.resourceData) ++ v.relations.write

end

/-! ## Cutover payloads, Guides, mappings and reviews -/

structure CanonicalProjectResourceV3 where
  name : String
  resourceKind : String
  summary : Option String
  guideDocumentId : Uuid
deriving DecidableEq, Repr

inductive CanonicalDocumentReferenceModeV1
  | live
  | pinned
deriving DecidableEq, Repr

inductive CanonicalContextReferenceV1
  | resource (resourceId : Uuid)
  | document (documentId : Uuid) (mode : CanonicalDocumentReferenceModeV1)
      (documentRevision : Option Nat)
deriving DecidableEq, Repr

structure CanonicalResourceCutoverV1 where
  resourceData : CanonicalProjectResourceV3
  contextReferences : List CanonicalContextReferenceV1
deriving DecidableEq, Repr

structure CanonicalGuideSnapshotV1 where
  documentId : Uuid
  documentRevision : Nat
  title : String
  summary : Option String
  contentMarkdown : String
deriving DecidableEq, Repr

structure CanonicalResourceMappingEntryV1 where
  communityId : Uuid
  baseMetaEventId : Digest
  baseProjectRevision : Nat
  baseProjectionGeneration : Nat
  resourceId : Uuid
  legacyObjectRevision : Nat
  legacyProjectionEventId : Digest
  legacyBodyDigest : Digest
  v3PayloadDigest : Digest
  guideDocumentId : Uuid
  guideDocumentRevision : Nat
  guideHeadEventId : Digest
  guideRevisionEventId : Digest
  guideContentDigest : Digest
deriving DecidableEq, Repr

structure CanonicalResourceReviewV1 where
  mappingEntryDigest : Digest
  reviewedByPubkey : PublicKey
  reviewedAtUnixMicros : Int64
deriving DecidableEq, Repr

instance : Postcard CanonicalProjectResourceV3 :=
  via (fun v => (v.name, v.resourceKind, v.summary, v.guideDocumentId)) fun a b same => by
    cases a; cases b; simpa using same

instance : Postcard CanonicalDocumentReferenceModeV1 :=
  via CanonicalDocumentReferenceModeV1.ctorIdx fun a b same => by
    cases a <;> cases b <;> first | rfl | cases same

def CanonicalContextReferenceV1.parts :
    CanonicalContextReferenceV1 → Uuid ⊕ Uuid × CanonicalDocumentReferenceModeV1 × Option Nat
  | .resource resourceId => .inl resourceId
  | .document documentId mode documentRevision => .inr (documentId, mode, documentRevision)

instance : Postcard CanonicalContextReferenceV1 :=
  via CanonicalContextReferenceV1.parts fun a b same => by cases a <;> cases b <;> cases same <;> rfl

instance : Postcard CanonicalResourceCutoverV1 :=
  via (fun v => (v.resourceData, v.contextReferences)) fun a b same => by
    cases a; cases b; simpa using same

instance : Postcard CanonicalGuideSnapshotV1 :=
  via (fun v => (v.documentId, v.documentRevision, v.title, v.summary, v.contentMarkdown))
    fun a b same => by cases a; cases b; simpa using same

instance : Postcard CanonicalResourceMappingEntryV1 :=
  via (fun v => (v.communityId, v.baseMetaEventId, v.baseProjectRevision, v.baseProjectionGeneration,
    v.resourceId, v.legacyObjectRevision, v.legacyProjectionEventId, v.legacyBodyDigest,
    v.v3PayloadDigest, v.guideDocumentId, v.guideDocumentRevision, v.guideHeadEventId,
    v.guideRevisionEventId, v.guideContentDigest)) fun a b same => by
      cases a; cases b; simpa using same

instance : Postcard CanonicalResourceReviewV1 :=
  via (fun v => (v.mappingEntryDigest, v.reviewedByPubkey, v.reviewedAtUnixMicros))
    fun a b same => by cases a; cases b; simpa using same

/-! ## Manifests -/

structure ReviewedResourceMappingV1 where
  resourceId : Uuid
  legacyObjectRevision : Nat
  legacyProjectionEventId : Digest
  legacyBodyDigest : Digest
  reviewedV3Payload : CanonicalResourceCutoverV1
  v3PayloadDigest : Digest
  guideDocumentRevision : Nat
  guideHeadEventId : Digest
  guideRevisionEventId : Digest
  guideContentDigest : Digest
  mappingEntryDigest : Digest
  reviewedByPubkey : PublicKey
  reviewedAtUnixMicros : Int64
  reviewDigest : Digest
  /-- A signature, without its length. -/
  reviewSignature : BitVec 512
deriving DecidableEq, Repr

structure ResourceMappingManifestV1 where
  schemaVersion : Nat
  communityId : Uuid
  baseMetaEventId : Digest
  baseProjectRevision : Nat
  baseProjectionGeneration : Nat
  entries : List ReviewedResourceMappingV1
deriving DecidableEq, Repr

instance : Postcard ReviewedResourceMappingV1 :=
  via (fun v => (v.resourceId, v.legacyObjectRevision, v.legacyProjectionEventId, v.legacyBodyDigest,
    v.reviewedV3Payload, v.v3PayloadDigest, v.guideDocumentRevision, v.guideHeadEventId,
    v.guideRevisionEventId, v.guideContentDigest, v.mappingEntryDigest, v.reviewedByPubkey,
    v.reviewedAtUnixMicros, v.reviewDigest, v.reviewSignature)) fun a b same => by
      cases a; cases b; simpa using same

instance : Postcard ResourceMappingManifestV1 :=
  via (fun v => (v.schemaVersion, v.communityId, v.baseMetaEventId, v.baseProjectRevision,
    v.baseProjectionGeneration, v.entries)) fun a b same => by cases a; cases b; simpa using same

/-! ## Repair plans -/

inductive RepairActionV1
  | reapplyCommittedResource (resourceId : Uuid) (mappingEntryDigest : Digest)
  | rebuildObjectProvenance (objectId : Uuid) (expectedBusinessBodyDigest expectedSourceDigest : Digest)
  | rebuildNormalizedContext (objectId : Uuid) (expectedBusinessBodyDigest : Digest)
deriving DecidableEq, Repr

structure CanonicalMaintenanceRepairPlanV1 where
  schemaVersion : Nat
  communityId : Uuid
  maintenanceEpoch : Nat
  cutoverChangeId : Digest
  expectedProjectRevision : Nat
  expectedProjectionGeneration : Nat
  actions : List RepairActionV1
deriving DecidableEq, Repr

namespace RepairActionV1

/-- The variant is a field of its own, by name. -/
def type : RepairActionV1 → String
  | reapplyCommittedResource _ _ => "reapply_committed_resource"
  | rebuildObjectProvenance _ _ _ => "rebuild_object_provenance"
  | rebuildNormalizedContext _ _ => "rebuild_normalized_context"

def fields [PostcardFormat] : RepairActionV1 → List UInt8
  | reapplyCommittedResource resourceId mappingEntryDigest => write (resourceId, mappingEntryDigest)
  | rebuildObjectProvenance objectId expectedBusinessBodyDigest expectedSourceDigest =>
    write (objectId, expectedBusinessBodyDigest, expectedSourceDigest)
  | rebuildNormalizedContext objectId expectedBusinessBodyDigest =>
    write (objectId, expectedBusinessBodyDigest)

end RepairActionV1

instance : Postcard RepairActionV1 where
  write action := write action.type ++ action.fields
  delimits := fun [PostcardFormat] => delimits.tagged (fun _ _ => trivial) <| by
    intro a b types s t same
    cases a <;> cases b <;> simp only [RepairActionV1.type] at types <;>
      first | exact absurd types (by decide) | simp only [RepairActionV1.fields] at same
    all_goals
      obtain ⟨parts, rest⟩ := delimits trivial trivial same
      cases parts
      exact ⟨rfl, rest⟩

instance : Postcard CanonicalMaintenanceRepairPlanV1 :=
  via (fun v => (v.schemaVersion, v.communityId, v.maintenanceEpoch, v.cutoverChangeId,
    v.expectedProjectRevision, v.expectedProjectionGeneration, v.actions)) fun a b same => by
      cases a; cases b; simpa using same

/-! ## What is hashed -/

/-- A value that has a digest. -/
inductive Canonical
  | legacyResource (v : CanonicalLegacyResourceV1)
  | resourceCutoverPayload (v : CanonicalResourceCutoverV1)
  | guideSnapshot (v : CanonicalGuideSnapshotV1)
  | mappingEntry (v : CanonicalResourceMappingEntryV1)
  | review (v : CanonicalResourceReviewV1)
  | manifest (v : ResourceMappingManifestV1)
  | maintenanceRepairPlan (v : CanonicalMaintenanceRepairPlanV1)
deriving DecidableEq, Repr

namespace Canonical

/-- The tag of the kind, which a zero byte ends. -/
def domain : Canonical → String
  | legacyResource _ => "buzz-pv3-legacy-resource-v1"
  | resourceCutoverPayload _ => "buzz-pv3-resource-cutover-payload-v1"
  | guideSnapshot _ => "buzz-pv3-guide-snapshot-v1"
  | mappingEntry _ => "buzz-pv3-resource-mapping-v1"
  | review _ => "buzz-pv3-resource-review-v1"
  | manifest _ => "buzz-pv3-resource-manifest-v1"
  | maintenanceRepairPlan _ => "buzz-pv3-maintenance-repair-plan-v1"

section

variable [PostcardFormat]

def body : Canonical → List UInt8
  | legacyResource v => v.write
  | resourceCutoverPayload v => write v
  | guideSnapshot v => write v
  | mappingEntry v => write v
  | review v => write v
  | manifest v => write v
  | maintenanceRepairPlan v => write v

def bytes (v : Canonical) : List UInt8 := Text.utf8 v.domain ++ [0] ++ v.body

theorem bytes_eq_iff {v w : Canonical} :
    v.bytes = w.bytes ↔ v.domain = w.domain ∧ v.body = w.body := by
  have tags : SelfDelimiting (fun s => (0 : UInt8) ∉ Text.utf8 s) fun s => Text.utf8 s ++ [0] :=
    terminated (fun _ free => free) Text.utf8_injective
  have free : ∀ v : Canonical, (0 : UInt8) ∉ Text.utf8 v.domain := by
    intro v
    cases v <;> simp only [domain] <;> decide +kernel
  constructor
  · exact fun same => tags (free v) (free w) same
  · rintro ⟨domains, bodies⟩
    rw [bytes, bytes, domains, bodies]

end

end Canonical

/-! ## Relation slots -/

inductive Slot
  | uuid (id : Uuid)
  | object (ref : ObjectRef)

def Slot.write [PostcardFormat] : Slot → List UInt8
  | .uuid id => mark true ++ writeUuid id
  | .object ref => mark true ++ ref.write

theorem delimits_writeUuid [PostcardFormat] : SelfDelimiting (fun _ => True) writeUuid :=
  Delimited.lengthPrefixed delimits_unsigned fun a b same =>
    BitVec.eq_of_toNat_eq (Bytes.bigEndian_inj a.isLt b.isLt same)

/-- The number behind the mark of an identifier is its length, and no type has that index. -/
theorem delimits_slot [PostcardFormat] : SelfDelimiting (fun _ => True) Slot.write := by
  have small : ∀ objectType : ProjectViewObjectType, objectType.ctorIdx < 9 := by
    intro objectType
    cases objectType <;> decide
  have index : ∀ ref : ObjectRef, ∀ id : Uuid, ∀ s t, writeUuid id ++ s ≠ ref.write ++ t := by
    intro ref id s t same
    rw [writeUuid, Postcard.lengthPrefixed, ObjectRef.write, Bytes.length_bigEndian, List.append_assoc,
      List.append_assoc] at same
    have sizes := (delimits_unsigned trivial trivial same).1
    have := small ref.objectType
    omega
  intro a b _ _ s t same
  have after : ∀ x y : List UInt8, (mark true ++ x) ++ s = (mark true ++ y) ++ t → x ++ s = y ++ t := by
    intro x y marked
    rw [List.append_assoc, List.append_assoc] at marked
    exact List.append_cancel_left marked
  cases a with
  | uuid id =>
    cases b with
    | uuid id' =>
      obtain ⟨rfl, rest⟩ := delimits_writeUuid trivial trivial (after _ _ same)
      exact ⟨rfl, rest⟩
    | object ref => exact absurd (after _ _ same) (index ref id s t)
  | object ref =>
    cases b with
    | uuid id => exact absurd (after _ _ same).symm (index ref id t s)
    | object ref' =>
      have after := after _ _ same
      rw [ObjectRef.write, ObjectRef.write, List.append_assoc, List.append_assoc] at after
      obtain ⟨types, after⟩ := delimits_unsigned trivial trivial after
      obtain ⟨ids, rest⟩ := delimits_writeUuid trivial trivial after
      obtain ⟨objectType, objectId⟩ := ref
      obtain ⟨objectType', objectId'⟩ := ref'
      obtain rfl : objectId = objectId' := ids
      obtain rfl : objectType = objectType' := by
        cases objectType <;> cases objectType' <;> first | rfl | cases types
      exact ⟨rfl, rest⟩

namespace ProjectViewRelations

/-- The identifiers that are set, in the order of their slots. -/
def ids (r : ProjectViewRelations) : List Uuid :=
  r.underGoalId.toList ++ r.underPlanId.toList ++ r.plannedInStageId.toList

/-- The references that are set, in the order of their slots. -/
def refs (r : ProjectViewRelations) : List ObjectRef := r.about.toList ++ r.handles.toList

theorem write_eq [PostcardFormat] (r : ProjectViewRelations) :
    r.write = (r.ids.map Slot.uuid ++ r.refs.map Slot.object).flatMap Slot.write := by
  have ids : ∀ o : Option Uuid, writeUnlessNone writeUuid o =
      (o.toList.map Slot.uuid).flatMap Slot.write := by
    intro o
    cases o <;> simp [writeUnlessNone, Slot.write]
  have refs : ∀ o : Option ObjectRef, writeUnlessNone ObjectRef.write o =
      (o.toList.map Slot.object).flatMap Slot.write := by
    intro o
    cases o <;> simp [writeUnlessNone, Slot.write]
  simp only [write, ProjectViewRelations.ids, ProjectViewRelations.refs, ids, refs, List.map_append,
    List.flatMap_append, List.append_assoc]

theorem write_eq_iff [PostcardFormat] {r r' : ProjectViewRelations} :
    r.write = r'.write ↔ r.ids = r'.ids ∧ r.refs = r'.refs := by
  rw [write_eq, write_eq]
  constructor
  · intro same
    have slots := delimits_slot.flatMap_inj
      (fun slot _ => by cases slot <;> simp [Slot.write, mark_ne_nil]) (fun _ _ => trivial)
      (fun _ _ => trivial) same
    have idOf := congrArg (List.filterMap fun slot => match slot with
      | Slot.uuid id => some id
      | Slot.object _ => none) slots
    have refOf := congrArg (List.filterMap fun slot => match slot with
      | Slot.uuid _ => none
      | Slot.object ref => some ref) slots
    simp only [List.filterMap_append, List.filterMap_map, Function.comp_def, List.filterMap_some,
      List.filterMap_none, List.append_nil, List.nil_append] at idOf refOf
    exact ⟨idOf, refOf⟩
  · rintro ⟨ids, refs⟩
    rw [ids, refs]

/-- All slots of a type are set, or none is. -/
def Determined (r : ProjectViewRelations) : Prop :=
  (r.ids.length = 0 ∨ r.ids.length = 3) ∧ (r.refs.length = 0 ∨ r.refs.length = 2)

/-- Exactly then what is set says where. -/
theorem determined_iff (r : ProjectViewRelations) :
    r.Determined ↔ ∀ r' : ProjectViewRelations, r'.ids = r.ids → r'.refs = r.refs → r' = r := by
  constructor
  · rintro ⟨ids, refs⟩ r' sameIds sameRefs
    obtain ⟨goal, plan, stage, about, handles⟩ := r
    obtain ⟨goal', plan', stage', about', handles'⟩ := r'
    have first : goal' = goal ∧ plan' = plan ∧ stage' = stage := by
      cases goal <;> cases plan <;> cases stage <;> cases goal' <;> cases plan' <;> cases stage' <;>
        simp [ProjectViewRelations.ids] at ids sameIds ⊢
      exact sameIds
    have second : about' = about ∧ handles' = handles := by
      cases about <;> cases handles <;> cases about' <;> cases handles' <;>
        simp [ProjectViewRelations.refs] at refs sameRefs ⊢
      exact sameRefs
    obtain ⟨rfl, rfl, rfl⟩ := first
    obtain ⟨rfl, rfl⟩ := second
    rfl
  · intro only
    obtain ⟨goal, plan, stage, about, handles⟩ := r
    constructor
    · have moved := fun goal' plan' stage' same => only ⟨goal', plan', stage', about, handles⟩ same rfl
      -- otherwise the identifiers can stand in the first slots, or in others
      match goal, plan, stage with
      | none, none, none => exact .inl rfl
      | some _, some _, some _ => exact .inr rfl
      | some a, none, none => cases moved none (some a) none rfl
      | none, some a, none => cases moved (some a) none none rfl
      | none, none, some a => cases moved (some a) none none rfl
      | some a, some b, none => cases moved (some a) none (some b) rfl
      | some a, none, some b => cases moved (some a) (some b) none rfl
      | none, some a, some b => cases moved (some a) (some b) none rfl
    · have moved := fun about' handles' same => only ⟨goal, plan, stage, about', handles'⟩ rfl same
      match about, handles with
      | none, none => exact .inl rfl
      | some _, some _ => exact .inr rfl
      | some a, none => cases moved none (some a) rfl
      | none, some a => cases moved (some a) none rfl

end ProjectViewRelations

theorem CanonicalLegacyResourceV1.write_eq_iff [PostcardFormat] {v w : CanonicalLegacyResourceV1} :
    v.write = w.write ↔ { v with relations := w.relations } = w ∧
      v.relations.write = w.relations.write := by
  constructor
  · intro same
    obtain ⟨parts, rest⟩ := delimits trivial trivial same
    cases v
    cases w
    cases parts
    exact ⟨rfl, rest⟩
  · rintro ⟨parts, rest⟩
    rw [← parts]
    rw [write, write, rest]

/-- The bytes belong to one value only. -/
def Canonical.Determined : Canonical → Prop
  | .legacyResource v => v.relations.Determined
  | _ => True

/-- A legacy Resource has relations that a Resource may carry. -/
def Canonical.Shaped : Canonical → Prop
  | .legacyResource v => validateRelationShape .resource v.relations = .ok ()
  | _ => True

/-- A Resource may carry none. -/
theorem Canonical.Shaped.determined {v : Canonical} (shaped : v.Shaped) : v.Determined := by
  cases v with
  | legacyResource v =>
    have slots := validateRelationShape_eq_ok.1 shaped
    simp only [reduceCtorEq, imp_false, not_not, or_self] at slots
    obtain ⟨goal, plan, stage, about, handles, -, -⟩ := slots
    constructor <;> left <;> simp [ProjectViewRelations.ids, ProjectViewRelations.refs, *]
  | _ => trivial

section

variable [PostcardFormat]

theorem ctorIdx_of_bytes_eq {v w : Canonical} (same : v.bytes = w.bytes) : v.ctorIdx = w.ctorIdx := by
  have domains := (Canonical.bytes_eq_iff.1 same).1
  cases v <;> cases w <;> simp only [Canonical.domain] at domains <;>
    first | rfl | exact absurd domains (by decide)

/-- No other value, of this or of another kind, has the bytes of a value, unless it is a legacy
Resource with some but not all relation slots of a type set. -/
theorem bytes_identify_iff (v : Canonical) :
    (∀ w : Canonical, w.bytes = v.bytes → w = v) ↔ v.Determined := by
  constructor
  · intro only
    cases v with
    | legacyResource v =>
      refine (ProjectViewRelations.determined_iff _).2 fun r ids refs => ?_
      have same : ({ v with relations := r } : CanonicalLegacyResourceV1).write = v.write :=
        CanonicalLegacyResourceV1.write_eq_iff.2
          ⟨rfl, ProjectViewRelations.write_eq_iff.2 ⟨ids, refs⟩⟩
      have moved := only (.legacyResource { v with relations := r })
        (Canonical.bytes_eq_iff.2 ⟨rfl, same⟩)
      exact congrArg CanonicalLegacyResourceV1.relations (Canonical.legacyResource.inj moved)
    | _ => trivial
  · intro determined w same
    have kinds := ctorIdx_of_bytes_eq same
    have bodies := (Canonical.bytes_eq_iff.1 same).2
    cases v <;> cases w <;> cases kinds
    case legacyResource.legacyResource.refl v w =>
      obtain ⟨parts, relations⟩ := CanonicalLegacyResourceV1.write_eq_iff.1 bodies
      obtain ⟨ids, refs⟩ := ProjectViewRelations.write_eq_iff.1 relations
      have slots := (ProjectViewRelations.determined_iff _).1 determined _ ids refs
      rw [← parts, ← slots]
    all_goals
      rename_i v w
      exact congrArg _ (write_injective (α := type_of% v) bodies)

/-- Bytes of two kinds are never equal, and equal bytes come from equal values. -/
theorem bytes_identify (v w : Canonical) :
    (v.bytes = w.bytes → v.ctorIdx = w.ctorIdx) ∧ (v.Shaped → v.bytes = w.bytes → v = w) :=
  ⟨ctorIdx_of_bytes_eq, fun shaped same =>
    ((bytes_identify_iff v).2 shaped.determined w same.symm).symm⟩

end

/-- A repository with a relation to a Goal, to a Plan or to nothing. -/
def related (relations : ProjectViewRelations) : Canonical :=
  .legacyResource
    { schemaVersion := 2, resourceId := 1, objectRevision := 1, projectRevision := 1, state := .active,
      resourceData := some
        { name := "buzz", resourceType := .repository, locator := ⟨.url, "https://r"⟩,
          description := "" }
      relations }

theorem bytes_identify_unrelated :
    (related {}).Shaped ∧ ∀ w : Canonical,
      @Canonical.bytes .standard (related {}) = @Canonical.bytes .standard w → related {} = w :=
  have shaped : (related {}).Shaped := rfl
  ⟨shaped, fun w => (@bytes_identify .standard (related {}) w).2 shaped⟩

/-- An identifier moves from one slot to the next. -/
theorem related_bytes_eq :
    @Canonical.bytes .standard (related { underGoalId := some 7 }) =
        @Canonical.bytes .standard (related { underPlanId := some 7 }) ∧
      related { underGoalId := some 7 } ≠ related { underPlanId := some 7 } :=
  let _ := PostcardFormat.standard
  ⟨Canonical.bytes_eq_iff.2 ⟨rfl, CanonicalLegacyResourceV1.write_eq_iff.2
    ⟨rfl, ProjectViewRelations.write_eq_iff.2 ⟨rfl, rfl⟩⟩⟩, by decide⟩

end ProjectView

end Carryforth
