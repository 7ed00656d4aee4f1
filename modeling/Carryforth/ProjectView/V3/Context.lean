import Carryforth.ProjectView.Validation

/-!
# Project View v3: Resources, Context References and Document proofs

A schema-v3 Resource names a Guide Document instead of a locator.  Every v3 object carries a
canonically ordered set of Context References; a command must prove the Document coordinates it
introduces, and only those.
-/

namespace Carryforth

namespace ProjectView

open Fallible

/-! ## Errors -/

inductive V3ContractError
  | invalidWire (reason : String)
  | invalidResource (reason : String)
  | invalidContext (reason : String)
  | invalidInitialization (reason : String)
deriving DecidableEq, Repr

abbrev V3ContractResult := Except V3ContractError

/-! ## Resources -/

/-- A schema-v3 Resource body. -/
structure ProjectResourceV3 where
  name : String
  resourceKind : String
  summary : Option String
  guideDocumentId : Uuid
deriving DecidableEq, Repr

def maxResourceNameBytes : Nat := 256
def maxResourceKindBytes : Nat := 64

def validateNonemptyText (field value : String) (max : Nat) (error : String → V3ContractError) :
    V3ContractResult Unit :=
  ensure (value ≠ "" ∧ Text.trim value = value ∧ '\x00' ∉ value.toList ∧
      Text.byteLength value ≤ max)
    (error s!"{field} must be canonical non-empty text of at most {max} UTF-8 bytes")

/-- A letter or digit may stand anywhere in a kind token, punctuation not at its start. -/
def isKindChar (c : Char) (index : Nat) : Bool :=
  ('a' ≤ c && c ≤ 'z') || ('0' ≤ c && c ≤ '9') ||
    ((c == '.' || c == '_' || c == '-') && 0 < index)

def validateResourceKind (value : String) : V3ContractResult Unit :=
  ensure (value ≠ "" ∧ Text.byteLength value ≤ maxResourceKindBytes ∧ '\x00' ∉ value.toList ∧
      value.toList.zipIdx.all (fun (c, index) => isKindChar c index) = true)
    (.invalidResource "resource_kind must match [a-z0-9][a-z0-9._-]\x7b0,63\x7d")

def requireUuidV4 (value : Uuid) (field : String) : Except String Unit :=
  ensure (¬value.isNil = true ∧ value.isV4 = true) s!"{field} must be an RFC 4122 UUID v4"

def ProjectResourceV3.validate (resource : ProjectResourceV3) : V3ContractResult Unit := do
  validateNonemptyText "name" resource.name maxResourceNameBytes .invalidResource
  validateResourceKind resource.resourceKind
  within (fun error => .invalidResource error.toText) (validateSummary resource.summary)
  within .invalidResource (requireUuidV4 resource.guideDocumentId "guide_document_id")

/-! ## Context References -/

inductive DocumentReferenceMode
  | live
  | pinned
deriving DecidableEq, Repr

inductive ProjectContextReference
  | resource (resourceId : Uuid)
  | document (documentId : Uuid) (mode : DocumentReferenceMode) (documentRevision : Option Nat)
deriving DecidableEq, Repr

def maxContextReferences : Nat := 64

namespace ProjectContextReference

def validate : ProjectContextReference → V3ContractResult Unit
  | .resource resourceId => within .invalidContext (requireUuidV4 resourceId "resource_id")
  | .document documentId mode documentRevision => do
    within .invalidContext (requireUuidV4 documentId "document_id")
    match mode, documentRevision with
    | .live, none => return ()
    | .live, some _ =>
      .error (.invalidContext "live Document reference must omit document_revision")
    | .pinned, some revision =>
      ensure (1 ≤ revision ∧ revision ≤ maxSafeRevision)
        (.invalidContext "pinned document_revision must be JavaScript-safe and positive")
    | .pinned, none =>
      .error (.invalidContext "pinned Document reference requires document_revision")

/-- Resources before Documents, then by identifier, live before pinned, then by revision. -/
def contextKey : ProjectContextReference → Nat × Uuid × Nat × Nat
  | .resource resourceId => (0, resourceId, 0, 0)
  | .document documentId .live _ => (1, documentId, 0, 0)
  | .document documentId .pinned documentRevision => (1, documentId, 1, documentRevision.getD 0)

def canonicalCmp (a b : ProjectContextReference) : Ordering :=
  (compare a.contextKey.1 b.contextKey.1).then
    ((compare a.contextKey.2.1 b.contextKey.2.1).then
      ((compare a.contextKey.2.2.1 b.contextKey.2.2.1).then
        (compare a.contextKey.2.2.2 b.contextKey.2.2.2)))

def isResource : ProjectContextReference → Bool
  | .resource _ => true
  | .document .. => false

end ProjectContextReference

def canonicalizeContextReferences (references : List ProjectContextReference) :
    V3ContractResult (List ProjectContextReference) := do
  ensure (references.length ≤ maxContextReferences)
    (.invalidContext s!"at most {maxContextReferences} references are allowed")
  references.forM ProjectContextReference.validate
  let sorted := references.insertionSort fun a b => a.canonicalCmp b ≠ .gt
  ensure (¬(sorted.zip sorted.tail).any (fun (a, b) => a = b) = true)
    (.invalidContext "duplicate Context Reference coordinate")
  return sorted

/-- The references are in canonical order already. -/
def requireCanonicalContext (references : List ProjectContextReference) :
    V3ContractResult Unit := do
  let canonical ← canonicalizeContextReferences references
  ensure (canonical = references)
    (.invalidContext "Context References are not in canonical order")

theorem requireCanonicalContext_nil : requireCanonicalContext [] = .ok () := rfl

/-! ## Document proofs -/

/-- One Document coordinate whose existence may need to be proved. -/
structure DocumentCoordinate where
  documentId : Uuid
  mode : DocumentReferenceMode
  documentRevision : Option Nat
deriving DecidableEq, Repr

def DocumentReferenceMode.rank : DocumentReferenceMode → Nat
  | .live => 0
  | .pinned => 1

namespace DocumentCoordinate

instance : Ord DocumentCoordinate where
  compare := compareLex (compareOn documentId)
    (compareLex (compareOn fun c => c.mode.rank) (compareOn documentRevision))

instance : Std.TransOrd DocumentCoordinate :=
  inferInstanceAs (Std.TransCmp (compareLex (compareOn documentId)
    (compareLex (compareOn fun c => c.mode.rank) (compareOn documentRevision))))

/-- The coordinate of a Resource's current Guide. -/
def live (documentId : Uuid) : DocumentCoordinate :=
  { documentId, mode := .live, documentRevision := none }

def fromContext : ProjectContextReference → Option DocumentCoordinate
  | .resource _ => none
  | .document documentId mode documentRevision => some { documentId, mode, documentRevision }

end DocumentCoordinate

/-- What a point lookup found under a coordinate. -/
inductive DocumentTargetState
  | currentActive (currentRevision : Nat)
  | currentTombstone
  | activeContentRevision
  | tombstoneRevision
deriving DecidableEq, Repr

inductive V3ReferenceError
  | contract (error : V3ContractError)
  | contextCapabilityUnavailable
  | documentCapabilityUnavailable
  | missingDocumentProof (coordinate : DocumentCoordinate)
  | inactiveDocumentTarget (coordinate : DocumentCoordinate) (state : DocumentTargetState)
deriving DecidableEq, Repr

abbrev V3ReferenceResult := Except V3ReferenceError

def DocumentCoordinate.validate (c : DocumentCoordinate) : V3ReferenceResult Unit :=
  within .contract
    (ProjectContextReference.document c.documentId c.mode c.documentRevision).validate

/-- The lookup results a command is checked against. -/
structure ReferenceTargetProof where
  documents : OrdMap DocumentCoordinate DocumentTargetState

namespace ReferenceTargetProof

def new : ReferenceTargetProof := { documents := ∅ }

/-- Every required coordinate has an active target. -/
def validateRequired (proof : ReferenceTargetProof) (required : OrdSet DocumentCoordinate) :
    V3ReferenceResult Unit :=
  required.toList.forM fun coordinate => do
    coordinate.validate
    let state ← okOr proof.documents[coordinate]? (.missingDocumentProof coordinate)
    match coordinate.mode, state with
    | .live, .currentActive (_ + 1) => return ()
    | .pinned, .activeContentRevision => return ()
    | _, _ => .error (.inactiveDocumentTarget coordinate state)

end ReferenceTargetProof

/-- The Document coordinates a candidate object introduces. -/
structure DocumentTargetDelta where
  contextDocuments : OrdSet DocumentCoordinate := ∅
  guideDocument : Option DocumentCoordinate := none

namespace DocumentTargetDelta

def requiredCoordinates (delta : DocumentTargetDelta) : OrdSet DocumentCoordinate :=
  match delta.guideDocument with
  | some guide => delta.contextDocuments.insert guide
  | none => delta.contextDocuments

def isEmpty (delta : DocumentTargetDelta) : Bool :=
  delta.contextDocuments.isEmpty && delta.guideDocument.isNone

end DocumentTargetDelta

/-- Without the Context capability a replacement may only drop references. -/
def validateContextReplacement (current replacement : List ProjectContextReference)
    (projectContextEnabled : Bool) : V3ReferenceResult (List ProjectContextReference) := do
  let replacement ← within .contract (canonicalizeContextReferences replacement)
  if projectContextEnabled then
    return replacement
  else do
    let current ← within .contract (canonicalizeContextReferences current)
    ensure (replacement.all (fun reference => reference ∈ current) = true)
      .contextCapabilityUnavailable
    return replacement

def introducedDocumentTargets (currentContext nextContext : List ProjectContextReference)
    (currentGuideDocumentId nextGuideDocumentId : Option Uuid) : DocumentTargetDelta :=
  let currentDocuments := currentContext.filterMap DocumentCoordinate.fromContext
  let contextDocuments := (nextContext.filterMap DocumentCoordinate.fromContext).filter
    fun coordinate => coordinate ∉ currentDocuments
  { contextDocuments := .ofList contextDocuments compare
    guideDocument := (nextGuideDocumentId.filter fun next =>
      some next ≠ currentGuideDocumentId).map DocumentCoordinate.live }

def validateDocumentTargetDelta (delta : DocumentTargetDelta) (documentCapabilityAvailable : Bool)
    (proof : ReferenceTargetProof) : V3ReferenceResult Unit :=
  if delta.isEmpty = true then
    .ok ()
  else do
    ensure (documentCapabilityAvailable = true) .documentCapabilityUnavailable
    proof.validateRequired delta.requiredCoordinates

end ProjectView

end Carryforth
