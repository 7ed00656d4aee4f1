import Carryforth.Lib.Fallible
import Carryforth.Types

/-!
# Project Documents: values and their checks

A Document is a current row together with the immutable revision it names; a catalog counts the
active Documents of a project.  Commands carry the revision their sender saw.
-/

namespace Carryforth

namespace Document

open Fallible

def projectDocumentSchemaVersion : Nat := 1
def maxTitleBytes : Nat := 256
def maxSummaryBytes : Nat := 4096
def maxContentMarkdownBytes : Nat := 49152

inductive DocumentError
  | unsupportedSchemaVersion (got supported : Nat)
  | invalidDocumentId (documentId : Uuid)
  | invalidRevisionTarget (reason : String)
  | invalidRuntimeFence (reason : String)
  | invalidSnapshot (reason : String)
  | invalidProjection (reason : String)
  | revisionConflict (expected : Nat) (actual : Option Nat)
  | documentIdAlreadyExists (documentId : Uuid)
  | documentNotFound (documentId : Uuid)
  | documentDeleted (documentId : Uuid)
  | noChange
  | stillReferenced (documentId : Uuid)
  | revisionExhausted
  | invalidCanonicalState (reason : String)
deriving DecidableEq, Repr

abbrev DocumentResult := Except DocumentError

/-! ## Values -/

inductive DocumentState
  | active
  | deleted
deriving DecidableEq, Repr

inductive DocumentOperation
  | create
  | update
  | delete
deriving DecidableEq, Repr

structure DocumentSnapshot where
  title : String
  summary : Option String
  contentMarkdown : String
deriving DecidableEq, Repr

/-- The parts that active and deleted revisions share. -/
structure RevisionHead where
  schemaVersion : Nat
  documentId : Uuid
  documentRevision : Nat
  actor : PublicKey
  canonicalAt : DateTime
deriving DecidableEq, Repr

inductive DocumentRevision
  | active (head : RevisionHead) (snapshot : DocumentSnapshot)
  | deleted (head : RevisionHead)
deriving DecidableEq, Repr

namespace DocumentRevision

def head : DocumentRevision → RevisionHead
  | .active head _ => head
  | .deleted head => head

def state : DocumentRevision → DocumentState
  | .active _ _ => .active
  | .deleted _ => .deleted

def snapshot : DocumentRevision → Option DocumentSnapshot
  | .active _ snapshot => some snapshot
  | .deleted _ => none

end DocumentRevision

structure DocumentAttribution where
  at_ : DateTime
  by_ : PublicKey
deriving DecidableEq, Repr

structure ProjectDocument where
  documentId : Uuid
  currentRevision : Nat
  state : DocumentState
  created : DocumentAttribution
  updated : DocumentAttribution
deriving DecidableEq, Repr

structure CurrentDocument where
  document : ProjectDocument
  revision : DocumentRevision
deriving DecidableEq, Repr

structure DocumentCatalog where
  projectId : Uuid
  catalogRevision : Nat
  activeDocumentCount : Nat
  projectionGeneration : Nat
  initializedAt : DateTime
  updatedAt : DateTime
deriving DecidableEq, Repr

/-! ## Checks -/

def validateDocumentId (documentId : Uuid) : DocumentResult Unit :=
  ensure (¬documentId.isNil = true ∧ documentId.isV4 = true) (.invalidDocumentId documentId)

def validatePositiveRevision (value : Nat) (field : String) : DocumentResult Unit :=
  ensure (1 ≤ value ∧ value ≤ maxSafeRevision)
    (.invalidRevisionTarget s!"{field} must be in 1..={maxSafeRevision}")

def validateNonnegativeRevision (value : Nat) (field : String) : DocumentResult Unit :=
  ensure (value ≤ maxSafeRevision)
    (.invalidRevisionTarget s!"{field} must be in 0..={maxSafeRevision}")

def validateNoNul (field value : String) : DocumentResult Unit :=
  ensure ('\x00' ∉ value.toList) (.invalidSnapshot s!"{field} must not contain NUL")

def validateLen (field value : String) (max : Nat) : DocumentResult Unit :=
  ensure (Text.byteLength value ≤ max)
    (.invalidSnapshot s!"{field} exceeds {max} UTF-8 bytes (got {Text.byteLength value})")

def validateSummary (summary : String) : DocumentResult Unit := do
  validateNoNul "summary" summary
  ensure (summary ≠ "")
    (.invalidSnapshot "an empty summary is non-canonical; omit the field")
  validateLen "summary" summary maxSummaryBytes

def DocumentSnapshot.validate (s : DocumentSnapshot) : DocumentResult Unit := do
  validateNoNul "title" s.title
  ensure (s.title ≠ "" ∧ Text.trim s.title = s.title) (.invalidSnapshot
    "title must be non-empty and have no leading or trailing whitespace")
  validateLen "title" s.title maxTitleBytes
  checkSome s.summary validateSummary
  validateNoNul "content_markdown" s.contentMarkdown
  validateLen "content_markdown" s.contentMarkdown maxContentMarkdownBytes

def validateSchema (got : Nat) : DocumentResult Unit :=
  ensure (got = projectDocumentSchemaVersion)
    (.unsupportedSchemaVersion got projectDocumentSchemaVersion)

def DocumentRevision.validate (r : DocumentRevision) : DocumentResult Unit := do
  checkSome r.snapshot DocumentSnapshot.validate
  validateSchema r.head.schemaVersion
  validateDocumentId r.head.documentId
  validatePositiveRevision r.head.documentRevision "document_revision"

def ProjectDocument.validate (d : ProjectDocument) : DocumentResult Unit := do
  validateDocumentId d.documentId
  validatePositiveRevision d.currentRevision "current_revision"
  ensure (d.created.at_ ≤ d.updated.at_)
    (.invalidCanonicalState "Document updated_at precedes created_at")

def ProjectDocument.fromSnapshot (documentId : Uuid) (currentRevision : Nat)
    (state : DocumentState) (created updated : DocumentAttribution) :
    DocumentResult ProjectDocument := do
  let document : ProjectDocument := { documentId, currentRevision, state, created, updated }
  document.validate
  return document

def CurrentDocument.new (document : ProjectDocument) (revision : DocumentRevision) :
    DocumentResult CurrentDocument := do
  document.validate
  revision.validate
  ensure (document.documentId = revision.head.documentId ∧
      document.currentRevision = revision.head.documentRevision ∧
      document.state = revision.state ∧ document.updated.by_ = revision.head.actor ∧
      document.updated.at_ = revision.head.canonicalAt)
    (.invalidCanonicalState "current Document row does not match its immutable revision")
  ensure (document.currentRevision = 1 → document.created.by_ = revision.head.actor ∧
      document.created.at_ = revision.head.canonicalAt)
    (.invalidCanonicalState "revision one does not match Document creation provenance")
  return { document, revision }

def CurrentDocument.validate (c : CurrentDocument) : DocumentResult Unit := do
  let _ ← CurrentDocument.new c.document c.revision

namespace DocumentCatalog

def validate (c : DocumentCatalog) : DocumentResult Unit := do
  ensure (¬c.projectId.isNil = true) (.invalidCanonicalState "project_id cannot be nil")
  validateNonnegativeRevision c.catalogRevision "catalog_revision"
  validateNonnegativeRevision c.activeDocumentCount "active_document_count"
  validatePositiveRevision c.projectionGeneration "projection_generation"
  ensure (c.catalogRevision = 0 → c.activeDocumentCount = 0)
    (.invalidCanonicalState "catalog revision zero must have no active Documents")
  ensure (c.initializedAt ≤ c.updatedAt)
    (.invalidCanonicalState "catalog updated_at precedes initialized_at")

def fromSnapshot (projectId : Uuid) (catalogRevision activeDocumentCount projectionGeneration : Nat)
    (initializedAt updatedAt : DateTime) : DocumentResult DocumentCatalog := do
  let catalog : DocumentCatalog :=
    { projectId, catalogRevision, activeDocumentCount, projectionGeneration, initializedAt
      updatedAt }
  catalog.validate
  return catalog

/-- The catalog of a project without Documents. -/
def empty (projectId : Uuid) (projectionGeneration : Nat) (initializedAt : DateTime) :
    DocumentResult DocumentCatalog :=
  fromSnapshot projectId 0 0 projectionGeneration initializedAt initializedAt

end DocumentCatalog

/-! ## Commands -/

inductive DocumentCommandRequest
  | create (documentId : Uuid) (snapshot : DocumentSnapshot)
  | update (documentId : Uuid) (snapshot : DocumentSnapshot)
  | delete (documentId : Uuid)
deriving DecidableEq, Repr

namespace DocumentCommandRequest

def operation : DocumentCommandRequest → DocumentOperation
  | .create _ _ => .create
  | .update _ _ => .update
  | .delete _ => .delete

def documentId : DocumentCommandRequest → Uuid
  | .create documentId _ => documentId
  | .update documentId _ => documentId
  | .delete documentId => documentId

def snapshot : DocumentCommandRequest → Option DocumentSnapshot
  | .create _ snapshot => some snapshot
  | .update _ snapshot => some snapshot
  | .delete _ => none

def validate (r : DocumentCommandRequest) : DocumentResult Unit := do
  validateDocumentId r.documentId
  checkSome r.snapshot DocumentSnapshot.validate

end DocumentCommandRequest

structure ProjectDocumentCommand where
  schemaVersion : Nat
  expectedDocumentRevision : Nat
  actingAssignmentId : Option Uuid
  runtimeFence : Option RuntimeFence
  request : DocumentCommandRequest
deriving DecidableEq, Repr

namespace ProjectDocumentCommand

def operation (c : ProjectDocumentCommand) : DocumentOperation := c.request.operation

def documentId (c : ProjectDocumentCommand) : Uuid := c.request.documentId

/-- Only a create starts at revision zero. -/
def validateTarget (c : ProjectDocumentCommand) : DocumentResult Unit :=
  match c.operation with
  | .create =>
    ensure (c.expectedDocumentRevision = 0)
      (.invalidRevisionTarget "create requires expected_document_revision = 0")
  | .update | .delete =>
    validatePositiveRevision c.expectedDocumentRevision "expected_document_revision"

/-- An acting Assignment comes with the runtime that holds it. -/
def validateFence (c : ProjectDocumentCommand) : DocumentResult Unit :=
  match c.actingAssignmentId, c.runtimeFence with
  | none, none => .ok ()
  | some assignmentId, some fence => do
    ensure (¬assignmentId.isNil = true)
      (.invalidRuntimeFence "acting_assignment_id cannot be nil")
    within .invalidRuntimeFence fence.validate
  | _, _ => .error (.invalidRuntimeFence
      "acting_assignment_id and runtime_fence must both be omitted or both be present")

def validateForSubmission (c : ProjectDocumentCommand) : DocumentResult Unit := do
  validateSchema c.schemaVersion
  validateNonnegativeRevision c.expectedDocumentRevision "expected_document_revision"
  c.validateTarget
  c.validateFence
  c.request.validate

end ProjectDocumentCommand

end Document

end Carryforth
