import Carryforth.Document.Model

/-!
# Project Documents: the reducer

`reduceDocument` decides one command against the catalog and the current Document of its identity.
`reduceDocument_eq_ok` says everything an accepted command does: a create finds no Document, an
update or a delete finds an active one at the expected revision, and the catalog moves on by one.
-/

namespace Carryforth

namespace Document

open Fallible

/-- Facts that the adapter supplies for one transition. -/
structure DocumentChangeContext where
  actor : PublicKey
  changeId : EventId
  canonicalAt : DateTime
  deletionBlocked : Bool
deriving DecidableEq, Repr

structure DocumentProjectionPlan where
  catalog : DocumentCatalog
  current : Option CurrentDocument
  sourceEventId : Option EventId
  reset : Bool
deriving DecidableEq, Repr

structure ProjectDocumentReceipt where
  schemaVersion : Nat
  changeId : EventId
  actor : PublicKey
  actingAssignmentId : Option Uuid
  operation : DocumentOperation
  documentId : Uuid
  expectedDocumentRevision : Nat
  documentRevision : Nat
  catalogRevision : Nat
  state : DocumentState
  acceptedAt : DateTime
deriving DecidableEq, Repr

structure DocumentTransition where
  catalog : DocumentCatalog
  current : CurrentDocument
  receipt : ProjectDocumentReceipt
  projectionPlan : DocumentProjectionPlan
deriving DecidableEq, Repr

def DocumentProjectionPlan.forTransition (catalog : DocumentCatalog) (current : CurrentDocument)
    (sourceEventId : EventId) : DocumentResult DocumentProjectionPlan := do
  catalog.validate
  current.validate
  ensure (catalog.catalogRevision ≠ 0)
    (.invalidProjection "a mutation projection requires a positive catalog revision")
  ensure (catalog.updatedAt = current.document.updated.at_) (.invalidProjection
    "catalog and current Document must share one canonical transition time")
  return { catalog, current := some current, sourceEventId := some sourceEventId, reset := false }

def DocumentOperation.state : DocumentOperation → DocumentState
  | .create | .update => .active
  | .delete => .deleted

def ProjectDocumentReceipt.validate (r : ProjectDocumentReceipt) : DocumentResult Unit := do
  validateSchema r.schemaVersion
  validateDocumentId r.documentId
  validateNonnegativeRevision r.expectedDocumentRevision "expected_document_revision"
  validatePositiveRevision r.documentRevision "document_revision"
  validatePositiveRevision r.catalogRevision "catalog_revision"
  ensure (¬r.actingAssignmentId.any Uuid.isNil = true)
    (.invalidProjection "acting_assignment_id cannot be nil")
  ensure (r.state = r.operation.state)
    (.invalidProjection "receipt operation and lifecycle state disagree")
  ensure (r.expectedDocumentRevision + 1 < 2 ^ 64) (.invalidProjection "receipt revision overflow")
  ensure (r.expectedDocumentRevision + 1 = r.documentRevision) (.invalidProjection
    "document_revision must be exactly expected_document_revision + 1")
  ensure (r.operation = .create → r.expectedDocumentRevision = 0)
    (.invalidProjection "create receipt must start from revision zero")
  ensure (r.operation ≠ .create → r.expectedDocumentRevision ≠ 0)
    (.invalidProjection "update/delete receipt requires a positive base revision")

def DocumentTransition.validate (t : DocumentTransition) : DocumentResult Unit := do
  t.catalog.validate
  t.current.validate
  t.receipt.validate
  ensure (t.receipt.documentId = t.current.document.documentId ∧
      t.receipt.documentRevision = t.current.document.currentRevision ∧
      t.receipt.catalogRevision = t.catalog.catalogRevision ∧
      t.receipt.state = t.current.document.state ∧
      t.receipt.acceptedAt = t.catalog.updatedAt ∧
      t.projectionPlan.catalog = t.catalog ∧ t.projectionPlan.current = some t.current ∧
      t.projectionPlan.sourceEventId = some t.receipt.changeId ∧
      ¬t.projectionPlan.reset = true)
    (.invalidCanonicalState "transition receipt, state, and projection plan disagree")

/-! ## The transition -/

def requireActiveCurrent (current : Option CurrentDocument) (command : ProjectDocumentCommand) :
    DocumentResult CurrentDocument := do
  let current ← okOr current (.documentNotFound command.documentId)
  ensure (current.document.currentRevision = command.expectedDocumentRevision)
    (.revisionConflict command.expectedDocumentRevision (some current.document.currentRevision))
  ensure (current.document.state ≠ .deleted) (.documentDeleted command.documentId)
  return current

def requireIncreasingTime (current : CurrentDocument) (canonicalAt : DateTime) :
    DocumentResult Unit :=
  ensure (current.document.updated.at_ < canonicalAt) (.invalidCanonicalState
    "canonical transition time must increase past Document updated_at")

def nextRevision (current : Nat) : DocumentResult Nat := do
  ensure (current + 1 ≤ maxSafeRevision) .revisionExhausted
  return current + 1

/-- The number of active Documents after an operation. -/
def nextCount (count : Nat) : DocumentOperation → DocumentResult Nat
  | .create => nextRevision count
  | .update => .ok count
  | .delete => do
    ensure (1 ≤ count) (.invalidCanonicalState
      "cannot delete from a catalog with no active Documents")
    return count - 1

def nextCatalog (catalog : DocumentCatalog) (operation : DocumentOperation)
    (canonicalAt : DateTime) : DocumentResult DocumentCatalog := do
  let catalogRevision ← nextRevision catalog.catalogRevision
  let activeDocumentCount ← nextCount catalog.activeDocumentCount operation
  DocumentCatalog.fromSnapshot catalog.projectId catalogRevision activeDocumentCount
    catalog.projectionGeneration catalog.initializedAt canonicalAt

def checkLoaded (command : ProjectDocumentCommand) (current : CurrentDocument) :
    DocumentResult Unit := do
  current.validate
  ensure (current.document.documentId = command.documentId) (.invalidCanonicalState
    "loaded current Document does not match the command target")

/-- The row and the revision that a command leads to. -/
def nextDocument (current : Option CurrentDocument) (command : ProjectDocumentCommand)
    (context : DocumentChangeContext) (nextRevision : Nat) :
    DocumentResult (ProjectDocument × DocumentRevision) := do
  let attribution : DocumentAttribution := { at_ := context.canonicalAt, by_ := context.actor }
  let head (documentId : Uuid) : RevisionHead :=
    { schemaVersion := projectDocumentSchemaVersion, documentId, documentRevision := nextRevision
      actor := context.actor, canonicalAt := context.canonicalAt }
  match command.request with
  | .create documentId snapshot =>
    ensure (current = none) (.documentIdAlreadyExists documentId)
    let document ← ProjectDocument.fromSnapshot documentId nextRevision .active attribution
      attribution
    return (document, .active (head documentId) snapshot)
  | .update documentId snapshot =>
    let current ← requireActiveCurrent current command
    ensure (current.revision.snapshot ≠ some snapshot) .noChange
    requireIncreasingTime current context.canonicalAt
    let document ← ProjectDocument.fromSnapshot documentId nextRevision .active
      current.document.created attribution
    return (document, .active (head documentId) snapshot)
  | .delete documentId =>
    let current ← requireActiveCurrent current command
    ensure (¬context.deletionBlocked = true) (.stillReferenced documentId)
    requireIncreasingTime current context.canonicalAt
    let document ← ProjectDocument.fromSnapshot documentId nextRevision .deleted
      current.document.created attribution
    return (document, .deleted (head documentId))

def reduceDocument (catalog : DocumentCatalog) (current : Option CurrentDocument)
    (command : ProjectDocumentCommand) (context : DocumentChangeContext) :
    DocumentResult DocumentTransition := do
  catalog.validate
  command.validateForSubmission
  ensure (catalog.updatedAt < context.canonicalAt) (.invalidCanonicalState
    "canonical transition time must increase past catalog updated_at")
  checkSome current (checkLoaded command)
  let nextRevision ← nextRevision command.expectedDocumentRevision
  let (document, revision) ← nextDocument current command context nextRevision
  let current ← CurrentDocument.new document revision
  let catalog ← nextCatalog catalog command.operation context.canonicalAt
  let receipt : ProjectDocumentReceipt :=
    { schemaVersion := projectDocumentSchemaVersion, changeId := context.changeId
      actor := context.actor, actingAssignmentId := command.actingAssignmentId
      operation := command.operation, documentId := command.documentId
      expectedDocumentRevision := command.expectedDocumentRevision
      documentRevision := nextRevision, catalogRevision := catalog.catalogRevision
      state := current.document.state, acceptedAt := context.canonicalAt }
  let projectionPlan ← DocumentProjectionPlan.forTransition catalog current context.changeId
  let transition : DocumentTransition := { catalog, current, receipt, projectionPlan }
  transition.validate
  return transition

/-! ## Accepted commands -/

/-- What a command finds: nothing if it creates, otherwise an active Document at its revision. -/
structure Finds (current : Option CurrentDocument) (command : ProjectDocumentCommand)
    (created : DocumentAttribution) : Prop where
  fresh : command.operation = .create → current = none ∧ command.expectedDocumentRevision = 0
  based : command.operation ≠ .create → ∃ found, current = some found ∧
    found.document.currentRevision = command.expectedDocumentRevision ∧
    found.document.state = .active ∧ found.document.created = created

/-- Everything an accepted command does. -/
structure Accepted (catalog : DocumentCatalog) (current : Option CurrentDocument)
    (command : ProjectDocumentCommand) (context : DocumentChangeContext)
    (t : DocumentTransition) : Prop where
  later : catalog.updatedAt < context.canonicalAt
  finds : Finds current command t.current.document.created
  documentId : t.current.document.documentId = command.documentId
  revision : t.current.document.currentRevision = command.expectedDocumentRevision + 1
  state : t.current.document.state = command.operation.state
  catalogRevision : t.catalog.catalogRevision = catalog.catalogRevision + 1
  count : nextCount catalog.activeDocumentCount command.operation =
    .ok t.catalog.activeDocumentCount
  updatedAt : t.catalog.updatedAt = context.canonicalAt

theorem DocumentState.eq_active_of_ne {state : DocumentState} (live : state ≠ .deleted) :
    state = .active := by
  cases state with
  | active => rfl
  | deleted => exact absurd rfl live

theorem nextRevision_eq_ok {n m : Nat} (next : nextRevision n = .ok m) : m = n + 1 := by
  simp only [nextRevision, bind_eq_ok, ensure_eq_ok, exists_unit, pure_eq_ok] at next
  exact next.2.symm

theorem fromSnapshot_eq_ok {documentId : Uuid} {revision : Nat} {state : DocumentState}
    {created updated : DocumentAttribution} {d : ProjectDocument}
    (made : ProjectDocument.fromSnapshot documentId revision state created updated = .ok d) :
    d = { documentId, currentRevision := revision, state, created, updated } := by
  simp only [ProjectDocument.fromSnapshot, bind_eq_ok, exists_unit, pure_eq_ok] at made
  exact made.2.symm

theorem requireActiveCurrent_eq_ok {current : Option CurrentDocument}
    {command : ProjectDocumentCommand} {found : CurrentDocument}
    (required : requireActiveCurrent current command = .ok found) :
    current = some found ∧
      found.document.currentRevision = command.expectedDocumentRevision ∧
      found.document.state = .active := by
  simp only [requireActiveCurrent, bind_eq_ok, okOr_eq_ok, ensure_eq_ok, exists_unit,
    pure_eq_ok] at required
  obtain ⟨c, is, revision, live, rfl⟩ := required
  exact ⟨is, revision, DocumentState.eq_active_of_ne live⟩

theorem nextDocument_eq_ok {current : Option CurrentDocument} {command : ProjectDocumentCommand}
    {context : DocumentChangeContext} {next : Nat} {d : ProjectDocument} {r : DocumentRevision}
    (valid : command.validateForSubmission = .ok ())
    (made : nextDocument current command context next = .ok (d, r)) :
    Finds current command d.created ∧ d.documentId = command.documentId ∧
      d.currentRevision = next ∧ d.state = command.operation.state := by
  simp only [ProjectDocumentCommand.validateForSubmission, bind_eq_ok, exists_unit] at valid
  obtain ⟨-, -, target, -⟩ := valid
  unfold nextDocument at made
  dsimp only at made
  unfold ProjectDocumentCommand.validateTarget ProjectDocumentCommand.operation at target
  unfold ProjectDocumentCommand.documentId ProjectDocumentCommand.operation
  cases request : command.request with
  | create documentId snapshot =>
    rw [request] at target
    simp only [DocumentCommandRequest.operation, ensure_eq_ok] at target
    simp only [request, bind_eq_ok, ensure_eq_ok, exists_unit, pure_eq_ok, Prod.mk.injEq] at made
    obtain ⟨none, document, snapshotted, rfl, -⟩ := made
    rw [fromSnapshot_eq_ok snapshotted]
    refine ⟨⟨fun _ => ⟨none, target⟩, fun other => ?_⟩, rfl, rfl, rfl⟩
    exact absurd (by rw [ProjectDocumentCommand.operation, request]; rfl) other
  | update documentId snapshot =>
    simp only [request, bind_eq_ok, ensure_eq_ok, exists_unit, pure_eq_ok, Prod.mk.injEq] at made
    obtain ⟨found, required, -, -, document, snapshotted, rfl, -⟩ := made
    obtain ⟨is, revision, live⟩ := requireActiveCurrent_eq_ok required
    rw [fromSnapshot_eq_ok snapshotted]
    refine ⟨⟨fun create => ?_, fun _ => ⟨found, is, revision, live, rfl⟩⟩, rfl, rfl, rfl⟩
    rw [ProjectDocumentCommand.operation, request] at create
    cases create
  | delete documentId =>
    simp only [request, bind_eq_ok, ensure_eq_ok, exists_unit, pure_eq_ok, Prod.mk.injEq] at made
    obtain ⟨found, required, -, -, document, snapshotted, rfl, -⟩ := made
    obtain ⟨is, revision, live⟩ := requireActiveCurrent_eq_ok required
    rw [fromSnapshot_eq_ok snapshotted]
    refine ⟨⟨fun create => ?_, fun _ => ⟨found, is, revision, live, rfl⟩⟩, rfl, rfl, rfl⟩
    rw [ProjectDocumentCommand.operation, request] at create
    cases create

theorem nextCatalog_eq_ok {catalog next : DocumentCatalog} {operation : DocumentOperation}
    {canonicalAt : DateTime} (made : nextCatalog catalog operation canonicalAt = .ok next) :
    next.catalogRevision = catalog.catalogRevision + 1 ∧
      nextCount catalog.activeDocumentCount operation = .ok next.activeDocumentCount ∧
      next.updatedAt = canonicalAt := by
  simp only [nextCatalog, DocumentCatalog.fromSnapshot, bind_eq_ok, exists_unit,
    pure_eq_ok] at made
  obtain ⟨revision, isNext, count, counted, -, rfl⟩ := made
  exact ⟨nextRevision_eq_ok isNext, counted, rfl⟩

theorem reduceDocument_eq_ok {catalog : DocumentCatalog} {current : Option CurrentDocument}
    {command : ProjectDocumentCommand} {context : DocumentChangeContext} {t : DocumentTransition}
    (reduced : reduceDocument catalog current command context = .ok t) :
    Accepted catalog current command context t := by
  simp only [reduceDocument, bind_eq_ok, exists_unit, ensure_eq_ok, pure_eq_ok] at reduced
  obtain ⟨-, valid, later, -, next, isNext, ⟨document, revision⟩, made, c, paired, next', counted,
    plan, -, -, rfl⟩ := reduced
  obtain ⟨finds, documentId, currentRevision, state⟩ := nextDocument_eq_ok valid made
  obtain ⟨catalogRevision, count, updatedAt⟩ := nextCatalog_eq_ok counted
  simp only [CurrentDocument.new, bind_eq_ok, exists_unit, ensure_eq_ok, pure_eq_ok] at paired
  obtain ⟨-, -, -, -, rfl⟩ := paired
  exact ⟨later, finds, documentId, currentRevision.trans (nextRevision_eq_ok isNext), state,
    catalogRevision, count, updatedAt⟩

end Document

end Carryforth
