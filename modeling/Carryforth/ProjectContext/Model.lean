import Carryforth.Lib.Bytes
import Carryforth.ProjectView.Model

/-!
# Project Context: edges and their identities

An edge joins a canonical set of coordinates; its key is a hash of the project and the coordinates.
-/

namespace Carryforth

namespace ProjectContext

open Fallible ProjectView

def minEdgeCoordinates : Nat := 2

abbrev EdgeKey := BitVec 256

inductive ProjectContextError
  | unsupportedSchemaVersion (got supported : Nat)
  | invalidCoordinate (reason : String)
  | duplicateCoordinate
  | tooFewCoordinates (minimum actual : Nat)
  | nonCanonicalCoordinates
  | invalidDocumentId (documentId : Uuid)
  | invalidRevision (reason : String)
  | invalidRuntimeFence (reason : String)
  | invalidProjection (reason : String)
  | revisionConflict (expected actual : Nat)
  | inactiveCoordinate
  | inactiveContextDocument (documentId : Uuid)
  | documentAlreadyBound (documentId : Uuid) (edgeKey : EdgeKey)
  | noChange
  | bindingNotFound (documentId : Uuid)
  | bindingEdgeMismatch (documentId : Uuid) (actualEdgeKey : EdgeKey)
  | revisionExhausted
  | invalidCanonicalState (reason : String)
deriving DecidableEq, Repr

abbrev ProjectContextResult := Except ProjectContextError

/-! ## Checks -/

def validateUuidV4 (id : Uuid) (field : String) : ProjectContextResult Unit :=
  ensure (¬id.isNil = true ∧ id.isV4 = true)
    (.invalidCoordinate s!"{field} must be an RFC 4122 UUID v4")

/-! ## Coordinates -/

inductive ProjectContextCoordinate
  | projectViewObject (objectType : ProjectViewObjectType) (objectId : Uuid)
  | document (documentId : Uuid)
  | meeting (meetingId : Uuid)
deriving DecidableEq, Repr

def objectTypeRank : ProjectViewObjectType → Nat
  | .projectProfile => 0
  | .goal => 1
  | .role => 2
  | .plan => 3
  | .stage => 4
  | .requirement => 5
  | .issue => 6
  | .work => 7
  | .resource => 8

namespace ProjectContextCoordinate

def familyRank : ProjectContextCoordinate → Nat
  | .projectViewObject _ _ => 0
  | .document _ => 1
  | .meeting _ => 2

/-- The rank within the family; only Project View objects differ here. -/
def typeRank : ProjectContextCoordinate → Nat
  | .projectViewObject objectType _ => objectTypeRank objectType
  | _ => 0

def id : ProjectContextCoordinate → Uuid
  | .projectViewObject _ objectId => objectId
  | .document documentId => documentId
  | .meeting meetingId => meetingId

instance : Ord ProjectContextCoordinate :=
  ⟨compareLex (compareOn familyRank) (compareLex (compareOn typeRank) (compareOn id))⟩

def validate : ProjectContextCoordinate → ProjectContextResult Unit
  | .projectViewObject _ objectId => validateUuidV4 objectId "object_id"
  | .document documentId => validateUuidV4 documentId "document_id"
  | .meeting meetingId => validateUuidV4 meetingId "meeting_id"

def identityBytes : ProjectContextCoordinate → List UInt8
  | .projectViewObject objectType objectId =>
    0 :: UInt8.ofNat (objectTypeRank objectType) :: Bytes.bigEndian 16 objectId.toNat
  | .document documentId => 1 :: Bytes.bigEndian 16 documentId.toNat
  | .meeting meetingId => 2 :: Bytes.bigEndian 16 meetingId.toNat

end ProjectContextCoordinate

/-- Sort a set of coordinates; duplicates are rejected. -/
def canonicalizeCoordinates (coordinates : List ProjectContextCoordinate) :
    ProjectContextResult (List ProjectContextCoordinate) := do
  ensure (minEdgeCoordinates ≤ coordinates.length)
    (.tooFewCoordinates minEdgeCoordinates coordinates.length)
  coordinates.forM ProjectContextCoordinate.validate
  let coordinates := coordinates.insertionSort fun a b => (compare a b).isLE = true
  ensure (coordinates.IsChain (· ≠ ·)) .duplicateCoordinate
  return coordinates

/-! ## Edge keys -/

def edgeKeyDomain : List UInt8 := Text.utf8 "buzz-project-context-edge-v1\x00"

def edgeKeyBytes (projectId : Uuid) (coordinates : List ProjectContextCoordinate) : List UInt8 :=
  edgeKeyDomain ++ (Bytes.bigEndian 16 projectId.toNat ++
    (Bytes.bigEndian 4 coordinates.length ++
      coordinates.flatMap ProjectContextCoordinate.identityBytes))

end ProjectContext

end Carryforth
