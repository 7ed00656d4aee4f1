import Carryforth.ProjectContext.Identity
import Carryforth.Semantic.Hop

/-!
# Semantic graph queries: path prefixes

The frontier of the search consists of path prefixes.  A prefix has a key that tells prefixes apart
and orders them.
-/

namespace Carryforth

namespace Semantic

open Fallible ProjectContext

/-! ## Prefixes -/

structure FrontierPathState where
  rootId : Digest32
  structuralEntrypoint : RootStructuralEntrypoint
  hops : List SemanticHyperedgeHop
  currentCoordinate : Option ProjectContextCoordinate
  visitedCoordinates : Finset ProjectContextCoordinate
  visitedEdges : Finset EdgeKey
  rootScore : Option Score
  pathScore : Option Score
deriving DecidableEq

def RootStructuralEntrypoint.entryCoordinate :
    RootStructuralEntrypoint → Option ProjectContextCoordinate
  | .coordinate entry => some entry
  | .contextDocument _ _ _ _ => none

namespace FrontierPathState

def seed (rootId : Digest32) (structuralEntrypoint : RootStructuralEntrypoint)
    (rootScore : Option Score) : FrontierPathState where
  rootId
  structuralEntrypoint
  hops := []
  currentCoordinate := structuralEntrypoint.entryCoordinate
  visitedCoordinates := structuralEntrypoint.entryCoordinate.toFinset
  visitedEdges := ∅
  rootScore
  pathScore := rootScore

/-- A prefix without a score is scheduled as if its score were zero. -/
def schedulingPriority (state : FrontierPathState) : Score := state.pathScore.getD .zero

end FrontierPathState

/-! ## Keys -/

def coordinateKey : ProjectContextCoordinate → List UInt8
  | .projectViewObject objectType objectId =>
    0 :: (Text.utf8 objectType.asStr ++ 0 :: Bytes.bigEndian 16 objectId.toNat)
  | .document documentId => 1 :: Bytes.bigEndian 16 documentId.toNat
  | .meeting meetingId => 2 :: Bytes.bigEndian 16 meetingId.toNat

def structuralEntrypointKey : RootStructuralEntrypoint → List UInt8
  | .coordinate coordinate => 0 :: coordinateKey coordinate
  | .contextDocument edgeKey documentId _ _ =>
    1 :: (Bytes.bigEndian 32 edgeKey.toNat ++ Bytes.bigEndian 16 documentId.toNat)

def hopKey (hop : SemanticHyperedgeHop) : List UInt8 :=
  Bytes.bigEndian 32 hop.edge.edgeKey.toNat ++
    (Bytes.bigEndian 16 hop.selectedRelationDocument.documentId.toNat ++ coordinateKey hop.target)

def FrontierPathState.provenanceKey (state : FrontierPathState) : List UInt8 :=
  structuralEntrypointKey state.structuralEntrypoint ++ state.hops.flatMap hopKey

/-- The better score first, and then the smaller key. -/
def comparePathStates (left right : FrontierPathState) : Ordering :=
  (compare right.schedulingPriority left.schedulingPriority).then
    (compare left.provenanceKey right.provenanceKey)

/-! ## Identities -/

inductive EntrypointIdentity
  | coordinate (coordinate : ProjectContextCoordinate)
  | contextDocument (edgeKey : EdgeKey) (documentId : Uuid)
deriving DecidableEq, Repr

def RootStructuralEntrypoint.identity : RootStructuralEntrypoint → EntrypointIdentity
  | .coordinate entry => .coordinate entry
  | .contextDocument edgeKey documentId _ _ => .contextDocument edgeKey documentId

/-- The entrypoint and for each hop its edge, Document and target. -/
def FrontierPathState.identity (state : FrontierPathState) :
    EntrypointIdentity × List (EdgeKey × Uuid × ProjectContextCoordinate) :=
  (state.structuralEntrypoint.identity, state.hops.map fun hop =>
    (hop.edge.edgeKey, hop.selectedRelationDocument.documentId, hop.target))

/-- Type names contain no zero byte, and no two are equal. -/
theorem selfDelimiting_asStr :
    Delimited.SelfDelimiting (fun _ => True)
      fun objectType : ProjectView.ProjectViewObjectType => Text.utf8 objectType.asStr ++ [0] := by
  refine Delimited.terminated (fun objectType _ => ?_) fun a b same => ?_
  · cases objectType <;> decide +kernel
  · have names := Text.utf8_injective same
    cases a <;> cases b <;> first | rfl | exact absurd names (by decide)

theorem selfDelimiting_coordinateKey :
    Delimited.SelfDelimiting (fun _ => True) coordinateKey := by
  intro a b _ _ s t same
  cases a <;> cases b <;> simp only [coordinateKey, List.cons_append, List.cons.injEq] at same
  all_goals try exact absurd same.1 (by decide)
  case projectViewObject.projectViewObject type id type' id' =>
    have parts : (Text.utf8 type.asStr ++ [0]) ++ (Bytes.bigEndian 16 id.toNat ++ s) =
        (Text.utf8 type'.asStr ++ [0]) ++ (Bytes.bigEndian 16 id'.toNat ++ t) := by
      simpa using same.2
    obtain ⟨rfl, after⟩ := @selfDelimiting_asStr type type' trivial trivial _ _ parts
    obtain ⟨rfl, rest⟩ := selfDelimiting_uuid trivial trivial after
    exact ⟨rfl, rest⟩
  case document.document =>
    obtain ⟨rfl, rest⟩ := selfDelimiting_uuid trivial trivial same.2
    exact ⟨rfl, rest⟩
  case meeting.meeting =>
    obtain ⟨rfl, rest⟩ := selfDelimiting_uuid trivial trivial same.2
    exact ⟨rfl, rest⟩

theorem selfDelimiting_edgeKey :
    Delimited.SelfDelimiting (fun _ => True) fun key : EdgeKey => Bytes.bigEndian 32 key.toNat := by
  refine Delimited.of_length (n := 32) (fun _ _ => Bytes.length_bigEndian 32 _) fun a b same => ?_
  exact BitVec.eq_of_toNat_eq (Bytes.bigEndian_inj a.isLt b.isLt same)

def EntrypointIdentity.key : EntrypointIdentity → List UInt8
  | .coordinate entry => 0 :: coordinateKey entry
  | .contextDocument edgeKey documentId =>
    1 :: (Bytes.bigEndian 32 edgeKey.toNat ++ Bytes.bigEndian 16 documentId.toNat)

theorem selfDelimiting_entrypointKey :
    Delimited.SelfDelimiting (fun _ => True) EntrypointIdentity.key := by
  intro a b _ _ s t same
  cases a <;> cases b <;>
    simp only [EntrypointIdentity.key, List.cons_append, List.cons.injEq, List.append_assoc] at same
  all_goals try exact absurd same.1 (by decide)
  case coordinate.coordinate =>
    obtain ⟨rfl, rest⟩ := selfDelimiting_coordinateKey trivial trivial same.2
    exact ⟨rfl, rest⟩
  case contextDocument.contextDocument =>
    obtain ⟨rfl, parts⟩ := selfDelimiting_edgeKey trivial trivial same.2
    obtain ⟨rfl, rest⟩ := selfDelimiting_uuid trivial trivial parts
    exact ⟨rfl, rest⟩

def hopPartsKey (parts : EdgeKey × Uuid × ProjectContextCoordinate) : List UInt8 :=
  Bytes.bigEndian 32 parts.1.toNat ++
    (Bytes.bigEndian 16 parts.2.1.toNat ++ coordinateKey parts.2.2)

theorem selfDelimiting_hopPartsKey : Delimited.SelfDelimiting (fun _ => True) hopPartsKey := by
  have all := selfDelimiting_edgeKey.pair (selfDelimiting_uuid.pair selfDelimiting_coordinateKey)
  exact fun a b _ _ => all ⟨trivial, trivial, trivial⟩ ⟨trivial, trivial, trivial⟩

theorem hopPartsKey_ne_nil (parts : EdgeKey × Uuid × ProjectContextCoordinate) :
    hopPartsKey parts ≠ [] := by
  intro empty
  have length := congrArg List.length (List.append_eq_nil_iff.1 empty).1
  rw [Bytes.length_bigEndian] at length
  cases length

theorem provenanceKey_eq (state : FrontierPathState) :
    state.provenanceKey = state.identity.1.key ++ state.identity.2.flatMap hopPartsKey := by
  unfold FrontierPathState.provenanceKey FrontierPathState.identity
  rw [List.flatMap_map]
  cases state.structuralEntrypoint <;> rfl

/-- Keys tell apart exactly what identities tell apart. -/
theorem provenanceKey_eq_iff {left right : FrontierPathState} :
    left.provenanceKey = right.provenanceKey ↔ left.identity = right.identity := by
  rw [provenanceKey_eq, provenanceKey_eq]
  constructor
  · intro same
    obtain ⟨entrypoint, hops⟩ := selfDelimiting_entrypointKey trivial trivial same
    exact Prod.ext entrypoint (selfDelimiting_hopPartsKey.flatMap_inj
      (fun parts _ => hopPartsKey_ne_nil parts) (fun _ _ => trivial) (fun _ _ => trivial) hops)
  · intro same
    rw [same]

end Semantic

end Carryforth
