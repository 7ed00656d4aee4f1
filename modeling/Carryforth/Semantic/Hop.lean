import Carryforth.Semantic.Evidence

/-!
# Semantic graph queries: hops

A hop enters a hyperedge from a coordinate, takes one of the Documents bound to it, and continues to
another coordinate of the edge.  The previews of its sources and the revisions they were read at are
left out, since nothing here looks at them.
-/

namespace Carryforth

namespace Semantic

open Fallible ProjectContext

/-! ## Edges and bindings -/

structure ProjectContextEdgeProvenance where
  lastContextRevision : Nat
  sourceChangeId : Digest32
deriving DecidableEq, Repr

structure ProjectContextBindingProvenance where
  bindingContextRevision : Nat
  sourceChangeId : Digest32
  projectionEventId : Digest32
deriving DecidableEq, Repr

structure ContextDocumentBindingObservation where
  documentId : Uuid
  provenance : ProjectContextBindingProvenance
deriving DecidableEq, Repr

structure SemanticEdgeObservation where
  edgeKey : EdgeKey
  /-- All coordinates of the edge, whatever their lifecycle. -/
  completeCoordinates : List ProjectContextCoordinate
  provenance : ProjectContextEdgeProvenance
  currentContextDocumentBindings : List ContextDocumentBindingObservation
deriving DecidableEq, Repr

structure SemanticRelationDocument where
  documentId : Uuid
  bindingProvenance : ProjectContextBindingProvenance
  documentScore : Score
  scoreExplanation : ScoreExplanation
deriving DecidableEq, Repr

structure SemanticContinuedCoordinate where
  coordinate : ProjectContextCoordinate
  targetScore : Score
  scoreExplanation : ScoreExplanation
deriving DecidableEq, Repr

structure SemanticHyperedgeHop where
  ordinal : Nat
  /-- Missing only at the start of a path whose root is a relation Document. -/
  enteredFromCoordinate : Option ProjectContextCoordinate
  edge : SemanticEdgeObservation
  selectedRelationDocument : SemanticRelationDocument
  continuedToCoordinate : SemanticContinuedCoordinate
  transitionScore : Score
deriving DecidableEq, Repr

inductive RootStructuralEntrypoint
  | coordinate (coordinate : ProjectContextCoordinate)
  | contextDocument (edgeKey : EdgeKey) (documentId : Uuid)
      (edgeProvenance : ProjectContextEdgeProvenance)
      (bindingProvenance : ProjectContextBindingProvenance)
deriving DecidableEq, Repr

namespace SemanticHyperedgeHop

def target (hop : SemanticHyperedgeHop) : ProjectContextCoordinate :=
  hop.continuedToCoordinate.coordinate

end SemanticHyperedgeHop

end Semantic

end Carryforth
