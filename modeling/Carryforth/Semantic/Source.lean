import Carryforth.Lib.Fallible
import Carryforth.ProjectContext.Model
import Carryforth.Semantic.Contract

/-!
# Semantic graph queries: sources

A source is a Project View object, a Document or a Meeting.
-/

namespace Carryforth

namespace Semantic

open Fallible ProjectContext

abbrev Digest32 := BitVec 256

/-! ## Identities -/

inductive ProjectViewSemanticType
  | projectProfile
  | goal
  | role
  | plan
  | stage
  | requirement
  | issue
  | work
  | resource
deriving DecidableEq, Repr

inductive SemanticSourceKind
  | projectView (subtype : ProjectViewSemanticType)
  | projectDocument
  | meeting
deriving DecidableEq, Repr

structure SemanticSourceIdentity where
  communityId : Uuid
  kind : SemanticSourceKind
  sourceId : Uuid
deriving DecidableEq, Repr

end Semantic

end Carryforth
