import Carryforth.Lib.Fallible

/-!
# Semantic graph queries: the query contract

The errors of the pure query algorithms, and the cap on the width of their beams.
-/

namespace Carryforth

namespace Semantic

open Fallible

inductive SemanticGraphQueryError
  | requestTooLarge (observed maximum : Nat)
  | invalidJson (reason : String)
  | invalidUuid (field : String)
  | blankProblem
  | nulText (field : String)
  | problemTooLarge (observed maximum : Nat)
  | tooManyCoordinates (field : String) (observed maximum : Nat)
  | invalidCoordinate (field : String) (reason : String)
  | budgetOutOfRange (field : String) (value hardCap : Nat)
  | providerInputTooLarge (observed maximum : Nat)
  | invalidScore (reason : String)
  | invalidState (reason : String)
  | serialization
  | providerTransport
  | providerRateLimited (retryAfterSeconds : Option Nat)
  | providerRetryable (status : Nat)
  | providerRejected (status : Nat)
  | providerResponse
deriving DecidableEq, Repr

abbrev QueryContractResult := Except SemanticGraphQueryError

def maxBeamWidth : Nat := 32

end Semantic

end Carryforth
