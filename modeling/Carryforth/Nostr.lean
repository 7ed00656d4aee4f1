import Carryforth.Lib.Bytes
import Carryforth.Types

/-!
# Nostr events

The signed events that relays store and pass on.
-/

namespace Carryforth

namespace Nostr

/-- A tag is a list of texts, the first of which is its name. -/
abbrev Tag := List String

structure Event where
  id : EventId
  pubkey : PublicKey
  createdAt : Nat
  kind : Nat
  tags : List Tag
  content : String
  sig : BitVec 512
deriving DecidableEq, Repr

end Nostr

end Carryforth
