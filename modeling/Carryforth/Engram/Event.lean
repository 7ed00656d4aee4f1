import Carryforth.Engram.Body
import Carryforth.Nostr

/-!
# Agent engrams: events

An engram travels in an event of its agent: the body is sealed under the conversation key of agent
and owner, the `d` tag hides the slug, and the `p` tag names the owner.  `buildEvent` makes the
event and `validateAndDecrypt` opens it with the secret of either side.  The event builder drops the
`p` tags that name its own author unless self tagging is allowed, which is not asked for here, and
the cipher may take less than the limit that is checked: the owner has to be someone else for the
engram to be read again, and the body short enough to be sealed (`survives_iff`).
-/

namespace Carryforth

def PublicKey.toHex (key : PublicKey) : String := String.ofList (Text.hexDigits 64 key.toNat)

theorem PublicKey.toHex_injective : Function.Injective PublicKey.toHex := by
  intro k l same
  have digits := String.ofList_injective same
  have numbers := congrArg Text.ofHexDigits digits
  rw [Text.ofHexDigits_hexDigits (lt_of_lt_of_eq k.isLt (by norm_num)),
    Text.ofHexDigits_hexDigits (lt_of_lt_of_eq l.isLt (by norm_num))] at numbers
  exact BitVec.eq_of_toNat_eq numbers

namespace Engram

open Fallible Text Nostr

def nip44PlaintextMax : Nat := 65535

structure EventBuilder where
  kind : Nat
  content : String
  tags : List Tag
  createdAt : Nat
  allowSelfTagging : Bool := false

/-- A `p` tag with this key. -/
def namesKey (key : PublicKey) (tag : Tag) : Bool :=
  tag.head? == some "p" && tag[1]? == some key.toHex

/-- What becomes of a builder when it is signed: `p` tags with the key of the author are dropped
unless self tagging is allowed. -/
structure EventBuilder.Signed (builder : EventBuilder) (author : PublicKey) (event : Nostr.Event) :
    Prop where
  kind : event.kind = builder.kind
  pubkey : event.pubkey = author
  content : event.content = builder.content
  tags : event.tags =
    if builder.allowSelfTagging then builder.tags else builder.tags.filter fun t => !namesKey author t

/-- Keys, their conversations and signed events.  NIP-44 seals every plaintext of one to
`plaintextMax` bytes, with a fresh nonce, and opens what it sealed; a conversation has the same key
on both sides. -/
class Crypto where
  SecretKey : Type
  ConversationKey : Type
  Nonce : Type
  publicKey : SecretKey → PublicKey
  derive : SecretKey → PublicKey → ConversationKey
  derive_symm : ∀ a b, derive a (publicKey b) = derive b (publicKey a)
  plaintextMax : Nat
  encryptWith : ConversationKey → Nonce → String → Except String String
  encryptWith_ok_iff : ∀ k nonce plaintext, (∃ payload, encryptWith k nonce plaintext = .ok payload) ↔
    1 ≤ byteLength plaintext ∧ byteLength plaintext ≤ plaintextMax
  decryptWith : ConversationKey → String → Option String
  decryptWith_encryptWith : ∀ {k nonce plaintext payload},
    encryptWith k nonce plaintext = .ok payload → decryptWith k payload = some plaintext
  hmacSha256 : ConversationKey → List UInt8 → List UInt8
  length_hmacSha256 : ∀ k message, (hmacSha256 k message).length = 32
  signWithKeys : EventBuilder → SecretKey → Except String Nostr.Event
  signWithKeys_ok : ∀ builder keys, ∃ event, signWithKeys builder keys = .ok event
  signed_of_signWithKeys : ∀ {builder keys event}, signWithKeys builder keys = .ok event →
    builder.Signed (publicKey keys) event

export Crypto (SecretKey ConversationKey Nonce publicKey)

section Conversation

variable [Crypto]

def conversationKey (mySeckey : SecretKey) (theirPubkey : PublicKey) : ConversationKey :=
  Crypto.derive mySeckey theirPubkey

def encrypt (mySeckey : SecretKey) (theirPubkey : PublicKey) (nonce : Nonce) (content : String) :
    Except String String :=
  Crypto.encryptWith (Crypto.derive mySeckey theirPubkey) nonce content

def decrypt (mySeckey : SecretKey) (theirPubkey : PublicKey) (payload : String) : Option String :=
  Crypto.decryptWith (Crypto.derive mySeckey theirPubkey) payload

/-! ## Tags -/

def dTagDomain : String := "agent-memory/v1/d-tag"

def dTag (k : ConversationKey) (slug : String) : String :=
  String.ofList (encodeHex (Crypto.hmacSha256 k (utf8 dTagDomain ++ 0 :: utf8 slug)))

def tagsOf (kind : String) (tags : List Tag) : List Tag := tags.filter fun t => t.head? == some kind

/-- The content of the only tag of a kind. -/
def singleTag (kind : String) (tags : List Tag) : Except EngramError String := do
  let value ← okOr ((tagsOf kind tags).head?.bind fun t => t[1]?)
    (.invalidEnvelope ("missing " ++ kind ++ " tag"))
  ensure ((tagsOf kind tags).tail = []) (.invalidEnvelope ("multiple " ++ kind ++ " tags"))
  return value

def eqIgnoreAsciiCase (s t : String) : Bool :=
  s.toList.map Char.toLower == t.toList.map Char.toLower

/-! ## Building events -/

def kindAgentEngram : Nat := 30174

def buildEvent (agentKeys : SecretKey) (ownerPubkey : PublicKey) (body : Body) (createdAt : Nat)
    (nonce : Nonce) : Except EngramError Nostr.Event := do
  let plaintext := body.toJsonBytes
  ensure (plaintext.length ≤ nip44PlaintextMax) (.bodyTooLarge plaintext.length)
  let plaintextStr ← okOr (ofUtf8 plaintext) (.encrypt "body JSON not UTF-8")
  let kC := conversationKey agentKeys ownerPubkey
  let ciphertext ← within .encrypt (encrypt agentKeys ownerPubkey nonce plaintextStr)
  let d := dTag kC body.slug
  let tags := [["d", d], ["p", ownerPubkey.toHex]]
  let builder : EventBuilder :=
    { kind := kindAgentEngram, content := ciphertext, tags := tags, createdAt := createdAt }
  within .sign (Crypto.signWithKeys builder agentKeys)

def validateAndDecrypt (event : Nostr.Event) (expectedAgent expectedOwner : PublicKey)
    (mySeckey : SecretKey) (theirPubkey : PublicKey) : Except EngramError Body := do
  ensure (event.kind = kindAgentEngram)
    (.invalidEnvelope ("wrong kind: " ++ toString event.kind))
  ensure (event.pubkey = expectedAgent) (.invalidEnvelope "pubkey != expected_agent")
  let dValue ← singleTag "d" event.tags
  ensure (byteLength dValue = 64 ∧ dValue.toList.all isLowerHexdigit = true)
    (.invalidEnvelope "d tag must be 64 lowercase hex chars")
  let pValue ← singleTag "p" event.tags
  ensure (eqIgnoreAsciiCase pValue expectedOwner.toHex = true)
    (.invalidEnvelope "p tag != expected_owner")
  let plaintext ← okOr (decrypt mySeckey theirPubkey event.content) .decrypt
  let body ← Body.fromJsonBytes (utf8 plaintext)
  let derived := dTag (conversationKey mySeckey theirPubkey) body.slug
  ensure (derived = dValue) (.invalidEnvelope "body slug does not re-derive to d tag")
  return body

/-! ## What a built event is -/

section Built

variable {agent : SecretKey} {owner : PublicKey} {body : Body} {createdAt : Nat} {nonce : Nonce}
  {event : Nostr.Event}

/-- The tags that `buildEvent` asks for. -/
def engramTags (agent : SecretKey) (owner : PublicKey) (body : Body) : List Tag :=
  [["d", dTag (conversationKey agent owner) body.slug], ["p", owner.toHex]]

structure Built (agent : SecretKey) (owner : PublicKey) (body : Body) (event : Nostr.Event) :
    Prop where
  kind : event.kind = kindAgentEngram
  pubkey : event.pubkey = publicKey agent
  tags : event.tags = (engramTags agent owner body).filter fun t => !namesKey (publicKey agent) t
  content : Crypto.decryptWith (Crypto.derive agent owner) event.content =
    some (String.ofList body.toJson)

theorem built_of_buildEvent (ok : buildEvent agent owner body createdAt nonce = .ok event) :
    Built agent owner body event := by
  simp only [buildEvent, bind_eq_ok, exists_unit, ensure_eq_ok, okOr_eq_ok, within_eq_ok] at ok
  obtain ⟨-, plaintext, text, ciphertext, encrypted, signed⟩ := ok
  have signed := Crypto.signed_of_signWithKeys signed
  refine ⟨signed.kind, signed.pubkey, signed.tags, ?_⟩
  rw [Body.toJsonBytes, ofUtf8_utf8] at text
  cases text
  rw [signed.content]
  exact Crypto.decryptWith_encryptWith encrypted

omit [Crypto] in
theorem toJsonBytes_pos (body : Body) : 1 ≤ body.toJsonBytes.length := by
  rw [Body.toJsonBytes, length_utf8]
  refine Nat.pos_of_ne_zero fun zero => ?_
  have chars := congrArg String.toList (String.utf8ByteSize_eq_zero_iff.1 zero)
  rw [String.toList_ofList] at chars
  cases chars

theorem exists_buildEvent_iff :
    (∃ event, buildEvent agent owner body createdAt nonce = .ok event) ↔
      body.toJsonBytes.length ≤ nip44PlaintextMax ∧
        body.toJsonBytes.length ≤ Crypto.plaintextMax := by
  have text : ofUtf8 body.toJsonBytes = some (String.ofList body.toJson) := ofUtf8_utf8 _
  have size : body.toJsonBytes.length = byteLength (String.ofList body.toJson) := length_utf8 _
  have sealed := Crypto.encryptWith_ok_iff (Crypto.derive agent owner) nonce
    (String.ofList body.toJson)
  simp only [buildEvent, bind_eq_ok, exists_unit, ensure_eq_ok, okOr_eq_ok, within_eq_ok, text,
    Option.some.injEq]
  constructor
  · rintro ⟨event, small, _, rfl, ciphertext, encrypted, -⟩
    exact ⟨small, size ▸ (sealed.1 ⟨ciphertext, encrypted⟩).2⟩
  · rintro ⟨small, short⟩
    obtain ⟨payload, encrypted⟩ := sealed.2 ⟨size ▸ toJsonBytes_pos body, size ▸ short⟩
    obtain ⟨event, signed⟩ := Crypto.signWithKeys_ok
      { kind := kindAgentEngram, content := payload,
        tags := engramTags agent owner body, createdAt := createdAt } agent
    exact ⟨event, small, _, rfl, payload, encrypted, signed⟩

/-! ## Reading a built event -/

/-- A derived `d` tag passes its own check. -/
theorem dTag_canonical (k : ConversationKey) (slug : String) :
    byteLength (dTag k slug) = 64 ∧ (dTag k slug).toList.all isLowerHexdigit = true := by
  have lower : ∀ c ∈ encodeHex (Crypto.hmacSha256 k (utf8 dTagDomain ++ 0 :: utf8 slug)),
      isLowerHexdigit c = true := fun c mem => isLowerHexdigit_of_mem mem
  refine ⟨?_, ?_⟩
  · rw [dTag, byteLength_ofList, length_encodeHex, Crypto.length_hmacSha256]
    intro c mem
    have range := toNat_of_isLowerHexdigit (lower c mem)
    exact utf8Size_eq_one (by omega)
  · rw [dTag, String.toList_ofList, List.all_eq_true]
    exact lower

/-- The sealed body comes back from whoever holds the conversation key, if the owner tag is still
there. -/
theorem validateAndDecrypt_of_built (built : Built agent owner body event)
    (wellFormed : body.WellFormed) (other : publicKey agent ≠ owner) {mySeckey : SecretKey}
    {theirPubkey : PublicKey}
    (key : Crypto.derive mySeckey theirPubkey = Crypto.derive agent owner) :
    validateAndDecrypt event (publicKey agent) owner mySeckey theirPubkey = .ok body := by
  have tags : event.tags = engramTags agent owner body := by
    have kept : (some owner.toHex == some (publicKey agent).toHex) = false :=
      beq_eq_false_iff_ne.2 fun same =>
        other (PublicKey.toHex_injective (Option.some.inj same)).symm
    rw [built.tags, engramTags, List.filter_cons_of_pos (by rfl), List.filter_cons_of_pos]
    · rfl
    · simpa [namesKey] using kept
  have d : singleTag "d" event.tags = .ok (dTag (conversationKey agent owner) body.slug) := by
    rw [tags]
    rfl
  have p : singleTag "p" event.tags = .ok owner.toHex := by
    rw [tags]
    rfl
  have same : eqIgnoreAsciiCase owner.toHex owner.toHex = true := beq_self_eq_true _
  have text : decrypt mySeckey theirPubkey event.content = some (String.ofList body.toJson) := by
    rw [decrypt, key]
    exact built.content
  unfold validateAndDecrypt
  simp only [bind_eq_ok, exists_unit, ensure_eq_ok, okOr_eq_ok, pure_eq_ok]
  refine ⟨built.kind, built.pubkey, _, d, dTag_canonical _ _, _, p, same, _, text, body,
    fromJsonBytes_toJsonBytes wellFormed, ?_, rfl⟩
  rw [conversationKey, conversationKey, key]

/-- The owner tag of an agent that owns itself does not reach the event. -/
theorem validateAndDecrypt_self (built : Built agent (publicKey agent) body event)
    (mySeckey : SecretKey) (theirPubkey : PublicKey) :
    validateAndDecrypt event (publicKey agent) (publicKey agent) mySeckey theirPubkey =
      .error (.invalidEnvelope "missing p tag") := by
  have tags : event.tags =
      [["d", dTag (conversationKey agent (publicKey agent)) body.slug]] := by
    rw [built.tags, engramTags, List.filter_cons_of_pos (by rfl), List.filter_cons_of_neg]
    · rfl
    · simp [namesKey]
  have d : singleTag "d" event.tags =
      .ok (dTag (conversationKey agent (publicKey agent)) body.slug) := by
    rw [tags]
    rfl
  have p : singleTag "p" event.tags = .error (.invalidEnvelope "missing p tag") := by
    rw [tags]
    rfl
  unfold validateAndDecrypt
  rw [ensure_of built.kind, ok_bind, ensure_of built.pubkey, ok_bind, d, ok_bind,
    ensure_of (dTag_canonical _ _), ok_bind, p, error_bind]

end Built

/-! ## Bodies survive exactly between two parties -/

/-- Whenever an event is built, both sides read the body out of it; and an event is built for every
body within the limit. -/
def Survives (agent owner : SecretKey) (body : Body) (createdAt : Nat) (nonce : Nonce) : Prop :=
  (∀ event, buildEvent agent (publicKey owner) body createdAt nonce = .ok event →
    validateAndDecrypt event (publicKey agent) (publicKey owner) agent (publicKey owner) =
      .ok body ∧
    validateAndDecrypt event (publicKey agent) (publicKey owner) owner (publicKey agent) =
      .ok body) ∧
  (1 ≤ body.toJsonBytes.length → body.toJsonBytes.length ≤ nip44PlaintextMax →
    ∃ event, buildEvent agent (publicKey owner) body createdAt nonce = .ok event)

/-- A body survives exactly when it is too large for an event to be tried, or short enough to be
sealed for an owner with another key than the agent. -/
theorem survives_iff (agent owner : SecretKey) {body : Body} (wellFormed : body.WellFormed)
    (createdAt : Nat) (nonce : Nonce) :
    Survives agent owner body createdAt nonce ↔
      nip44PlaintextMax < body.toJsonBytes.length ∨
        publicKey agent ≠ publicKey owner ∧ body.toJsonBytes.length ≤ Crypto.plaintextMax := by
  constructor
  · rintro ⟨read, builds⟩
    rcases Nat.lt_or_ge nip44PlaintextMax body.toJsonBytes.length with large | small
    · exact .inl large
    · obtain ⟨event, ok⟩ := builds (toJsonBytes_pos body) small
      refine .inr ⟨fun same => ?_, (exists_buildEvent_iff.1 ⟨event, ok⟩).2⟩
      have mine := (read event ok).1
      rw [← same] at ok mine
      rw [validateAndDecrypt_self (built_of_buildEvent ok)] at mine
      cases mine
  · rintro (large | ⟨other, short⟩)
    · refine ⟨fun event ok => ?_, fun _ small => absurd small (not_le.2 large)⟩
      exact absurd (exists_buildEvent_iff.1 ⟨event, ok⟩).1 (not_le.2 large)
    · refine ⟨fun event ok => ?_, fun _ small => exists_buildEvent_iff.2 ⟨small, short⟩⟩
      have built := built_of_buildEvent ok
      exact ⟨validateAndDecrypt_of_built built wellFormed other rfl,
        validateAndDecrypt_of_built built wellFormed other (Crypto.derive_symm owner agent)⟩

end Conversation

/-- Keys that are their own public keys, and a cipher that changes nothing and takes 65408 bytes. -/
@[reducible] def plainCrypto : Crypto where
  SecretKey := BitVec 256
  ConversationKey := BitVec 256
  Nonce := Unit
  publicKey := id
  derive := fun a b => a + b
  derive_symm := fun a b => BitVec.add_comm a b
  plaintextMax := 65408
  encryptWith := fun _ _ plaintext =>
    if 1 ≤ byteLength plaintext ∧ byteLength plaintext ≤ 65408 then .ok plaintext
    else .error "plaintext length"
  encryptWith_ok_iff := fun _ _ plaintext => by split_ifs with fits <;> simp [fits]
  decryptWith := fun _ payload => some payload
  decryptWith_encryptWith := by
    intro k nonce plaintext payload ok
    split_ifs at ok
    exact congrArg some (Except.ok.inj ok).symm
  hmacSha256 := fun _ _ => List.replicate 32 0
  length_hmacSha256 := fun _ _ => List.length_replicate
  signWithKeys := fun builder author =>
    .ok ⟨0, author, builder.createdAt, builder.kind,
      if builder.allowSelfTagging then builder.tags
      else builder.tags.filter fun t => !namesKey author t, builder.content, 0⟩
  signWithKeys_ok := fun _ _ => ⟨_, rfl⟩
  signed_of_signWithKeys := by
    intro builder keys event ok
    cases ok
    exact ⟨rfl, rfl, rfl, rfl⟩

theorem survives_iff_newline :
    (Body.memory "mem/a" (some "\n")).WellFormed ∧
    @Survives plainCrypto (1 : BitVec 256) (2 : BitVec 256) (.memory "mem/a" (some "\n")) 7 () := by
  have valid : (Body.memory "mem/a" (some "\n")).WellFormed := by decide
  exact ⟨valid, (@survives_iff plainCrypto (1 : BitVec 256) (2 : BitVec 256) _ valid 7 ()).2
    (.inr ⟨show (1 : BitVec 256) ≠ 2 by decide, by decide⟩)⟩

def letters (n : Nat) : Body := .core (String.ofList (List.replicate n 'a'))

theorem length_letters (n : Nat) : (letters n).toJsonBytes.length = n + 28 := by
  have written : (List.replicate n 'a').flatMap writeJsonChar = List.replicate n 'a' := by
    rw [List.flatMap_replicate]
    exact List.flatten_replicate_singleton
  have names : writeJsonString "slug" = "\"slug\"".toList ∧
      writeJsonString coreSlug = "\"core\"".toList ∧
      writeJsonString "profile" = "\"profile\"".toList := by decide
  have json : (letters n).toJson = "\x7b\"slug\":\"core\",\"profile\":\"".toList ++
      (List.replicate n 'a' ++ "\"\x7d".toList) := by
    rw [letters, Body.toJson, Body.slug, Body.payload, names.1, names.2.1, names.2.2, writeJsonString]
    simp [written]
  have ascii : ∀ c ∈ (letters n).toJson, c.toNat ≤ 127 := by
    rw [json, List.forall_mem_append, List.forall_mem_append]
    exact ⟨by simp, fun c mem => List.eq_of_mem_replicate mem ▸ by decide, by simp⟩
  rw [Body.toJsonBytes, length_utf8, byteLength_ofList fun c mem => utf8Size_eq_one (ascii c mem), json]
  simp only [List.length_append, List.length_replicate]
  exact Nat.add_left_comm 26 n 2

/-- The event of an agent that owns itself is built, and neither side can read it; and for an owner of
its own there are bodies within the limit for which no event is built. -/
theorem not_survives :
    (∃ event, @buildEvent plainCrypto (1 : BitVec 256) 1 (.core "I") 7 () = .ok event ∧
      @validateAndDecrypt plainCrypto event 1 1 (1 : BitVec 256) 1 =
        .error (.invalidEnvelope "missing p tag")) ∧
      (letters 65500).toJsonBytes.length ≤ nip44PlaintextMax ∧
      ∀ event, @buildEvent plainCrypto (1 : BitVec 256) 2 (letters 65500) 7 () ≠ .ok event := by
  refine ⟨?_, ?_, fun event ok => ?_⟩
  · obtain ⟨event, ok⟩ := (@exists_buildEvent_iff plainCrypto (1 : BitVec 256) 1 (.core "I") 7 ()).2
      (by decide)
    exact ⟨event, ok, @validateAndDecrypt_self plainCrypto (1 : BitVec 256) _ event
      (@built_of_buildEvent plainCrypto (1 : BitVec 256) 1 _ 7 () event ok) (1 : BitVec 256) 1⟩
  · rw [length_letters]
    decide
  · have short := ((@exists_buildEvent_iff plainCrypto (1 : BitVec 256) 2 _ 7 ()).1 ⟨event, ok⟩).2
    rw [length_letters] at short
    exact absurd short (by decide)

end Engram

end Carryforth
