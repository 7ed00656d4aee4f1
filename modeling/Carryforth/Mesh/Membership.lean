import Carryforth.Lib.Fallible
import Carryforth.Types

/-!
# Mesh membership

The table of peers that a runtime may dial or accept.  Records enter it on two ways: the ready
registry, whose records the deployment's relay key attests, and gossip, where a record replaces an
older version.  Times are milliseconds from the epoch, a load factor is given by its bits.
-/

namespace Carryforth

namespace Mesh

open Fallible

/-- A boot-unique endpoint key. -/
abbrev RuntimeId := BitVec 256

def RuntimeId.toHex (id : RuntimeId) : String := String.ofList (Text.hexDigits 64 id.toNat)

/-! ## Ready records -/

def attestationContext : String := "buzz-relay-mesh-ready-v1"

structure ReadyRecord where
  runtimeId : RuntimeId
  runtimePubkey : String
  relayPubkey : String
  relaySig : String
  endpointAddrs : List String
  protoVersion : Nat
  capabilities : List String
deriving DecidableEq, Repr

/-- The keys, signatures and digests of the signature library, with the texts of its errors. -/
class Secp256k1 where
  PublicKey : Type
  XOnly : Type
  Signature : Type
  Message : Type
  fromHex : String → Except String PublicKey
  toHex : PublicKey → String
  xonly : PublicKey → Except String XOnly
  parseSignature : String → Except String Signature
  messageOf : String → Message
  verifySchnorr : Signature → Message → XOnly → Except String Unit

/-- The signed text. -/
def attestationPreimage (runtimeId : RuntimeId) (relayPubkey : String) : String :=
  attestationContext ++ "\nruntime_pubkey=" ++ runtimeId.toHex ++ "\nrelay_pubkey=" ++ relayPubkey

section Attestation

variable [Secp256k1]

open Secp256k1 in
def verifyAttestation (runtimeId : RuntimeId) (relayPubkey relaySig : String) :
    Except String Unit := do
  let key ← within ("ready registry attestation invalid relay_pubkey: " ++ ·) (fromHex relayPubkey)
  let point ← within ("ready registry attestation relay_pubkey xonly conversion failed: " ++ ·)
    (xonly key)
  let sig ← within ("ready registry attestation invalid relay_sig: " ++ ·) (parseSignature relaySig)
  within ("ready registry attestation signature verification failed: " ++ ·)
    (verifySchnorr sig (messageOf (attestationPreimage runtimeId (toHex key))) point)

def ReadyRecord.verifyAttestation (ready : ReadyRecord) : Except String Unit := do
  ensure (ready.runtimePubkey = ready.runtimeId.toHex)
    ("ready registry runtime_id/runtime_pubkey mismatch: " ++ ready.runtimeId.toHex ++ " != " ++
      ready.runtimePubkey)
  Mesh.verifyAttestation ready.runtimeId ready.relayPubkey ready.relaySig

end Attestation

/-! ## Gossip -/

def gossipPayloadVersion : Nat := 1

structure GossipRecord where
  runtimeId : RuntimeId
  endpointAddrs : List String
  protoVersion : Nat
  load : BitVec 32
  draining : Bool
  capabilities : List String
  version : Nat
  heartbeatMillis : Nat
deriving DecidableEq, Repr

def GossipRecord.new (now : Nat) (runtimeId : RuntimeId) (endpointAddrs : List String)
    (protoVersion : Nat) : GossipRecord :=
  { runtimeId, endpointAddrs, protoVersion, load := 0, draining := false, capabilities := []
    version := 1, heartbeatMillis := now }

structure GossipDigestEntry where
  runtimeId : RuntimeId
  version : Nat
deriving DecidableEq, Repr

inductive GossipMessage
  | digest (version : Nat) (entries : List GossipDigestEntry)
  | delta (version : Nat) (records : List GossipRecord)
deriving DecidableEq, Repr

def GossipMessage.version : GossipMessage → Nat
  | .digest version _ => version
  | .delta version _ => version

/-- A payload is given by the message its bytes spell, if they spell one. -/
def decodeMessage (payload : Except String GossipMessage) : Except String GossipMessage := do
  let message ← payload
  ensure (message.version = gossipPayloadVersion)
    ("unknown gossip payload version " ++ toString message.version)
  return message

structure PhiAccrual where
  samples : List Nat
  lastHeartbeat : Option Nat
  maxSamples : Nat
deriving DecidableEq, Repr

namespace PhiAccrual

def new (maxSamples : Nat) : PhiAccrual :=
  { samples := [], lastHeartbeat := none, maxSamples := max maxSamples 1 }

def default : PhiAccrual := new 100

/-- The samples with the time since the last heartbeat, if some time has passed. -/
def sampled (phi : PhiAccrual) (at_ : Nat) : List Nat :=
  match phi.lastHeartbeat with
  | some prev =>
    if prev < at_ then
      let samples := phi.samples ++ [at_ - prev]
      if phi.maxSamples < samples.length then samples.tail else samples
    else phi.samples
  | none => phi.samples

def observe (phi : PhiAccrual) (at_ : Nat) : PhiAccrual :=
  { phi with samples := phi.sampled at_, lastHeartbeat := some at_ }

end PhiAccrual

/-! ## The table -/

inductive ConnectionState
  | disconnected
  | connecting
  | connected
  | suspect
deriving DecidableEq, Repr

structure PeerState where
  record : GossipRecord
  phi : PhiAccrual
  connectionState : ConnectionState
  gossipFramesReceived : Nat
deriving DecidableEq, Repr

structure MeshMembership where
  localRuntimeId : RuntimeId
  localRecord : GossipRecord
  peers : OrdMap RuntimeId PeerState
  draining : Bool
  foreignRelayRejections : Nat
  expectedRelayPubkey : Option String

namespace MeshMembership

def new (localRecord : GossipRecord) : MeshMembership :=
  { localRuntimeId := localRecord.runtimeId, localRecord, peers := ∅, draining := false
    foreignRelayRejections := 0, expectedRelayPubkey := none }

def withExpectedRelayPubkey (m : MeshMembership) (pubkeyHex : String) : MeshMembership :=
  { m with expectedRelayPubkey := some pubkeyHex }

def hasPeer (m : MeshMembership) (id : RuntimeId) : Bool := m.peers.contains id

/-- What a gossiped record makes of what is known of its runtime, if it is newer. -/
def mergedPeer (known : Option PeerState) (record : GossipRecord) : Option PeerState :=
  match known with
  | some peer =>
    if record.version ≤ peer.record.version then none
    else some { peer with
      record, connectionState := .connected, phi := peer.phi.observe record.heartbeatMillis }
  | none =>
    some { record, phi := PhiAccrual.default.observe record.heartbeatMillis
           connectionState := .connected, gossipFramesReceived := 0 }

def applyGossipRecord (m : MeshMembership) (record : GossipRecord) : MeshMembership :=
  if record.runtimeId = m.localRuntimeId then m
  else
    match mergedPeer m.peers[record.runtimeId]? record with
    | none => m
    | some peer => { m with peers := m.peers.insert record.runtimeId peer }

/-- The record with which an attested runtime enters. -/
def seedOf (now : Nat) (ready : ReadyRecord) : GossipRecord :=
  { GossipRecord.new now ready.runtimeId ready.endpointAddrs ready.protoVersion with
    capabilities := ready.capabilities }

def applyReadyRecord [Secp256k1] (now : Nat) (m : MeshMembership) (ready : ReadyRecord) :
    MeshMembership :=
  if ready.runtimeId = m.localRuntimeId then m
  else if m.expectedRelayPubkey ≠ some ready.relayPubkey then
    { m with foreignRelayRejections := (m.foreignRelayRejections + 1) % 2 ^ 64 }
  else
    match ready.verifyAttestation with
    | .error _ => m
    | .ok () => m.applyGossipRecord (seedOf now ready)

def applyReadyRecords [Secp256k1] (m : MeshMembership) (now : Nat) (records : List ReadyRecord) :
    MeshMembership := records.foldl (applyReadyRecord now) m

def updatePeer (m : MeshMembership) (id : RuntimeId) (f : PeerState → PeerState) :
    MeshMembership :=
  match m.peers[id]? with
  | some peer => { m with peers := m.peers.insert id (f peer) }
  | none => m

def markConnectionState (m : MeshMembership) (id : RuntimeId) (state : ConnectionState) :
    MeshMembership := m.updatePeer id fun peer => { peer with connectionState := state }

def recordGossipFrameReceived (m : MeshMembership) (id : RuntimeId) : MeshMembership :=
  m.updatePeer id fun peer =>
    { peer with gossipFramesReceived := min (peer.gossipFramesReceived + 1) (2 ^ 64 - 1) }

def updateLocal (m : MeshMembership) (now : Nat) (f : GossipRecord → GossipRecord) :
    MeshMembership :=
  let record := f m.localRecord
  { m with localRecord := { record with
    version := min (record.version + 1) (2 ^ 64 - 1), heartbeatMillis := now } }

def beginDrain (m : MeshMembership) (now : Nat) : MeshMembership :=
  { m with draining := true }.updateLocal now fun record => { record with draining := true }

def records (m : MeshMembership) : List GossipRecord :=
  m.peers.valueList.map PeerState.record ++ [m.localRecord]

/-! ## What the operations keep -/

variable {m : MeshMembership}

/-- A record makes its runtime a peer; no other runtime becomes one. -/
theorem hasPeer_applyGossipRecord (m : MeshMembership) (record : GossipRecord) (id : RuntimeId) :
    (m.applyGossipRecord record).hasPeer id = true ↔
      m.hasPeer id = true ∨ record.runtimeId = id ∧ id ≠ m.localRuntimeId := by
  unfold applyGossipRecord
  split_ifs with own
  · exact ⟨.inl, fun h => h.elim (fun h => h) fun h => absurd (h.1.symm.trans own) h.2⟩
  · split
    · -- an old version, so the runtime is known
      rename_i stale
      refine ⟨.inl, fun h => h.elim (fun h => h) fun h => ?_⟩
      rw [← h.1, hasPeer, OrdMap.contains_iff]
      cases known : m.peers[record.runtimeId]? with
      | none =>
        rw [known] at stale
        cases stale
      | some peer => exact ⟨peer, rfl⟩
    · rename_i peer newer
      simp only [hasPeer, Std.ExtTreeMap.contains_insert, Bool.or_eq_true, beq_iff_eq,
        Std.LawfulEqCmp.compare_eq_iff_eq]
      constructor
      · rintro (rfl | known)
        · exact .inr ⟨rfl, own⟩
        · exact .inl known
      · rintro (known | ⟨rfl, -⟩)
        · exact .inr known
        · exact .inl rfl

/-- The entry of a key is kept under an update of any entry. -/
theorem hasPeer_updatePeer (m : MeshMembership) (id other : RuntimeId)
    (f : PeerState → PeerState) : (m.updatePeer id f).hasPeer other = m.hasPeer other := by
  unfold updatePeer
  split
  · rename_i peer known
    by_cases same : id = other
    · rw [hasPeer, hasPeer, ← same, Std.ExtTreeMap.contains_insert_self]
      exact (OrdMap.contains_iff.2 ⟨peer, known⟩).symm
    · rw [hasPeer, hasPeer, Std.ExtTreeMap.contains_insert]
      simp [same]
  · rfl

/-- The parts of a membership that no operation changes. -/
structure SameNode (m m' : MeshMembership) : Prop where
  runtime : m'.localRuntimeId = m.localRuntimeId
  anchor : m'.expectedRelayPubkey = m.expectedRelayPubkey

namespace SameNode

theorem refl (m : MeshMembership) : m.SameNode m := ⟨rfl, rfl⟩

theorem trans {m m' m'' : MeshMembership} (first : m.SameNode m') (second : m'.SameNode m'') :
    m.SameNode m'' :=
  ⟨second.runtime.trans first.runtime, second.anchor.trans first.anchor⟩

theorem applyGossipRecord (m : MeshMembership) (record : GossipRecord) :
    m.SameNode (m.applyGossipRecord record) := by
  unfold MeshMembership.applyGossipRecord
  split_ifs
  · exact .refl m
  · split <;> exact ⟨rfl, rfl⟩

theorem updatePeer (m : MeshMembership) (id : RuntimeId) (f : PeerState → PeerState) :
    m.SameNode (m.updatePeer id f) := by
  unfold MeshMembership.updatePeer
  split <;> exact ⟨rfl, rfl⟩

theorem applyReadyRecord [Secp256k1] (now : Nat) (m : MeshMembership) (ready : ReadyRecord) :
    m.SameNode (m.applyReadyRecord now ready) := by
  unfold MeshMembership.applyReadyRecord
  split_ifs
  · exact .refl m
  · exact ⟨rfl, rfl⟩
  · split
    · exact .refl m
    · exact applyGossipRecord m _

theorem foldl {α : Type} {f : MeshMembership → α → MeshMembership}
    (keeps : ∀ (m : MeshMembership) a, m.SameNode (f m a)) (l : List α) (m : MeshMembership) :
    m.SameNode (l.foldl f m) := by
  induction l generalizing m with
  | nil => exact .refl m
  | cons a l ih => exact (keeps m a).trans (ih _)

end SameNode

end MeshMembership

end Mesh

end Carryforth
