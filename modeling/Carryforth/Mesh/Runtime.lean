import Carryforth.Mesh.Membership

/-!
# Mesh runtime

The loops of one runtime: it accepts and dials connections, rescans the registry, and exchanges
gossip on the control streams of its connections.  The loops share the membership table and the
table of connections; a step is what one of them does between two waits.  What was offered to the
node and what it decided is kept beside its state: the ready records presented to it, the inbound
connections it accepted, and the runtimes it dialed.
-/

namespace Carryforth

namespace Mesh

open MeshMembership

structure PeerEntry where
  dialedByUs : Bool
  control : Bool
deriving DecidableEq, Repr

inductive Dialing
  | candidate (record : GossipRecord)
  | trying (record : GossipRecord) (addrs : List String)

inductive Attempt
  | badAddr
  | badId
  | failed
  | connected
deriving DecidableEq, Repr

structure Node where
  membership : MeshMembership
  peers : OrdMap RuntimeId PeerEntry
  /-- The runtimes that have a control stream to this one. -/
  streams : List RuntimeId
  /-- The inbound connection that waits for a rescan. -/
  accepting : Option RuntimeId
  dialing : List Dialing
  presented : List ReadyRecord
  accepted : List RuntimeId
  dialed : List RuntimeId
  /-- The messages put on control streams. -/
  replies : List (RuntimeId × GossipMessage)

namespace Node

def start (membership : MeshMembership) : Node :=
  { membership, peers := ∅, streams := [], accepting := none, dialing := [], presented := []
    accepted := [], dialed := [], replies := [] }

/-- Whether a new connection replaces the one there is: the smaller runtime is the one to dial. -/
def newConnectionWins (here remote : RuntimeId) (newDialedByUs : Bool) : Bool :=
  if here < remote then newDialedByUs else !newDialedByUs

def installPeer (n : Node) (remote : RuntimeId) (dialedByUs : Bool) : Node :=
  if n.peers.contains remote ∧
      ¬newConnectionWins n.membership.localRuntimeId remote dialedByUs = true then n
  else
    { n with
      peers := n.peers.insert remote { dialedByUs, control := dialedByUs }
      membership := n.membership.markConnectionState remote .connected
      -- the dialer opens the control stream
      streams := if dialedByUs then remote :: n.streams else n.streams }

def removePeer (n : Node) (remote : RuntimeId) : Node :=
  if n.peers.contains remote then
    { n with
      peers := n.peers.erase remote
      membership := n.membership.markConnectionState remote .disconnected }
  else n

def scan [Secp256k1] (n : Node) (now : Nat) (records : List ReadyRecord) : Node :=
  { n with
    membership := n.membership.applyReadyRecords now records
    presented := n.presented ++ records }

def admitPeer (n : Node) (remote : RuntimeId) : Node :=
  { n with accepted := n.accepted ++ [remote] }.installPeer remote false

/-- The digest entry that counts for a runtime. -/
def remoteVersion (digest : List GossipDigestEntry) (id : RuntimeId) : Option Nat :=
  (digest.reverse.find? fun entry => entry.runtimeId = id).map GossipDigestEntry.version

/-- Records the remote digest is missing or behind on. -/
def deltaFor (m : MeshMembership) (digest : List GossipDigestEntry) : GossipMessage :=
  .delta gossipPayloadVersion ((m.records.filter fun record =>
    (remoteVersion digest record.runtimeId).all fun version => version < record.version).mergeSort
      fun a b => a.runtimeId ≤ b.runtimeId)

def exchange (n : Node) (remote : RuntimeId) (message : GossipMessage) : Node :=
  match message with
  | .digest _ entries =>
    if (n.peers[remote]?).any PeerEntry.control then
      { n with replies := n.replies ++ [(remote, deltaFor n.membership entries)] }
    else n
  | .delta _ records =>
    { n with membership := records.foldl applyGossipRecord n.membership }

def dialStep (n : Node) (attempt : Attempt) : Node :=
  match n.dialing with
  | [] => n
  | .candidate record :: rest =>
    if n.peers.contains record.runtimeId then { n with dialing := rest }
    else { n with dialing := .trying record record.endpointAddrs :: rest }
  | .trying record [] :: rest =>
    { n with
      dialing := rest
      membership := n.membership.markConnectionState record.runtimeId .disconnected }
  | .trying record (_ :: addrs) :: rest =>
    match attempt with
    | .badAddr => { n with dialing := .trying record addrs :: rest }
    | .badId => { n with dialing := rest }
    | .failed =>
      { n with
        dialing := .trying record addrs :: rest
        dialed := n.dialed ++ [record.runtimeId]
        membership := n.membership.markConnectionState record.runtimeId .connecting }
    | .connected =>
      { n with
        dialing := rest
        dialed := n.dialed ++ [record.runtimeId]
        membership := n.membership.markConnectionState record.runtimeId .connecting }.installPeer
          record.runtimeId true

inductive Action
  /-- A registry scan returns records. -/
  | scan (now : Nat) (records : List ReadyRecord)
  /-- A remote runtime connects. -/
  | inbound (remote : RuntimeId)
  /-- The connection that waited for a rescan is decided. -/
  | decide
  /-- A reconcile pass collects the runtimes to dial. -/
  | reconcile
  | dial (attempt : Attempt)
  /-- A connected runtime opens a control stream. -/
  | control (remote : RuntimeId)
  /-- A runtime sends bytes on its control stream. -/
  | gossip (remote : RuntimeId) (payload : Except String GossipMessage)
  | disconnect (remote : RuntimeId)
  /-- The local record is refreshed. -/
  | tick (now : Nat)
  | drain (now : Nat)

/-- One step; a step that the state does not allow changes nothing. -/
def step [Secp256k1] (n : Node) : Action → Node
  | .scan now records => n.scan now records
  | .inbound remote =>
    if n.accepting.isSome then n
    else if n.membership.hasPeer remote then n.admitPeer remote
    else { n with accepting := some remote }
  | .decide =>
    match n.accepting with
    | none => n
    | some remote =>
      let n := { n with accepting := none }
      if n.membership.hasPeer remote then n.admitPeer remote else n
  | .reconcile =>
    if n.dialing = [] then
      { n with dialing := (n.membership.records.filter fun record =>
          record.runtimeId ≠ n.membership.localRuntimeId ∧ ¬record.draining = true).map .candidate }
    else n
  | .dial attempt => n.dialStep attempt
  | .control remote =>
    match n.peers[remote]? with
    | some entry =>
      { n with
        peers := n.peers.insert remote { entry with control := true }
        streams := remote :: n.streams }
    | none => n
  | .gossip remote payload =>
    if remote ∈ n.streams then
      let n := { n with membership := n.membership.recordGossipFrameReceived remote }
      match decodeMessage payload with
      | .ok message => n.exchange remote message
      | .error _ => n
    else n
  | .disconnect remote => n.removePeer remote
  | .tick now => { n with membership := n.membership.updateLocal now id }
  | .drain now => { n with membership := n.membership.beginDrain now }

def run [Secp256k1] (n : Node) (actions : List Action) : Node := actions.foldl step n

end Node

end Mesh

end Carryforth
