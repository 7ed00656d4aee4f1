import Carryforth.Lib.Latest
import Carryforth.Lib.Steps
import Carryforth.Mesh.Runtime

/-!
# Gossip between runtimes

Any number of runtimes keep a record of their own and copies of the records of others.  They send
digests of what they know and answer a digest with the records it is behind on; the registry offers
the records that runtimes booted with.  A message that was sent may arrive anywhere, any number of
times and at any later moment, or never.  A record changes only at its runtime, in versions, so
every copy is a version that its runtime held (`Inv.stored`), copies only move on to later versions
(`Inv.run`), and one exchange brings a runtime up to what the other knows
(`recordOf_foldl_deltaFor`).
-/

namespace Carryforth

namespace Mesh

open Latest

/-! ## Digests -/

namespace MeshMembership

/-- A digest over every record this runtime knows. -/
def digest (m : MeshMembership) : GossipMessage :=
  .digest gossipPayloadVersion ((m.records.map fun record =>
    ({ runtimeId := record.runtimeId, version := record.version } : GossipDigestEntry)).mergeSort
      fun a b => a.runtimeId ≤ b.runtimeId)

/-- The record that a runtime has of a runtime: its own, or its copy. -/
def recordOf (m : MeshMembership) (id : RuntimeId) : Option GossipRecord :=
  if id = m.localRuntimeId then some m.localRecord else m.peers[id]?.map PeerState.record

/-- Every copy stands under the runtime it is of, and none is of the runtime itself. -/
structure Kept (m : MeshMembership) : Prop where
  own : m.localRecord.runtimeId = m.localRuntimeId
  copy : ∀ {id record}, m.peers[id]?.map PeerState.record = some record →
    record.runtimeId = id ∧ id ≠ m.localRuntimeId

end MeshMembership

def GossipMessage.entries : GossipMessage → List GossipDigestEntry
  | .digest _ entries => entries
  | .delta _ _ => []

def GossipMessage.records : GossipMessage → List GossipRecord
  | .digest _ _ => []
  | .delta _ records => records

/-! ## What one operation does to the records of a runtime -/

namespace MeshMembership

variable {m : MeshMembership} {record : GossipRecord} {id : RuntimeId}

theorem recordOf_own (m : MeshMembership) : m.recordOf m.localRuntimeId = some m.localRecord :=
  if_pos rfl

theorem recordOf_of_ne (other : id ≠ m.localRuntimeId) :
    m.recordOf id = m.peers[id]?.map PeerState.record := if_neg other

theorem peers_applyGossipRecord (m : MeshMembership) (record : GossipRecord) (id : RuntimeId) :
    (m.applyGossipRecord record).peers[id]?.map PeerState.record =
      if id = record.runtimeId ∧ id ≠ m.localRuntimeId then
        some (latest GossipRecord.version (m.peers[id]?.map PeerState.record) record)
      else m.peers[id]?.map PeerState.record := by
  unfold applyGossipRecord
  split_ifs with own here here
  · exact absurd own (here.1 ▸ here.2)
  · rfl
  · -- the copy of the record's own runtime
    obtain ⟨rfl, -⟩ := here
    cases known : m.peers[record.runtimeId]? with
    | none =>
      simp only [mergedPeer, Std.ExtTreeMap.getElem?_insert_self]
      rfl
    | some peer =>
      simp only [mergedPeer, latest, Option.map_some]
      split_ifs with old
      · simp only [known, Option.map_some]
      · simp only [Std.ExtTreeMap.getElem?_insert_self, Option.map_some]
  · have different : id ≠ record.runtimeId := fun same => here ⟨same, same ▸ own⟩
    split
    · rfl
    · dsimp only
      rw [OrdMap.get_insert_of_ne different]

theorem localRecord_applyGossipRecord (m : MeshMembership) (record : GossipRecord) :
    (m.applyGossipRecord record).localRecord = m.localRecord := by
  unfold applyGossipRecord
  split_ifs
  · rfl
  · split <;> rfl

/-- A record updates the copy of its own runtime to the latest version. -/
theorem recordOf_applyGossipRecord (m : MeshMembership) (record : GossipRecord) (id : RuntimeId) :
    (m.applyGossipRecord record).recordOf id =
      if id = record.runtimeId ∧ id ≠ m.localRuntimeId then
        some (latest GossipRecord.version (m.recordOf id) record)
      else m.recordOf id := by
  have node := SameNode.applyGossipRecord m record
  by_cases own : id = m.localRuntimeId
  · rw [if_neg fun h => h.2 own, own, recordOf_own, ← node.runtime, recordOf_own,
      localRecord_applyGossipRecord]
  · rw [recordOf_of_ne (by rwa [node.runtime]), recordOf_of_ne own, peers_applyGossipRecord]

theorem peers_updatePeer (m : MeshMembership) (id other : RuntimeId) {f : PeerState → PeerState}
    (keeps : ∀ peer, (f peer).record = peer.record) :
    (m.updatePeer id f).peers[other]?.map PeerState.record =
      m.peers[other]?.map PeerState.record := by
  unfold updatePeer
  split
  · rename_i peer known
    dsimp only
    by_cases same : other = id
    · subst same
      rw [Std.ExtTreeMap.getElem?_insert_self, known, Option.map_some, Option.map_some, keeps]
    · rw [OrdMap.get_insert_of_ne same]
  · rfl

theorem Kept.mem_records (kept : m.Kept) : record ∈ m.records ↔
    m.recordOf record.runtimeId = some record := by
  unfold records
  rw [List.mem_append, List.mem_singleton, List.mem_map]
  constructor
  · rintro (⟨peer, listed, rfl⟩ | rfl)
    · obtain ⟨id, known⟩ := OrdMap.mem_valueList.1 listed
      obtain ⟨rfl, other⟩ := kept.copy (congrArg (Option.map PeerState.record) known)
      rw [recordOf_of_ne other, known]
      rfl
    · rw [kept.own, recordOf_own]
  · intro known
    by_cases own : record.runtimeId = m.localRuntimeId
    · rw [own, recordOf_own] at known
      exact .inr (Option.some.inj known).symm
    · rw [recordOf_of_ne own] at known
      obtain ⟨peer, at_, is⟩ := Option.map_eq_some_iff.1 known
      exact .inl ⟨peer, OrdMap.mem_valueList.2 ⟨_, at_⟩, is⟩

theorem Kept.runtimeId_of_recordOf (kept : m.Kept) (known : m.recordOf id = some record) :
    record.runtimeId = id := by
  by_cases own : id = m.localRuntimeId
  · rw [own, recordOf_own] at known
    rw [← Option.some.inj known, kept.own, own]
  · rw [recordOf_of_ne own] at known
    exact (kept.copy known).1

/-! ## Taking records in -/

/-- A runtime has taken in records, all of one kind: its own record is the same, each copy is the
one from before or one that was taken in, and none goes back. -/
structure Takes (G : GossipRecord → Prop) (m m' : MeshMembership) : Prop where
  runtime : m'.localRuntimeId = m.localRuntimeId
  own : m'.localRecord = m.localRecord
  kept : m.Kept → m'.Kept
  took : ∀ {id record}, m'.recordOf id = some record → m.recordOf id = some record ∨ G record
  later : ∀ {id record}, m.recordOf id = some record →
    ∃ record', m'.recordOf id = some record' ∧ record.version ≤ record'.version

namespace Takes

variable {G : GossipRecord → Prop} {m' m'' : MeshMembership}

theorem refl (m : MeshMembership) : Takes G m m :=
  ⟨rfl, rfl, fun kept => kept, .inl, fun known => ⟨_, known, Nat.le_refl _⟩⟩

theorem trans (first : Takes G m m') (second : Takes G m' m'') : Takes G m m'' where
  runtime := second.runtime.trans first.runtime
  own := second.own.trans first.own
  kept := fun kept => second.kept (first.kept kept)
  took := fun known => (second.took known).elim first.took .inr
  later := fun known => by
    obtain ⟨record', known', le⟩ := first.later known
    obtain ⟨record'', known'', le'⟩ := second.later known'
    exact ⟨record'', known'', le.trans le'⟩

theorem applyGossipRecord (m : MeshMembership) (genuine : G record) :
    Takes G m (m.applyGossipRecord record) where
  runtime := (SameNode.applyGossipRecord m record).runtime
  own := localRecord_applyGossipRecord m record
  kept := fun kept => by
    have node := SameNode.applyGossipRecord m record
    refine ⟨by rw [localRecord_applyGossipRecord, node.runtime, kept.own], ?_⟩
    intro id copy known
    rw [peers_applyGossipRecord] at known
    rw [node.runtime]
    split_ifs at known with here
    · refine ⟨?_, here.2⟩
      rcases @latest_eq _ GossipRecord.version (m.peers[id]?.map PeerState.record) record with
        old | new
      · exact (kept.copy (old.trans known)).1
      · rw [← Option.some.inj known, new, here.1]
    · exact kept.copy known
  took := fun {id copy} known => by
    rw [recordOf_applyGossipRecord] at known
    split_ifs at known with here
    · rcases @latest_eq _ GossipRecord.version (m.recordOf id) record with old | new
      · exact .inl (old.trans known)
      · rw [← Option.some.inj known, new]
        exact .inr genuine
    · exact .inl known
  later := fun {id copy} known => by
    rw [recordOf_applyGossipRecord]
    split_ifs with here
    · rw [known]
      exact ⟨_, rfl, known_le_latest⟩
    · exact ⟨copy, known, Nat.le_refl _⟩

/-- An update that keeps the records takes nothing in. -/
theorem of_eq (runtime : m'.localRuntimeId = m.localRuntimeId)
    (own : m'.localRecord = m.localRecord)
    (peers : ∀ id : RuntimeId,
      m'.peers[id]?.map PeerState.record = m.peers[id]?.map PeerState.record) :
    Takes G m m' := by
  have same : ∀ id, m'.recordOf id = m.recordOf id := by
    intro id
    rw [recordOf, recordOf, runtime, own, peers]
  refine ⟨runtime, own, fun kept => ⟨?_, ?_⟩, fun known => .inl ((same _).symm.trans known),
    fun known => ⟨_, (same _).trans known, Nat.le_refl _⟩⟩
  · rw [own, runtime, kept.own]
  · intro id record known
    rw [peers] at known
    rw [runtime]
    exact kept.copy known

theorem updatePeer (m : MeshMembership) (id : RuntimeId) {f : PeerState → PeerState}
    (keeps : ∀ peer, (f peer).record = peer.record) : Takes G m (m.updatePeer id f) := by
  refine of_eq (SameNode.updatePeer m id f).runtime ?_ (peers_updatePeer m id · keeps)
  unfold MeshMembership.updatePeer
  split <;> rfl

theorem applyReadyRecord [Secp256k1] (now : Nat) (m : MeshMembership) {ready : ReadyRecord}
    (genuine : G (seedOf now ready)) : Takes G m (m.applyReadyRecord now ready) := by
  unfold MeshMembership.applyReadyRecord
  split_ifs
  · exact refl m
  · exact of_eq rfl rfl fun _ => rfl
  · split
    · exact refl m
    · exact applyGossipRecord m genuine

theorem foldl {α : Type} {f : MeshMembership → α → MeshMembership} {l : List α}
    (takes : ∀ a ∈ l, ∀ m, Takes G m (f m a)) (m : MeshMembership) : Takes G m (l.foldl f m) := by
  induction l generalizing m with
  | nil => exact refl m
  | cons a l ih =>
    obtain ⟨first, rest⟩ := List.forall_mem_cons.1 takes
    exact (first m).trans (ih rest _)

end Takes

/-! ## One exchange -/

/-- A record that is taken in is known afterwards, in this version or a later one. -/
theorem exists_recordOf_foldl {records : List GossipRecord} (mem : record ∈ records)
    (other : record.runtimeId ≠ m.localRuntimeId) :
    ∃ record', (records.foldl MeshMembership.applyGossipRecord m).recordOf record.runtimeId =
      some record' ∧ record.version ≤ record'.version := by
  induction records generalizing m with
  | nil => cases mem
  | cons first records ih =>
    have node := SameNode.applyGossipRecord m first
    rcases List.mem_cons.1 mem with rfl | mem
    · have taken : (m.applyGossipRecord record).recordOf record.runtimeId =
          some (latest GossipRecord.version (m.recordOf record.runtimeId) record) := by
        rw [recordOf_applyGossipRecord, if_pos ⟨rfl, other⟩]
      have later : Takes (fun _ => True) (m.applyGossipRecord record)
          (records.foldl MeshMembership.applyGossipRecord (m.applyGossipRecord record)) :=
        Takes.foldl (fun _ _ m => Takes.applyGossipRecord m trivial) _
      obtain ⟨record', known, le⟩ := later.later taken
      exact ⟨record', known, version_le_latest.trans le⟩
    · exact ih mem (by rwa [node.runtime])

/-- The entry of a digest for a runtime is of the record that is known of it. -/
theorem Kept.recordOf_of_remoteVersion (kept : m.Kept) {version : Nat}
    (entry : Node.remoteVersion m.digest.entries id = some version) :
    ∃ record, m.recordOf id = some record ∧ record.version = version := by
  obtain ⟨found, first, rfl⟩ := Option.map_eq_some_iff.1 entry
  have is := List.find?_some first
  have listed := List.mem_of_find?_eq_some first
  rw [List.mem_reverse, digest, GossipMessage.entries, List.mem_mergeSort, List.mem_map] at listed
  obtain ⟨record, known, rfl⟩ := listed
  have here : record.runtimeId = id := of_decide_eq_true is
  rw [kept.mem_records, here] at known
  exact ⟨record, known, rfl⟩

/-- An answered digest brings a runtime up to every record that the other one knows. -/
theorem recordOf_foldl_deltaFor {a b : MeshMembership} (keptA : a.Kept) (keptB : b.Kept)
    (other : id ≠ a.localRuntimeId) (known : b.recordOf id = some record) :
    ∃ record', ((Node.deltaFor b a.digest.entries).records.foldl
      MeshMembership.applyGossipRecord a).recordOf id = some record' ∧
        record.version ≤ record'.version := by
  obtain rfl := keptB.runtimeId_of_recordOf known
  by_cases behind : (Node.remoteVersion a.digest.entries record.runtimeId).all
      (fun version => version < record.version) = true
  · refine exists_recordOf_foldl ?_ other
    rw [Node.deltaFor, GossipMessage.records, List.mem_mergeSort, List.mem_filter]
    exact ⟨keptB.mem_records.2 known, behind⟩
  · -- the digest lists a version that is not older
    cases entry : Node.remoteVersion a.digest.entries record.runtimeId with
    | none =>
      rw [entry] at behind
      exact absurd rfl behind
    | some version =>
      rw [entry] at behind
      have notOlder : record.version ≤ version := by simpa using behind
      obtain ⟨copy, here, rfl⟩ := keptA.recordOf_of_remoteVersion entry
      have later : Takes (fun _ => True) a ((Node.deltaFor b a.digest.entries).records.foldl
          MeshMembership.applyGossipRecord a) :=
        Takes.foldl (fun _ _ m => Takes.applyGossipRecord m trivial) _
      obtain ⟨record', known', le⟩ := later.later here
      exact ⟨record', known', notOlder.trans le⟩

end MeshMembership

/-! ## The deployment -/

structure Deployment (ι : Type) where
  runtimeId : ι → RuntimeId
  injective : Function.Injective runtimeId
  endpointAddrs : ι → List String
  protoVersion : ι → Nat
  capabilities : ι → List String
  bootedAt : ι → Nat
  relayPubkey : ι → String

namespace Deployment

variable {ι : Type} (d : Deployment ι)

def initial (x : ι) : GossipRecord :=
  { GossipRecord.new (d.bootedAt x) (d.runtimeId x) (d.endpointAddrs x) (d.protoVersion x) with
    capabilities := d.capabilities x }

/-- A record of the registry carries the addresses, the protocol version and the capabilities of
its runtime. -/
def Registered (ready : ReadyRecord) : Prop :=
  ∃ x, d.runtimeId x = ready.runtimeId ∧ d.endpointAddrs x = ready.endpointAddrs ∧
    d.protoVersion x = ready.protoVersion ∧ d.capabilities x = ready.capabilities

end Deployment

/-- All runtimes, the records that each has held as its own, oldest first, and the messages that
were sent. -/
structure World (ι : Type) where
  node : ι → MeshMembership
  held : ι → List GossipRecord
  sent : List GossipMessage

def Deployment.boot {ι : Type} (d : Deployment ι) : World ι where
  node := fun x => (MeshMembership.new (d.initial x)).withExpectedRelayPubkey (d.relayPubkey x)
  held := fun x => [d.initial x]
  sent := []

namespace World

inductive Action (ι : Type)
  | updateLocal (x : ι) (now : Nat) (f : GossipRecord → GossipRecord)
  | beginDrain (x : ι) (now : Nat)
  | sendDigest (x : ι)
  /-- A runtime answers a digest that was sent. -/
  | answer (x : ι) (message : GossipMessage)
  /-- A runtime applies a record of a message that was sent; a whole message is one such step for
  each of its records. -/
  | apply (x : ι) (message : GossipMessage) (record : GossipRecord)
  | scan (x : ι) (now : Nat) (records : List ReadyRecord)
  | mark (x : ι) (id : RuntimeId) (state : ConnectionState)
  | countFrame (x : ι) (id : RuntimeId)

section Steps

variable {ι : Type} [DecidableEq ι]

def setNode (w : World ι) (x : ι) (m : MeshMembership) : World ι :=
  { w with node := Function.update w.node x m }

theorem setNode_self (w : World ι) (x : ι) (m : MeshMembership) : (w.setNode x m).node x = m :=
  Function.update_self ..

theorem setNode_of_ne (w : World ι) {x y : ι} (other : y ≠ x) (m : MeshMembership) :
    (w.setNode x m).node y = w.node y := Function.update_of_ne other ..

def rewrite (w : World ι) (x : ι) (m : MeshMembership) : World ι :=
  { w.setNode x m with held := Function.update w.held x (w.held x ++ [m.localRecord]) }

theorem held_rewrite_self (w : World ι) (x : ι) (m : MeshMembership) :
    (w.rewrite x m).held x = w.held x ++ [m.localRecord] := Function.update_self ..

theorem held_rewrite_of_ne (w : World ι) {x y : ι} (other : y ≠ x) (m : MeshMembership) :
    (w.rewrite x m).held y = w.held y := Function.update_of_ne other ..

def step [Secp256k1] (w : World ι) : Action ι → World ι
  | .updateLocal x now f => w.rewrite x ((w.node x).updateLocal now f)
  | .beginDrain x now => w.rewrite x ((w.node x).beginDrain now)
  | .sendDigest x => { w with sent := w.sent ++ [(w.node x).digest] }
  | .answer x message =>
    match message with
    | .digest _ entries =>
      if message ∈ w.sent then { w with sent := w.sent ++ [Node.deltaFor (w.node x) entries] }
      else w
    | .delta _ _ => w
  | .apply x message record =>
    if message ∈ w.sent ∧ record ∈ message.records then
      w.setNode x ((w.node x).applyGossipRecord record)
    else w
  | .scan x now records => w.setNode x ((w.node x).applyReadyRecords now records)
  | .mark x id state => w.setNode x ((w.node x).markConnectionState id state)
  | .countFrame x id => w.setNode x ((w.node x).recordGossipFrameReceived id)

end Steps

variable {ι : Type}

def stored (w : World ι) (x : ι) (id : RuntimeId) : Option GossipRecord := (w.node x).recordOf id

/-- The action changes the record of a runtime. -/
def Action.writes [DecidableEq ι] (x : ι) : Action ι → Bool
  | .updateLocal y _ _ => x == y
  | .beginDrain y _ => x == y
  | _ => false

/-- An update leaves the runtime and the version of a record alone and does not end its drain. -/
def Tame (f : GossipRecord → GossipRecord) : Prop :=
  ∀ record, (f record).runtimeId = record.runtimeId ∧ (f record).version = record.version ∧
    (record.draining = true → (f record).draining = true)

/-- Updates are tame, and the registry has the records that runtimes booted with. -/
def Action.Proper (d : Deployment ι) : Action ι → Prop
  | .updateLocal _ _ f => Tame f
  | .scan _ _ records => ∀ ready ∈ records, d.Registered ready
  | _ => True

def SameRecord (r s : GossipRecord) : Prop :=
  { r with load := s.load, heartbeatMillis := s.heartbeatMillis } = s

theorem SameRecord.refl (r : GossipRecord) : SameRecord r r := rfl

theorem SameRecord.version {r s : GossipRecord} (same : SameRecord r s) : r.version = s.version := by
  rw [← same]

theorem SameRecord.draining {r s : GossipRecord} (same : SameRecord r s) :
    r.draining = s.draining := by
  rw [← same]

theorem SameRecord.of_common {h r s : GossipRecord} (first : SameRecord h r)
    (second : SameRecord h s) : SameRecord r s := by
  unfold SameRecord at *
  rw [← first, ← second]

/-- The record is one that its runtime has held. -/
def Genuine (d : Deployment ι) (held : ι → List GossipRecord) (record : GossipRecord) : Prop :=
  ∃ x, d.runtimeId x = record.runtimeId ∧ ∃ h ∈ held x, SameRecord h record

theorem Genuine.mono {d : Deployment ι} {held held' : ι → List GossipRecord}
    (grows : ∀ x, ∀ h ∈ held x, h ∈ held' x) {record : GossipRecord}
    (genuine : Genuine d held record) : Genuine d held' record := by
  obtain ⟨x, is, h, mem, same⟩ := genuine
  exact ⟨x, is, h, grows x h mem, same⟩

/-! ## The invariant -/

/-- What holds after every step: a runtime numbers its versions, the last is the one it has, drains
last, and all copies and all records in messages are genuine. -/
structure Inv (d : Deployment ι) (w : World ι) : Prop where
  runtime : ∀ x, (w.node x).localRuntimeId = d.runtimeId x
  kept : ∀ x, (w.node x).Kept
  first : ∀ x, d.initial x ∈ w.held x
  current : ∀ x, (w.held x).getLast? = some (w.node x).localRecord
  owned : ∀ x, ∀ h ∈ w.held x, h.runtimeId = d.runtimeId x
  numbered : ∀ x, Numbered GossipRecord.version (w.held x)
  drained : ∀ x, (w.held x).Pairwise fun r s => r.draining = true → s.draining = true
  stored : ∀ {x id record}, w.stored x id = some record → Genuine d w.held record
  sent : ∀ message ∈ w.sent, ∀ record ∈ message.records, Genuine d w.held record

namespace Inv

variable {d : Deployment ι} {w : World ι}

theorem boot (d : Deployment ι) : Inv d d.boot where
  runtime := fun _ => rfl
  kept := fun x => by
    refine ⟨rfl, fun {id record} known => ?_⟩
    have empty : (d.boot.node x).peers[id]? = none := Std.ExtTreeMap.getElem?_empty
    rw [empty] at known
    cases known
  first := fun _ => List.mem_singleton_self _
  current := fun _ => rfl
  owned := fun x h mem => by
    rw [List.mem_singleton.1 mem]
    rfl
  numbered := fun _ => Numbered.singleton rfl
  drained := fun _ => List.pairwise_singleton _ _
  stored := fun {x id record} known => by
    have empty : (d.boot.node x).peers[id]? = none := Std.ExtTreeMap.getElem?_empty
    by_cases own : id = (d.boot.node x).localRuntimeId
    · rw [World.stored, own, MeshMembership.recordOf_own] at known
      obtain rfl := Option.some.inj known
      exact ⟨x, rfl, _, List.mem_singleton_self _, rfl⟩
    · rw [World.stored, MeshMembership.recordOf_of_ne own, empty] at known
      cases known
  sent := fun _ mem => nomatch mem

theorem own_mem (inv : Inv d w) (x : ι) : (w.node x).localRecord ∈ w.held x :=
  List.mem_of_getLast? (inv.current x)

theorem own_version (inv : Inv d w) (x : ι) :
    (w.node x).localRecord.version = (w.held x).length := by
  have last := inv.current x
  rw [List.getLast?_eq_getElem?] at last
  have inside := (List.getElem?_eq_some_iff.1 last).1
  rw [inv.numbered x _ _ last]
  omega

/-- The two copies of a version are of one entry of the log. -/
theorem sameRecord (inv : Inv d w) {r s : GossipRecord} (genuineR : Genuine d w.held r)
    (genuineS : Genuine d w.held s) (runtime : r.runtimeId = s.runtimeId)
    (version : r.version = s.version) : SameRecord r s := by
  obtain ⟨x, ofR, h, memR, sameR⟩ := genuineR
  obtain ⟨y, ofS, k, memS, sameS⟩ := genuineS
  obtain rfl := d.injective (ofR.trans (runtime.trans ofS.symm))
  have versions : h.version = k.version := by rw [sameR.version, sameS.version, version]
  obtain rfl := (inv.numbered x).eq_of_mem memR memS versions
  exact sameR.of_common sameS

theorem draining_of_le (inv : Inv d w) {r s : GossipRecord} (genuineR : Genuine d w.held r)
    (genuineS : Genuine d w.held s) (runtime : r.runtimeId = s.runtimeId)
    (le : r.version ≤ s.version) (draining : r.draining = true) : s.draining = true := by
  obtain ⟨x, ofR, h, memR, sameR⟩ := genuineR
  obtain ⟨y, ofS, k, memS, sameS⟩ := genuineS
  obtain rfl := d.injective (ofR.trans (runtime.trans ofS.symm))
  rw [← sameR.version, ← sameS.version] at le
  rw [← sameR.draining] at draining
  rw [← sameS.draining]
  exact (inv.numbered x).rel_of_le (fun _ drains => drains) (inv.drained x) memR memS le draining

/-- A message of genuine records keeps the invariant. -/
theorem send (inv : Inv d w) {message : GossipMessage}
    (genuine : ∀ record ∈ message.records, Genuine d w.held record) :
    Inv d { w with sent := w.sent ++ [message] } := by
  refine { inv with sent := ?_, stored := inv.stored, kept := inv.kept }
  intro other mem
  rcases List.mem_append.1 mem with before | new
  · exact inv.sent other before
  · rw [List.mem_singleton.1 new]
    exact genuine

/-- A record from the registry is the one its runtime booted with. -/
theorem genuine_seedOf (inv : Inv d w) {ready : ReadyRecord} (registered : d.Registered ready)
    (now : Nat) : Genuine d w.held (MeshMembership.seedOf now ready) := by
  obtain ⟨x, runtime, addrs, proto, capabilities⟩ := registered
  refine ⟨x, runtime, _, inv.first x, ?_⟩
  simp only [SameRecord, Deployment.initial, MeshMembership.seedOf, GossipRecord.new, runtime, addrs,
    proto, capabilities]

variable [DecidableEq ι]

/-- Taking genuine records in keeps the invariant. -/
theorem setNode (inv : Inv d w) {x : ι} {m : MeshMembership}
    (takes : MeshMembership.Takes (Genuine d w.held) (w.node x) m) : Inv d (w.setNode x m) where
  runtime := fun y => by
    by_cases same : y = x
    · subst same
      rw [setNode_self, takes.runtime]
      exact inv.runtime y
    · rw [setNode_of_ne w same]
      exact inv.runtime y
  kept := fun y => by
    by_cases same : y = x
    · subst same
      rw [setNode_self]
      exact takes.kept (inv.kept y)
    · rw [setNode_of_ne w same]
      exact inv.kept y
  first := inv.first
  current := fun y => by
    by_cases same : y = x
    · subst same
      rw [setNode_self, takes.own]
      exact inv.current y
    · rw [setNode_of_ne w same]
      exact inv.current y
  owned := inv.owned
  numbered := inv.numbered
  drained := inv.drained
  stored := fun {y id record} known => by
    by_cases same : y = x
    · subst same
      rw [World.stored, setNode_self] at known
      exact (takes.took known).elim inv.stored fun genuine => genuine
    · rw [World.stored, setNode_of_ne w same] at known
      exact inv.stored known
  sent := inv.sent

/-- What a runtime does to itself when it writes its next version. -/
structure Next (m m' : MeshMembership) : Prop where
  runtime : m'.localRuntimeId = m.localRuntimeId
  peers : m'.peers = m.peers
  owned : m'.localRecord.runtimeId = m.localRecord.runtimeId
  version : m'.localRecord.version = m.localRecord.version + 1
  drained : m.localRecord.draining = true → m'.localRecord.draining = true

theorem Next.recordOf {m m' : MeshMembership} (next : Next m m') {id : RuntimeId}
    (other : id ≠ m.localRuntimeId) : m'.recordOf id = m.recordOf id := by
  rw [MeshMembership.recordOf_of_ne other, MeshMembership.recordOf_of_ne (next.runtime ▸ other),
    next.peers]

theorem Next.updateLocal {m : MeshMembership} {f : GossipRecord → GossipRecord} (tame : Tame f)
    (room : m.localRecord.version < 2 ^ 64 - 1) (now : Nat) : Next m (m.updateLocal now f) := by
  obtain ⟨runtime, version, drained⟩ := tame m.localRecord
  refine ⟨rfl, rfl, runtime, ?_, drained⟩
  show min ((f m.localRecord).version + 1) (2 ^ 64 - 1) = _
  rw [version]
  omega

theorem Next.beginDrain {m : MeshMembership} (room : m.localRecord.version < 2 ^ 64 - 1)
    (now : Nat) : Next m (m.beginDrain now) := by
  refine ⟨rfl, rfl, rfl, ?_, fun _ => rfl⟩
  show min (m.localRecord.version + 1) (2 ^ 64 - 1) = _
  omega

theorem rewrite (inv : Inv d w) {x : ι} {m : MeshMembership} (next : Next (w.node x) m) :
    Inv d (w.rewrite x m) := by
  have grows : ∀ y, ∀ h ∈ w.held y, h ∈ (w.rewrite x m).held y := by
    intro y h mem
    by_cases same : y = x
    · subst same
      rw [held_rewrite_self]
      exact List.mem_append_left _ mem
    · rw [held_rewrite_of_ne w same]
      exact mem
  have heldX := held_rewrite_self w x m
  have heldOf : ∀ y, y ≠ x → (w.rewrite x m).held y = w.held y := fun y other =>
    held_rewrite_of_ne w other m
  have nodeX : (w.rewrite x m).node x = m := setNode_self w x m
  have nodeOf : ∀ y, y ≠ x → (w.rewrite x m).node y = w.node y := fun y other =>
    setNode_of_ne w other m
  have ownX : m.localRecord.runtimeId = d.runtimeId x :=
    next.owned.trans (inv.owned x _ (inv.own_mem x))
  exact {
    runtime := fun y => by
      by_cases same : y = x
      · rw [same, nodeX, next.runtime, inv.runtime]
      · rw [nodeOf y same, inv.runtime]
    kept := fun y => by
      by_cases same : y = x
      · rw [same, nodeX]
        refine ⟨by rw [ownX, next.runtime, inv.runtime], fun {id record} known => ?_⟩
        rw [next.peers] at known
        rw [next.runtime]
        exact (inv.kept x).copy known
      · rw [nodeOf y same]
        exact inv.kept y
    first := fun y => grows y _ (inv.first y)
    current := fun y => by
      by_cases same : y = x
      · rw [same, nodeX, heldX, List.getLast?_concat]
      · rw [nodeOf y same, heldOf y same, inv.current]
    owned := fun y h mem => by
      by_cases same : y = x
      · rw [same, heldX, List.mem_append, List.mem_singleton] at mem
        rw [same]
        exact mem.elim (inv.owned x h) fun new => new ▸ ownX
      · rw [heldOf y same] at mem
        exact inv.owned y h mem
    numbered := fun y => by
      by_cases same : y = x
      · rw [same, heldX]
        exact (inv.numbered x).concat (by rw [next.version, inv.own_version])
      · rw [heldOf y same]
        exact inv.numbered y
    drained := fun y => by
      by_cases same : y = x
      · rw [same, heldX, List.pairwise_append]
        refine ⟨inv.drained x, List.pairwise_singleton _ _, fun h mem last new drains => ?_⟩
        rw [List.mem_singleton.1 new]
        refine next.drained ((inv.numbered x).rel_of_le (fun _ drains => drains) (inv.drained x)
          mem (inv.own_mem x) ?_ drains)
        rw [inv.own_version]
        exact (inv.numbered x).le_length mem
      · rw [heldOf y same]
        exact inv.drained y
    stored := fun {y id record} known => by
      by_cases same : y = x
      · subst same
        rw [World.stored, nodeX] at known
        by_cases own : id = m.localRuntimeId
        · rw [own, MeshMembership.recordOf_own] at known
          obtain rfl := Option.some.inj known
          refine ⟨y, ownX.symm, _, ?_, SameRecord.refl _⟩
          rw [heldX]
          exact List.mem_append_right _ (List.mem_singleton_self _)
        · rw [next.recordOf (next.runtime ▸ own)] at known
          exact (inv.stored known).mono grows
      · rw [World.stored, nodeOf y same] at known
        exact (inv.stored known).mono grows
    sent := fun message mem record listed => (inv.sent message mem record listed).mono grows }

end Inv

/-! ## What the copies have in common -/

/-- Copies are of versions that their runtimes held, and agree. -/
structure Consistent (d : Deployment ι) (w : World ι) : Prop where
  /-- Every copy is of a version that its runtime held. -/
  held : ∀ i id record, w.stored i id = some record → ∃ x, d.runtimeId x = id ∧
    ∃ h ∈ w.held x, h.version = record.version ∧ SameRecord h record
  /-- No copy is ahead of its runtime. -/
  bounded : ∀ i x record, w.stored i (d.runtimeId x) = some record →
    record.version ≤ (w.node x).localRecord.version
  /-- Copies of one version are the same. -/
  agree : ∀ i j id r s, w.stored i id = some r → w.stored j id = some s → r.version = s.version →
    SameRecord r s
  /-- An answered digest brings a runtime up to what the other one knows. -/
  caughtUp : ∀ a b id record, id ≠ d.runtimeId a → w.stored b id = some record →
    ∃ record', ((Node.deltaFor (w.node b) (w.node a).digest.entries).records.foldl
      MeshMembership.applyGossipRecord (w.node a)).recordOf id = some record' ∧
        record.version ≤ record'.version

theorem Inv.consistent {d : Deployment ι} {w : World ι} (inv : Inv d w) : Consistent d w where
  held := fun i id record known => by
    obtain ⟨x, runtime, h, mem, same⟩ := inv.stored known
    exact ⟨x, runtime.trans ((inv.kept i).runtimeId_of_recordOf known), h, mem,
      same.version, same⟩
  bounded := fun i x record known => by
    obtain ⟨y, runtime, h, mem, same⟩ := inv.stored known
    rw [(inv.kept i).runtimeId_of_recordOf known] at runtime
    obtain rfl := d.injective runtime
    rw [inv.own_version, ← same.version]
    exact (inv.numbered y).le_length mem
  agree := fun i j id r s knownR knownS => inv.sameRecord (inv.stored knownR) (inv.stored knownS)
    (by rw [(inv.kept i).runtimeId_of_recordOf knownR, (inv.kept j).runtimeId_of_recordOf knownS])
  caughtUp := fun a b id record other known =>
    MeshMembership.recordOf_foldl_deltaFor (inv.kept a) (inv.kept b)
      (by rwa [inv.runtime a]) known

/-! ## Steps and runs -/

/-- Every copy moves on to versions that are not older, and a drain does not end. -/
def Later (w w' : World ι) : Prop :=
  ∀ i id record, w.stored i id = some record → ∃ record', w'.stored i id = some record' ∧
    record.version ≤ record'.version ∧ (record.draining = true → record'.draining = true)

theorem Later.refl (w : World ι) : Later w w :=
  fun _ _ record known => ⟨record, known, Nat.le_refl _, fun drains => drains⟩

theorem Later.trans {w w' w'' : World ι} (first : Later w w') (second : Later w' w'') :
    Later w w'' := by
  intro i id record known
  obtain ⟨record', known', le, drains⟩ := first i id record known
  obtain ⟨record'', known'', le', drains'⟩ := second i id record' known'
  exact ⟨record'', known'', le.trans le', fun h => drains' (drains h)⟩

section Runs

variable [DecidableEq ι] {d : Deployment ι} {w : World ι}

/-- A step does one of three things: one runtime takes genuine records in, one runtime writes its
next version, or a message of genuine records is sent. -/
inductive Does (d : Deployment ι) (w : World ι) : World ι → Prop
  | idle : Does d w w
  | takes {x : ι} {m : MeshMembership}
    (taken : MeshMembership.Takes (Genuine d w.held) (w.node x) m) : Does d w (w.setNode x m)
  | writes {x : ι} {m : MeshMembership} (next : Inv.Next (w.node x) m) : Does d w (w.rewrite x m)
  | sends {message : GossipMessage}
    (genuine : ∀ record ∈ message.records, Genuine d w.held record) :
    Does d w { w with sent := w.sent ++ [message] }

/-- The record of a runtime has room for another version. -/
def Room (w : World ι) (a : Action ι) : Prop :=
  ∀ x, a.writes x = true → (w.held x).length < 2 ^ 64 - 1

theorem Inv.of_does {w' : World ι} (inv : Inv d w) (does : Does d w w') : Inv d w' := by
  cases does with
  | idle => exact inv
  | takes taken => exact inv.setNode taken
  | writes next => exact inv.rewrite next
  | sends genuine => exact inv.send genuine

theorem Does.mem_held {w' : World ι} (does : Does d w w') {x : ι} {h : GossipRecord}
    (mem : h ∈ w.held x) : h ∈ w'.held x := by
  cases does with
  | idle => exact mem
  | takes _ => exact mem
  | sends _ => exact mem
  | @writes y m _ =>
    by_cases same : x = y
    · subst same
      rw [held_rewrite_self]
      exact List.mem_append_left _ mem
    · rw [held_rewrite_of_ne w same]
      exact mem

/-- No step takes the record of a runtime back to an older version. -/
theorem Does.version_le {w' : World ι} (does : Does d w w') {i : ι}
    {id : RuntimeId} {record : GossipRecord} (known : w.stored i id = some record) :
    ∃ record', w'.stored i id = some record' ∧ record.version ≤ record'.version := by
  cases does with
  | idle => exact ⟨record, known, Nat.le_refl _⟩
  | sends _ => exact ⟨record, known, Nat.le_refl _⟩
  | @takes x m taken =>
    by_cases same : i = x
    · subst same
      rw [World.stored, setNode_self]
      exact taken.later known
    · rw [World.stored, setNode_of_ne w same]
      exact ⟨record, known, Nat.le_refl _⟩
  | @writes x m next =>
    by_cases same : i = x
    · subst same
      have node : (w.rewrite i m).node i = m := setNode_self w i m
      rw [World.stored, node]
      by_cases own : id = (w.node i).localRuntimeId
      · rw [World.stored, own, MeshMembership.recordOf_own] at known
        obtain rfl := Option.some.inj known
        rw [own, ← next.runtime, MeshMembership.recordOf_own]
        exact ⟨_, rfl, by rw [next.version]; omega⟩
      · rw [next.recordOf own]
        exact ⟨record, known, Nat.le_refl _⟩
    · have node : (w.rewrite x m).node i = w.node i := setNode_of_ne w same m
      rw [World.stored, node]
      exact ⟨record, known, Nat.le_refl _⟩

theorem Inv.later {w' : World ι} (inv : Inv d w) (does : Does d w w') : Later w w' := by
  have inv' := inv.of_does does
  intro i id record known
  obtain ⟨record', known', le⟩ := does.version_le known
  refine ⟨record', known', le, inv'.draining_of_le ?_ (inv'.stored known') ?_ le⟩
  · exact (inv.stored known).mono fun x h => does.mem_held
  · rw [(inv.kept i).runtimeId_of_recordOf known, (inv'.kept i).runtimeId_of_recordOf known']

variable [Secp256k1]

theorem Inv.does (inv : Inv d w) {a : Action ι} (proper : a.Proper d) (room : Room w a) :
    Does d w (w.step a) := by
  cases a with
  | updateLocal x now f =>
    refine .writes (Inv.Next.updateLocal proper ?_ now)
    rw [inv.own_version]
    exact room x (beq_self_eq_true x)
  | beginDrain x now =>
    refine .writes (Inv.Next.beginDrain ?_ now)
    rw [inv.own_version]
    exact room x (beq_self_eq_true x)
  | sendDigest x => exact .sends fun _ mem => nomatch mem
  | answer x message =>
    cases message with
    | delta version records => exact .idle
    | digest version entries =>
      unfold step
      dsimp only
      split_ifs
      · refine .sends fun record mem => ?_
        rw [Node.deltaFor, GossipMessage.records, List.mem_mergeSort, List.mem_filter] at mem
        exact inv.stored ((inv.kept x).mem_records.1 mem.1)
      · exact .idle
  | apply x message record =>
    unfold step
    dsimp only
    split_ifs with sent
    · exact .takes (MeshMembership.Takes.applyGossipRecord _ (inv.sent message sent.1 record sent.2))
    · exact .idle
  | scan x now records =>
    exact .takes (MeshMembership.Takes.foldl (fun ready mem m =>
      MeshMembership.Takes.applyReadyRecord now m (inv.genuine_seedOf (proper ready mem) now)) _)
  | mark x id state => exact .takes (MeshMembership.Takes.updatePeer _ id fun _ => rfl)
  | countFrame x id => exact .takes (MeshMembership.Takes.updatePeer _ id fun _ => rfl)

theorem length_held_step (w : World ι) (a : Action ι) (x : ι) :
    ((w.step a).held x).length = (w.held x).length + if a.writes x = true then 1 else 0 := by
  have rewritten : ∀ (y : ι) (m : MeshMembership), ((w.rewrite y m).held x).length =
      (w.held x).length + if (x == y) = true then 1 else 0 := by
    intro y m
    by_cases same : x = y
    · subst same
      rw [held_rewrite_self, List.length_append, if_pos (beq_self_eq_true x)]
      rfl
    · rw [held_rewrite_of_ne w same, if_neg (by simpa using same)]
      rfl
  cases a with
  | updateLocal y now f => exact rewritten y _
  | beginDrain y now => exact rewritten y _
  | sendDigest y => rfl
  | answer y message =>
    cases message with
    | delta version records => rfl
    | digest version entries =>
      rw [if_neg (by simp [Action.writes]), step]
      split_ifs <;> rfl
  | apply y message record =>
    rw [if_neg (by simp [Action.writes]), step]
    split_ifs <;> rfl
  | scan y now records => rfl
  | mark y id state => rfl
  | countFrame y id => rfl

theorem length_held_run (w : World ι) (actions : List (Action ι)) (x : ι) :
    ((Steps.run step w actions).held x).length =
      (w.held x).length + actions.countP (Action.writes x) := by
  induction actions generalizing w with
  | nil => rfl
  | cons a actions ih =>
    show ((Steps.run step (w.step a) actions).held x).length = _
    rw [ih, length_held_step, List.countP_cons]
    split_ifs <;> omega

/-- A run of proper actions keeps the invariant and only moves on. -/
theorem Inv.run (inv : Inv d w) {actions : List (Action ι)} (proper : ∀ a ∈ actions, a.Proper d)
    (room : ∀ x, (w.held x).length + actions.countP (Action.writes x) ≤ 2 ^ 64 - 1) :
    Inv d (Steps.run step w actions) ∧ Later w (Steps.run step w actions) := by
  induction actions generalizing w with
  | nil => exact ⟨inv, .refl w⟩
  | cons a actions ih =>
    obtain ⟨first, rest⟩ := List.forall_mem_cons.1 proper
    have does := inv.does first fun x writes => by
      have limit := room x
      rw [List.countP_cons, if_pos writes] at limit
      omega
    obtain ⟨inv', later⟩ := ih (inv.of_does does) rest fun x => by
      have limit := room x
      rw [List.countP_cons] at limit
      rw [length_held_step]
      omega
    exact ⟨inv', (inv.later does).trans later⟩

/-! ## Gossip is monotone and free of conflicts -/

/-- Runtimes that update their own records tamely, with copies passed around in any way, stay
consistent, and from any moment on copies only move to later versions and drains do not end. -/
theorem gossip_consistent (d : Deployment ι) (actions later : List (Action ι))
    (proper : ∀ a ∈ actions ++ later, a.Proper d)
    (few : ∀ x, (actions ++ later).countP (Action.writes x) < 2 ^ 64 - 1) :
    Consistent d (Steps.run step d.boot actions) ∧
      Later (Steps.run step d.boot actions) (Steps.run step d.boot (actions ++ later)) := by
  rw [List.forall_mem_append] at proper
  have room : ∀ x, (d.boot.held x).length + actions.countP (Action.writes x) ≤ 2 ^ 64 - 1 := by
    intro x
    have limit := few x
    have one : (d.boot.held x).length = 1 := rfl
    rw [List.countP_append] at limit
    omega
  obtain ⟨inv, -⟩ := (Inv.boot d).run proper.1 room
  refine ⟨inv.consistent, ?_⟩
  rw [Steps.run_append]
  refine (inv.run proper.2 fun x => ?_).2
  have limit := few x
  have one : (d.boot.held x).length = 1 := rfl
  rw [List.countP_append] at limit
  rw [length_held_run]
  omega

end Runs

/-! ## Two runtimes -/

/-- A library that accepts every signature. -/
@[reducible] def openSecp256k1 : Secp256k1 where
  PublicKey := String
  XOnly := String
  Signature := String
  Message := String
  fromHex := .ok
  toHex := id
  xonly := .ok
  parseSignature := .ok
  messageOf := id
  verifySchnorr := fun _ _ _ => .ok ()

def pair : Deployment Bool where
  runtimeId := fun x => if x then 1 else 0
  injective := by decide
  endpointAddrs := fun _ => ["a"]
  protoVersion := fun _ => 1
  capabilities := fun _ => []
  bootedAt := fun _ => 0
  relayPubkey := fun _ => "relay"

/-- Runtime zero answers the first digest of runtime one, once more if it has before, and runtime one
applies the record it gets. -/
def passOn (record : GossipRecord) : List (Action Bool) :=
  [.answer false (.digest 1 [⟨1, 1⟩]), .apply true (.delta 1 [record]) record]

def zeroRecord (version : Nat) (draining : Bool) : GossipRecord :=
  { pair.initial false with version := version, draining := draining }

def drainRun : List (Action Bool) :=
  .sendDigest true :: .beginDrain false 0 :: passOn (zeroRecord 2 true)

def runPair (actions : List (Action Bool)) : World Bool :=
  Steps.run (@step Bool _ openSecp256k1) pair.boot actions

theorem gossip_consistent_pair :
    Consistent pair (runPair drainRun) ∧
      Later (runPair drainRun) (runPair (drainRun ++ [.updateLocal false 1 id])) := by
  refine @gossip_consistent Bool _ openSecp256k1 pair drainRun [.updateLocal false 1 id] ?_ ?_
  · simp only [drainRun, passOn, List.cons_append, List.nil_append, List.forall_mem_cons]
    exact ⟨trivial, trivial, trivial, trivial, fun _ => ⟨rfl, rfl, fun drains => drains⟩,
      fun _ mem => nomatch mem⟩
  · decide

/-- An update may end a drain, take a version back or change the runtime of a record; then a copy
goes back to not draining, is ahead of its runtime, or is of no runtime at all. -/
theorem not_consistent_untamed :
    ((runPair drainRun).stored true 0).map GossipRecord.draining = some true ∧
    ((runPair (drainRun ++ .updateLocal false 0 (fun r => { r with draining := false }) ::
      passOn (zeroRecord 3 false))).stored true 0).map GossipRecord.draining = some false ∧
    (let w := runPair (drainRun ++ [.updateLocal false 0 fun r => { r with version := 0 }])
     (w.stored true 0).map GossipRecord.version = some 2 ∧
       (w.node false).localRecord.version = 1) ∧
    (let w := runPair (.sendDigest true :: .updateLocal false 0 (fun r => { r with runtimeId := 7 }) ::
      passOn { zeroRecord 2 false with runtimeId := 7 })
     (w.stored true 7).map GossipRecord.version = some 2 ∧ ∀ x, pair.runtimeId x ≠ 7) := by
  decide +kernel

end World

end Mesh

end Carryforth
