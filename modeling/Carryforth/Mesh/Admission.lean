import Carryforth.Mesh.Runtime

/-!
# Who is admitted to the mesh

A registry record enters the table of peers only with an attestation of the expected relay key, but
a gossiped record enters it unchecked.  So a node deals with attested runtimes only exactly as long
as no delta names another one (`run_admitted_iff`), and a single attested peer can bring in any
runtime (`gossip_admits_unattested`).
-/

namespace Carryforth

namespace Mesh

open MeshMembership

/-! ## Attested runtimes -/

section

variable [Secp256k1]

/-- A ready record that the relay key signed; `signed` are the runtimes it signed for. -/
structure Attests (signed : RuntimeId → Prop) (expected : String) (ready : ReadyRecord) : Prop where
  key : ready.relayPubkey = expected
  verifies : ready.verifyAttestation = .ok ()
  signed : signed ready.runtimeId

/-- A record that verifies under the relay key is one that it signed. -/
def Unforgeable (signed : RuntimeId → Prop) (expected : String) : Prop :=
  ∀ ready : ReadyRecord, ready.relayPubkey = expected → ready.verifyAttestation = .ok () →
    signed ready.runtimeId

/-- An attested record of the runtime is among the given ones. -/
def Vouched (signed : RuntimeId → Prop) (expected : String) (presented : List ReadyRecord)
    (id : RuntimeId) : Prop :=
  ∃ ready ∈ presented, ready.runtimeId = id ∧ Attests signed expected ready

theorem Vouched.mono {signed : RuntimeId → Prop} {expected : String}
    {presented later : List ReadyRecord} {id : RuntimeId}
    (vouched : Vouched signed expected presented id) (grown : presented ⊆ later) :
    Vouched signed expected later id := by
  obtain ⟨ready, mem, is, attests⟩ := vouched
  exact ⟨ready, grown mem, is, attests⟩

end

/-! ## The table of peers -/

namespace MeshMembership

variable {m : MeshMembership}

/-- Records are stored under their runtimes. -/
structure WellFormed (m : MeshMembership) : Prop where
  keyed : OrdMap.Keyed (fun peer : PeerState => peer.record.runtimeId) m.peers
  own : m.localRecord.runtimeId = m.localRuntimeId

namespace WellFormed

theorem applyGossipRecord (wf : m.WellFormed) (record : GossipRecord) :
    (m.applyGossipRecord record).WellFormed := by
  unfold MeshMembership.applyGossipRecord
  split_ifs with own
  · exact wf
  · split
    · exact wf
    · rename_i peer merged
      refine ⟨wf.keyed.insert ?_, wf.own⟩
      unfold mergedPeer at merged
      split at merged
      · split_ifs at merged
        cases merged
        rfl
      · cases merged
        rfl

theorem updatePeer (wf : m.WellFormed) (id : RuntimeId) {f : PeerState → PeerState}
    (same : ∀ peer, (f peer).record = peer.record) : (m.updatePeer id f).WellFormed := by
  unfold MeshMembership.updatePeer
  split
  · rename_i peer known
    refine ⟨wf.keyed.insert ?_, wf.own⟩
    rw [same]
    exact wf.keyed id peer known
  · exact wf

theorem applyReadyRecord [Secp256k1] (wf : m.WellFormed) (now : Nat) (ready : ReadyRecord) :
    (m.applyReadyRecord now ready).WellFormed := by
  unfold MeshMembership.applyReadyRecord
  split_ifs
  · exact wf
  · exact ⟨wf.keyed, wf.own⟩
  · split
    · exact wf
    · exact wf.applyGossipRecord _

theorem foldl {α : Type} {f : MeshMembership → α → MeshMembership}
    (keeps : ∀ (m : MeshMembership) a, m.WellFormed → (f m a).WellFormed) (wf : m.WellFormed)
    (l : List α) : (l.foldl f m).WellFormed := by
  induction l generalizing m with
  | nil => exact wf
  | cons a l ih => exact ih (keeps m a wf)

theorem hasPeer_of_mem_records (wf : m.WellFormed) {record : GossipRecord}
    (mem : record ∈ m.records) (other : record.runtimeId ≠ m.localRuntimeId) :
    m.hasPeer record.runtimeId = true := by
  rcases List.mem_append.1 mem with stored | own
  · obtain ⟨peer, there, rfl⟩ := List.mem_map.1 stored
    exact OrdMap.contains_iff.2 ⟨peer, wf.keyed.mem_valueList.1 there⟩
  · rw [List.mem_singleton.1 own] at other
    exact absurd wf.own other

end WellFormed

/-- The peers after a delta are those before it and those it names. -/
theorem hasPeer_foldl_applyGossipRecord (m : MeshMembership) (records : List GossipRecord)
    (id : RuntimeId) : (records.foldl applyGossipRecord m).hasPeer id = true ↔
      m.hasPeer id = true ∨ (∃ record ∈ records, record.runtimeId = id) ∧ id ≠ m.localRuntimeId := by
  induction records generalizing m with
  | nil => simp
  | cons record records ih =>
    rw [List.foldl_cons, ih, hasPeer_applyGossipRecord,
      (SameNode.applyGossipRecord m record).runtime]
    simp only [List.mem_cons, exists_eq_or_imp]
    tauto

/-- A registry record makes its runtime a peer only if it is attested. -/
theorem hasPeer_applyReadyRecord [Secp256k1] {signed : RuntimeId → Prop} {expected : String}
    (unforgeable : Unforgeable signed expected) {now : Nat} {ready : ReadyRecord}
    (anchored : m.expectedRelayPubkey = some expected) {id : RuntimeId}
    (peer : (m.applyReadyRecord now ready).hasPeer id = true) :
    m.hasPeer id = true ∨ ready.runtimeId = id ∧ Attests signed expected ready := by
  unfold applyReadyRecord at peer
  split_ifs at peer with own foreign
  · exact .inl peer
  · exact .inl peer
  · rw [anchored, ne_eq, not_not, Option.some.injEq] at foreign
    split at peer
    · exact .inl peer
    · rename_i verified
      rcases (hasPeer_applyGossipRecord _ _ _).1 peer with known | ⟨is, -⟩
      · exact .inl known
      · exact .inr ⟨is, foreign.symm, verified, unforgeable ready foreign.symm verified⟩

theorem hasPeer_applyReadyRecords [Secp256k1] {signed : RuntimeId → Prop} {expected : String}
    (unforgeable : Unforgeable signed expected) {now : Nat} {records : List ReadyRecord}
    (anchored : m.expectedRelayPubkey = some expected) {id : RuntimeId}
    (peer : (m.applyReadyRecords now records).hasPeer id = true) :
    m.hasPeer id = true ∨ Vouched signed expected records id := by
  unfold applyReadyRecords at peer
  induction records generalizing m with
  | nil => exact .inl peer
  | cons ready records ih =>
    rcases ih ((SameNode.applyReadyRecord now m ready).anchor.trans anchored) peer with known | later
    · rcases hasPeer_applyReadyRecord unforgeable anchored known with known | ⟨is, attests⟩
      · exact .inl known
      · exact .inr ⟨ready, List.mem_cons_self, is, attests⟩
    · exact .inr (later.mono (List.subset_cons_self _ _))

theorem hasPeer_applyReadyRecords_of [Secp256k1] {now : Nat} {records : List ReadyRecord}
    {id : RuntimeId} (peer : m.hasPeer id = true) :
    (m.applyReadyRecords now records).hasPeer id = true := by
  unfold applyReadyRecords
  induction records generalizing m with
  | nil => exact peer
  | cons ready records ih =>
    refine ih ?_
    unfold applyReadyRecord
    split_ifs
    · exact peer
    · exact peer
    · split
      · exact peer
      · exact (hasPeer_applyGossipRecord _ _ _).2 (.inl peer)

end MeshMembership

def Dialing.target : Dialing → RuntimeId
  | .candidate record => record.runtimeId
  | .trying record _ => record.runtimeId

namespace Node

/-! ## Steps that admit nobody -/

/-- Nothing changes that admission is about. -/
structure Unchanged (n n' : Node) : Prop where
  node : n.membership.SameNode n'.membership
  wellFormed : n.membership.WellFormed → n'.membership.WellFormed
  peers : ∀ id, n'.membership.hasPeer id = n.membership.hasPeer id
  presented : n'.presented = n.presented
  accepted : n'.accepted = n.accepted
  dialed : n'.dialed = n.dialed
  dialing : n'.dialing = n.dialing

theorem unchanged_updatePeer (n : Node) (id : RuntimeId) {f : PeerState → PeerState}
    (same : ∀ peer, (f peer).record = peer.record) :
    n.Unchanged { n with membership := n.membership.updatePeer id f } where
  node := .updatePeer _ _ _
  wellFormed := fun wf => wf.updatePeer id same
  peers := fun other => hasPeer_updatePeer _ _ other _
  presented := rfl
  accepted := rfl
  dialed := rfl
  dialing := rfl

theorem unchanged_markConnectionState (n : Node) (id : RuntimeId) (state : ConnectionState) :
    n.Unchanged { n with membership := n.membership.markConnectionState id state } :=
  n.unchanged_updatePeer id fun _ => rfl

theorem unchanged_recordGossipFrameReceived (n : Node) (id : RuntimeId) :
    n.Unchanged { n with membership := n.membership.recordGossipFrameReceived id } :=
  n.unchanged_updatePeer id fun _ => rfl

theorem unchanged_installPeer (n : Node) (remote : RuntimeId) (dialedByUs : Bool) :
    n.Unchanged (n.installPeer remote dialedByUs) := by
  unfold installPeer
  split_ifs
  · exact ⟨.refl _, fun wf => wf, fun _ => rfl, rfl, rfl, rfl, rfl⟩
  all_goals exact { unchanged_markConnectionState n remote .connected with }

theorem unchanged_removePeer (n : Node) (remote : RuntimeId) :
    n.Unchanged (n.removePeer remote) := by
  unfold removePeer
  split_ifs
  · exact { unchanged_markConnectionState n remote .disconnected with }
  · exact ⟨.refl _, fun wf => wf, fun _ => rfl, rfl, rfl, rfl, rfl⟩

/-! ## The invariant -/

section

variable [Secp256k1] {signed : RuntimeId → Prop} {expected : String} {n n' : Node}

/-- Every peer, every accepted connection and every dialed runtime is attested. -/
structure Admitted (signed : RuntimeId → Prop) (expected : String) (n : Node) : Prop where
  peers : ∀ id, n.membership.hasPeer id = true → Vouched signed expected n.presented id
  accepted : ∀ id ∈ n.accepted, Vouched signed expected n.presented id
  dialed : ∀ id ∈ n.dialed, Vouched signed expected n.presented id

/-- What the steps keep, as long as deltas name attested runtimes only. -/
structure Sound (signed : RuntimeId → Prop) (expected : String) (n : Node) : Prop
    extends n.Admitted signed expected where
  anchored : n.membership.expectedRelayPubkey = some expected
  wellFormed : n.membership.WellFormed
  dialing : ∀ d ∈ n.dialing, n.membership.hasPeer d.target = true

theorem Sound.of_unchanged (sound : n.Sound signed expected) (same : n.Unchanged n') :
    n'.Sound signed expected where
  peers := fun id peer => by
    rw [same.presented]
    exact sound.peers id (same.peers id ▸ peer)
  accepted := by
    rw [same.accepted, same.presented]
    exact sound.accepted
  dialed := by
    rw [same.dialed, same.presented]
    exact sound.dialed
  anchored := same.node.anchor.trans sound.anchored
  wellFormed := same.wellFormed sound.wellFormed
  dialing := by
    rw [same.dialing]
    exact fun d mem => (same.peers _).trans (sound.dialing d mem)

theorem Sound.scan (unforgeable : Unforgeable signed expected) (sound : n.Sound signed expected)
    (now : Nat) (records : List ReadyRecord) : (n.scan now records).Sound signed expected := by
  have grown : n.presented ⊆ n.presented ++ records := List.subset_append_left _ _
  refine { peers := ?_, accepted := ?_, dialed := ?_, anchored := ?_, wellFormed := ?_, dialing := ?_ }
  · intro id peer
    rcases hasPeer_applyReadyRecords unforgeable sound.anchored peer with known | vouched
    · exact (sound.peers id known).mono grown
    · exact vouched.mono (List.subset_append_right _ _)
  · exact fun id mem => (sound.accepted id mem).mono grown
  · exact fun id mem => (sound.dialed id mem).mono grown
  · exact (SameNode.foldl (SameNode.applyReadyRecord now) records n.membership).anchor.trans
      sound.anchored
  · exact WellFormed.foldl (fun m ready wf => wf.applyReadyRecord now ready) sound.wellFormed records
  · exact fun d mem => hasPeer_applyReadyRecords_of (sound.dialing d mem)

theorem Sound.admitPeer (sound : n.Sound signed expected) {remote : RuntimeId}
    (peer : n.membership.hasPeer remote = true) : (n.admitPeer remote).Sound signed expected := by
  refine Sound.of_unchanged ?_ (unchanged_installPeer _ remote false)
  refine { sound with accepted := ?_ }
  intro id mem
  rcases List.mem_append.1 mem with mem | mem
  · exact sound.accepted id mem
  · rw [List.mem_singleton.1 mem]
    exact sound.peers remote peer

theorem Sound.dialed_peer (sound : n.Sound signed expected) {remote : RuntimeId}
    {dialing : List Dialing} (peer : n.membership.hasPeer remote = true)
    (pending : ∀ d ∈ dialing, n.membership.hasPeer d.target = true) :
    { n with
      dialing
      dialed := n.dialed ++ [remote]
      membership := n.membership.markConnectionState remote .connecting }.Sound signed expected := by
  have kept : { n with dialing, dialed := n.dialed ++ [remote] }.Sound signed expected := by
    refine { sound with dialed := ?_, dialing := pending }
    intro id mem
    rcases List.mem_append.1 mem with mem | mem
    · exact sound.dialed id mem
    · rw [List.mem_singleton.1 mem]
      exact sound.peers remote peer
  exact kept.of_unchanged (unchanged_markConnectionState _ remote .connecting)

theorem Sound.dialStep (sound : n.Sound signed expected) (attempt : Attempt) :
    (n.dialStep attempt).Sound signed expected := by
  have pending := sound.dialing
  unfold Node.dialStep
  split
  · exact sound
  · rename_i record rest is
    rw [is, List.forall_mem_cons] at pending
    split_ifs
    · exact { sound with dialing := pending.2 }
    · exact { sound with dialing := List.forall_mem_cons.2 pending }
  · rename_i record rest is
    rw [is, List.forall_mem_cons] at pending
    have dropped : { n with dialing := rest }.Sound signed expected :=
      { sound with dialing := pending.2 }
    exact dropped.of_unchanged (unchanged_markConnectionState _ record.runtimeId .disconnected)
  · rename_i record addr addrs rest is
    rw [is, List.forall_mem_cons] at pending
    cases attempt with
    | badAddr => exact { sound with dialing := List.forall_mem_cons.2 pending }
    | badId => exact { sound with dialing := pending.2 }
    | failed => exact sound.dialed_peer pending.1 (List.forall_mem_cons.2 pending)
    | connected =>
      exact (sound.dialed_peer pending.1 pending.2).of_unchanged
        (unchanged_installPeer _ record.runtimeId true)

/-- A step that does not apply a record of an unattested runtime. -/
def Covered (signed : RuntimeId → Prop) (expected : String) (n : Node) : Action → Prop
  | .gossip remote payload => remote ∈ n.streams → ∀ version records,
      decodeMessage payload = .ok (.delta version records) → ∀ record ∈ records,
        record.runtimeId = n.membership.localRuntimeId ∨
          Vouched signed expected n.presented record.runtimeId
  | _ => True

theorem Sound.delta (sound : n.Sound signed expected) {records : List GossipRecord}
    (covered : ∀ record ∈ records, record.runtimeId = n.membership.localRuntimeId ∨
      Vouched signed expected n.presented record.runtimeId) :
    { n with membership := records.foldl applyGossipRecord n.membership }.Sound signed expected := by
  refine { sound with peers := ?_, anchored := ?_, wellFormed := ?_, dialing := ?_ }
  · intro id peer
    rcases (hasPeer_foldl_applyGossipRecord _ _ _).1 peer with known | ⟨⟨record, mem, rfl⟩, other⟩
    · exact sound.peers id known
    · exact (covered record mem).resolve_left other
  · exact (SameNode.foldl SameNode.applyGossipRecord records n.membership).anchor.trans
      sound.anchored
  · exact WellFormed.foldl (fun m record wf => wf.applyGossipRecord record) sound.wellFormed records
  · exact fun d mem => (hasPeer_foldl_applyGossipRecord _ _ _).2 (.inl (sound.dialing d mem))

theorem Sound.step (unforgeable : Unforgeable signed expected) (sound : n.Sound signed expected)
    {action : Action} (covered : n.Covered signed expected action) :
    (n.step action).Sound signed expected := by
  cases action with
  | scan now records => exact sound.scan unforgeable now records
  | inbound remote =>
    unfold Node.step
    dsimp only
    split_ifs with busy peer
    · exact sound
    · exact sound.admitPeer peer
    · exact { sound with }
  | decide =>
    unfold Node.step
    dsimp only
    split
    · exact sound
    · rename_i remote waiting
      have decided : { n with accepting := none }.Sound signed expected := { sound with }
      split_ifs with peer
      · exact decided.admitPeer peer
      · exact decided
  | reconcile =>
    unfold Node.step
    dsimp only
    split_ifs
    · refine { sound with dialing := ?_ }
      intro d mem
      obtain ⟨record, selected, rfl⟩ := List.mem_map.1 mem
      obtain ⟨known, other⟩ := List.mem_filter.1 selected
      exact sound.wellFormed.hasPeer_of_mem_records known (of_decide_eq_true other).1
    · exact sound
  | dial attempt => exact sound.dialStep attempt
  | control remote =>
    unfold Node.step
    dsimp only
    split
    · exact { sound with }
    · exact sound
  | gossip remote payload =>
    unfold Node.step
    dsimp only
    split_ifs with live
    · have counted := sound.of_unchanged (unchanged_recordGossipFrameReceived n remote)
      split
      · rename_i message decoded
        cases message with
        | digest version entries =>
          unfold exchange
          dsimp only
          split_ifs
          · exact { counted with }
          · exact counted
        | delta version records =>
          refine counted.delta fun record mem => ?_
          rw [(unchanged_recordGossipFrameReceived n remote).node.runtime]
          exact covered live version records decoded record mem
      · exact counted
    · exact sound
  | disconnect remote => exact sound.of_unchanged (unchanged_removePeer n remote)
  | tick now => exact { sound with wellFormed := ⟨sound.wellFormed.keyed, sound.wellFormed.own⟩ }
  | drain now => exact { sound with wellFormed := ⟨sound.wellFormed.keyed, sound.wellFormed.own⟩ }

/-! ## Runs -/

/-- A node that has just been started with an expected relay key. -/
def startWith (localRecord : GossipRecord) (expected : String) : Node :=
  start ((MeshMembership.new localRecord).withExpectedRelayPubkey expected)

theorem startWith_sound (localRecord : GossipRecord) :
    (startWith localRecord expected).Sound signed expected where
  peers := fun id peer => by
    have none : (startWith localRecord expected).membership.hasPeer id = false :=
      Std.ExtTreeMap.contains_empty
    rw [none] at peer
    cases peer
  accepted := fun _ mem => nomatch mem
  dialed := fun _ mem => nomatch mem
  anchored := rfl
  wellFormed := ⟨OrdMap.keyed_empty, rfl⟩
  dialing := fun _ mem => nomatch mem

theorem presented_step_gossip (n : Node) (remote : RuntimeId)
    (payload : Except String GossipMessage) :
    (n.step (.gossip remote payload)).presented = n.presented := by
  unfold Node.step
  dsimp only
  split_ifs
  · split
    · unfold exchange
      split
      · split_ifs <;> rfl
      · rfl
    · rfl
  · rfl

/-- If the peers after a step are attested, its deltas named attested runtimes. -/
theorem covered_of_admitted {action : Action} (after : (n.step action).Admitted signed expected) :
    n.Covered signed expected action := by
  cases action with
  | gossip remote payload =>
    intro live version records decoded record mem
    by_cases own : record.runtimeId = n.membership.localRuntimeId
    · exact .inl own
    · refine .inr ?_
      have vouched := after.peers record.runtimeId
      rw [presented_step_gossip] at vouched
      refine vouched ?_
      unfold Node.step
      dsimp only
      rw [if_pos live, decoded]
      refine (hasPeer_foldl_applyGossipRecord _ _ _).2 (.inr ⟨⟨record, mem, rfl⟩, ?_⟩)
      rw [(unchanged_recordGossipFrameReceived n remote).node.runtime]
      exact own
  | _ => trivial

theorem run_append (n : Node) (first second : List Action) :
    n.run (first ++ second) = (n.run first).run second := List.foldl_append

theorem run_sound (unforgeable : Unforgeable signed expected) {actions : List Action}
    (sound : n.Sound signed expected)
    (covered : ∀ before action after, actions = before ++ action :: after →
      (n.run before).Covered signed expected action) : (n.run actions).Sound signed expected := by
  induction actions generalizing n with
  | nil => exact sound
  | cons action actions ih =>
    refine ih (sound.step unforgeable (covered [] action actions rfl)) ?_
    intro before next after is
    exact covered (action :: before) next after (congrArg (action :: ·) is)

/-- At every moment of a run a node deals with attested runtimes only, exactly if no delta that it
applies names a runtime of which no attested record was presented before. -/
theorem run_admitted_iff (unforgeable : Unforgeable signed expected) (localRecord : GossipRecord)
    (actions : List Action) :
    (∀ before, before <+: actions →
      ((startWith localRecord expected).run before).Admitted signed expected) ↔
    ∀ before action after, actions = before ++ action :: after →
      ((startWith localRecord expected).run before).Covered signed expected action := by
  constructor
  · rintro admitted before action after rfl
    have next := admitted (before ++ [action]) ⟨after, by simp⟩
    rw [run_append] at next
    exact covered_of_admitted next
  · rintro covered before ⟨rest, rfl⟩
    refine Sound.toAdmitted (run_sound unforgeable (startWith_sound localRecord) ?_)
    rintro first action second rfl
    exact covered first action (second ++ rest) (by simp)

end

end Node

/-! ## An unattested runtime -/

/-- A library in which the relay key has signed for the second runtime and for no other. -/
@[reducible] def sampleSecp256k1 : Secp256k1 where
  PublicKey := String
  XOnly := String
  Signature := String
  Message := String
  fromHex := .ok
  toHex := id
  xonly := .ok
  parseSignature := .ok
  messageOf := id
  verifySchnorr := fun _ message _ =>
    if message = attestationPreimage 2 "relay" then .ok () else .error "incorrect signature"

def sampleSigned (id : RuntimeId) : Prop :=
  attestationPreimage id "relay" = attestationPreimage 2 "relay"

theorem sample_unforgeable : @Unforgeable sampleSecp256k1 sampleSigned "relay" := by
  intro ready key verified
  simp only [ReadyRecord.verifyAttestation, verifyAttestation, Fallible.bind_eq_ok,
    Fallible.exists_unit, Fallible.ensure_eq_ok, Fallible.within_eq_ok] at verified
  obtain ⟨_, _, parsed, _, -, _, -, genuine⟩ := verified
  cases parsed
  change (if attestationPreimage ready.runtimeId ready.relayPubkey = attestationPreimage 2 "relay"
    then Except.ok () else Except.error "incorrect signature") = _ at genuine
  split_ifs at genuine with same
  rw [key] at same
  exact same

def sampleLocal : GossipRecord := GossipRecord.new 0 1 [] 1

def sampleReady : ReadyRecord :=
  { runtimeId := 2, runtimePubkey := RuntimeId.toHex 2, relayPubkey := "relay", relaySig := "sig"
    endpointAddrs := ["a"], protoVersion := 1, capabilities := [] }

/-- The second runtime names a third one, which then connects. -/
def sampleRun : List Node.Action :=
  [.scan 0 [sampleReady], .inbound 2, .control 2,
    .gossip 2 (.ok (.delta 1 [GossipRecord.new 0 3 ["b"] 1])), .inbound 3]

theorem run_admitted_iff_sampleRun : @Unforgeable sampleSecp256k1 sampleSigned "relay" ∧
    ((∀ before, before <+: sampleRun → @Node.Admitted sampleSecp256k1 sampleSigned "relay"
      (@Node.run sampleSecp256k1 (Node.startWith sampleLocal "relay") before)) ↔
    ∀ before action after, sampleRun = before ++ action :: after →
      @Node.Covered sampleSecp256k1 sampleSigned "relay"
        (@Node.run sampleSecp256k1 (Node.startWith sampleLocal "relay") before) action) :=
  ⟨sample_unforgeable, @Node.run_admitted_iff sampleSecp256k1 sampleSigned "relay"
    sample_unforgeable sampleLocal sampleRun⟩

/-- A delta of an attested peer admits a runtime that nobody attested. -/
theorem gossip_admits_unattested : @Unforgeable sampleSecp256k1 sampleSigned "relay" ∧
    (@Node.run sampleSecp256k1 (Node.startWith sampleLocal "relay")
      sampleRun).membership.hasPeer 3 = true ∧
    3 ∈ (@Node.run sampleSecp256k1 (Node.startWith sampleLocal "relay") sampleRun).accepted ∧
    ¬@Vouched sampleSecp256k1 sampleSigned "relay"
      (@Node.run sampleSecp256k1 (Node.startWith sampleLocal "relay") sampleRun).presented 3 := by
  refine ⟨sample_unforgeable, by decide +kernel, by decide +kernel, ?_⟩
  have presented : (@Node.run sampleSecp256k1 (Node.startWith sampleLocal "relay")
      sampleRun).presented = [sampleReady] := by decide +kernel
  rw [presented]
  rintro ⟨ready, mem, is, -⟩
  rw [List.mem_singleton.1 mem] at is
  exact absurd is (by decide)

end Mesh

end Carryforth
