import Carryforth.Acp.Conservation
import Carryforth.Acp.Structure

/-!
# Fairness between channels

A flush looks at the head of every queue only, so it finds the oldest request as long as every queue
is in the order in which its events were received.  Pushes, flushes and removals keep that order.
Events that are put back at the front may break it: a batch was sorted by creation when it was
flushed, and a withheld event need not have been the head of its queue.
-/

namespace Carryforth

namespace Acp

open Std Grouping

/-- The events are in the order in which they were received. -/
def InOrder (events : List QueuedEvent) : Prop :=
  events.Pairwise fun a b => a.receivedAt ≤ b.receivedAt

instance (events : List QueuedEvent) : Decidable (InOrder events) :=
  inferInstanceAs (Decidable (events.Pairwise _))

theorem InOrder.sublist {events events' : List QueuedEvent} (ordered : InOrder events)
    (part : events'.Sublist events) : InOrder events' :=
  List.Pairwise.sublist part ordered

namespace EventQueue

variable {q : EventQueue} {now : Instant} {c : Uuid}

/-- The flushed queue holds an event as old as any event in the other ready queues. -/
def Fair (now : Instant) (rank : Uuid → Nat) (q : EventQueue) : Prop :=
  ∀ c ∈ (q.oldestChannel now rank).toList, ∀ entry ∈ q.queues.toList, entry.1 ≠ c →
    q.Ready now entry.1 → ∀ e ∈ entry.2, ∃ f ∈ of q.queues c, f.receivedAt ≤ e.receivedAt

instance (now : Instant) (rank : Uuid → Nat) (q : EventQueue) : Decidable (q.Fair now rank) :=
  List.decidableBAll _ _

def Ordered (q : EventQueue) : Prop := Each InOrder q.queues

theorem Ordered.fair (ordered : q.Ordered) (now : Instant) (rank : Uuid → Nat) :
    q.Fair now rank := by
  rintro c oldest ⟨d, queue⟩ mem - ready e there
  obtain ⟨-, head, first, least⟩ := oldestChannel_eq_some (Option.mem_toList.1 oldest)
  have queue_eq := of_eq_of_get (ExtTreeMap.mem_toList_iff_getElem?_eq_some.1 mem)
  have sorted := ordered d
  rw [queue_eq] at sorted
  cases queue with
  | nil => cases there
  | cons other rest =>
    have le := least d ready other (by rw [queue_eq]; rfl)
    refine ⟨head, List.mem_of_mem_head? first, le.trans ?_⟩
    rcases List.mem_cons.1 there with rfl | later
    · exact le_rfl
    · exact List.rel_of_pairwise_cons sorted later

/-! ## What keeps the order -/

theorem Ordered.pushFront (ordered : q.Ordered) {id : Uuid} {front : List QueuedEvent}
    (whole : InOrder (front ++ of q.queues id)) : (q.pushFront id front).Ordered :=
  Each.insert ordered id (whole.sublist (List.take_sublist _ _))

/-- A part of a queue is in order. -/
theorem Ordered.store (ordered : q.Ordered) {id : Uuid} {members : List QueuedEvent}
    (part : members.Sublist (of q.queues id)) : Each InOrder (store q.queues id members) :=
  Each.store ordered id ((ordered id).sublist part)

theorem Ordered.push (ordered : q.Ordered) {event : QueuedEvent}
    (newest : ∀ e ∈ of q.queues event.channelId, e.receivedAt ≤ event.receivedAt) :
    (q.push event).2.Ordered := by
  unfold EventQueue.push
  split
  · exact ordered
  · have part : (if maxPendingPerChannel ≤ (of q.queues event.channelId).length
        then (of q.queues event.channelId).tail else of q.queues event.channelId).Sublist
          (of q.queues event.channelId) := by
      split
      · exact List.tail_sublist _
      · exact List.Sublist.refl _
    refine Each.insert ordered event.channelId
      (List.pairwise_append.2 ⟨(ordered _).sublist part, List.pairwise_singleton _ _, ?_⟩)
    intro e mem f last
    rw [List.mem_singleton.1 last]
    exact newest e (part.subset mem)

def withheldEvent (q : EventQueue) (id : Uuid) (eventId : String) : Option QueuedEvent :=
  (of q.withheldNativeSteer id).find? fun qe => qe.event.hexId = eventId

theorem Ordered.releaseNativeSteer (ordered : q.Ordered) {id : Uuid} {eventId : String}
    (inOrder : ∀ qe ∈ q.withheldEvent id eventId, InOrder (qe :: of q.queues id)) :
    (q.releaseNativeSteer id eventId).Ordered := by
  unfold EventQueue.releaseNativeSteer
  dsimp only
  split
  · exact ordered
  · rename_i pos found
    have shorter : Ordered { q with
        withheldNativeSteer :=
          Grouping.store q.withheldNativeSteer id ((of q.withheldNativeSteer id).eraseIdx pos) } :=
      ordered
    refine shorter.pushFront ?_
    obtain ⟨bound, is, before⟩ := List.findIdx?_eq_some_iff_getElem.1 found
    have event : q.withheldEvent id eventId = some (of q.withheldNativeSteer id)[pos] :=
      List.find?_eq_some_iff_getElem.2 ⟨is, pos, bound, rfl, fun j earlier => by
        simpa using before j earlier⟩
    rw [List.getElem?_eq_getElem bound]
    exact inOrder _ event

/-- The withheld events of a channel may be put back before its queue. -/
def Recoverable (q : EventQueue) (id : Uuid) : Prop :=
  InOrder (of q.withheldNativeSteer id ++ of q.queues id)

instance (q : EventQueue) (id : Uuid) : Decidable (q.Recoverable id) :=
  inferInstanceAs (Decidable (InOrder _))

/-- The withheld events of every stuck channel may be put back. -/
def ExpiresInOrder (now : Instant) (q : EventQueue) : Prop := ∀ id ∈ q.expired now, q.Recoverable id

instance (now : Instant) (q : EventQueue) : Decidable (q.ExpiresInOrder now) :=
  List.decidableBAll _ _

theorem Ordered.recover (ordered : q.Ordered) {id : Uuid} (recoverable : q.Recoverable id) :
    (q.recoverWithheldForExpiredChannel id).Ordered := by
  unfold recoverWithheldForExpiredChannel
  split
  · exact ordered
  · rename_i entries found
    have erased : Ordered { q with withheldNativeSteer := q.withheldNativeSteer.erase id } := ordered
    unfold Recoverable at recoverable
    rw [of_eq_of_get found] at recoverable
    exact erased.pushFront recoverable

/-- A recovery leaves nothing to recover in its channel, and no trace in the others. -/
theorem Recoverable.recover (recoverable : q.Recoverable c) (id : Uuid) :
    (q.recoverWithheldForExpiredChannel id).Recoverable c := by
  unfold recoverWithheldForExpiredChannel
  split
  · exact recoverable
  · rename_i entries found
    unfold Recoverable at recoverable ⊢
    simp only [EventQueue.pushFront, of_insert, of_erase]
    by_cases here : c = id
    · rw [here, of_eq_of_get found] at recoverable
      simp only [here, if_true, List.nil_append]
      exact recoverable.sublist (List.take_sublist _ _)
    · simp only [if_neg here]
      exact recoverable

theorem Ordered.expireInFlight (ordered : q.Ordered)
    (recoverable : q.ExpiresInOrder now) : (q.expireInFlight now).Ordered := by
  unfold ExpiresInOrder at recoverable
  unfold EventQueue.expireInFlight
  generalize q.expired now = ids at recoverable ⊢
  induction ids generalizing q with
  | nil => exact ordered
  | cons id ids ih =>
    -- the tables of the channels in flight are no part of the order
    let released := { q with
      inFlightBatchSizes := q.inFlightBatchSizes.erase id
      inFlightChannels := q.inFlightChannels.erase id
      inFlightDeadlines := q.inFlightDeadlines.erase id }
    have ordered' : released.Ordered := ordered
    have recoverable' : ∀ other ∈ id :: ids, released.Recoverable other := recoverable
    exact ih (ordered'.recover (recoverable' id List.mem_cons_self)) fun other mem =>
      (recoverable' other (List.mem_cons_of_mem _ mem)).recover id

theorem Ordered.flushNext (ordered : q.Ordered)
    (recoverable : q.ExpiresInOrder now) (rank : Uuid → Nat) :
    (q.flushNext now rank).2.Ordered := by
  have expired := ordered.expireInFlight recoverable
  rcases flushNext_cases now rank q with ⟨id, -, is⟩ | ⟨id, -, -, is⟩ | ⟨-, -, is⟩
  · rw [is]
    exact expired.store (List.drop_sublist _ _)
  · rw [is]
    exact expired
  · rw [is]
    exact expired

theorem Ordered.markComplete (ordered : q.Ordered) : (q.markComplete now c).Ordered := by
  unfold EventQueue.markComplete settleRetries
  split
  · split
    · exact ordered
    · exact ordered
  · exact ordered

theorem Ordered.requeue (ordered : q.Ordered) {batch : FlushBatch} {nanos : Nat}
    (inOrder : ¬maxRetries < q.attempt batch.channelId →
      InOrder (batch.events.map (·.toQueuedEvent batch.channelId) ++ of q.queues batch.channelId)) :
    (q.requeue now nanos batch).2.Ordered := by
  unfold EventQueue.requeue
  dsimp only
  split
  · exact ordered
  · rename_i alive
    exact ordered.pushFront (inOrder alive)

theorem Ordered.markNativeSteerPending (ordered : q.Ordered) (id : Uuid) (eventId : String) :
    (q.markNativeSteerPending id eventId).2.Ordered := by
  unfold EventQueue.markNativeSteerPending
  dsimp only
  split
  · exact ordered
  · exact ordered.store (List.eraseIdx_sublist _ _)

theorem Ordered.removeEvent (ordered : q.Ordered) (id : Uuid) (eventId : String) :
    (q.removeEvent id eventId).Ordered := by
  intro c
  change InOrder (of (retain q.queues id eventId) c)
  rw [of_retain]
  split
  · exact (ordered c).sublist List.filter_sublist
  · exact ordered c

/-! ## When events were received -/

/-- Everything the queue holds was received by an instant. -/
structure ReceivedBy (t : Instant) (q : EventQueue) : Prop where
  queued : Each (fun events => ∀ e ∈ events, e.receivedAt ≤ t) q.queues
  withheld : Each (fun events => ∀ e ∈ events, e.receivedAt ≤ t) q.withheldNativeSteer
  cancelled : Each (fun events => ∀ e ∈ events, e.receivedAt ≤ t) q.cancelledBatches

namespace ReceivedBy

variable {t : Instant} {id : Uuid}

/-- The tables that hold events are as they were. -/
theorem congr {q' : EventQueue} (before : ReceivedBy t q) (queues : q'.queues = q.queues)
    (withheld : q'.withheldNativeSteer = q.withheldNativeSteer)
    (cancelled : q'.cancelledBatches = q.cancelledBatches) : ReceivedBy t q' :=
  ⟨queues ▸ before.queued, withheld ▸ before.withheld, cancelled ▸ before.cancelled⟩

theorem pushFront (before : ReceivedBy t q) {front : List QueuedEvent}
    (new : ∀ e ∈ front, e.receivedAt ≤ t) : ReceivedBy t (q.pushFront id front) := by
  refine ⟨Each.insert before.queued id fun e mem => ?_, before.withheld, before.cancelled⟩
  rcases List.mem_append.1 (List.mem_of_mem_take mem) with mem | mem
  · exact new e mem
  · exact before.queued id e mem

theorem expireInFlight (before : ReceivedBy t q) : ReceivedBy t (q.expireInFlight now) := by
  unfold EventQueue.expireInFlight
  generalize q.expired now = ids
  induction ids generalizing q with
  | nil => exact before
  | cons id ids ih =>
    refine ih ?_
    unfold release recoverWithheldForExpiredChannel
    split
    · exact before.congr rfl rfl rfl
    · rename_i entries found
      have erased : ReceivedBy t { q with
          inFlightBatchSizes := q.inFlightBatchSizes.erase id
          inFlightChannels := q.inFlightChannels.erase id
          inFlightDeadlines := q.inFlightDeadlines.erase id
          withheldNativeSteer := q.withheldNativeSteer.erase id } :=
        ⟨before.queued, Each.erase before.withheld id (List.forall_mem_nil _), before.cancelled⟩
      refine erased.pushFront fun e mem => before.withheld id e ?_
      rwa [of_eq_of_get found]

theorem push (before : ReceivedBy t q) {event : QueuedEvent} (new : event.receivedAt ≤ t) :
    ReceivedBy t (q.push event).2 := by
  unfold EventQueue.push
  split
  · exact before
  · refine ⟨Each.insert before.queued event.channelId fun e mem => ?_, before.withheld,
      before.cancelled⟩
    rcases List.mem_append.1 mem with mem | mem
    · refine before.queued event.channelId e ?_
      split at mem
      · exact List.mem_of_mem_tail mem
      · exact mem
    · rwa [List.mem_singleton.1 mem]

end ReceivedBy

end EventQueue

def FlushBatch.ReceivedBy (t : Instant) (b : FlushBatch) : Prop :=
  ∀ e ∈ b.events ++ b.cancelledEvents, e.receivedAt ≤ t

namespace EventQueue

namespace ReceivedBy

variable {q : EventQueue} {now t : Instant} {id : Uuid}

theorem flushQueue (before : ReceivedBy t q) :
    (q.flushQueue now id).1.ReceivedBy t ∧ ReceivedBy t (q.flushQueue now id).2 := by
  constructor
  · intro e mem
    rcases List.mem_append.1 mem with mem | mem
    · obtain ⟨qe, there, rfl⟩ := List.mem_map.1 ((List.mem_insertionSort _).1 mem)
      exact before.queued id qe (List.mem_of_mem_take there)
    · exact before.cancelled id e mem
  · exact ⟨Each.store before.queued id fun e mem => before.queued id e (List.mem_of_mem_drop mem),
      before.withheld, Each.erase before.cancelled id (List.forall_mem_nil _)⟩

theorem flushCancelled (before : ReceivedBy t q) :
    (q.flushCancelled now id).1.ReceivedBy t ∧ ReceivedBy t (q.flushCancelled now id).2 := by
  constructor
  · intro e mem
    rw [EventQueue.flushCancelled, List.append_nil] at mem
    exact before.cancelled id e mem
  · exact ⟨before.queued, before.withheld,
      Each.erase before.cancelled id (List.forall_mem_nil _)⟩

theorem flushNext (before : ReceivedBy t q) (now : Instant) (rank : Uuid → Nat) :
    (∀ b ∈ (q.flushNext now rank).1, b.ReceivedBy t) ∧ ReceivedBy t (q.flushNext now rank).2 := by
  have expired : ReceivedBy t (q.expireInFlight now) := before.expireInFlight
  rcases flushNext_cases now rank q with ⟨id, -, is⟩ | ⟨id, -, -, is⟩ | ⟨-, -, is⟩
  · rw [is]
    refine ⟨fun b mem => ?_, expired.flushQueue.2⟩
    exact Option.some.inj mem ▸ expired.flushQueue.1
  · rw [is]
    refine ⟨fun b mem => ?_, expired.flushCancelled.2⟩
    exact Option.some.inj mem ▸ expired.flushCancelled.1
  · rw [is]
    exact ⟨fun b mem => (nomatch mem), expired⟩

theorem putBack (before : ReceivedBy t q) {batch : FlushBatch} (received : batch.ReceivedBy t) :
    ReceivedBy t (q.requeuePreserveTimestamps batch) := by
  refine before.pushFront fun e mem => ?_
  obtain ⟨be, there, rfl⟩ := List.mem_map.1 mem
  exact received be (List.mem_append_left _ there)

theorem requeue (before : ReceivedBy t q) {batch : FlushBatch} (received : batch.ReceivedBy t)
    (nanos : Nat) : ReceivedBy t (q.requeue now nanos batch).2 := by
  unfold EventQueue.requeue
  dsimp only
  split
  · exact before.congr rfl rfl rfl
  · exact (before.putBack received).congr rfl rfl rfl

theorem requeueAsCancelled (before : ReceivedBy t q) {batch : FlushBatch}
    (received : batch.ReceivedBy t) (reason : CancelReason) :
    ReceivedBy t (q.requeueAsCancelled batch reason) := by
  refine ⟨before.queued, before.withheld, Each.insert before.cancelled _ fun e mem => ?_⟩
  rw [List.append_assoc, List.mem_append, List.mem_append] at mem
  rcases mem with mem | mem | mem
  · exact before.cancelled _ e mem
  · exact received e (List.mem_append_right _ mem)
  · exact received e (List.mem_append_left _ mem)

theorem settleRetries (before : ReceivedBy t q) : ReceivedBy t (q.settleRetries now id) := by
  unfold EventQueue.settleRetries
  split
  · split
    · exact before
    · exact before.congr rfl rfl rfl
  · exact before.congr rfl rfl rfl

theorem markComplete (before : ReceivedBy t q) : ReceivedBy t (q.markComplete now id) :=
  settleRetries (before.congr rfl rfl rfl)

theorem drainChannel (before : ReceivedBy t q) : ReceivedBy t (q.drainChannel id).2 :=
  ⟨Each.erase before.queued id (List.forall_mem_nil _),
    Each.erase before.withheld id (List.forall_mem_nil _),
    Each.erase before.cancelled id (List.forall_mem_nil _)⟩

theorem markNativeSteerPending (before : ReceivedBy t q) (eventId : String) :
    ReceivedBy t (q.markNativeSteerPending id eventId).2 := by
  unfold EventQueue.markNativeSteerPending
  dsimp only
  split
  · exact before
  · rename_i pos found
    refine ⟨Each.store before.queued id fun e mem => before.queued id e (List.mem_of_mem_eraseIdx mem),
      Each.insert before.withheld id fun e mem => ?_, before.cancelled⟩
    rcases List.mem_append.1 mem with mem | mem
    · exact before.withheld id e mem
    · exact before.queued id e (List.mem_of_getElem? (Option.mem_toList.1 mem))

theorem releaseNativeSteer (before : ReceivedBy t q) (eventId : String) :
    ReceivedBy t (q.releaseNativeSteer id eventId) := by
  unfold EventQueue.releaseNativeSteer
  dsimp only
  split
  · exact before
  · rename_i pos found
    have shorter : ReceivedBy t { q with
        withheldNativeSteer :=
          store q.withheldNativeSteer id ((of q.withheldNativeSteer id).eraseIdx pos) } :=
      ⟨before.queued, Each.store before.withheld id fun e mem =>
        before.withheld id e (List.mem_of_mem_eraseIdx mem), before.cancelled⟩
    exact shorter.pushFront fun e mem =>
      before.withheld id e (List.mem_of_getElem? (Option.mem_toList.1 mem))

theorem removeEvent (before : ReceivedBy t q) (eventId : String) :
    ReceivedBy t (q.removeEvent id eventId) := by
  have part : ∀ (m : Groups Uuid QueuedEvent) c e, e ∈ of (retain m id eventId) c → e ∈ of m c := by
    intro m c e mem
    rw [of_retain] at mem
    split at mem
    · exact List.mem_of_mem_filter mem
    · exact mem
  exact ⟨fun c e mem => before.queued c e (part _ c e mem),
    fun c e mem => before.withheld c e (part _ c e mem), before.cancelled⟩

end ReceivedBy

end EventQueue

/-! ## Runs -/

namespace World

variable {w : World} {t : Instant} {call : Call}

/-- Everything in the queue or in an outstanding batch was received by an instant. -/
structure ReceivedBy (t : Instant) (w : World) : Prop where
  queue : w.queue.ReceivedBy t
  outstanding : ∀ b ∈ w.outstanding, b.ReceivedBy t

theorem ReceivedBy.dispose (before : w.ReceivedBy t) (i : Nat) {how : World → FlushBatch → World}
    (kept : ∀ w b, w.ReceivedBy t → b.ReceivedBy t → (how w b).ReceivedBy t) :
    (w.dispose i how).ReceivedBy t := by
  unfold World.dispose
  split
  · exact before
  · rename_i b found
    refine kept _ b ⟨before.queue, fun b mem => ?_⟩ (before.outstanding b (List.mem_of_getElem? found))
    exact before.outstanding b (List.mem_of_mem_eraseIdx mem)

theorem ReceivedBy.apply (before : w.ReceivedBy t) (now : Instant) {op : Op}
    (new : ∀ e, op = .push e → e.receivedAt ≤ t) : (w.apply now op).ReceivedBy t := by
  obtain ⟨queue, outstanding⟩ := before
  cases op with
  | push e => exact ⟨queue.push (new e rfl), outstanding⟩
  | flushNext rank =>
    obtain ⟨batch, after⟩ := queue.flushNext now rank
    refine ⟨after, fun b mem => ?_⟩
    rcases List.mem_append.1 mem with mem | mem
    · exact outstanding b mem
    · exact batch b (Option.mem_toList.1 mem)
  | hasFlushableWork => exact ⟨queue.expireInFlight, outstanding⟩
  | complete i =>
    unfold World.apply
    refine ReceivedBy.dispose ⟨queue, outstanding⟩ i ?_
    exact fun w b before _ => ⟨before.queue.markComplete, before.outstanding⟩
  | requeue i nanos =>
    unfold World.apply
    refine ReceivedBy.dispose ⟨queue, outstanding⟩ i ?_
    exact fun w b before received => ⟨before.queue.requeue received nanos, before.outstanding⟩
  | requeuePreserveTimestamps i =>
    unfold World.apply
    refine ReceivedBy.dispose ⟨queue, outstanding⟩ i ?_
    exact fun w b before received => ⟨before.queue.putBack received, before.outstanding⟩
  | requeueAsCancelled i reason =>
    unfold World.apply
    refine ReceivedBy.dispose ⟨queue, outstanding⟩ i ?_
    exact fun w b before received =>
      ⟨before.queue.requeueAsCancelled received reason, before.outstanding⟩
  | markComplete c => exact ⟨queue.markComplete, outstanding⟩
  | drainChannel c => exact ⟨queue.drainChannel, outstanding⟩
  | markNativeSteerPending c id => exact ⟨queue.markNativeSteerPending id, outstanding⟩
  | releaseNativeSteer c id => exact ⟨queue.releaseNativeSteer id, outstanding⟩
  | removeEvent c id => exact ⟨queue.removeEvent id, outstanding⟩
  | extendInFlightDeadline c maxTurnSecs =>
    refine ⟨?_, outstanding⟩
    dsimp only [World.apply, EventQueue.extendInFlightDeadline]
    split
    · exact queue
    · split
      · exact queue.congr rfl rfl rfl
      · exact queue
  | compactExpiredState => exact ⟨queue.congr rfl rfl rfl, outstanding⟩

/-- The operation puts nothing back before an event that was received earlier. -/
def PutsBackInOrder (now : Instant) (w : World) : Op → Prop
  | .requeue i _ => ∀ b ∈ w.outstanding[i]?, ¬maxRetries < w.queue.attempt b.channelId →
    InOrder (b.events.map (·.toQueuedEvent b.channelId) ++ of w.queue.queues b.channelId)
  | .requeuePreserveTimestamps i => ∀ b ∈ w.outstanding[i]?,
    InOrder (b.events.map (·.toQueuedEvent b.channelId) ++ of w.queue.queues b.channelId)
  | .releaseNativeSteer c id => ∀ qe ∈ w.queue.withheldEvent c id,
    InOrder (qe :: of w.queue.queues c)
  | .flushNext _ | .hasFlushableWork => w.queue.ExpiresInOrder now
  | _ => True

instance (now : Instant) (w : World) : (op : Op) → Decidable (w.PutsBackInOrder now op)
  | .requeue i _ => inferInstanceAs (Decidable (∀ b ∈ w.outstanding[i]?, _))
  | .requeuePreserveTimestamps i => inferInstanceAs (Decidable (∀ b ∈ w.outstanding[i]?, _))
  | .releaseNativeSteer c id => inferInstanceAs (Decidable (∀ qe ∈ w.queue.withheldEvent c id, _))
  | .flushNext _ | .hasFlushableWork => inferInstanceAs (Decidable (w.queue.ExpiresInOrder now))
  | .push _ | .complete _ | .requeueAsCancelled _ _ | .markComplete _ | .drainChannel _
  | .markNativeSteerPending _ _ | .removeEvent _ _ | .extendInFlightDeadline _ _
  | .compactExpiredState => isTrue trivial

theorem ordered_dispose (ordered : w.queue.Ordered) {i : Nat} {how : World → FlushBatch → World}
    (kept : ∀ b ∈ w.outstanding[i]?, ∀ w', w'.queue = w.queue → (how w' b).queue.Ordered) :
    (w.dispose i how).queue.Ordered := by
  unfold World.dispose
  split
  · exact ordered
  · rename_i b found
    exact kept b found _ rfl

theorem ordered_apply (ordered : w.queue.Ordered) {now : Instant} {op : Op}
    (new : ∀ e, op = .push e → w.ReceivedBy e.receivedAt) (inOrder : w.PutsBackInOrder now op) :
    (w.apply now op).queue.Ordered := by
  cases op with
  | push e => exact ordered.push fun e' mem => (new e rfl).queue.queued _ e' mem
  | flushNext rank => exact ordered.flushNext inOrder rank
  | hasFlushableWork => exact ordered.expireInFlight inOrder
  | complete i =>
    refine ordered_dispose ordered fun b _ w' same => ?_
    exact EventQueue.Ordered.markComplete (same ▸ ordered)
  | requeue i nanos =>
    refine ordered_dispose ordered fun b found w' same => ?_
    exact EventQueue.Ordered.requeue (same ▸ ordered) fun alive => by
      rw [same] at alive ⊢
      exact inOrder b found alive
  | requeuePreserveTimestamps i =>
    refine ordered_dispose ordered fun b found w' same => ?_
    exact EventQueue.Ordered.pushFront (same ▸ ordered) (by rw [same]; exact inOrder b found)
  | requeueAsCancelled i reason =>
    refine ordered_dispose ordered fun b _ w' same => ?_
    rw [← same] at ordered
    exact ordered
  | markComplete c => exact ordered.markComplete
  | drainChannel c => exact Each.erase ordered c List.Pairwise.nil
  | markNativeSteerPending c id => exact ordered.markNativeSteerPending c id
  | releaseNativeSteer c id => exact ordered.releaseNativeSteer inOrder
  | removeEvent c id => exact ordered.removeEvent c id
  | extendInFlightDeadline c maxTurnSecs =>
    dsimp only [World.apply, EventQueue.extendInFlightDeadline]
    split
    · exact ordered
    · split
      · exact ordered
      · exact ordered
  | compactExpiredState => exact ordered

/-- A flush is fair; the other operations are no flushes. -/
def FlushesFairly (now : Instant) (w : World) : Op → Prop
  | .flushNext rank => (w.queue.expireInFlight now).Fair now rank
  | _ => True

instance (now : Instant) (w : World) : (op : Op) → Decidable (w.FlushesFairly now op)
  | .flushNext rank => inferInstanceAs (Decidable ((w.queue.expireInFlight now).Fair now rank))
  | .requeue _ _ | .requeuePreserveTimestamps _ | .releaseNativeSteer _ _ | .hasFlushableWork
  | .push _ | .complete _ | .requeueAsCancelled _ _ | .markComplete _ | .drainChannel _
  | .markNativeSteerPending _ _ | .removeEvent _ _ | .extendInFlightDeadline _ _
  | .compactExpiredState => isTrue trivial

/-- The call puts back in order, at its time. -/
def CallInOrder (w : World) (call : Call) : Prop := w.PutsBackInOrder (w.clock + call.wait) call.op

instance (w : World) (call : Call) : Decidable (w.CallInOrder call) :=
  inferInstanceAs (Decidable (w.PutsBackInOrder _ _))

/-- The call is no unfair flush, at its time. -/
def CallFair (w : World) (call : Call) : Prop := w.FlushesFairly (w.clock + call.wait) call.op

instance (w : World) (call : Call) : Decidable (w.CallFair call) :=
  inferInstanceAs (Decidable (w.FlushesFairly _ _))

theorem callFair (ordered : w.queue.Ordered) (inOrder : w.CallInOrder call) : w.CallFair call := by
  unfold CallFair
  cases is : call.op with
  | flushNext rank =>
    unfold CallInOrder at inOrder
    rw [is] at inOrder
    exact (ordered.expireInFlight inOrder).fair _ rank
  | _ => trivial

/-- From a state with ordered queues, which holds nothing received after a later push. -/
theorem along_callFair {calls : List Call} (ordered : w.queue.Ordered)
    (received : ∀ e ∈ calls.filterMap pushed, w.ReceivedBy e.receivedAt)
    (timely : ((calls.filterMap pushed).map (·.receivedAt)).Pairwise (· ≤ ·))
    (inOrder : Steps.Along step CallInOrder w calls) : Steps.Along step CallFair w calls := by
  induction calls generalizing w with
  | nil => exact Steps.along_nil
  | cons call calls ih =>
    obtain ⟨first, later⟩ := Steps.along_cons.1 inOrder
    have new : ∀ e, call.op = .push e → call.op = .push e ∧ pushed call = some e := by
      intro e is
      refine ⟨is, ?_⟩
      unfold pushed
      rw [is]
    refine Steps.along_cons.2 ⟨callFair ordered first, ih ?_ ?_ ?_ later⟩
    · refine ordered_apply ordered (fun e is => received e ?_) first
      rw [List.filterMap_cons_some (new e is).2]
      exact List.mem_cons_self
    · intro e mem
      have still : w.ReceivedBy e.receivedAt := received e (by
        rw [List.filterMap_cons]
        split
        · exact mem
        · exact List.mem_cons_of_mem _ mem)
      have kept := still.apply (w.clock + call.wait) fun e' is => by
        rw [List.filterMap_cons_some (new e' is).2, List.map_cons] at timely
        exact List.rel_of_pairwise_cons timely (List.mem_map_of_mem mem)
      exact ⟨kept.queue, kept.outstanding⟩
    · refine timely.sublist (List.Sublist.map _ ?_)
      rw [List.filterMap_cons]
      split
      · exact List.Sublist.refl _
      · exact List.sublist_cons_self _ _

/-- Every flush picks a channel that holds the oldest request, in every run in which events are only
put back before events that were not received earlier. -/
theorem run_fair (mode : DedupMode) (maxTurnDurationSecs : Nat) (clock : Instant)
    (calls : List Call) (timely : ((calls.filterMap pushed).map (·.receivedAt)).Pairwise (· ≤ ·))
    (inOrder : Steps.Along step CallInOrder (start mode maxTurnDurationSecs clock) calls) :
    Steps.Along step CallFair (start mode maxTurnDurationSecs clock) calls := by
  have ordered : (start mode maxTurnDurationSecs clock).queue.Ordered := fun c => by
    rw [start, EventQueue.withInFlightDeadline, EventQueue.new, of_empty]
    exact List.Pairwise.nil
  refine along_callFair ordered (fun e _ => ⟨⟨?_, ?_, ?_⟩, List.forall_mem_nil _⟩) timely inOrder
  all_goals
    intro c
    rw [start, EventQueue.withInFlightDeadline, EventQueue.new, of_empty]
    exact List.forall_mem_nil _

/-! ## An unfair flush -/

/-- A request that was created at one time and received at another. -/
def delayedEvent (channelId : Uuid) (id : EventId) (createdAt : Nat) (receivedAt : Instant) :
    QueuedEvent :=
  { channelId, event := { id, createdAt }, receivedAt, promptTag := "@mention" }

/-- Two requests of the first channel arrive in the opposite order of their creation, and one of the
second channel between them.  No agent is free for the first batch. -/
def delayedCalls (created : Nat) : List Call :=
  [⟨1, .push (delayedEvent 1 1 created 1)⟩, ⟨1, .push (delayedEvent 2 2 2 2)⟩,
    ⟨1, .push (delayedEvent 1 3 2 3)⟩, ⟨1, .flushNext fun _ => 0⟩,
    ⟨0, .requeuePreserveTimestamps 0⟩, ⟨0, .markComplete 1⟩, ⟨1, .flushNext fun _ => 0⟩]

theorem run_fair_delayedCalls :
    (((delayedCalls 1).filterMap pushed).map (·.receivedAt)).Pairwise (· ≤ ·) ∧
    Steps.Along step CallInOrder (start .queue 7200 0) (delayedCalls 1) ∧
    Steps.Along step CallFair (start .queue 7200 0) (delayedCalls 1) :=
  have timely : (((delayedCalls 1).filterMap pushed).map (·.receivedAt)).Pairwise (· ≤ ·) := by
    decide +kernel
  have inOrder : Steps.Along step CallInOrder (start .queue 7200 0) (delayedCalls 1) := by
    decide +kernel
  ⟨timely, inOrder, run_fair .queue 7200 0 (delayedCalls 1) timely inOrder⟩

/-- The batch is put back in the order of creation, and the second channel is flushed although the
first one holds an older request. -/
theorem flushNext_overlooks_oldest :
    (((delayedCalls 3).filterMap pushed).map (·.receivedAt)).Pairwise (· ≤ ·) ∧
    ¬Steps.Along step CallFair (start .queue 7200 0) (delayedCalls 3) ∧
    (((start .queue 7200 0).run (delayedCalls 3)).outstanding.map fun b =>
      (b.channelId, b.events.map (·.receivedAt))) = [(2, [2])] ∧
    (of ((start .queue 7200 0).run (delayedCalls 3)).queue.queues 1).map (·.receivedAt) = [3, 1] := by
  decide +kernel

end World

end Acp

end Carryforth
