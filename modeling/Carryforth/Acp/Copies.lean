import Carryforth.Acp.Queue

/-!
# Where the queue holds an event

An event may wait in the queue of its channel, be withheld from it, or be kept aside with a cancelled
batch.  `EventQueue.copies` counts it over these tables, and one lemma for each operation says how
the count changes when no queue has to be cut to its limit.
-/

namespace Carryforth

namespace Acp

open Std Grouping

/-! ## Counting in the queue -/

/-- An event is what is known of it in a batch, together with its channel. -/
theorem toQueuedEvent_eq_iff {channelId : Uuid} {be : BatchEvent} {e : QueuedEvent} :
    be.toQueuedEvent channelId = e ↔ e.channelId = channelId ∧ e.toBatchEvent = be := by
  constructor
  · rintro rfl
    exact ⟨rfl, rfl⟩
  · rintro ⟨rfl, rfl⟩
    rfl

theorem count_map_toQueuedEvent (channelId : Uuid) (l : List BatchEvent) (e : QueuedEvent) :
    (l.map (·.toQueuedEvent channelId)).count e =
      if e.channelId = channelId then l.count e.toBatchEvent else 0 := by
  induction l with
  | nil => simp
  | cons be l ih =>
    rw [List.map_cons, List.count_cons, ih, List.count_cons]
    by_cases here : e.channelId = channelId
    · by_cases same : e.toBatchEvent = be
      · simp [here, same, toQueuedEvent_eq_iff]
      · simp [here, Ne.symm same, same, toQueuedEvent_eq_iff]
    · simp [here, toQueuedEvent_eq_iff]

/-- The events of a batch, new ones and cancelled ones. -/
def FlushBatch.contents (b : FlushBatch) : List QueuedEvent :=
  (b.events ++ b.cancelledEvents).map (·.toQueuedEvent b.channelId)

namespace EventQueue

/-- What the queue holds for a channel. -/
def held (q : EventQueue) (channelId : Uuid) : List BatchEvent :=
  (of q.queues channelId).map QueuedEvent.toBatchEvent ++
    (of q.withheldNativeSteer channelId).map QueuedEvent.toBatchEvent ++
    of q.cancelledBatches channelId

/-- How often the queue holds an event for its channel. -/
def copies (q : EventQueue) (e : QueuedEvent) : Nat := (q.held e.channelId).count e.toBatchEvent

variable {q : EventQueue} {now : Instant}

/-- Only three of the tables hold events. -/
theorem copies_congr {q' : EventQueue} (queues : q'.queues = q.queues)
    (withheld : q'.withheldNativeSteer = q.withheldNativeSteer)
    (cancelled : q'.cancelledBatches = q.cancelledBatches) (e : QueuedEvent) :
    q'.copies e = q.copies e := by
  rw [copies, held, queues, withheld, cancelled]
  rfl

/-- There is room for some events in the queue of a channel. -/
def Room (q : EventQueue) (channelId : Uuid) (n : Nat) : Prop :=
  n + (of q.queues channelId).length ≤ maxPendingPerChannel

instance (q : EventQueue) (channelId : Uuid) (n : Nat) : Decidable (q.Room channelId n) :=
  inferInstanceAs (Decidable (_ ≤ _))

theorem copies_push {event : QueuedEvent} (kept : ¬q.Drops event.channelId)
    (room : q.Room event.channelId 1) (e : QueuedEvent) :
    (q.push event).2.copies e = q.copies e + [event].count e := by
  have short : ¬maxPendingPerChannel ≤ (of q.queues event.channelId).length := by
    unfold Room at room
    omega
  have single : [event].count e =
      if e.channelId = event.channelId then [event.toBatchEvent].count e.toBatchEvent else 0 :=
    count_map_toQueuedEvent event.channelId [event.toBatchEvent] e
  rw [push, if_neg kept, single]
  simp only [if_neg short, copies, held, of_insert, List.count_append]
  by_cases here : e.channelId = event.channelId
  · simp only [here, if_true, List.map_append, List.count_append, List.map_cons, List.map_nil]
    omega
  · simp only [if_neg here, Nat.add_zero]

/-- Putting events back where there is room for them loses none. -/
theorem copies_pushFront {channelId : Uuid} {front : List QueuedEvent}
    (room : q.Room channelId front.length) (e : QueuedEvent) :
    (q.pushFront channelId front).copies e = q.copies e +
      if e.channelId = channelId then (front.map QueuedEvent.toBatchEvent).count e.toBatchEvent
      else 0 := by
  have whole : (front ++ of q.queues channelId).take maxPendingPerChannel =
      front ++ of q.queues channelId := by
    apply List.take_of_length_le
    rw [List.length_append]
    exact room
  simp only [copies, held, pushFront, whole, of_insert, List.count_append]
  by_cases here : e.channelId = channelId
  · simp only [here, if_true, List.map_append, List.count_append]
    omega
  · simp only [if_neg here, Nat.add_zero]

/-! ## Releasing stuck channels -/

/-- The withheld events of a channel, if there are any, fit into its queue. -/
def RecoveryRoom (q : EventQueue) (channelId : Uuid) : Prop :=
  ∀ entries ∈ q.withheldNativeSteer[channelId]?, q.Room channelId entries.length

instance (q : EventQueue) (channelId : Uuid) : Decidable (q.RecoveryRoom channelId) :=
  inferInstanceAs (Decidable (∀ entries ∈ q.withheldNativeSteer[channelId]?, _))

theorem copies_recoverWithheld {channelId : Uuid} (room : q.RecoveryRoom channelId)
    (e : QueuedEvent) : (q.recoverWithheldForExpiredChannel channelId).copies e = q.copies e := by
  unfold recoverWithheldForExpiredChannel
  split
  · rfl
  · rename_i entries found
    have all := of_eq_of_get found
    rw [copies_pushFront (by exact room entries found)]
    simp only [copies, held, of_erase, List.count_append]
    by_cases here : e.channelId = channelId
    · simp only [here, if_true, all, List.map_nil, List.count_nil]
      omega
    · simp only [if_neg here, Nat.add_zero]

/-- A recovery leaves nothing to recover in its channel, and no trace in the others. -/
theorem recoveryRoom_recoverWithheld {c : Uuid} (room : q.RecoveryRoom c) (channelId : Uuid) :
    (q.recoverWithheldForExpiredChannel channelId).RecoveryRoom c := by
  unfold recoverWithheldForExpiredChannel
  split
  · exact room
  · intro entries found
    simp only [pushFront, OrdMap.get_erase] at found
    by_cases here : c = channelId
    · rw [if_pos here] at found
      cases found
    · rw [if_neg here] at found
      simp only [Room, pushFront, of_insert, if_neg here]
      exact room entries found

theorem copies_foldl_release {ids : List Uuid} (room : ∀ id ∈ ids, q.RecoveryRoom id)
    (e : QueuedEvent) : (ids.foldl release q).copies e = q.copies e := by
  induction ids generalizing q with
  | nil => rfl
  | cons id ids ih =>
    rw [List.foldl_cons, ih]
    · unfold release
      have here : q.RecoveryRoom id := room id List.mem_cons_self
      exact (copies_recoverWithheld (by exact here) e).trans (copies_congr rfl rfl rfl e)
    · intro other mem
      unfold release
      apply recoveryRoom_recoverWithheld
      exact room other (List.mem_cons_of_mem _ mem)

/-- The withheld events of every stuck channel fit into its queue. -/
def ExpiryRoom (now : Instant) (q : EventQueue) : Prop := ∀ id ∈ q.expired now, q.RecoveryRoom id

instance (now : Instant) (q : EventQueue) : Decidable (q.ExpiryRoom now) :=
  List.decidableBAll _ _

theorem copies_expireInFlight (room : q.ExpiryRoom now) (e : QueuedEvent) :
    (q.expireInFlight now).copies e = q.copies e :=
  copies_foldl_release room e

/-! ## Flush and disposal -/

theorem copies_flushCancelled (id : Uuid) (e : QueuedEvent) :
    (q.flushCancelled now id).2.copies e + (q.flushCancelled now id).1.contents.count e =
      q.copies e := by
  simp only [flushCancelled, dispatch, FlushBatch.contents, count_map_toQueuedEvent, copies, held,
    of_erase, List.append_nil, List.count_append]
  by_cases here : e.channelId = id
  · simp only [here, if_true, List.count_nil]
    omega
  · simp only [if_neg here]
    omega

theorem copies_flushQueue (id : Uuid) (e : QueuedEvent) :
    (q.flushQueue now id).2.copies e + (q.flushQueue now id).1.contents.count e =
      q.copies e := by
  have sorted := fun l : List BatchEvent => (l.perm_insertionSort
    fun a b => a.event.createdAt ≤ b.event.createdAt).count_eq e.toBatchEvent
  simp only [flushQueue, dispatch, FlushBatch.contents, count_map_toQueuedEvent, copies, held,
    of_erase, of_store, List.count_append, sorted]
  by_cases here : e.channelId = id
  · simp only [here, if_true, List.count_nil]
    have parts : ((of q.queues id).map QueuedEvent.toBatchEvent).count e.toBatchEvent =
        (((of q.queues id).take maxBatchEvents).map QueuedEvent.toBatchEvent).count
          e.toBatchEvent +
        (((of q.queues id).drop maxBatchEvents).map QueuedEvent.toBatchEvent).count
          e.toBatchEvent := by
      rw [← List.count_append, ← List.map_append, List.take_append_drop]
    omega
  · simp only [if_neg here]
    omega

/-- A flush moves events into the batch it returns, and does nothing else with them. -/
theorem copies_flushNext (room : q.ExpiryRoom now) (rank : Uuid → Nat) (e : QueuedEvent) :
    (q.flushNext now rank).2.copies e +
      ((q.flushNext now rank).1.toList.flatMap FlushBatch.contents).count e = q.copies e := by
  rw [← copies_expireInFlight room e]
  unfold flushNext
  dsimp only
  split
  · simpa using copies_flushQueue _ e
  · split
    · simpa using copies_flushCancelled _ e
    · simp

theorem copies_markComplete (channelId : Uuid) (e : QueuedEvent) :
    (q.markComplete now channelId).copies e = q.copies e := by
  unfold markComplete settleRetries
  split
  · split_ifs
    · exact copies_congr rfl rfl rfl e
    · exact copies_congr rfl rfl rfl e
  · exact copies_congr rfl rfl rfl e

theorem copies_requeuePreserveTimestamps {batch : FlushBatch}
    (room : q.Room batch.channelId batch.events.length) (e : QueuedEvent) :
    (q.requeuePreserveTimestamps batch).copies e =
      q.copies e + (batch.events.map (·.toQueuedEvent batch.channelId)).count e := by
  rw [requeuePreserveTimestamps, copies_pushFront, count_map_toQueuedEvent, List.map_map]
  · congr
    exact List.map_id _
  · rwa [List.length_map]

theorem copies_requeue_of_dead {batch : FlushBatch}
    (dead : maxRetries < q.attempt batch.channelId) (now nanos : Nat) (e : QueuedEvent) :
    (q.requeue now nanos batch).1 = some batch ∧
      (q.requeue now nanos batch).2.copies e = q.copies e := by
  rw [requeue, if_pos dead]
  exact ⟨rfl, copies_congr rfl rfl rfl e⟩

theorem copies_requeue {batch : FlushBatch} (alive : ¬maxRetries < q.attempt batch.channelId)
    (room : q.Room batch.channelId batch.events.length) (now nanos : Nat) (e : QueuedEvent) :
    (q.requeue now nanos batch).1 = none ∧ (q.requeue now nanos batch).2.copies e =
      q.copies e + (batch.events.map (·.toQueuedEvent batch.channelId)).count e := by
  rw [requeue, if_neg alive]
  exact ⟨rfl, copies_requeuePreserveTimestamps room e⟩

theorem copies_requeueAsCancelled (batch : FlushBatch) (reason : CancelReason) (e : QueuedEvent) :
    (q.requeueAsCancelled batch reason).copies e = q.copies e + batch.contents.count e := by
  simp only [requeueAsCancelled, FlushBatch.contents, count_map_toQueuedEvent, copies, held,
    of_insert, List.count_append]
  by_cases here : e.channelId = batch.channelId
  · simp only [here, if_true, List.count_append]
    omega
  · simp only [if_neg here, Nat.add_zero]

/-! ## Removal and steering -/

theorem copies_drainChannel (channelId : Uuid) (e : QueuedEvent) :
    (q.drainChannel channelId).2.copies e +
      ((q.held channelId).map (·.toQueuedEvent channelId)).count e = q.copies e := by
  simp only [drainChannel, count_map_toQueuedEvent, copies, held, of_erase]
  by_cases here : e.channelId = channelId
  · simp [here]
  · simp [here]

theorem count_eraseIdx {l : List QueuedEvent} {p : QueuedEvent → Bool} {pos : Nat}
    (found : l.findIdx? p = some pos) (be : BatchEvent) :
    ((l.eraseIdx pos).map QueuedEvent.toBatchEvent).count be +
      (l[pos]?.toList.map QueuedEvent.toBatchEvent).count be =
    (l.map QueuedEvent.toBatchEvent).count be := by
  obtain ⟨inside, -⟩ := List.findIdx?_eq_some_iff_getElem.1 found
  have whole := ((List.getElem_cons_eraseIdx_perm inside).map QueuedEvent.toBatchEvent).count_eq be
  rw [List.map_cons, List.count_cons] at whole
  rw [List.getElem?_eq_getElem inside, Option.toList_some, List.map_cons, List.map_nil,
    List.count_cons, List.count_nil, ← whole]
  omega

theorem copies_markNativeSteerPending (channelId : Uuid) (eventId : String) (e : QueuedEvent) :
    (q.markNativeSteerPending channelId eventId).2.copies e = q.copies e := by
  unfold markNativeSteerPending
  dsimp only
  split
  · rfl
  · rename_i pos found
    have moved := count_eraseIdx found e.toBatchEvent
    simp only [copies, held, of_store, of_insert, List.count_append]
    by_cases here : e.channelId = channelId
    · simp only [here, if_true, List.map_append, List.count_append]
      omega
    · simp only [if_neg here]

theorem copies_releaseNativeSteer {channelId : Uuid} {eventId : String}
    (room : (∃ qe ∈ of q.withheldNativeSteer channelId, qe.event.hexId = eventId) →
      q.Room channelId 1) (e : QueuedEvent) :
    (q.releaseNativeSteer channelId eventId).copies e = q.copies e := by
  unfold releaseNativeSteer
  dsimp only
  split
  · rfl
  · rename_i pos found
    have moved := count_eraseIdx found e.toBatchEvent
    obtain ⟨inside, is, -⟩ := List.findIdx?_eq_some_iff_getElem.1 found
    rw [copies_pushFront]
    · simp only [copies, held, of_store, List.count_append]
      by_cases here : e.channelId = channelId
      · simp only [here, if_true]
        omega
      · simp only [if_neg here, Nat.add_zero]
    · rw [List.getElem?_eq_getElem inside]
      exact room ⟨_, List.getElem_mem inside, of_decide_eq_true is⟩

/-- The events of a group with an identifier. -/
def named (m : Groups Uuid QueuedEvent) (channelId : Uuid) (eventId : String) : List BatchEvent :=
  ((of m channelId).filter fun qe => qe.event.hexId = eventId).map QueuedEvent.toBatchEvent

theorem of_retain (m : Groups Uuid QueuedEvent) (channelId c : Uuid) (eventId : String) :
    of (retain m channelId eventId) c =
      if c = channelId then (of m c).filter fun qe => qe.event.hexId ≠ eventId else of m c := by
  unfold retain
  split
  · rename_i missing
    by_cases here : c = channelId
    · rw [if_pos here, here, of_eq_nil missing]
      rfl
    · rw [if_neg here]
  · rename_i entries found
    rw [of_store]
    by_cases here : c = channelId
    · rw [if_pos here, if_pos here, here, of_eq_of_get found]
    · rw [if_neg here, if_neg here]

/-- What is dropped from a group and what is left are all of it. -/
theorem count_retain (m : Groups Uuid QueuedEvent) (channelId : Uuid) (eventId : String)
    (be : BatchEvent) :
    ((of (retain m channelId eventId) channelId).map QueuedEvent.toBatchEvent).count be +
      (named m channelId eventId).count be =
    ((of m channelId).map QueuedEvent.toBatchEvent).count be := by
  rw [of_retain, if_pos rfl, named, ← List.count_append, ← List.map_append]
  apply List.Perm.count_eq
  apply List.Perm.map
  refine (List.perm_append_comm).trans ?_
  simpa using List.filter_append_perm (fun qe : QueuedEvent => qe.event.hexId = eventId)
    (of m channelId)

def removal (q : EventQueue) (channelId : Uuid) (eventId : String) : List BatchEvent :=
  named q.withheldNativeSteer channelId eventId ++ named q.queues channelId eventId

theorem copies_removeEvent (channelId : Uuid) (eventId : String) (e : QueuedEvent) :
    (q.removeEvent channelId eventId).copies e +
      ((q.removal channelId eventId).map (·.toQueuedEvent channelId)).count e = q.copies e := by
  have withheld := count_retain q.withheldNativeSteer channelId eventId e.toBatchEvent
  have queued := count_retain q.queues channelId eventId e.toBatchEvent
  simp only [removeEvent, removal, count_map_toQueuedEvent, copies, held, List.count_append]
  by_cases here : e.channelId = channelId
  · simp only [here, if_true]
    omega
  · simp only [of_retain, if_neg here, Nat.add_zero]

theorem copies_extendInFlightDeadline (channelId : Uuid) (maxTurnSecs : Nat) (e : QueuedEvent) :
    (q.extendInFlightDeadline now channelId maxTurnSecs).copies e = q.copies e := by
  unfold extendInFlightDeadline
  split
  · rfl
  · dsimp only
    split_ifs
    · exact copies_congr rfl rfl rfl e
    · rfl

end EventQueue

end Acp

end Carryforth
