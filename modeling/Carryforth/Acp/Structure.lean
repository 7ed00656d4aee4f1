import Carryforth.Acp.Copies
import Carryforth.Lib.Steps

/-!
# The tables of the queue fit together

Whatever is called, in whatever order and with whatever batches: no queue exceeds its limit, exactly
the channels with a deadline are in flight, a flush hands out no channel that is in flight or
throttled, and `has_flushable_work` announces exactly the flushes that find something.  The clock is
read anew by every operation and may return anything.
-/

namespace Carryforth

namespace Acp

open Std Grouping

/-- A call of the queue.  Batches are whatever the caller passes. -/
inductive QueueOp
  | withInFlightDeadline (maxTurnDurationSecs : Nat)
  | extendInFlightDeadline (channelId : Uuid) (maxTurnSecs : Nat)
  | push (event : QueuedEvent)
  | flushNext (rank : Uuid → Nat)
  | hasFlushableWork
  | markComplete (channelId : Uuid)
  | requeue (batch : FlushBatch) (nanos : Nat)
  | requeuePreserveTimestamps (batch : FlushBatch)
  | requeueAsCancelled (batch : FlushBatch) (reason : CancelReason)
  | drainChannel (channelId : Uuid)
  | markNativeSteerPending (channelId : Uuid) (eventId : String)
  | releaseNativeSteer (channelId : Uuid) (eventId : String)
  | removeEvent (channelId : Uuid) (eventId : String)
  | compactExpiredState

namespace EventQueue

/-- The queue after a call at a reading of the clock. -/
def perform (q : EventQueue) (call : Instant × QueueOp) : EventQueue :=
  match call.2 with
  | .withInFlightDeadline secs => q.withInFlightDeadline secs
  | .extendInFlightDeadline c secs => q.extendInFlightDeadline call.1 c secs
  | .push event => (q.push event).2
  | .flushNext rank => (q.flushNext call.1 rank).2
  | .hasFlushableWork => (q.hasFlushableWork call.1).2
  | .markComplete c => q.markComplete call.1 c
  | .requeue batch nanos => (q.requeue call.1 nanos batch).2
  | .requeuePreserveTimestamps batch => q.requeuePreserveTimestamps batch
  | .requeueAsCancelled batch reason => q.requeueAsCancelled batch reason
  | .drainChannel c => (q.drainChannel c).2
  | .markNativeSteerPending c id => (q.markNativeSteerPending c id).2
  | .releaseNativeSteer c id => q.releaseNativeSteer c id
  | .removeEvent c id => q.removeEvent c id
  | .compactExpiredState => q.compactExpiredState call.1

def performAll (q : EventQueue) (calls : List (Instant × QueueOp)) : EventQueue :=
  Steps.run perform q calls

variable {q : EventQueue} {now : Instant} {c : Uuid}

/-! ## Channels in flight -/

/-- Exactly the channels with a deadline are in flight. -/
def Timed (q : EventQueue) : Prop :=
  ∀ c, q.inFlightChannels.contains c = q.inFlightDeadlines.contains c

theorem Timed.congr {q' : EventQueue} (timed : q.Timed)
    (channels : q'.inFlightChannels = q.inFlightChannels)
    (deadlines : q'.inFlightDeadlines = q.inFlightDeadlines) : q'.Timed := by
  intro c
  rw [channels, deadlines, timed c]

theorem Timed.insert (timed : q.Timed) (id : Uuid) (deadline : Instant) :
    ∀ c, (q.inFlightChannels.insert id).contains c =
      (q.inFlightDeadlines.insert id deadline).contains c := by
  intro c
  rw [ExtTreeSet.contains_insert, ExtTreeMap.contains_insert, timed c]

theorem Timed.erase (timed : q.Timed) (id : Uuid) :
    ∀ c, (q.inFlightChannels.erase id).contains c =
      (q.inFlightDeadlines.erase id).contains c := by
  intro c
  rw [ExtTreeSet.contains_erase, ExtTreeMap.contains_erase, timed c]

/-- A recovery moves events only. -/
theorem recover_frame (q : EventQueue) (id : Uuid) :
    (q.recoverWithheldForExpiredChannel id).inFlightChannels = q.inFlightChannels ∧
      (q.recoverWithheldForExpiredChannel id).inFlightDeadlines = q.inFlightDeadlines ∧
      (q.recoverWithheldForExpiredChannel id).retryAfter = q.retryAfter ∧
      (q.recoverWithheldForExpiredChannel id).cancelledBatches = q.cancelledBatches ∧
      (q.recoverWithheldForExpiredChannel id).dedupMode = q.dedupMode := by
  unfold recoverWithheldForExpiredChannel
  split
  · exact ⟨rfl, rfl, rfl, rfl, rfl⟩
  · exact ⟨rfl, rfl, rfl, rfl, rfl⟩

theorem release_deadlines (q : EventQueue) (id : Uuid) :
    (q.release id).inFlightDeadlines = q.inFlightDeadlines.erase id :=
  (recover_frame _ id).2.1

theorem Timed.release (timed : q.Timed) (id : Uuid) : (q.release id).Timed := by
  obtain ⟨channels, deadlines, -⟩ := recover_frame { q with
    inFlightBatchSizes := q.inFlightBatchSizes.erase id
    inFlightChannels := q.inFlightChannels.erase id
    inFlightDeadlines := q.inFlightDeadlines.erase id } id
  intro c
  unfold EventQueue.release
  rw [channels, deadlines]
  exact timed.erase id c

theorem foldl_release_frame (ids : List Uuid) (q : EventQueue) :
    (ids.foldl EventQueue.release q).retryAfter = q.retryAfter ∧
      (ids.foldl EventQueue.release q).cancelledBatches = q.cancelledBatches ∧
      (ids.foldl EventQueue.release q).dedupMode = q.dedupMode := by
  induction ids generalizing q with
  | nil => exact ⟨rfl, rfl, rfl⟩
  | cons id ids ih =>
    obtain ⟨retry, cancelled, mode⟩ := ih (q.release id)
    obtain ⟨-, -, retry', cancelled', mode'⟩ := recover_frame { q with
      inFlightBatchSizes := q.inFlightBatchSizes.erase id
      inFlightChannels := q.inFlightChannels.erase id
      inFlightDeadlines := q.inFlightDeadlines.erase id } id
    exact ⟨retry.trans retry', cancelled.trans cancelled', mode.trans mode'⟩

theorem expireInFlight_frame (now : Instant) (q : EventQueue) :
    (q.expireInFlight now).retryAfter = q.retryAfter ∧
      (q.expireInFlight now).cancelledBatches = q.cancelledBatches ∧
      (q.expireInFlight now).dedupMode = q.dedupMode :=
  foldl_release_frame _ q

theorem foldl_release_deadlines (ids : List Uuid) (q : EventQueue) (c : Uuid) :
    (ids.foldl EventQueue.release q).inFlightDeadlines[c]? =
      if c ∈ ids then none else q.inFlightDeadlines[c]? := by
  induction ids generalizing q with
  | nil => rw [List.foldl_nil, if_neg List.not_mem_nil]
  | cons id ids ih =>
    rw [List.foldl_cons, ih, release_deadlines, OrdMap.get_erase]
    by_cases here : c = id
    · simp [here]
    · simp [here]

theorem mem_expired : c ∈ q.expired now ↔ ∃ t, q.inFlightDeadlines[c]? = some t ∧ t ≤ now := by
  simp only [expired, List.mem_map, List.mem_filter, decide_eq_true_eq, Prod.exists,
    ExtTreeMap.mem_toList_iff_getElem?_eq_some, exists_and_right, exists_eq_right]

theorem expireInFlight_deadlines (t : Instant) :
    (q.expireInFlight now).inFlightDeadlines[c]? = some t ↔
      q.inFlightDeadlines[c]? = some t ∧ now < t := by
  rw [expireInFlight, foldl_release_deadlines]
  by_cases expired : c ∈ q.expired now
  · rw [if_pos expired]
    obtain ⟨t', found, passed⟩ := mem_expired.1 expired
    rw [found]
    constructor
    · intro absurd
      cases absurd
    · rintro ⟨same, future⟩
      cases same
      exact absurd passed (Nat.not_le.2 future)
  · rw [if_neg expired]
    refine ⟨fun found => ⟨found, ?_⟩, And.left⟩
    by_contra passed
    exact expired (mem_expired.2 ⟨t, found, Nat.not_lt.1 passed⟩)

theorem expired_expireInFlight (now : Instant) (q : EventQueue) :
    (q.expireInFlight now).expired now = [] := by
  refine List.eq_nil_iff_forall_not_mem.2 fun c mem => ?_
  obtain ⟨t, found, passed⟩ := mem_expired.1 mem
  exact absurd passed (Nat.not_le.2 ((expireInFlight_deadlines t).1 found).2)

/-- At one reading of the clock the stuck channels are released once. -/
theorem expireInFlight_expireInFlight (now : Instant) (q : EventQueue) :
    (q.expireInFlight now).expireInFlight now = q.expireInFlight now := by
  have none := expired_expireInFlight now q
  unfold expireInFlight at none ⊢
  rw [none]
  rfl

theorem Timed.expireInFlight (timed : q.Timed) (now : Instant) : (q.expireInFlight now).Timed := by
  unfold EventQueue.expireInFlight
  generalize q.expired now = ids
  induction ids generalizing q with
  | nil => exact timed
  | cons id ids ih => exact ih (timed.release id)

/-! ## Limits -/

def Bounded (q : EventQueue) : Prop :=
  Each (fun queue => queue.length ≤ maxPendingPerChannel) q.queues

theorem Bounded.pushFront (bounded : q.Bounded) (id : Uuid) (front : List QueuedEvent) :
    (q.pushFront id front).Bounded :=
  Each.insert bounded id (List.length_take_le _ _)

theorem Bounded.recover (bounded : q.Bounded) (id : Uuid) :
    (q.recoverWithheldForExpiredChannel id).Bounded := by
  unfold recoverWithheldForExpiredChannel
  split
  · exact bounded
  · exact Bounded.pushFront (q := { q with withheldNativeSteer := q.withheldNativeSteer.erase id })
      bounded id _

theorem Bounded.expireInFlight (bounded : q.Bounded) (now : Instant) :
    (q.expireInFlight now).Bounded := by
  unfold EventQueue.expireInFlight
  generalize q.expired now = ids
  induction ids generalizing q with
  | nil => exact bounded
  | cons id ids ih => exact ih (Bounded.recover (q := { q with
      inFlightBatchSizes := q.inFlightBatchSizes.erase id
      inFlightChannels := q.inFlightChannels.erase id
      inFlightDeadlines := q.inFlightDeadlines.erase id }) bounded id)

theorem Bounded.push (bounded : q.Bounded) (event : QueuedEvent) : (q.push event).2.Bounded := by
  unfold EventQueue.push
  split
  · exact bounded
  · refine Each.insert bounded event.channelId ?_
    have before : (of q.queues event.channelId).length ≤ maxPendingPerChannel :=
      bounded event.channelId
    rw [List.length_append, List.length_singleton]
    split
    · rw [List.length_tail]
      unfold maxPendingPerChannel at *
      omega
    · omega

/-- Storing a part of a queue keeps the limits. -/
theorem Bounded.store (bounded : q.Bounded) {id : Uuid} {members : List QueuedEvent}
    (fewer : members.length ≤ (of q.queues id).length) :
    Each (fun queue => queue.length ≤ maxPendingPerChannel) (store q.queues id members) :=
  Each.store bounded id (fewer.trans (bounded id))

theorem Bounded.removeEvent (bounded : q.Bounded) (id : Uuid) (eventId : String) :
    (q.removeEvent id eventId).Bounded := by
  intro c
  dsimp only [EventQueue.removeEvent]
  rw [of_retain]
  split
  · exact (List.length_filter_le _ _).trans (bounded c)
  · exact bounded c

/-! ## Every operation -/

/-- What holds after every call. -/
structure Sound (mode : DedupMode) (q : EventQueue) : Prop where
  mode : q.dedupMode = mode
  bounded : q.Bounded
  timed : q.Timed

theorem sound_new (mode : DedupMode) : Sound mode (new mode) where
  mode := rfl
  bounded := fun c => by rw [new, of_empty]; exact Nat.zero_le _
  timed := fun c => by simp [new]

namespace Sound

variable {mode : DedupMode}

/-- The tables of the invariant are as they were. -/
theorem congr {q' : EventQueue} (sound : Sound mode q) (mode' : q'.dedupMode = q.dedupMode)
    (queues : q'.queues = q.queues) (channels : q'.inFlightChannels = q.inFlightChannels)
    (deadlines : q'.inFlightDeadlines = q.inFlightDeadlines) : Sound mode q' where
  mode := mode'.trans sound.mode
  bounded := by
    unfold Bounded
    rw [queues]
    exact sound.bounded
  timed := sound.timed.congr channels deadlines

theorem expireInFlight (sound : Sound mode q) (now : Instant) :
    Sound mode (q.expireInFlight now) where
  mode := (expireInFlight_frame now q).2.2.trans sound.mode
  bounded := sound.bounded.expireInFlight now
  timed := sound.timed.expireInFlight now

theorem pushFront (sound : Sound mode q) (id : Uuid) (front : List QueuedEvent) :
    Sound mode (q.pushFront id front) where
  mode := sound.mode
  bounded := sound.bounded.pushFront id front
  timed := sound.timed

theorem dispatch (sound : Sound mode q) (now : Instant) (id : Uuid) (size : Nat) :
    Sound mode (q.dispatch now id size) where
  mode := sound.mode
  bounded := sound.bounded
  timed := sound.timed.insert id _

theorem flushQueue (sound : Sound mode q) (now : Instant) (id : Uuid) :
    Sound mode (q.flushQueue now id).2 := by
  have drained : Sound mode { q with
      queues := store q.queues id ((of q.queues id).drop maxBatchEvents) } :=
    ⟨sound.mode, sound.bounded.store ((List.drop_sublist _ _).length_le), sound.timed⟩
  exact drained.dispatch now id _

theorem flushNext (sound : Sound mode q) (now : Instant) (rank : Uuid → Nat) :
    Sound mode (q.flushNext now rank).2 := by
  have expired := sound.expireInFlight now
  unfold EventQueue.flushNext
  dsimp only
  split
  · exact expired.flushQueue now _
  · split
    · exact expired.dispatch now _ _
    · exact expired

theorem settleRetries (sound : Sound mode q) (now : Instant) (id : Uuid) :
    Sound mode (q.settleRetries now id) := by
  unfold EventQueue.settleRetries
  split
  · split
    · exact sound
    · exact sound.congr rfl rfl rfl rfl
  · exact sound.congr rfl rfl rfl rfl

theorem markComplete (sound : Sound mode q) (now : Instant) (id : Uuid) :
    Sound mode (q.markComplete now id) := by
  have released : Sound mode { q with
      inFlightChannels := q.inFlightChannels.erase id
      inFlightDeadlines := q.inFlightDeadlines.erase id
      inFlightBatchSizes := q.inFlightBatchSizes.erase id } :=
    ⟨sound.mode, sound.bounded, sound.timed.erase id⟩
  exact released.settleRetries now id

theorem extendInFlightDeadline (sound : Sound mode q) (now : Instant) (id : Uuid)
    (maxTurnSecs : Nat) : Sound mode (q.extendInFlightDeadline now id maxTurnSecs) := by
  unfold EventQueue.extendInFlightDeadline
  split
  · exact sound
  · rename_i current found
    dsimp only
    split
    · refine ⟨sound.mode, sound.bounded, fun c => ?_⟩
      change q.inFlightChannels.contains c = _
      rw [sound.timed c, ExtTreeMap.contains_insert]
      by_cases here : compare id c = .eq
      · have there := OrdMap.contains_iff.2 ⟨current, found⟩
        rw [LawfulEqOrd.eq_of_compare here] at there
        rw [there, Bool.or_true]
      · simp [here]
    · exact sound

theorem requeue (sound : Sound mode q) (now : Instant) (nanos : Nat) (batch : FlushBatch) :
    Sound mode (q.requeue now nanos batch).2 := by
  unfold EventQueue.requeue
  dsimp only
  split
  · exact sound.congr rfl rfl rfl rfl
  · exact (sound.pushFront batch.channelId _).congr rfl rfl rfl rfl

theorem markNativeSteerPending (sound : Sound mode q) (id : Uuid) (eventId : String) :
    Sound mode (q.markNativeSteerPending id eventId).2 := by
  unfold EventQueue.markNativeSteerPending
  dsimp only
  split
  · exact sound
  · exact ⟨sound.mode, sound.bounded.store (List.length_eraseIdx_le _ _), sound.timed⟩

theorem releaseNativeSteer (sound : Sound mode q) (id : Uuid) (eventId : String) :
    Sound mode (q.releaseNativeSteer id eventId) := by
  unfold EventQueue.releaseNativeSteer
  dsimp only
  split
  · exact sound
  · rename_i pos found
    have shorter : Sound mode { q with
        withheldNativeSteer :=
          store q.withheldNativeSteer id ((of q.withheldNativeSteer id).eraseIdx pos) } :=
      sound.congr rfl rfl rfl rfl
    exact shorter.pushFront id _

theorem perform (sound : Sound mode q) (call : Instant × QueueOp) :
    Sound mode (q.perform call) := by
  obtain ⟨now, op⟩ := call
  cases op with
  | withInFlightDeadline secs => exact sound.congr rfl rfl rfl rfl
  | extendInFlightDeadline c secs => exact sound.extendInFlightDeadline now c secs
  | push event =>
    refine ⟨?_, sound.bounded.push event, ?_⟩
    · change (q.push event).2.dedupMode = mode
      unfold EventQueue.push
      split
      · exact sound.mode
      · exact sound.mode
    · change (q.push event).2.Timed
      unfold EventQueue.push
      split
      · exact sound.timed
      · exact sound.timed
  | flushNext rank => exact sound.flushNext now rank
  | hasFlushableWork => exact sound.expireInFlight now
  | markComplete c => exact sound.markComplete now c
  | requeue batch nanos => exact sound.requeue now nanos batch
  | requeuePreserveTimestamps batch => exact sound.pushFront batch.channelId _
  | requeueAsCancelled batch reason => exact sound.congr rfl rfl rfl rfl
  | drainChannel c => exact ⟨sound.mode, Each.erase sound.bounded c (Nat.zero_le _), sound.timed⟩
  | markNativeSteerPending c id => exact sound.markNativeSteerPending c id
  | releaseNativeSteer c id => exact sound.releaseNativeSteer c id
  | removeEvent c id => exact ⟨sound.mode, sound.bounded.removeEvent c id, sound.timed⟩
  | compactExpiredState => exact sound.congr rfl rfl rfl rfl

theorem performAll (sound : Sound mode q) (calls : List (Instant × QueueOp)) :
    Sound mode (q.performAll calls) :=
  Steps.run_invariant (Sound mode) (fun _ call sound => sound.perform call) sound

end Sound

/-! ## What a flush finds -/

section Flush

variable {rank : Uuid → Nat} {id : Uuid}

theorem mem_listed {ν : Type} {m : OrdMap Uuid ν} {v : ν} :
    (c, v) ∈ listed rank m ↔ m[c]? = some v := by
  rw [listed, List.mem_insertionSort, ExtTreeMap.mem_toList_iff_getElem?_eq_some]

theorem mem_heads {t : Instant} :
    (c, t) ∈ (listed rank q.queues).filterMap (q.headOf now) ↔
      q.Ready now c ∧ ∃ head ∈ (of q.queues c).head?, head.receivedAt = t := by
  simp only [List.mem_filterMap, Prod.exists, mem_listed, headOf]
  constructor
  · rintro ⟨d, queue, found, is⟩
    split at is
    · rename_i ready
      obtain ⟨head, first, same⟩ := Option.map_eq_some_iff.1 is
      obtain ⟨rfl, rfl⟩ := Prod.mk.inj same
      exact ⟨ready, head, of_eq_of_get found ▸ first, rfl⟩
    · cases is
  · rintro ⟨ready, head, first, rfl⟩
    cases found : q.queues[c]? with
    | none =>
      rw [of_eq_nil found] at first
      cases first
    | some queue =>
      rw [of_eq_of_get found] at first
      refine ⟨c, queue, found, ?_⟩
      rw [if_pos ready, first]
      rfl

/-- The flushed queue is ready, and no ready queue has an older head. -/
theorem oldestChannel_eq_some (found : q.oldestChannel now rank = some id) :
    q.Ready now id ∧ ∃ head ∈ (of q.queues id).head?, ∀ d, q.Ready now d →
      ∀ other ∈ (of q.queues d).head?, head.receivedAt ≤ other.receivedAt := by
  obtain ⟨⟨_, t⟩, least, rfl⟩ := Option.map_eq_some_iff.1 found
  obtain ⟨ready, head, first, rfl⟩ := mem_heads.1 (List.argmin_mem least)
  refine ⟨ready, head, first, fun d ready' other first' => ?_⟩
  have competes : (d, other.receivedAt) ∈ (listed rank q.queues).filterMap (q.headOf now) :=
    mem_heads.2 ⟨ready', other, first', rfl⟩
  exact List.le_of_mem_argmin (f := Prod.snd) competes least

theorem oldestChannel_eq_none_iff :
    q.oldestChannel now rank = none ↔ ∀ c, q.Ready now c → of q.queues c = [] := by
  rw [oldestChannel, Option.map_eq_none_iff, List.argmin_eq_none,
    List.eq_nil_iff_forall_not_mem]
  constructor
  · intro none c ready
    cases queue : of q.queues c with
    | nil => rfl
    | cons head rest =>
      exact absurd (mem_heads.2 ⟨ready, head, by rw [queue]; rfl, rfl⟩) (none (c, head.receivedAt))
  · rintro empty ⟨c, t⟩ mem
    obtain ⟨ready, head, first, -⟩ := mem_heads.1 mem
    rw [empty c ready] at first
    cases first

theorem cancelledChannel_eq_some (found : q.cancelledChannel rank = some id) :
    ¬q.inFlightChannels.contains id = true := by
  have free := List.find?_some found
  exact ne_true_of_eq_false (by simpa using free)

theorem cancelledChannel_eq_none_iff :
    q.cancelledChannel rank = none ↔
      ∀ c, q.cancelledBatches.contains c = true → q.inFlightChannels.contains c = true := by
  simp only [cancelledChannel, List.find?_eq_none, List.mem_map, Prod.exists, mem_listed,
    exists_and_right, exists_eq_right, Bool.not_eq_true', Bool.not_eq_false, OrdMap.contains_iff]

theorem flushNext_cases (now : Instant) (rank : Uuid → Nat) (q : EventQueue) :
    (∃ id, (q.expireInFlight now).oldestChannel now rank = some id ∧
      q.flushNext now rank = (some ((q.expireInFlight now).flushQueue now id).1,
        ((q.expireInFlight now).flushQueue now id).2)) ∨
    (∃ id, (q.expireInFlight now).oldestChannel now rank = none ∧
      (q.expireInFlight now).cancelledChannel rank = some id ∧
      q.flushNext now rank = (some ((q.expireInFlight now).flushCancelled now id).1,
        ((q.expireInFlight now).flushCancelled now id).2)) ∨
    ((q.expireInFlight now).oldestChannel now rank = none ∧
      (q.expireInFlight now).cancelledChannel rank = none ∧
      q.flushNext now rank = (none, q.expireInFlight now)) := by
  unfold flushNext
  dsimp only
  cases oldest : (q.expireInFlight now).oldestChannel now rank with
  | some id => exact .inl ⟨id, rfl, rfl⟩
  | none =>
    cases cancelled : (q.expireInFlight now).cancelledChannel rank with
    | some id => exact .inr (.inl ⟨id, rfl, rfl, rfl⟩)
    | none => exact .inr (.inr ⟨rfl, rfl, rfl⟩)

/-- Channels that are not in flight after the release had no deadline in the future. -/
theorem deadline_passed (timed : q.Timed)
    (free : ¬(q.expireInFlight now).inFlightChannels.contains c = true) {deadline : Instant}
    (found : q.inFlightDeadlines[c]? = some deadline) : deadline ≤ now := by
  rw [timed.expireInFlight now c, OrdMap.not_contains_iff] at free
  by_contra future
  have kept := (expireInFlight_deadlines deadline).2 ⟨found, Nat.not_le.1 future⟩
  rw [free] at kept
  cases kept

/-- A flush hands out no channel in flight, and of a throttled one only its cancelled events. -/
theorem flushNext_respects (timed : q.Timed) {batch : FlushBatch}
    (flushed : (q.flushNext now rank).1 = some batch) :
    (∀ deadline, q.inFlightDeadlines[batch.channelId]? = some deadline → deadline ≤ now) ∧
      ∀ throttle, q.retryAfter[batch.channelId]? = some throttle → now < throttle →
        batch.events = of q.cancelledBatches batch.channelId ∧ batch.cancelledEvents = [] := by
  obtain ⟨retry, cancelled, -⟩ := expireInFlight_frame now q
  rcases flushNext_cases now rank q with ⟨id, oldest, is⟩ | ⟨id, -, free, is⟩ | ⟨-, -, is⟩
  · rw [is] at flushed
    obtain rfl := Option.some.inj flushed
    obtain ⟨⟨free, calm⟩, -⟩ := oldestChannel_eq_some oldest
    refine ⟨fun deadline found => deadline_passed timed free found, fun throttle found future => ?_⟩
    rw [retry] at calm
    exact absurd (calm throttle found) (Nat.not_le.2 future)
  · rw [is] at flushed
    obtain rfl := Option.some.inj flushed
    refine ⟨fun deadline found => deadline_passed timed (cancelledChannel_eq_some free) found,
      fun _ _ _ => ⟨?_, rfl⟩⟩
    change of (q.expireInFlight now).cancelledBatches id = of q.cancelledBatches id
    rw [cancelled]
  · rw [is] at flushed
    cases flushed

theorem hasFlushableWork_iff (now : Instant) (rank : Uuid → Nat) (q : EventQueue) :
    (q.hasFlushableWork now).1 = true ↔
      (((q.hasFlushableWork now).2.flushNext now rank).1).isSome = true := by
  have same : (q.hasFlushableWork now).2.expireInFlight now = q.expireInFlight now :=
    expireInFlight_expireInFlight now q
  have work : (q.hasFlushableWork now).1 = true ↔
      (∃ c, (q.expireInFlight now).Ready now c ∧ of (q.expireInFlight now).queues c ≠ []) ∨
        ∃ c, (q.expireInFlight now).cancelledBatches.contains c = true ∧
          ¬(q.expireInFlight now).inFlightChannels.contains c = true := by
    simp only [hasFlushableWork, Bool.or_eq_true, List.any_eq_true, Prod.exists,
      ExtTreeMap.mem_toList_iff_getElem?_eq_some, Bool.and_eq_true, Bool.not_eq_true',
      decide_eq_true_eq, List.isEmpty_eq_false_iff, ExtTreeMap.mem_keys, ExtTreeMap.mem_iff_contains,
      Bool.not_eq_true]
    refine or_congr_left ⟨?_, ?_⟩
    · rintro ⟨c, queue, found, nonempty, ready⟩
      exact ⟨c, ready, of_eq_of_get found ▸ nonempty⟩
    · rintro ⟨c, ready, nonempty⟩
      cases found : (q.expireInFlight now).queues[c]? with
      | none => exact absurd (of_eq_nil found) nonempty
      | some queue => exact ⟨c, queue, found, of_eq_of_get found ▸ nonempty, ready⟩
  rw [work]
  rcases flushNext_cases now rank (q.hasFlushableWork now).2 with
    ⟨id, oldest, is⟩ | ⟨id, -, found, is⟩ | ⟨oldest, none, is⟩
  · rw [same] at oldest
    obtain ⟨ready, head, first, -⟩ := oldestChannel_eq_some oldest
    rw [is]
    refine ⟨fun _ => rfl, fun _ => .inl ⟨id, ready, fun empty => ?_⟩⟩
    rw [empty] at first
    cases first
  · rw [is]
    rw [same] at found
    refine ⟨fun _ => rfl, fun _ => .inr ?_⟩
    by_contra nowhere
    have none : (q.expireInFlight now).cancelledChannel rank = none :=
      cancelledChannel_eq_none_iff.2 fun c there =>
        by_contra fun free => nowhere ⟨c, there, free⟩
    rw [none] at found
    cases found
  · rw [is]
    rw [same] at oldest none
    refine ⟨?_, Bool.noConfusion⟩
    rintro (⟨c, ready, nonempty⟩ | ⟨c, there, free⟩)
    · exact absurd (oldestChannel_eq_none_iff.1 oldest c ready) nonempty
    · exact absurd (cancelledChannel_eq_none_iff.1 none c there) free

end Flush

/-! ## Empty queues -/

theorem get_store_ne_nil (m : Groups Uuid QueuedEvent) (c : Uuid) (members : List QueuedEvent) :
    (store m c members)[c]? ≠ some [] := by
  unfold store
  split
  · rw [OrdMap.get_erase, if_pos rfl]
    exact (Option.some_ne_none _).symm
  · rename_i nonempty
    rw [OrdMap.get_insert, if_pos rfl]
    intro same
    exact nonempty (List.isEmpty_iff.2 (Option.some.inj same))

theorem get_retain_ne_nil (m : Groups Uuid QueuedEvent) (c : Uuid) (eventId : String) :
    (retain m c eventId)[c]? ≠ some [] := by
  unfold retain
  split
  · rename_i missing
    rw [missing]
    exact (Option.some_ne_none _).symm
  · exact get_store_ne_nil m c _

/-! ## All together -/

/-- What the caller of the queue may rely on. -/
structure WellKept (mode : DedupMode) (q : EventQueue) : Prop where
  bounded : ∀ (c : Uuid) (queue : List QueuedEvent), q.queues[c]? = some queue →
    queue.length ≤ maxPendingPerChannel
  /-- A flush that drained a queue leaves no empty one. -/
  flushed : ∀ now rank id, (q.expireInFlight now).oldestChannel now rank = some id →
    (∃ batch, (q.flushNext now rank).1 = some batch ∧ batch.channelId = id) ∧
      (q.flushNext now rank).2.queues[id]? ≠ some []
  /-- A call that withholds nothing changes nothing. -/
  withheld : ∀ c eventId,
    ((q.markNativeSteerPending c eventId).1 = true →
      (q.markNativeSteerPending c eventId).2.queues[c]? ≠ some []) ∧
    ((q.markNativeSteerPending c eventId).1 = false → (q.markNativeSteerPending c eventId).2 = q)
  removed : ∀ c eventId, (q.removeEvent c eventId).queues[c]? ≠ some []
  timed : ∀ c, q.inFlightChannels.contains c = q.inFlightDeadlines.contains c
  respects : ∀ now rank batch, (q.flushNext now rank).1 = some batch →
    (∀ deadline, q.inFlightDeadlines[batch.channelId]? = some deadline → deadline ≤ now) ∧
      ∀ throttle, q.retryAfter[batch.channelId]? = some throttle → now < throttle →
        batch.events = of q.cancelledBatches batch.channelId ∧ batch.cancelledEvents = []
  announced : ∀ now rank, (q.hasFlushableWork now).1 = true ↔
    (((q.hasFlushableWork now).2.flushNext now rank).1).isSome = true
  dropped : mode = .drop → ∀ event, q.inFlightChannels.contains event.channelId = true →
    q.push event = (false, q)

theorem Sound.wellKept {mode : DedupMode} (sound : Sound mode q) : WellKept mode q where
  bounded c queue found := by
    have limit := sound.bounded c
    rwa [of_eq_of_get found] at limit
  flushed now rank id oldest := by
    rcases flushNext_cases now rank q with ⟨id', oldest', is⟩ | ⟨_, none, -⟩ | ⟨none, -⟩
    · rw [oldest] at oldest'
      obtain rfl := Option.some.inj oldest'
      rw [is]
      exact ⟨⟨_, rfl, rfl⟩, get_store_ne_nil _ _ _⟩
    · rw [oldest] at none
      cases none
    · rw [oldest] at none
      cases none
  withheld c eventId := by
    unfold EventQueue.markNativeSteerPending
    dsimp only
    split
    · exact ⟨fun done => (nomatch done), fun _ => rfl⟩
    · exact ⟨fun _ => get_store_ne_nil _ _ _, fun failed => (nomatch failed)⟩
  removed c eventId := get_retain_ne_nil q.queues c eventId
  timed := sound.timed
  respects now rank batch flushed := flushNext_respects sound.timed flushed
  announced now rank := hasFlushableWork_iff now rank q
  dropped is event busy := if_pos ⟨sound.mode.trans is, busy⟩

/-- The tables fit together after every sequence of calls. -/
theorem performAll_wellKept (mode : DedupMode) (calls : List (Instant × QueueOp)) :
    WellKept mode ((new mode).performAll calls) :=
  ((sound_new mode).performAll calls).wellKept

/-- A batch without events stores an empty queue, which a call that finds no event to withhold
leaves there. -/
theorem markNativeSteerPending_leaves_empty :
    ((new .queue).performAll
      [(0, .requeuePreserveTimestamps ⟨1, [], [], none⟩), (0, .markNativeSteerPending 1 "")]).queues[
        (1 : Uuid)]? = some [] := by
  decide +kernel

end EventQueue

end Acp

end Carryforth
