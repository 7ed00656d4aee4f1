import Mathlib.Data.List.MinMax
import Mathlib.Data.List.Sort
import Carryforth.Lib.Grouping
import Carryforth.Types

/-!
# The event queue of the agent harness

Requests wait in one queue per channel.  A flush hands out the events of one channel as a batch and
marks the channel as in flight until the batch is completed or its deadline passes.  A batch that
failed is put back, one that was cancelled is kept aside and merged into the next batch of its
channel, and an event that is steered into a running turn is withheld from the queue meanwhile.

Instants are nanoseconds, and every reading of the clock is an argument.  Hash maps are listed in an
arbitrary order: where the order can be observed, the keys are sorted by an arbitrary ranking.
-/

namespace Carryforth

namespace Acp

open Std Grouping

/-! ## Limits -/

def maxPendingPerChannel : Nat := 500

def maxBatchEvents : Nat := 50

/-- Maximum retry attempts before a batch is dead-lettered. -/
def maxRetries : Nat := 10

def baseRetryDelaySecs : Nat := 5

def maxRetryDelaySecs : Nat := 300

def inFlightDeadlineBufferSecs : Nat := 100

def defaultInFlightDeadlineSecs : Nat := 7300

/-- A reading of the monotonic clock. -/
abbrev Instant := Nat

def secs (n : Nat) : Nat := n * 1000000000

/-! ## Events and batches -/

inductive DedupMode
  | drop
  | queue
deriving DecidableEq, Repr

/-- Why the prior turn of a batch was cancelled. -/
inductive CancelReason
  | interrupt
  | steer
deriving DecidableEq, Repr

structure Event where
  id : EventId
  createdAt : Nat
deriving DecidableEq, Repr

def Event.hexId (e : Event) : String := String.ofList (Text.hexDigits 64 e.id.toNat)

structure QueuedEvent where
  channelId : Uuid
  event : Event
  receivedAt : Instant
  promptTag : String
deriving DecidableEq, Repr

structure BatchEvent where
  event : Event
  promptTag : String
  receivedAt : Instant
deriving DecidableEq, Repr

/-- A batch of events to prompt the agent with.  The cancelled events are those of an earlier batch
that is merged into this one. -/
structure FlushBatch where
  channelId : Uuid
  events : List BatchEvent
  cancelledEvents : List BatchEvent
  cancelReason : Option CancelReason
deriving DecidableEq, Repr

def QueuedEvent.toBatchEvent (qe : QueuedEvent) : BatchEvent :=
  { event := qe.event, promptTag := qe.promptTag, receivedAt := qe.receivedAt }

def BatchEvent.toQueuedEvent (channelId : Uuid) (be : BatchEvent) : QueuedEvent :=
  { channelId, event := be.event, promptTag := be.promptTag, receivedAt := be.receivedAt }

structure EventQueue where
  queues : Groups Uuid QueuedEvent
  inFlightChannels : OrdSet Uuid
  /-- When a stuck channel in flight is released. -/
  inFlightDeadlines : OrdMap Uuid Instant
  inFlightBatchSizes : OrdMap Uuid Nat
  retryAfter : OrdMap Uuid Instant
  retryCounts : OrdMap Uuid Nat
  dedupMode : DedupMode
  /-- Events of cancelled batches, to be merged into the next batch of their channel. -/
  cancelledBatches : Groups Uuid BatchEvent
  cancelReasons : OrdMap Uuid CancelReason
  /-- Events out of their queue while they are steered into a running turn. -/
  withheldNativeSteer : Groups Uuid QueuedEvent
  inFlightDeadline : Nat

namespace EventQueue

def new (dedupMode : DedupMode) : EventQueue where
  queues := ∅
  inFlightChannels := ∅
  inFlightDeadlines := ∅
  inFlightBatchSizes := ∅
  retryAfter := ∅
  retryCounts := ∅
  dedupMode
  cancelledBatches := ∅
  cancelReasons := ∅
  withheldNativeSteer := ∅
  inFlightDeadline := secs defaultInFlightDeadlineSecs

def withInFlightDeadline (q : EventQueue) (maxTurnDurationSecs : Nat) : EventQueue :=
  { q with inFlightDeadline := secs (maxTurnDurationSecs + inFlightDeadlineBufferSecs) }

/-- Extend the deadline of a channel in flight; it never moves backward. -/
def extendInFlightDeadline (now : Instant) (q : EventQueue) (channelId : Uuid)
    (maxTurnSecs : Nat) : EventQueue :=
  match q.inFlightDeadlines[channelId]? with
  | none => q
  | some current =>
    let extended := now + secs (maxTurnSecs + inFlightDeadlineBufferSecs)
    if current < extended then
      { q with inFlightDeadlines := q.inFlightDeadlines.insert channelId extended }
    else q

/-! ## Push -/

/-- The event is discarded: its channel is in flight and repeated requests are dropped. -/
def Drops (q : EventQueue) (channelId : Uuid) : Prop :=
  q.dedupMode = .drop ∧ q.inFlightChannels.contains channelId = true

instance (q : EventQueue) (channelId : Uuid) : Decidable (q.Drops channelId) :=
  inferInstanceAs (Decidable (_ ∧ _))

/-- Append an event to the queue of its channel; the oldest one makes room if the queue is full. -/
def push (q : EventQueue) (event : QueuedEvent) : Bool × EventQueue :=
  if q.Drops event.channelId then (false, q)
  else
    let queue := of q.queues event.channelId
    let queue := if maxPendingPerChannel ≤ queue.length then queue.tail else queue
    (true, { q with queues := q.queues.insert event.channelId (queue ++ [event]) })

/-! ## Putting events back -/

/-- Put events at the front of the queue of a channel and drop from its back what is too much. -/
def pushFront (q : EventQueue) (channelId : Uuid) (front : List QueuedEvent) : EventQueue :=
  let queue := (front ++ of q.queues channelId).take maxPendingPerChannel
  { q with queues := q.queues.insert channelId queue }

def recoverWithheldForExpiredChannel (q : EventQueue) (channelId : Uuid) : EventQueue :=
  match q.withheldNativeSteer[channelId]? with
  | none => q
  | some entries =>
    { q with withheldNativeSteer := q.withheldNativeSteer.erase channelId }.pushFront channelId
      entries

/-! ## Flush -/

/-- The channels in flight whose deadline has passed. -/
def expired (now : Instant) (q : EventQueue) : List Uuid :=
  (q.inFlightDeadlines.toList.filter fun entry => entry.2 ≤ now).map Prod.fst

/-- Release a channel that missed its completion. -/
def release (q : EventQueue) (id : Uuid) : EventQueue :=
  { q with
    inFlightBatchSizes := q.inFlightBatchSizes.erase id
    inFlightChannels := q.inFlightChannels.erase id
    inFlightDeadlines := q.inFlightDeadlines.erase id }.recoverWithheldForExpiredChannel id

/-- Release the stuck channels.  Each release is about one channel, so their order is no matter. -/
def expireInFlight (now : Instant) (q : EventQueue) : EventQueue :=
  (q.expired now).foldl release q

/-- The entries of a hash map in the order of a ranking. -/
def listed {ν : Type} (rank : Uuid → Nat) (m : OrdMap Uuid ν) : List (Uuid × ν) :=
  m.toList.insertionSort fun a b => rank a.1 ≤ rank b.1

/-- The channel is neither in flight nor throttled. -/
def Ready (now : Instant) (q : EventQueue) (id : Uuid) : Prop :=
  ¬q.inFlightChannels.contains id = true ∧ ∀ t ∈ q.retryAfter[id]?, t ≤ now

instance (now : Instant) (q : EventQueue) (id : Uuid) : Decidable (q.Ready now id) :=
  inferInstanceAs (Decidable (_ ∧ _))

def headOf (now : Instant) (q : EventQueue) (entry : Uuid × List QueuedEvent) :
    Option (Uuid × Instant) :=
  if q.Ready now entry.1 then entry.2.head?.map fun head => (entry.1, head.receivedAt) else none

/-- The ready channel whose head event is the oldest; the first one if there are several. -/
def oldestChannel (now : Instant) (rank : Uuid → Nat) (q : EventQueue) : Option Uuid :=
  (((listed rank q.queues).filterMap (q.headOf now)).argmin Prod.snd).map Prod.fst

def cancelledChannel (rank : Uuid → Nat) (q : EventQueue) : Option Uuid :=
  ((listed rank q.cancelledBatches).map Prod.fst).find? fun id => !q.inFlightChannels.contains id

def dispatch (now : Instant) (q : EventQueue) (id : Uuid) (size : Nat) : EventQueue :=
  { q with
    inFlightChannels := q.inFlightChannels.insert id
    inFlightDeadlines := q.inFlightDeadlines.insert id (now + q.inFlightDeadline)
    inFlightBatchSizes := q.inFlightBatchSizes.insert id size
    cancelledBatches := q.cancelledBatches.erase id
    cancelReasons := q.cancelReasons.erase id }

/-- Hand out cancelled events again as an ordinary batch. -/
def flushCancelled (now : Instant) (q : EventQueue) (id : Uuid) : FlushBatch × EventQueue :=
  let cancelled := of q.cancelledBatches id
  ({ channelId := id
     events := cancelled
     cancelledEvents := []
     cancelReason := q.cancelReasons[id]? }, q.dispatch now id cancelled.length)

/-- Drain the front of a queue, sorted by creation, and merge the cancelled events. -/
def flushQueue (now : Instant) (q : EventQueue) (id : Uuid) : FlushBatch × EventQueue :=
  let queue := of q.queues id
  let events := ((queue.take maxBatchEvents).map QueuedEvent.toBatchEvent).insertionSort
    fun a b => a.event.createdAt ≤ b.event.createdAt
  let cancelledEvents := of q.cancelledBatches id
  ({ channelId := id
     events
     cancelledEvents
     cancelReason := if cancelledEvents.isEmpty then none else q.cancelReasons[id]? },
    { q with queues := store q.queues id (queue.drop maxBatchEvents) }.dispatch now id
      events.length)

/-- Flush the channel with the oldest head, or cancelled events if no queue is ready. -/
def flushNext (now : Instant) (rank : Uuid → Nat) (q : EventQueue) :
    Option FlushBatch × EventQueue :=
  let q := q.expireInFlight now
  match q.oldestChannel now rank with
  | some id => ((q.flushQueue now id).1, (q.flushQueue now id).2)
  | none =>
    match q.cancelledChannel rank with
    | some id => ((q.flushCancelled now id).1, (q.flushCancelled now id).2)
    | none => (none, q)

/-- Whether a flush would find work; stuck channels are released as in a flush. -/
def hasFlushableWork (now : Instant) (q : EventQueue) : Bool × EventQueue :=
  let q := q.expireInFlight now
  (q.queues.toList.any (fun entry => !entry.2.isEmpty && decide (q.Ready now entry.1)) ||
    q.cancelledBatches.keys.any fun id => !q.inFlightChannels.contains id, q)

/-! ## Disposal of a batch -/

/-- Forget the attempts of a channel unless it is still throttled. -/
def settleRetries (now : Instant) (q : EventQueue) (channelId : Uuid) : EventQueue :=
  match q.retryAfter[channelId]? with
  | some deadline =>
    if now < deadline then q
    else { q with
      retryAfter := q.retryAfter.erase channelId
      retryCounts := q.retryCounts.erase channelId }
  | none => { q with retryCounts := q.retryCounts.erase channelId }

def markComplete (now : Instant) (q : EventQueue) (channelId : Uuid) : EventQueue :=
  { q with
    inFlightChannels := q.inFlightChannels.erase channelId
    inFlightDeadlines := q.inFlightDeadlines.erase channelId
    inFlightBatchSizes := q.inFlightBatchSizes.erase channelId }.settleRetries now channelId

/-- Exponential backoff with jitter from the nanoseconds of the system clock.  The floating-point
factor `0.8 + nanos / u32::MAX * 0.4` is taken in whole nanoseconds. -/
def retryDelay (attempt nanos : Nat) : Nat :=
  min (baseRetryDelaySecs * 2 ^ min (attempt - 1) 6) maxRetryDelaySecs *
    (800000000 + nanos * 400000000 / 4294967295)

/-- The number of the next attempt for a channel. -/
def attempt (q : EventQueue) (channelId : Uuid) : Nat := q.retryCounts[channelId]?.getD 0 + 1

/-- Put a failed batch back with backoff, or return it after too many attempts. -/
def requeue (now : Instant) (nanos : Nat) (q : EventQueue) (batch : FlushBatch) :
    Option FlushBatch × EventQueue :=
  let attempt := q.attempt batch.channelId
  if maxRetries < attempt then
    (some batch, { q with
      retryCounts := q.retryCounts.erase batch.channelId
      retryAfter := q.retryAfter.erase batch.channelId })
  else
    let q := q.pushFront batch.channelId (batch.events.map (·.toQueuedEvent batch.channelId))
    (none, { q with
      retryCounts := q.retryCounts.insert batch.channelId attempt
      retryAfter := q.retryAfter.insert batch.channelId (now + retryDelay attempt nanos) })

/-- Put a batch back for which no agent was available, without backoff. -/
def requeuePreserveTimestamps (q : EventQueue) (batch : FlushBatch) : EventQueue :=
  q.pushFront batch.channelId (batch.events.map (·.toQueuedEvent batch.channelId))

/-- Keep the events of a cancelled batch aside for the next flush of the channel. -/
def requeueAsCancelled (q : EventQueue) (batch : FlushBatch) (reason : CancelReason) :
    EventQueue :=
  { q with
    cancelledBatches := q.cancelledBatches.insert batch.channelId
      (of q.cancelledBatches batch.channelId ++ batch.cancelledEvents ++ batch.events)
    cancelReasons := q.cancelReasons.insert batch.channelId reason }

/-! ## Removal and native steering -/

/-- Forget everything that waits in a channel; the identifiers of the queued events are returned. -/
def drainChannel (q : EventQueue) (channelId : Uuid) : List String × EventQueue :=
  ((of q.queues channelId).map fun qe => qe.event.hexId, { q with
    queues := q.queues.erase channelId
    retryAfter := q.retryAfter.erase channelId
    retryCounts := q.retryCounts.erase channelId
    cancelledBatches := q.cancelledBatches.erase channelId
    cancelReasons := q.cancelReasons.erase channelId
    withheldNativeSteer := q.withheldNativeSteer.erase channelId })

/-- Withhold a queued event while it is steered into a running turn. -/
def markNativeSteerPending (q : EventQueue) (channelId : Uuid) (eventId : String) :
    Bool × EventQueue :=
  let queue := of q.queues channelId
  match queue.findIdx? fun qe => qe.event.hexId = eventId with
  | none => (false, q)
  | some pos => (true, { q with
      queues := store q.queues channelId (queue.eraseIdx pos)
      withheldNativeSteer := q.withheldNativeSteer.insert channelId
        (of q.withheldNativeSteer channelId ++ queue[pos]?.toList) })

/-- Put a withheld event back at the front of its queue. -/
def releaseNativeSteer (q : EventQueue) (channelId : Uuid) (eventId : String) : EventQueue :=
  let entries := of q.withheldNativeSteer channelId
  match entries.findIdx? fun qe => qe.event.hexId = eventId with
  | none => q
  | some pos =>
    let withheldNativeSteer := store q.withheldNativeSteer channelId (entries.eraseIdx pos)
    { q with withheldNativeSteer }.pushFront channelId entries[pos]?.toList

/-- Drop the events with an identifier from a group, and the group if it is left empty. -/
def retain (m : Groups Uuid QueuedEvent) (channelId : Uuid) (eventId : String) :
    Groups Uuid QueuedEvent :=
  match m[channelId]? with
  | none => m
  | some entries => store m channelId (entries.filter fun qe => qe.event.hexId ≠ eventId)

/-- Drop an event that a running turn has taken. -/
def removeEvent (q : EventQueue) (channelId : Uuid) (eventId : String) : EventQueue :=
  { q with
    withheldNativeSteer := retain q.withheldNativeSteer channelId eventId
    queues := retain q.queues channelId eventId }

/-- Forget passed throttles, and the attempts of channels that are idle. -/
def compactExpiredState (now : Instant) (q : EventQueue) : EventQueue :=
  let retryAfter := q.retryAfter.filter fun _ deadline => now < deadline
  { q with
    retryAfter
    retryCounts := q.retryCounts.filter fun ch _ => retryAfter.contains ch ||
      !(of q.queues ch).isEmpty || q.inFlightChannels.contains ch }

end EventQueue

end Acp

end Carryforth
