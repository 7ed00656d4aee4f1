import Carryforth.Acp.Copies
import Carryforth.Lib.Steps

/-!
# No request is lost

The world of the queue: its caller pushes events, takes batches and disposes of each of them once,
in any interleaving with the other operations and at any times.  The world also records what left
the queue for good: removed events, batches that were completed, and batches that were returned
after too many attempts.

Putting a batch back forgets its cancelled events, so that the accepted events stand in exactly one
place iff no batch with cancelled events is put back (`World.run_conserved_iff`).
-/

namespace Carryforth

namespace Acp

open Std Grouping

/-! ## The world -/

/-- An operation of the caller.  Outstanding batches are given by their position. -/
inductive Op
  | push (event : QueuedEvent)
  | flushNext (rank : Uuid → Nat)
  | hasFlushableWork
  /-- Dispose of a batch by `mark_complete` alone. -/
  | complete (batch : Nat)
  | requeue (batch nanos : Nat)
  | requeuePreserveTimestamps (batch : Nat)
  | requeueAsCancelled (batch : Nat) (reason : CancelReason)
  /-- The `mark_complete` that follows a batch which is put back. -/
  | markComplete (channelId : Uuid)
  | drainChannel (channelId : Uuid)
  | markNativeSteerPending (channelId : Uuid) (eventId : String)
  | releaseNativeSteer (channelId : Uuid) (eventId : String)
  | removeEvent (channelId : Uuid) (eventId : String)
  | extendInFlightDeadline (channelId : Uuid) (maxTurnSecs : Nat)
  | compactExpiredState

/-- The operation `op` is called `wait` after the one before it. -/
structure Call where
  wait : Nat
  op : Op

structure World where
  queue : EventQueue
  clock : Instant
  /-- Batches that were flushed and not disposed of. -/
  outstanding : List FlushBatch
  /-- Events that a push accepted. -/
  accepted : List QueuedEvent
  /-- Events that a drain or a removal took out. -/
  removed : List QueuedEvent
  /-- Batches that were completed. -/
  completed : List FlushBatch
  /-- Batches that a requeue returned. -/
  returned : List FlushBatch

namespace World

def start (mode : DedupMode) (maxTurnDurationSecs : Nat) (clock : Instant) : World where
  queue := (EventQueue.new mode).withInFlightDeadline maxTurnDurationSecs
  clock
  outstanding := []
  accepted := []
  removed := []
  completed := []
  returned := []

/-- Take an outstanding batch and dispose of it. -/
def dispose (w : World) (i : Nat) (how : World → FlushBatch → World) : World :=
  match w.outstanding[i]? with
  | none => w
  | some b => how { w with outstanding := w.outstanding.eraseIdx i } b

def apply (now : Instant) (w : World) : Op → World
  | .push event =>
    let (accepted, queue) := w.queue.push event
    { w with queue, accepted := w.accepted ++ if accepted then [event] else [] }
  | .flushNext rank =>
    let (batch, queue) := w.queue.flushNext now rank
    { w with queue, outstanding := w.outstanding ++ batch.toList }
  | .hasFlushableWork => { w with queue := (w.queue.hasFlushableWork now).2 }
  | .complete i => w.dispose i fun w b =>
    { w with queue := w.queue.markComplete now b.channelId, completed := w.completed ++ [b] }
  | .requeue i nanos => w.dispose i fun w b =>
    let (dead, queue) := w.queue.requeue now nanos b
    { w with queue, returned := w.returned ++ dead.toList }
  | .requeuePreserveTimestamps i => w.dispose i fun w b =>
    { w with queue := w.queue.requeuePreserveTimestamps b }
  | .requeueAsCancelled i reason => w.dispose i fun w b =>
    { w with queue := w.queue.requeueAsCancelled b reason }
  | .markComplete c => { w with queue := w.queue.markComplete now c }
  | .drainChannel c =>
    { w with
      queue := (w.queue.drainChannel c).2
      removed := w.removed ++ (w.queue.held c).map (·.toQueuedEvent c) }
  | .markNativeSteerPending c id =>
    { w with queue := (w.queue.markNativeSteerPending c id).2 }
  | .releaseNativeSteer c id => { w with queue := w.queue.releaseNativeSteer c id }
  | .removeEvent c id =>
    { w with
      queue := w.queue.removeEvent c id
      removed := w.removed ++ (w.queue.removal c id).map (·.toQueuedEvent c) }
  | .extendInFlightDeadline c maxTurnSecs =>
    { w with queue := w.queue.extendInFlightDeadline now c maxTurnSecs }
  | .compactExpiredState => { w with queue := w.queue.compactExpiredState now }

def step (w : World) (call : Call) : World :=
  { w.apply (w.clock + call.wait) call.op with clock := w.clock + call.wait }

def run (w : World) (calls : List Call) : World := Steps.run step w calls

/-! ## Where an event can be -/

inductive Place
  | queued
  | withheld
  | cancelled
  | outstanding
  | removed
  | completed
  | returned
deriving DecidableEq, Repr

instance : Fintype Place where
  elems := {.queued, .withheld, .cancelled, .outstanding, .removed, .completed, .returned}
  complete := fun place => by cases place <;> decide

def stored (w : World) (c : Uuid) : Place → List QueuedEvent
  | .queued => (of w.queue.queues c).map fun qe => { qe with channelId := c }
  | .withheld => (of w.queue.withheldNativeSteer c).map fun qe => { qe with channelId := c }
  | .cancelled => (of w.queue.cancelledBatches c).map (·.toQueuedEvent c)
  | .outstanding => w.outstanding.flatMap FlushBatch.contents
  | .removed => w.removed
  | .completed => w.completed.flatMap FlushBatch.contents
  | .returned => w.returned.flatMap FlushBatch.contents

/-- Every accepted event stands once in one place and is in no other. -/
def Conserved (w : World) : Prop :=
  ∀ e ∈ w.accepted, ∃ place, (w.stored e.channelId place).count e = 1 ∧
    ∀ other, other ≠ place → e ∉ w.stored e.channelId other

instance (w : World) : Decidable w.Conserved :=
  inferInstanceAs (Decidable (∀ e ∈ w.accepted, _))

/-- How often an event is there. -/
def copies (w : World) (e : QueuedEvent) : Nat :=
  w.queue.copies e + (w.outstanding.flatMap FlushBatch.contents).count e + w.removed.count e +
    (w.completed.flatMap FlushBatch.contents).count e +
    (w.returned.flatMap FlushBatch.contents).count e

theorem copies_eq_sum (w : World) (e : QueuedEvent) :
    w.copies e = ∑ place, (w.stored e.channelId place).count e := by
  have own : ∀ l : List BatchEvent, (l.map (·.toQueuedEvent e.channelId)).count e =
      l.count e.toBatchEvent := fun l => by rw [count_map_toQueuedEvent, if_pos rfl]
  have queue : w.queue.copies e = (w.stored e.channelId .queued).count e +
      (w.stored e.channelId .withheld).count e + (w.stored e.channelId .cancelled).count e := by
    rw [EventQueue.copies, EventQueue.held, List.count_append, List.count_append, ← own, ← own,
      ← own, List.map_map, List.map_map]
    rfl
  have places : (Finset.univ : Finset Place) =
      {.queued, .withheld, .cancelled, .outstanding, .removed, .completed, .returned} := rfl
  rw [copies, queue, places]
  repeat rw [Finset.sum_insert (by decide)]
  rw [Finset.sum_singleton]
  simp only [stored]
  omega

/-- A sum of counts is one iff one of them is one and the others are zero. -/
theorem conserved_iff {w : World} : w.Conserved ↔ ∀ e ∈ w.accepted, w.copies e = 1 := by
  refine forall₂_congr fun e _ => ?_
  rw [copies_eq_sum]
  constructor
  · rintro ⟨place, once, others⟩
    rw [Finset.sum_eq_single place]
    · exact once
    · exact fun other _ different => List.count_eq_zero.2 (others other different)
    · exact fun absent => absurd (Finset.mem_univ place) absent
  · intro one
    obtain ⟨place, -, there⟩ := Finset.exists_ne_zero_of_sum_ne_zero (one ▸ Nat.one_ne_zero)
    rw [← Finset.add_sum_erase _ _ (Finset.mem_univ place)] at one
    refine ⟨place, by omega, fun other different => ?_⟩
    have rest := Finset.single_le_sum (f := fun p => (w.stored e.channelId p).count e)
      (fun _ _ => Nat.zero_le _) (Finset.mem_erase.2 ⟨different, Finset.mem_univ other⟩)
    apply List.count_eq_zero.1
    omega

/-! ## What a step keeps -/

/-- The operation does not have to cut a queue to its limit. -/
def Fits (now : Instant) (w : World) : Op → Prop
  | .push event => ¬w.queue.Drops event.channelId → w.queue.Room event.channelId 1
  | .flushNext _ | .hasFlushableWork => w.queue.ExpiryRoom now
  | .requeue i _ => ∀ b ∈ w.outstanding[i]?, ¬maxRetries < w.queue.attempt b.channelId →
    w.queue.Room b.channelId b.events.length
  | .requeuePreserveTimestamps i => ∀ b ∈ w.outstanding[i]?,
    w.queue.Room b.channelId b.events.length
  | .releaseNativeSteer c id => (∃ qe ∈ of w.queue.withheldNativeSteer c, qe.event.hexId = id) →
    w.queue.Room c 1
  | _ => True

instance (now : Instant) (w : World) : (op : Op) → Decidable (w.Fits now op)
  | .push _ => inferInstanceAs (Decidable (_ → _))
  | .flushNext _ | .hasFlushableWork => inferInstanceAs (Decidable (w.queue.ExpiryRoom now))
  | .requeue i _ => inferInstanceAs (Decidable (∀ b ∈ w.outstanding[i]?, _))
  | .requeuePreserveTimestamps i => inferInstanceAs (Decidable (∀ b ∈ w.outstanding[i]?, _))
  | .releaseNativeSteer _ _ => inferInstanceAs (Decidable (_ → _))
  | .complete _ | .requeueAsCancelled _ _ | .markComplete _ | .drainChannel _
  | .markNativeSteerPending _ _ | .removeEvent _ _ | .extendInFlightDeadline _ _
  | .compactExpiredState => isTrue trivial

def PutsBackWhole (w : World) : Op → Prop
  | .requeue i _ => ∀ b ∈ w.outstanding[i]?, ¬maxRetries < w.queue.attempt b.channelId →
    b.cancelledEvents = []
  | .requeuePreserveTimestamps i => ∀ b ∈ w.outstanding[i]?, b.cancelledEvents = []
  | _ => True

/-- The cancelled events of a batch that the operation puts back. -/
def forgotten (w : World) : Op → List QueuedEvent
  | .requeue i _ => (w.outstanding[i]?.toList.filter fun b =>
      ¬maxRetries < w.queue.attempt b.channelId).flatMap
        fun b => b.cancelledEvents.map (·.toQueuedEvent b.channelId)
  | .requeuePreserveTimestamps i => w.outstanding[i]?.toList.flatMap
      fun b => b.cancelledEvents.map (·.toQueuedEvent b.channelId)
  | _ => []

/-- The event that the operation adds. -/
def gained (w : World) : Op → List QueuedEvent
  | .push event => if (w.queue.push event).1 then [event] else []
  | _ => []

theorem forgotten_eq_nil_iff {w : World} {op : Op} : w.forgotten op = [] ↔ w.PutsBackWhole op := by
  cases op with
  | requeue i nanos =>
    simp only [forgotten, PutsBackWhole, List.flatMap_eq_nil_iff, List.mem_filter,
      Option.mem_toList, Option.mem_def, decide_eq_true_eq, List.map_eq_nil_iff, and_imp]
  | requeuePreserveTimestamps i =>
    simp only [forgotten, PutsBackWhole, List.flatMap_eq_nil_iff, Option.mem_toList,
      Option.mem_def, List.map_eq_nil_iff]
  | _ => simp only [forgotten, PutsBackWhole]

section Step

variable {w : World} {now : Instant}

theorem count_outstanding {i : Nat} {b : FlushBatch} (found : w.outstanding[i]? = some b)
    (e : QueuedEvent) :
    ((w.outstanding.eraseIdx i).flatMap FlushBatch.contents).count e + b.contents.count e =
      (w.outstanding.flatMap FlushBatch.contents).count e := by
  obtain ⟨inside, rfl⟩ := List.getElem?_eq_some_iff.1 found
  have whole := ((List.getElem_cons_eraseIdx_perm inside).flatMap_right
    FlushBatch.contents).count_eq e
  rw [List.flatMap_cons, List.count_append] at whole
  omega

/-- The contents of a batch are its new events and its cancelled events. -/
theorem count_contents (b : FlushBatch) (e : QueuedEvent) :
    b.contents.count e = (b.events.map (·.toQueuedEvent b.channelId)).count e +
      (b.cancelledEvents.map (·.toQueuedEvent b.channelId)).count e := by
  rw [FlushBatch.contents, List.map_append, List.count_append]

/-- A requeue returns the whole batch, or puts its new events back and forgets the others. -/
theorem copies_apply_requeue {i nanos : Nat} (fits : w.Fits now (.requeue i nanos))
    (e : QueuedEvent) :
    (w.apply now (.requeue i nanos)).copies e + (w.forgotten (.requeue i nanos)).count e =
      w.copies e + (w.gained (.requeue i nanos)).count e := by
  simp only [World.apply, dispose, forgotten, gained]
  split
  · rename_i none
    simp [none]
  · rename_i b found
    have taken := count_outstanding found e
    by_cases dead : maxRetries < w.queue.attempt b.channelId
    · obtain ⟨returned, same⟩ := EventQueue.copies_requeue_of_dead dead now nanos e
      simp only [copies, returned, same, found, Option.toList_some, List.flatMap_append,
        List.count_append, List.flatMap_cons, List.flatMap_nil, List.append_nil, List.count_nil,
        List.filter_cons, List.filter_nil, dead]
      simp only [not_true_eq_false, decide_false, Bool.false_eq_true, if_false,
        List.flatMap_nil, List.count_nil]
      omega
    · obtain ⟨returned, back⟩ :=
        EventQueue.copies_requeue dead (fits b found dead) now nanos e
      have parts := count_contents b e
      simp only [copies, returned, back, found, Option.toList_some, Option.toList_none,
        List.append_nil, List.filter_cons, List.filter_nil, dead, not_false_eq_true,
        decide_true, if_true, List.flatMap_cons, List.flatMap_nil, List.count_nil]
      omega

/-- An operation that needs no cut moves events from place to place; it adds what it accepts and
loses what it forgets. -/
theorem copies_apply {op : Op} (fits : w.Fits now op) (e : QueuedEvent) :
    (w.apply now op).copies e + (w.forgotten op).count e =
      w.copies e + (w.gained op).count e := by
  cases op with
  | push event =>
    by_cases drops : w.queue.Drops event.channelId
    · simp [World.apply, EventQueue.push, drops, copies, forgotten, gained]
    · have pushed := EventQueue.copies_push drops (fits drops) e
      have taken : (w.queue.push event).1 = true := by simp [EventQueue.push, drops]
      simp only [World.apply, copies, forgotten, gained, taken, if_true, List.count_nil]
      omega
  | flushNext rank =>
    have moved := EventQueue.copies_flushNext fits rank e
    simp only [World.apply, copies, forgotten, gained, List.flatMap_append, List.count_append,
      List.count_nil]
    omega
  | hasFlushableWork =>
    have same : (w.queue.hasFlushableWork now).2.copies e = w.queue.copies e :=
      EventQueue.copies_expireInFlight fits e
    simp only [World.apply, copies, forgotten, gained, same]
  | complete i =>
    simp only [World.apply, dispose, forgotten, gained]
    split
    · rfl
    · rename_i b found
      have taken := count_outstanding found e
      simp only [copies, EventQueue.copies_markComplete, List.flatMap_append, List.count_append,
        List.flatMap_cons, List.flatMap_nil, List.append_nil]
      omega
  | requeue i nanos => exact copies_apply_requeue fits e
  | requeuePreserveTimestamps i =>
    simp only [World.apply, dispose, forgotten, gained]
    split
    · rename_i none
      simp [none]
    · rename_i b found
      have taken := count_outstanding found e
      have parts := count_contents b e
      simp only [copies, EventQueue.copies_requeuePreserveTimestamps (fits b found), found,
        Option.toList_some, List.flatMap_cons, List.flatMap_nil, List.append_nil, List.count_nil]
      omega
  | requeueAsCancelled i reason =>
    simp only [World.apply, dispose, forgotten, gained]
    split
    · rfl
    · rename_i b found
      have taken := count_outstanding found e
      simp only [copies, EventQueue.copies_requeueAsCancelled, List.count_nil]
      omega
  | markComplete c =>
    simp only [World.apply, copies, forgotten, gained, EventQueue.copies_markComplete]
  | drainChannel c =>
    have drained := @EventQueue.copies_drainChannel w.queue c e
    simp only [World.apply, copies, forgotten, gained, List.count_append, List.count_nil]
    omega
  | markNativeSteerPending c id =>
    simp only [World.apply, copies, forgotten, gained, EventQueue.copies_markNativeSteerPending]
  | releaseNativeSteer c id =>
    simp only [World.apply, copies, forgotten, gained, EventQueue.copies_releaseNativeSteer fits]
  | removeEvent c id =>
    have removed := @EventQueue.copies_removeEvent w.queue c id e
    simp only [World.apply, copies, forgotten, gained, List.count_append, List.count_nil]
    omega
  | extendInFlightDeadline c maxTurnSecs =>
    simp only [World.apply, copies, forgotten, gained, EventQueue.copies_extendInFlightDeadline]
  | compactExpiredState =>
    have same : (w.queue.compactExpiredState now).copies e = w.queue.copies e :=
      EventQueue.copies_congr rfl rfl rfl e
    simp only [World.apply, copies, forgotten, gained, same]

theorem accepted_apply (op : Op) : (w.apply now op).accepted = w.accepted ++ w.gained op := by
  cases op with
  | push event => rfl
  | flushNext rank => exact (List.append_nil _).symm
  | complete i | requeue i nanos | requeuePreserveTimestamps i | requeueAsCancelled i reason =>
    simp only [World.apply, dispose, gained, List.append_nil]
    split <;> rfl
  | _ => exact (List.append_nil _).symm

end Step

/-! ## Runs -/

def pushed (call : Call) : Option QueuedEvent :=
  match call.op with
  | .push event => some event
  | _ => none

theorem gained_sublist (w : World) (call : Call) :
    (w.gained call.op).Sublist (pushed call).toList := by
  unfold gained pushed
  cases call.op with
  | push event =>
    dsimp only
    split_ifs
    · exact List.Sublist.refl _
    · exact List.nil_sublist _
  | _ => exact List.Sublist.refl _

theorem accepted_run_sublist (w : World) (calls : List Call) :
    (w.run calls).accepted.Sublist (w.accepted ++ calls.filterMap pushed) := by
  induction calls generalizing w with
  | nil => simp [run, Steps.run]
  | cons call calls ih =>
    refine (ih (w.step call)).trans ?_
    have gains : (w.step call).accepted = w.accepted ++ w.gained call.op := accepted_apply call.op
    have more : (call :: calls).filterMap pushed =
        (pushed call).toList ++ calls.filterMap pushed := by
      cases is : pushed call <;> simp [is]
    rw [gains, more, List.append_assoc]
    exact ((gained_sublist w call).append_right _).append_left _

/-- A call that does not have to cut a queue. -/
def CallFits (w : World) (call : Call) : Prop := w.Fits (w.clock + call.wait) call.op

instance (w : World) (call : Call) : Decidable (w.CallFits call) :=
  inferInstanceAs (Decidable (w.Fits _ _))

/-- No event is there more often than it was accepted. -/
def Bounded (w : World) : Prop := ∀ e, w.copies e ≤ w.accepted.count e

/-- Every event is there as often as it was accepted. -/
def Balanced (w : World) : Prop := ∀ e, w.copies e = w.accepted.count e

def Missing (w : World) : Prop := ∃ e, w.copies e < w.accepted.count e

variable {w : World} {call : Call}

theorem copies_step (fits : w.CallFits call) (e : QueuedEvent) :
    (w.step call).copies e + w.accepted.count e + (w.forgotten call.op).count e =
      w.copies e + (w.step call).accepted.count e := by
  have counts := copies_apply fits e
  have gains : (w.step call).accepted = w.accepted ++ w.gained call.op := accepted_apply call.op
  rw [gains, List.count_append]
  change (w.step call).copies e + _ = _ at counts
  omega

theorem Bounded.step (fits : w.CallFits call) (bounded : w.Bounded) : (w.step call).Bounded := by
  intro e
  have counts := copies_step fits e
  have before := bounded e
  omega

theorem Balanced.step (fits : w.CallFits call) (whole : w.PutsBackWhole call.op)
    (balanced : w.Balanced) : (w.step call).Balanced := by
  intro e
  have counts := copies_step fits e
  have before := balanced e
  rw [forgotten_eq_nil_iff.2 whole, List.count_nil] at counts
  omega

theorem missing_step (fits : w.CallFits call) (bounded : w.Bounded)
    (broken : ¬w.PutsBackWhole call.op) : (w.step call).Missing := by
  rw [← forgotten_eq_nil_iff] at broken
  obtain ⟨e, mem⟩ := List.exists_mem_of_ne_nil _ broken
  refine ⟨e, ?_⟩
  have counts := copies_step fits e
  have before := bounded e
  have lost := List.count_pos_iff.2 mem
  omega

theorem start_balanced (mode : DedupMode) (maxTurnDurationSecs : Nat) (clock : Instant) :
    (start mode maxTurnDurationSecs clock).Balanced := by
  intro e
  simp [copies, start, EventQueue.copies, EventQueue.held, EventQueue.withInFlightDeadline,
    EventQueue.new]

theorem nodup_accepted_run {calls : List Call}
    (distinct : ((calls.filterMap pushed).map fun e => e.event.id).Nodup)
    (mode : DedupMode) (maxTurnDurationSecs : Nat) (clock : Instant) :
    ((start mode maxTurnDurationSecs clock).run calls).accepted.Nodup := by
  have sublist := accepted_run_sublist (start mode maxTurnDurationSecs clock) calls
  exact (distinct.sublist (sublist.map _)).of_map

/-- If no event is missing, each accepted event stands in one place. -/
theorem Balanced.conserved (balanced : w.Balanced) (distinct : w.accepted.Nodup) :
    w.Conserved := by
  rw [conserved_iff]
  intro e mem
  rw [balanced e]
  exact List.count_eq_one_of_mem distinct mem

theorem Missing.not_conserved (missing : w.Missing) (distinct : w.accepted.Nodup) :
    ¬w.Conserved := by
  rw [conserved_iff]
  intro all
  obtain ⟨e, fewer⟩ := missing
  have mem : e ∈ w.accepted := List.count_pos_iff.1 (by omega)
  have one := all e mem
  rw [List.count_eq_one_of_mem distinct mem] at fewer
  omega

/-- At every moment of a run each accepted event stands in exactly one place, exactly if no batch
with cancelled events is put back. -/
theorem run_conserved_iff (mode : DedupMode) (maxTurnDurationSecs : Nat) (clock : Instant)
    (calls : List Call) (distinct : ((calls.filterMap pushed).map fun e => e.event.id).Nodup)
    (fits : Steps.Along step CallFits (start mode maxTurnDurationSecs clock) calls) :
    (∀ moment, moment <+: calls →
      ((start mode maxTurnDurationSecs clock).run moment).Conserved) ↔
    Steps.Along step (fun w call => w.PutsBackWhole call.op)
      (start mode maxTurnDurationSecs clock) calls := by
  have nodup : ∀ moment, moment <+: calls →
      ((start mode maxTurnDurationSecs clock).run moment).accepted.Nodup := by
    intro moment first
    apply nodup_accepted_run
    exact distinct.sublist ((first.sublist.filterMap _).map _)
  constructor
  · rintro conserved before call after rfl
    by_contra broken
    have first : before ++ [call] <+: before ++ call :: after := ⟨after, by simp⟩
    have bounded := Steps.Along.invariant Bounded (fun w call fits => Bounded.step fits)
      fits.of_append fun e => Nat.le_of_eq (start_balanced mode maxTurnDurationSecs clock e)
    have missing := missing_step (fits before call after rfl) bounded broken
    have last : (start mode maxTurnDurationSecs clock).run (before ++ [call]) =
        ((start mode maxTurnDurationSecs clock).run before).step call := Steps.run_append
    have kept := conserved (before ++ [call]) first
    have different := nodup (before ++ [call]) first
    rw [last] at kept different
    exact missing.not_conserved different kept
  · rintro whole moment ⟨rest, rfl⟩
    refine Balanced.conserved ?_ (nodup moment ⟨rest, rfl⟩)
    exact Steps.Along.invariant Balanced
      (fun w call both balanced => Balanced.step both.1 both.2 balanced)
      (fits.of_append.and whole.of_append) (start_balanced mode maxTurnDurationSecs clock)

/-! ## A forgotten request -/

def sampleEvent (id : EventId) (time : Instant) : QueuedEvent :=
  { channelId := 1, event := { id, createdAt := time }, receivedAt := time, promptTag := "@mention" }

/-- The first request is cancelled by a second one, and no agent is free for the merged batch. -/
def sampleCalls : List Call :=
  [⟨1, .push (sampleEvent 1 1)⟩, ⟨1, .flushNext fun _ => 0⟩, ⟨1, .push (sampleEvent 2 3)⟩,
    ⟨1, .requeueAsCancelled 0 .steer⟩, ⟨0, .markComplete 1⟩, ⟨1, .flushNext fun _ => 0⟩,
    ⟨0, .requeuePreserveTimestamps 0⟩, ⟨0, .markComplete 1⟩]

theorem run_conserved_iff_sampleCalls :
    ((sampleCalls.filterMap pushed).map fun e => e.event.id).Nodup ∧
    Steps.Along step CallFits (start .queue 7200 0) sampleCalls ∧
    ((∀ moment, moment <+: sampleCalls → ((start .queue 7200 0).run moment).Conserved) ↔
      Steps.Along step (fun w call => w.PutsBackWhole call.op) (start .queue 7200 0)
        sampleCalls) :=
  have distinct : ((sampleCalls.filterMap pushed).map fun e => e.event.id).Nodup := by
    decide +kernel
  have fits : Steps.Along step CallFits (start .queue 7200 0) sampleCalls := by decide +kernel
  ⟨distinct, fits, run_conserved_iff .queue 7200 0 sampleCalls distinct fits⟩

/-- The harness forgets the first request when it puts the merged batch back. -/
theorem requeue_forgets_cancelled :
    ((sampleCalls.filterMap pushed).map fun e => e.event.id).Nodup ∧
    Steps.Along step CallFits (start .queue 7200 0) sampleCalls ∧
    sampleEvent 1 1 ∈ ((start .queue 7200 0).run sampleCalls).accepted ∧
    (∀ place, sampleEvent 1 1 ∉ ((start .queue 7200 0).run sampleCalls).stored 1 place) ∧
    ¬((start .queue 7200 0).run sampleCalls).Conserved := by
  decide +kernel

end World

end Acp

end Carryforth
