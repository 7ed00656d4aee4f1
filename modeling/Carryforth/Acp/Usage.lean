import Mathlib

/-!
# Usage of turns

An agent reports the tokens and the cost of a session so far; the tracker makes a record of each turn
out of the reports.  A history lists the operations on the tracker, the last one first, and what the
tracker returns is said in terms of the history alone: which turn is in flight, what was reported
since it began, and which report it is measured from (`usage_correct`).
-/

namespace Carryforth

namespace Acp

variable {C : Type}

/-- What the tracker reads of a usage notification. -/
structure UsageUpdatePayload (C : Type) where
  accumulatedInputTokens : Nat
  accumulatedOutputTokens : Nat
  accumulatedCost : Option C
  model : Option String
deriving DecidableEq, Repr

structure SessionState (C : Type) where
  publishedSeq : Nat
  lastInput : Nat
  lastOutput : Nat
  lastCost : Option C
deriving DecidableEq, Repr

structure TurnUsage (C : Type) where
  sessionId : String
  turnSeq : Nat
  deltaReliable : Bool
  turnInputTokens : Option Nat
  turnOutputTokens : Option Nat
  turnCostUsd : Option C
  cumulativeInputTokens : Nat
  cumulativeOutputTokens : Nat
  cumulativeCostUsd : Option C
  model : Option String
deriving DecidableEq, Repr

structure UsageTracker (C : Type) where
  sessions : String → Option (SessionState C)
  inFlightSession : Option String
  pending : Option (TurnUsage C)

inductive UsageOp (C : Type)
  | beginTurn (sessionId : String)
  | record (sessionId : String) (payload : UsageUpdatePayload C)
  | take

/-- What a record says of the turn alone. -/
structure TurnDelta (C : Type) where
  reliable : Bool
  input : Option Nat
  output : Option Nat
  cost : Option C
  seq : Nat

def TurnDelta.unreliable (seq : Nat) : TurnDelta C := ⟨false, none, none, none, seq⟩

section Tracker

variable [LinearOrder C] [AddCommGroup C]

/-- The cost of the turn, if both reports have one, and whether it did not fall. -/
def costDelta : Option C → Option C → Option C × Bool
  | some c, some p => if p ≤ c then (some (c - p), true) else (none, false)
  | _, _ => (none, true)

def turnDelta (prev : Option (SessionState C)) (payload : UsageUpdatePayload C) : TurnDelta C :=
  match prev with
  | none => .unreliable 1
  | some prev =>
    let seq := prev.publishedSeq + 1
    if payload.accumulatedInputTokens < prev.lastInput ∨
        payload.accumulatedOutputTokens < prev.lastOutput then .unreliable seq
    else
      let (cost, costReliable) := costDelta payload.accumulatedCost prev.lastCost
      if costReliable then
        ⟨true, some (payload.accumulatedInputTokens - prev.lastInput),
          some (payload.accumulatedOutputTokens - prev.lastOutput), cost, seq⟩
      else .unreliable seq

def turnUsage (prev : Option (SessionState C)) (sessionId : String)
    (payload : UsageUpdatePayload C) : TurnUsage C :=
  let delta := turnDelta prev payload
  { sessionId
    turnSeq := delta.seq
    deltaReliable := delta.reliable
    turnInputTokens := delta.input
    turnOutputTokens := delta.output
    turnCostUsd := delta.cost
    cumulativeInputTokens := payload.accumulatedInputTokens
    cumulativeOutputTokens := payload.accumulatedOutputTokens
    cumulativeCostUsd := payload.accumulatedCost
    model := payload.model }

namespace UsageTracker

def new : UsageTracker C := ⟨fun _ => none, none, none⟩

def beginTurn (t : UsageTracker C) (sessionId : String) : UsageTracker C :=
  { t with inFlightSession := some sessionId, pending := none }

def record (t : UsageTracker C) (sessionId : String) (payload : UsageUpdatePayload C) :
    UsageTracker C :=
  if t.inFlightSession = some sessionId then
    { t with pending := some (turnUsage (t.sessions sessionId) sessionId payload) }
  else if t.inFlightSession = none then
    { t with sessions := Function.update t.sessions sessionId (some
        { publishedSeq := ((t.sessions sessionId).map SessionState.publishedSeq).getD 0
          lastInput := payload.accumulatedInputTokens
          lastOutput := payload.accumulatedOutputTokens
          lastCost := payload.accumulatedCost }) }
  -- a report for another session than the one in flight is ignored
  else t

def take (t : UsageTracker C) : UsageTracker C × Option (TurnUsage C) :=
  match t.pending with
  | none => ({ t with inFlightSession := none, pending := none }, none)
  | some record =>
    ({ sessions := Function.update t.sessions record.sessionId (some
        { publishedSeq := record.turnSeq
          lastInput := record.cumulativeInputTokens
          lastOutput := record.cumulativeOutputTokens
          lastCost := record.cumulativeCostUsd })
       inFlightSession := none
       pending := none }, some record)

def step (t : UsageTracker C) : UsageOp C → UsageTracker C × Option (TurnUsage C)
  | .beginTurn sessionId => (t.beginTurn sessionId, none)
  | .record sessionId payload => (t.record sessionId payload, none)
  | .take => t.take

/-- The tracker after a history, of which the last operation comes first. -/
def after : List (UsageOp C) → UsageTracker C
  | [] => new
  | op :: past => ((after past).step op).1

end UsageTracker

open UsageTracker

/-! ## Histories -/

/-- The session whose turn was begun and not taken since. -/
def flight : List (UsageOp C) → Option String
  | [] => none
  | .beginTurn sessionId :: _ => some sessionId
  | .record _ _ :: past => flight past
  | .take :: _ => none

/-- The last report of a session since a turn began. -/
def notice (sessionId : String) : List (UsageOp C) → Option (UsageUpdatePayload C)
  | .record other payload :: past => if other = sessionId then some payload else notice sessionId past
  | _ => none

/-- The records returned for a session, the last one first. -/
def returned (sessionId : String) : List (UsageOp C) → List (TurnUsage C)
  | [] => []
  | op :: past =>
    (((after past).step op).2.toList.filter fun r => r.sessionId = sessionId) ++
      returned sessionId past

/-- The counters of a report. -/
structure Snapshot (C : Type) where
  input : Nat
  output : Nat
  cost : Option C

/-- The later of the last record returned for a session and its last report outside any turn. -/
def baseline (sessionId : String) : List (UsageOp C) → Option (Snapshot C)
  | [] => none
  | .beginTurn _ :: past => baseline sessionId past
  | .record other p :: past =>
    if other = sessionId ∧ flight past = none then
      some ⟨p.accumulatedInputTokens, p.accumulatedOutputTokens, p.accumulatedCost⟩
    else baseline sessionId past
  | .take :: past =>
    match (after past).take.2 with
    | some r =>
      if r.sessionId = sessionId then
        some ⟨r.cumulativeInputTokens, r.cumulativeOutputTokens, r.cumulativeCostUsd⟩
      else baseline sessionId past
    | none => baseline sessionId past

/-- The state of a session whose last record or idle report is the baseline. -/
def Snapshot.state (b : Snapshot C) (publishedSeq : Nat) : SessionState C :=
  ⟨publishedSeq, b.input, b.output, b.cost⟩

/-- The tracker holds what its history says. -/
structure Tracks (past : List (UsageOp C)) : Prop where
  inFlight : (after past).inFlightSession = flight past
  sessions : ∀ s, (after past).sessions s =
    (baseline s past).map fun b => b.state (returned s past).length
  unused : ∀ s, baseline s past = none → returned s past = []
  pending : (after past).pending = (flight past).bind fun s => (notice s past).map fun p =>
    turnUsage ((after past).sessions s) s p

/-! ## The operations -/

theorem turnSeq_turnUsage (b : Option (Snapshot C)) (n : Nat) (fresh : b = none → n = 0)
    (s : String) (p : UsageUpdatePayload C) :
    (turnUsage (b.map fun b => b.state n) s p).turnSeq = n + 1 := by
  cases b with
  | none => simp [turnUsage, turnDelta, TurnDelta.unreliable, fresh]
  | some b =>
    simp only [turnUsage, turnDelta, Option.map_some, Snapshot.state]
    split
    · rfl
    · split
      · rfl
      · rfl

theorem tracks_nil : Tracks ([] : List (UsageOp C)) where
  inFlight := rfl
  sessions _ := rfl
  unused _ _ := rfl
  pending := rfl

variable {past : List (UsageOp C)}

theorem returned_of_none {op : UsageOp C} (nothing : ((after past).step op).2 = none) (s : String) :
    returned s (op :: past) = returned s past := by
  rw [returned, nothing]
  rfl

theorem Tracks.beginTurn (tracks : Tracks past) (session : String) :
    Tracks (.beginTurn session :: past) where
  inFlight := rfl
  sessions s := by
    rw [returned_of_none rfl]
    exact tracks.sessions s
  unused s := by
    rw [returned_of_none rfl]
    exact tracks.unused s
  pending := rfl

theorem Tracks.record (tracks : Tracks past) (session : String) (p : UsageUpdatePayload C) :
    Tracks (.record session p :: past) := by
  have nothing : ∀ s, returned s (.record session p :: past) = returned s past :=
    returned_of_none rfl
  have after_eq : after (.record session p :: past) = (after past).record session p := rfl
  unfold UsageTracker.record at after_eq
  rw [tracks.inFlight] at after_eq
  by_cases own : flight past = some session
  · -- a report of the turn in flight
    rw [if_pos own] at after_eq
    have busy : flight past ≠ none := by simp [own]
    refine ⟨?_, fun s => ?_, fun s => ?_, ?_⟩
    · rw [after_eq]
      rfl
    · rw [after_eq, nothing, baseline, if_neg fun h => busy h.2]
      exact tracks.sessions s
    · rw [nothing, baseline, if_neg fun h => busy h.2]
      exact tracks.unused s
    · rw [after_eq, flight, own]
      simp [notice]
  · rw [if_neg own] at after_eq
    by_cases idle : flight past = none
    · -- a report outside any turn
      rw [if_pos idle] at after_eq
      refine ⟨?_, fun s => ?_, fun s => ?_, ?_⟩
      · rw [after_eq]
        rfl
      · rw [after_eq, nothing, baseline]
        by_cases here : session = s
        · subst here
          rw [if_pos ⟨rfl, idle⟩]
          simp only [Function.update_self, Option.map_some, Snapshot.state, tracks.sessions]
          cases known : baseline session past with
          | none => simp [tracks.unused session known]
          | some b => simp
        · rw [if_neg fun h => here h.1]
          simp only [Function.update_of_ne (Ne.symm here)]
          exact tracks.sessions s
      · rw [nothing, baseline]
        split
        · intro h
          cases h
        · exact tracks.unused s
      · rw [after_eq, flight, idle]
        simp [tracks.pending, idle]
    · -- a report of another session than the one in flight
      rw [if_neg idle] at after_eq
      refine ⟨?_, fun s => ?_, fun s => ?_, ?_⟩
      · rw [after_eq]
        exact tracks.inFlight
      · rw [after_eq, nothing, baseline, if_neg fun h => idle h.2]
        exact tracks.sessions s
      · rw [nothing, baseline, if_neg fun h => idle h.2]
        exact tracks.unused s
      · obtain ⟨other, flying⟩ := Option.ne_none_iff_exists'.1 idle
        have different : session ≠ other := fun same => own (same ▸ flying)
        rw [after_eq, tracks.pending, flight, flying]
        simp [notice, different]

theorem Tracks.take (tracks : Tracks past) : Tracks (.take :: past) := by
  have after_eq : after (.take :: past) = (after past).take.1 := rfl
  unfold UsageTracker.take at after_eq
  cases held : (after past).pending with
  | none =>
    rw [held] at after_eq
    have nothing : ((after past).step .take).2 = none := by
      simp [step, UsageTracker.take, held]
    refine ⟨by rw [after_eq]; rfl, fun s => ?_, fun s => ?_, by rw [after_eq]; rfl⟩
    · rw [after_eq, returned_of_none nothing, baseline, show (after past).take.2 = none from nothing]
      exact tracks.sessions s
    · rw [returned_of_none nothing, baseline, show (after past).take.2 = none from nothing]
      exact tracks.unused s
  | some r =>
    rw [held] at after_eq
    have gives : ((after past).step .take).2 = some r := by
      simp [step, UsageTracker.take, held]
    have seq : r.turnSeq = (returned r.sessionId past).length + 1 := by
      rw [tracks.pending] at held
      obtain ⟨s, -, p, -, rfl⟩ : ∃ s, flight past = some s ∧ ∃ p, notice s past = some p ∧
          turnUsage ((after past).sessions s) s p = r := by
        simpa [Option.bind_eq_some_iff, Option.map_eq_some_iff] using held
      rw [tracks.sessions]
      refine turnSeq_turnUsage _ _ (fun missing => ?_) s p
      rw [tracks.unused _ missing]
      rfl
    refine ⟨by rw [after_eq]; rfl, fun s => ?_, fun s => ?_, by rw [after_eq]; rfl⟩
    · rw [after_eq, returned, gives, baseline, show (after past).take.2 = some r from gives]
      by_cases here : r.sessionId = s
      · subst here
        simp [Snapshot.state, seq]
      · simp only [Function.update_of_ne (Ne.symm here), if_neg here]
        simpa [here] using tracks.sessions s
    · rw [returned, gives, baseline, show (after past).take.2 = some r from gives]
      by_cases here : r.sessionId = s
      · intro missing
        simp [here] at missing
      · simpa [here] using tracks.unused s

/-- The tracker holds what its history says, whatever was done. -/
theorem tracks (past : List (UsageOp C)) : Tracks past := by
  induction past with
  | nil => exact tracks_nil
  | cons op past ih =>
    cases op with
    | beginTurn s => exact ih.beginTurn s
    | record s p => exact ih.record s p
    | take => exact ih.take

/-! ## Records -/

omit [LinearOrder C] [AddCommGroup C] in
theorem take_eq_pending (t : UsageTracker C) : t.take.2 = t.pending := by
  unfold take
  cases t.pending with
  | none => rfl
  | some r => rfl

/-- The next record is about the last report of the turn in flight. -/
theorem take_eq (past : List (UsageOp C)) :
    (after past).take.2 = (flight past).bind fun s => (notice s past).map fun p =>
      turnUsage ((baseline s past).map fun b => b.state (returned s past).length) s p := by
  simp only [take_eq_pending, (tracks past).pending, (tracks past).sessions]

/-- A counter of the report is below that of the baseline. -/
def Decreased (b : Snapshot C) (p : UsageUpdatePayload C) : Prop :=
  p.accumulatedInputTokens < b.input ∨ p.accumulatedOutputTokens < b.output ∨
    ∃ c ∈ p.accumulatedCost, ∃ c' ∈ b.cost, c < c'

/-- The record of a report, measured from a baseline. -/
structure Measured (base : Option (Snapshot C)) (p : UsageUpdatePayload C) (r : TurnUsage C) :
    Prop where
  input : r.cumulativeInputTokens = p.accumulatedInputTokens
  output : r.cumulativeOutputTokens = p.accumulatedOutputTokens
  cost : r.cumulativeCostUsd = p.accumulatedCost
  model : r.model = p.model
  reliable : r.deltaReliable = true ↔ ∃ b ∈ base, ¬Decreased b p
  absent : r.deltaReliable = false →
    r.turnInputTokens = none ∧ r.turnOutputTokens = none ∧ r.turnCostUsd = none
  differences : ∀ b ∈ base, r.deltaReliable = true →
    r.turnInputTokens = some (p.accumulatedInputTokens - b.input) ∧
      r.turnOutputTokens = some (p.accumulatedOutputTokens - b.output) ∧
      r.turnCostUsd = p.accumulatedCost.bind fun c => b.cost.map fun c' => c - c'

theorem costDelta_of_lt {c c' : Option C} (fell : ∃ x ∈ c, ∃ y ∈ c', x < y) :
    costDelta c c' = (none, false) := by
  obtain ⟨x, rfl, y, rfl, lt⟩ := fell
  exact if_neg (not_le.2 lt)

theorem costDelta_of_not_lt {c c' : Option C} (kept : ¬∃ x ∈ c, ∃ y ∈ c', x < y) :
    costDelta c c' = (c.bind fun x => c'.map fun y => x - y, true) := by
  cases c with
  | none => rfl
  | some x =>
    cases c' with
    | none => rfl
    | some y => exact if_pos (not_lt.1 fun lt => kept ⟨x, rfl, y, rfl, lt⟩)

theorem turnDelta_of_decreased {b : Snapshot C} {p : UsageUpdatePayload C} (fell : Decreased b p)
    (n : Nat) : turnDelta (some (b.state n)) p = .unreliable (n + 1) := by
  by_cases tokens : p.accumulatedInputTokens < b.input ∨ p.accumulatedOutputTokens < b.output
  · exact if_pos tokens
  · have cost := (or_assoc.2 fell).resolve_left tokens
    simp [turnDelta, Snapshot.state, tokens, costDelta_of_lt cost]

theorem turnDelta_of_not_decreased {b : Snapshot C} {p : UsageUpdatePayload C}
    (kept : ¬Decreased b p) (n : Nat) : turnDelta (some (b.state n)) p =
      ⟨true, some (p.accumulatedInputTokens - b.input),
        some (p.accumulatedOutputTokens - b.output),
        p.accumulatedCost.bind fun c => b.cost.map fun c' => c - c', n + 1⟩ := by
  obtain ⟨tokens, cost⟩ := not_or.1 (fun fell => kept (or_assoc.1 fell))
  simp [turnDelta, Snapshot.state, tokens, costDelta_of_not_lt cost]

theorem measured_turnUsage (base : Option (Snapshot C)) (n : Nat) (s : String)
    (p : UsageUpdatePayload C) : Measured base p (turnUsage (base.map fun b => b.state n) s p) := by
  cases base with
  | none =>
    refine ⟨rfl, rfl, rfl, rfl, ?_, fun _ => ⟨rfl, rfl, rfl⟩, fun b mem => nomatch mem⟩
    simp [turnUsage, turnDelta, TurnDelta.unreliable]
  | some b =>
    by_cases fell : Decreased b p
    · have delta := turnDelta_of_decreased fell n
      refine ⟨rfl, rfl, rfl, rfl, ?_, ?_, ?_⟩
      · simp [turnUsage, delta, TurnDelta.unreliable, fell]
      · simp [turnUsage, delta, TurnDelta.unreliable]
      · simp [turnUsage, delta, TurnDelta.unreliable]
    · have delta := turnDelta_of_not_decreased fell n
      refine ⟨rfl, rfl, rfl, rfl, ?_, ?_, ?_⟩
      · simp [turnUsage, delta, fell]
      · simp [turnUsage, delta]
      · simp [turnUsage, delta]

theorem take_spec {r : TurnUsage C} (given : (after past).take.2 = some r) :
    ∃ p, flight past = some r.sessionId ∧ notice r.sessionId past = some p ∧
      r.turnSeq = (returned r.sessionId past).length + 1 ∧
      Measured (baseline r.sessionId past) p r := by
  rw [take_eq] at given
  obtain ⟨s, flying, p, noticed, rfl⟩ : ∃ s, flight past = some s ∧ ∃ p, notice s past = some p ∧
      turnUsage ((baseline s past).map fun b => b.state (returned s past).length) s p = r := by
    simpa [Option.bind_eq_some_iff, Option.map_eq_some_iff] using given
  refine ⟨p, flying, noticed, ?_, measured_turnUsage _ _ s p⟩
  refine turnSeq_turnUsage _ _ (fun missing => ?_) s p
  rw [(tracks past).unused _ missing]
  rfl

/-! ## Whole histories -/

theorem returned_take (s : String) (past : List (UsageOp C)) : returned s (.take :: past) =
    ((after past).take.2.toList.filter fun r => r.sessionId = s) ++ returned s past := rfl

/-- The records of a session are numbered one after another. -/
theorem turnSeq_returned (s : String) (past : List (UsageOp C)) :
    (returned s past).map TurnUsage.turnSeq =
      (List.range' 1 (returned s past).length).reverse := by
  induction past with
  | nil => rfl
  | cons op past ih =>
    cases op with
    | beginTurn => rwa [returned_of_none rfl]
    | record => rwa [returned_of_none rfl]
    | take =>
      rw [returned_take]
      cases given : (after past).take.2 with
      | none => simpa using ih
      | some r =>
        by_cases here : r.sessionId = s
        · obtain ⟨p, -, -, seq, -⟩ := take_spec given
          rw [here] at seq
          simp [here, ih, seq, List.range'_1_concat, Nat.add_comm 1]
        · simpa [here] using ih

/-- Records are only added. -/
theorem returned_append (s : String) (later earlier : List (UsageOp C)) :
    ∃ records, returned s (later ++ earlier) = records ++ returned s earlier := by
  induction later with
  | nil => exact ⟨[], rfl⟩
  | cons op later ih =>
    obtain ⟨records, is⟩ := ih
    exact ⟨_, by rw [List.cons_append, returned, is, ← List.append_assoc]⟩

/-- An operation that is not a report of another session. -/
def concerns (s : String) : UsageOp C → Bool
  | .record other _ => other = s
  | _ => true

/-- The reports of other sessions make no difference. -/
theorem filter_concerns (s : String) (past : List (UsageOp C)) :
    flight (past.filter (concerns s)) = flight past ∧
      notice s (past.filter (concerns s)) = notice s past ∧
      baseline s (past.filter (concerns s)) = baseline s past ∧
      returned s (past.filter (concerns s)) = returned s past := by
  induction past with
  | nil => exact ⟨rfl, rfl, rfl, rfl⟩
  | cons op past ih =>
    obtain ⟨flying, noticed, based, given⟩ := ih
    cases op with
    | beginTurn other =>
      rw [List.filter_cons_of_pos rfl]
      refine ⟨rfl, rfl, based, ?_⟩
      rw [returned_of_none rfl, returned_of_none rfl, given]
    | record other p =>
      by_cases here : other = s
      · subst here
        rw [List.filter_cons_of_pos (by simp [concerns])]
        refine ⟨flying, by simp [notice], ?_, ?_⟩
        · simp only [baseline, flying, based]
        · rw [returned_of_none rfl, returned_of_none rfl, given]
      · rw [List.filter_cons_of_neg (by simp [concerns, here])]
        refine ⟨flying, ?_, ?_, ?_⟩
        · simpa [notice, here] using noticed
        · simpa [baseline, here] using based
        · rw [returned_of_none rfl, given]
    | take =>
      rw [List.filter_cons_of_pos rfl]
      -- the turn in flight is one of this session, or its record is not
      by_cases own : flight past = some s
      · have same : (after (past.filter (concerns s))).take.2 = (after past).take.2 := by
          simp only [take_eq, flying, own, Option.bind_some, noticed, based, given]
        refine ⟨rfl, rfl, ?_, ?_⟩
        · simp only [baseline, same, based]
        · rw [returned_take, returned_take, same, given]
      · have foreign : ∀ {past : List (UsageOp C)} {r : TurnUsage C}, flight past ≠ some s →
            (after past).take.2 = some r → r.sessionId ≠ s := by
          intro past r other given same
          obtain ⟨p, flying, -⟩ := take_spec given
          exact other (same ▸ flying)
        have skip : ∀ past : List (UsageOp C), flight past ≠ some s →
            baseline s (.take :: past) = baseline s past ∧
              returned s (.take :: past) = returned s past := by
          intro past other
          rw [baseline, returned_take]
          cases given : (after past).take.2 with
          | none => exact ⟨rfl, rfl⟩
          | some r => simp [foreign other given]
        obtain ⟨base, records⟩ := skip past own
        obtain ⟨base', records'⟩ := skip (past.filter (concerns s)) (flying ▸ own)
        exact ⟨rfl, rfl, by rw [base, base', based], by rw [records, records', given]⟩

/-- No report of the session comes between its turns, in the later part of a history. -/
def Quiet (s : String) (later earlier : List (UsageOp C)) : Prop :=
  ∀ newer p older, later = newer ++ .record s p :: older → flight (older ++ earlier) ≠ none

/-- What the turns of some records have used together, from one baseline to another. -/
structure Growth (records : List (TurnUsage C)) (b b' : Snapshot C) : Prop where
  input : (records.map fun r => r.turnInputTokens.getD 0).sum + b.input = b'.input
  output : (records.map fun r => r.turnOutputTokens.getD 0).sum + b.output = b'.output
  cost : (∀ r ∈ records, r.turnCostUsd.isSome = true) → ∀ c ∈ b.cost, ∃ c' ∈ b'.cost,
    (records.map fun r => r.turnCostUsd.getD 0).sum + c = c'

/-- One more reliable record takes the baseline to its own counters. -/
theorem Growth.cons {records : List (TurnUsage C)} {b b' : Snapshot C}
    (growth : Growth records b b') {p : UsageUpdatePayload C} {r : TurnUsage C}
    (measured : Measured (some b') p r) (reliable : r.deltaReliable = true) :
    Growth (r :: records) b
      ⟨r.cumulativeInputTokens, r.cumulativeOutputTokens, r.cumulativeCostUsd⟩ := by
  obtain ⟨_, ⟨⟩, kept⟩ := measured.reliable.1 reliable
  obtain ⟨input, output, cost⟩ := measured.differences b' rfl reliable
  have enough : b'.input ≤ p.accumulatedInputTokens ∧ b'.output ≤ p.accumulatedOutputTokens :=
    ⟨not_lt.1 fun lt => kept (.inl lt), not_lt.1 fun lt => kept (.inr (.inl lt))⟩
  refine ⟨?_, ?_, fun all c start => ?_⟩
  · rw [List.map_cons, List.sum_cons, input, measured.input, Nat.add_assoc, growth.input]
    exact Nat.sub_add_cancel enough.1
  · rw [List.map_cons, List.sum_cons, output, measured.output, Nat.add_assoc, growth.output]
    exact Nat.sub_add_cancel enough.2
  · obtain ⟨before, is, total⟩ := growth.cost (fun r mem => all r (List.mem_cons_of_mem _ mem)) c start
    obtain ⟨d, here⟩ := Option.isSome_iff_exists.1 (all r List.mem_cons_self)
    rw [here, show b'.cost = some before from is] at cost
    obtain ⟨now, reported, rfl⟩ : ∃ now, p.accumulatedCost = some now ∧ now - before = d := by
      simpa [Option.bind_eq_some_iff] using cost.symm
    refine ⟨now, measured.cost.trans reported, ?_⟩
    rw [List.map_cons, List.sum_cons, here, add_assoc, total]
    exact sub_add_cancel now before

/-- Between turns without reports, reliable records add up to the growth of the baseline. -/
theorem growth_of_quiet {s : String} {earlier : List (UsageOp C)} {b : Snapshot C}
    (base : baseline s earlier = some b) :
    ∀ {later : List (UsageOp C)} {records : List (TurnUsage C)}, Quiet s later earlier →
      returned s (later ++ earlier) = records ++ returned s earlier →
      (∀ r ∈ records, r.deltaReliable = true) →
      ∃ b', baseline s (later ++ earlier) = some b' ∧ Growth records b b' := by
  intro later
  induction later with
  | nil =>
    intro records _ given _
    obtain rfl : records = [] := by simpa using given
    exact ⟨b, base, by simp, by simp, fun _ c here => ⟨c, here, by simp⟩⟩
  | cons op later ih =>
    intro records quiet given reliable
    have before : Quiet s later earlier := fun newer p older is =>
      quiet (op :: newer) p older (by rw [is, List.cons_append])
    cases op with
    | beginTurn other =>
      rw [List.cons_append, returned_of_none rfl] at given
      exact ih before given reliable
    | record other p =>
      rw [List.cons_append, returned_of_none rfl] at given
      obtain ⟨b', is, growth⟩ := ih before given reliable
      refine ⟨b', ?_, growth⟩
      rw [List.cons_append, baseline, if_neg]
      · exact is
      · rintro ⟨rfl, idle⟩
        exact quiet [] p later rfl idle
    | take =>
      rw [List.cons_append, returned_take] at given
      rw [List.cons_append, baseline]
      cases taken : (after (later ++ earlier)).take.2 with
      | none =>
        rw [taken] at given
        exact ih before given reliable
      | some r =>
        rw [taken] at given
        by_cases here : r.sessionId = s
        · obtain ⟨more, rfl⟩ : ∃ more, records = r :: more := by
            cases records with
            | nil =>
              have lengths := congrArg List.length given
              obtain ⟨new, split⟩ := returned_append s later earlier
              simp [here, split] at lengths
              omega
            | cons first more =>
              refine ⟨more, ?_⟩
              simp only [Option.toList_some, here, decide_true, List.filter_cons_of_pos,
                List.filter_nil, List.cons_append, List.nil_append, List.cons.injEq] at given
              rw [given.1]
          simp only [Option.toList_some, here, decide_true, List.filter_cons_of_pos,
            List.filter_nil, List.cons_append, List.nil_append, List.cons.injEq, true_and] at given
          obtain ⟨b', is, growth⟩ := ih before given fun r mem =>
            reliable r (List.mem_cons_of_mem _ mem)
          obtain ⟨p, -, -, -, measured⟩ := take_spec taken
          rw [here, is] at measured
          refine ⟨_, if_pos here, growth.cons measured (reliable r List.mem_cons_self)⟩
        · simp only [here, if_false]
          refine ih before ?_ reliable
          simpa [here] using given

/-! ## The law of the records -/

/-- What the records of a history say. -/
structure UsageCorrect (past : List (UsageOp C)) : Prop where
  /-- A record is given iff the session of the turn in flight was reported since the turn began. -/
  given : (after past).take.2.isSome = true ↔ ∃ s ∈ flight past, (notice s past).isSome = true
  /-- It is about the last such report, measured from the baseline. -/
  record : ∀ r ∈ (after past).take.2, ∃ p, flight past = some r.sessionId ∧
    notice r.sessionId past = some p ∧ Measured (baseline r.sessionId past) p r
  /-- The records of a session have the numbers 1, 2, 3 and so on; the last one comes first. -/
  numbers : ∀ s, (returned s past).map TurnUsage.turnSeq =
    (List.range' 1 (returned s past).length).reverse
  /-- Reports of other sessions change no record. -/
  others : ∀ s, returned s (past.filter (concerns s)) = returned s past
  /-- The deltas of reliable records add up, as long as no report comes between turns. -/
  growth : ∀ s later earlier records b, past = later ++ earlier → baseline s earlier = some b →
    Quiet s later earlier → returned s past = records ++ returned s earlier →
    (∀ r ∈ records, r.deltaReliable = true) → ∃ b', baseline s past = some b' ∧ Growth records b b'

/-- Whatever operations the tracker has seen, its records are correct. -/
theorem usage_correct (past : List (UsageOp C)) : UsageCorrect past where
  given := by
    rw [take_eq]
    cases flight past with
    | none => simp
    | some s => simp
  record r given := by
    obtain ⟨p, flying, noticed, -, measured⟩ := take_spec given
    exact ⟨p, flying, noticed, measured⟩
  numbers s := turnSeq_returned s past
  others s := (filter_concerns s past).2.2.2
  growth s later earlier records b split base quiet given reliable := by
    subst split
    exact growth_of_quiet base quiet given reliable

end Tracker

end Acp

end Carryforth
