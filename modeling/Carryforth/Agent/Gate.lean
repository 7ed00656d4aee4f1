import Carryforth.Agent.Pending

/-!
# What the handoff gate estimates

A request costs a fixed overhead and something for each item, at most its size in the context window.
The gate knows what an earlier request cost and adds one token for each byte by which the
conversation has grown since.  This covers the cost of the next request as long as the conversation
that was measured is still a beginning of the conversation (`Metered`), so after every truncation the
cost has to be reported again (`gate_covers`).  Otherwise the items that were dropped, which cost less
than their bytes, make room for new ones that cost as much (`gate_falls_short`).
-/

namespace Carryforth

namespace Agent

open Steps

/-- What a provider charges: the same for every request, and for each item at most its size. -/
structure Prices where
  overhead : Nat
  cost : HistoryItem → Nat
  cost_le : ∀ item, cost item ≤ item.contextPressureBytes

namespace Prices

variable (prices : Prices)

def request (history : List HistoryItem) : Nat := prices.overhead + (history.map prices.cost).sum

theorem request_cons (item : HistoryItem) (history : List HistoryItem) :
    prices.request (item :: history) = prices.request history + prices.cost item := by
  unfold request
  rw [List.map_cons, List.sum_cons]
  omega

theorem sum_cost_le (items : List HistoryItem) : (items.map prices.cost).sum ≤ pressure items :=
  List.sum_le_sum fun item _ => prices.cost_le item

theorem request_append_le (history items : List HistoryItem) :
    prices.request (history ++ items) ≤
      prices.request history + (pressure (history ++ items) - pressure history) := by
  have added := prices.sum_cost_le items
  have size : pressure (history ++ items) = pressure history + pressure items := by
    unfold pressure
    rw [List.map_append, List.sum_append]
  unfold request
  rw [size, List.map_append, List.sum_append]
  omega

end Prices

/-- The conversation that was measured, with its cost and size, is a beginning of the conversation. -/
def Metered (prices : Prices) (s : Session) : Prop :=
  ∀ tokens, s.lastRequestInputTokens = some tokens → ∃ measured, measured <+: s.history ∧
    tokens = prices.request measured ∧ s.lastRequestHistoryBytes = some (pressure measured)

/-- Then the gate estimates enough, if the cost can be estimated at all. -/
theorem Metered.request_le {prices : Prices} {s : Session} (metered : Metered prices s)
    (known : s.lastRequestInputTokens.isSome = true) (word : prices.request s.history ≤ u64Max) :
    prices.request s.history ≤ s.projectedHandoffInputTokens := by
  obtain ⟨tokens, reported⟩ := Option.isSome_iff_exists.1 known
  obtain ⟨measured, ⟨items, whole⟩, rfl, size⟩ := metered tokens reported
  unfold Session.projectedHandoffInputTokens
  rw [reported, size]
  have covered := prices.request_append_le measured items
  rw [whole] at covered
  exact le_min covered word

/-! ## The usage of a session -/

/-- The last reported cost and the size it belongs to. -/
def Session.usage (s : Session) : Option Nat × Option Nat :=
  (s.lastRequestInputTokens, s.lastRequestHistoryBytes)

def Round.reported (r : Round) : Option Nat :=
  match r.reply with
  | .response response => response.inputTokens
  | _ => none

theorem Metered.of_begins {prices : Prices} {s s' : Session} (metered : Metered prices s)
    (usage : s'.usage = s.usage) (grown : s.history <+: s'.history) : Metered prices s' := by
  obtain ⟨sameTokens, sameBytes⟩ := Prod.mk.inj usage
  intro tokens reported
  obtain ⟨measured, inside, cost, size⟩ := metered tokens (sameTokens ▸ reported)
  exact ⟨measured, inside.trans grown, cost, sameBytes.trans size⟩

theorem Turn.usage_account (t : Turn) (response : LlmResponse) :
    (t.account response).session.usage = match response.inputTokens with
      | some tokens => (some tokens, some (pressure t.session.history))
      | none => t.session.usage := by
  unfold Turn.account
  cases response.inputTokens <;> cases response.outputTokens <;> rfl

theorem Turn.usage_answered (t : Turn) (cfg : Config) (r : Round) (response : LlmResponse) :
    (t.answered cfg r response).turn.session.usage = t.session.usage := by
  unfold Turn.answered
  dsimp only
  split_ifs <;> rfl

theorem Turn.usage_called (t : Turn) (cfg : Config) (r : Round) (response : LlmResponse) :
    (t.called cfg r response).turn.session.usage = t.session.usage := by
  unfold Turn.called
  dsimp only
  split_ifs <;> rfl

/-- A reported cost belongs to the conversation that the model was sent. -/
theorem Turn.usage_request (t : Turn) (cfg : Config) (r : Round) :
    (t.request cfg r).turn.session.usage = match r.reported with
      | some tokens => (some tokens, some (pressure t.session.history))
      | none => t.session.usage := by
  unfold Turn.request Round.reported
  cases r.reply with
  | cancelled => rfl
  | error e => rfl
  | response response =>
    dsimp only
    split_ifs
    · rw [Turn.usage_answered, Turn.usage_account]
    · rw [Turn.usage_called, Turn.usage_account]

/-- A request leaves the session measured if it was, or if its cost is reported. -/
theorem Metered.request {prices : Prices} {t : Turn} {cfg : Config} {r : Round}
    (before : r.reported = none → Metered prices t.session)
    (honest : ∀ tokens, r.reported = some tokens → tokens = prices.request t.session.history) :
    Metered prices (t.request cfg r).turn.session := by
  obtain ⟨-, items, -, grown⟩ := Turn.grows_request t cfg r
  have usage := Turn.usage_request t cfg r
  have inside : t.session.history <+: (t.request cfg r).turn.session.history :=
    ⟨items, grown.symm⟩
  cases reported : r.reported with
  | none =>
    rw [reported] at usage
    exact (before reported).of_begins usage inside
  | some cost =>
    rw [reported] at usage
    obtain ⟨tokens, bytes⟩ := Prod.mk.inj usage
    intro tokens' known
    obtain rfl := Option.some.inj (tokens.symm.trans known)
    exact ⟨t.session.history, inside, honest cost reported, bytes⟩

/-! ## Rounds and runs -/

def HandoffOutcome.isSkipped : HandoffOutcome → Bool
  | .skipped => true
  | _ => false

/-- Every reported cost is what the request costs. -/
def Honest (prices : Prices) (cfg : Config) (w : Watched) : Event → Prop
  | .prompt _ => True
  | .round r => w.running = true → w.turn.starts cfg r = true →
      ∀ sent ∈ (w.turn.drained r).session.compacted cfg r, ∀ tokens ∈ r.reported,
        tokens = prices.request sent

/-- The cost of the next request is a word, and when a measured conversation is cut, the cost of what
is left is reported. -/
def Remeasured (prices : Prices) (cfg : Config) (w : Watched) : Event → Prop
  | .prompt _ => True
  | .round r => w.running = true → w.turn.starts cfg r = true →
      (w.turn.drained r).session.lastRequestInputTokens.isSome = true →
        prices.request (w.turn.drained r).session.history ≤ u64Max ∧
          (((w.turn.drained r).session.maybeHandoff cfg r).isSkipped = true →
            truncateHistory (w.turn.drained r).session.history cfg.maxHistoryBytes ≠
              (w.turn.drained r).session.history → r.reported.isSome = true)

/-- Where the gate looks at a reported cost, it estimates at least the cost of a request with the
conversation. -/
def Covers (prices : Prices) (cfg : Config) (w : Watched) : Event → Prop
  | .prompt _ => True
  | .round r => w.running = true → w.turn.starts cfg r = true →
      (w.turn.drained r).session.lastRequestInputTokens.isSome = true →
        prices.request (w.turn.drained r).session.history ≤
          (w.turn.drained r).session.projectedHandoffInputTokens

theorem prefix_drainSteers (history : List HistoryItem) (steers : List (List ContentBlock)) :
    history <+: drainSteers history steers := by
  unfold drainSteers
  induction steers generalizing history with
  | nil => exact List.prefix_rfl
  | cons blocks steers ih =>
    rw [List.foldl_cons]
    refine List.IsPrefix.trans ?_ (ih _)
    split
    · split_ifs
      · exact List.prefix_rfl
      · exact List.prefix_append _ _
    · exact List.prefix_rfl

namespace Watched

variable {prices : Prices} {w : Watched} {cfg : Config} {r : Round}

theorem metered_drained (metered : Metered prices w.turn.session) :
    Metered prices (w.turn.drained r).session :=
  metered.of_begins rfl (prefix_drainSteers _ _)

theorem metered_round (metered : Metered prices w.turn.session) (running : w.running = true)
    (honest : Honest prices cfg w (.round r)) (remeasured : Remeasured prices cfg w (.round r)) :
    Metered prices (w.round cfg r).turn.session := by
  rw [turn_round]
  cases starts : w.turn.starts cfg r with
  | false => rwa [Turn.iterate_of_not_starts starts]
  | true =>
    have drained : Metered prices (w.turn.drained r).session := metered_drained metered
    have told := honest running starts
    have cut := remeasured running starts
    rw [Turn.iterate_of_starts starts]
    rw [Session.compacted] at told
    cases outcome : (w.turn.drained r).session.maybeHandoff cfg r with
    | cancelled => exact drained
    | performed s =>
      rw [outcome] at told
      -- the old measure is forgotten with the conversation it belongs to
      refine Metered.request ?_ (told s.history rfl)
      intro _ _ known
      cases known
    | skipped =>
      rw [outcome] at told cut
      refine Metered.request (fun silent => ?_) (told _ rfl)
      intro tokens known
      have uncut := (cut (Option.isSome_iff_exists.2 ⟨tokens, known⟩)).2 rfl
      rw [silent] at uncut
      have same : truncateHistory (w.turn.drained r).session.history cfg.maxHistoryBytes =
          (w.turn.drained r).session.history :=
        of_not_not fun changed => Bool.noConfusion (uncut changed)
      have whole : Metered prices ((w.turn.drained r).withHistory
          (truncateHistory (w.turn.drained r).session.history cfg.maxHistoryBytes)).session :=
        drained.of_begins rfl (by rw [same]; exact List.prefix_rfl)
      exact whole tokens known

theorem metered_prompt (metered : Metered prices w.turn.session) (blocks : List ContentBlock) :
    Metered prices (w.prompt blocks).turn.session := by
  unfold Watched.prompt
  dsimp only
  split
  · exact metered
  · split_ifs
    · exact metered
    · exact metered.of_begins rfl (List.prefix_append _ _)

theorem metered_next {event : Event} (metered : Metered prices w.turn.session)
    (honest : Honest prices cfg w event) (remeasured : Remeasured prices cfg w event) :
    Metered prices (w.next cfg event).turn.session := by
  cases event with
  | prompt blocks => exact metered_prompt metered blocks
  | round r =>
    rw [Watched.next]
    split_ifs with running
    · exact metered_round metered running honest remeasured
    · exact metered

end Watched

/-- Over any prompts and rounds of a session with honest reports: if the cost of what truncation
leaves is always reported, the gate never estimates less than the next request costs. -/
theorem gate_covers {prices : Prices} {cfg : Config} {events : List Event}
    (honest : Along (Watched.next cfg) (Honest prices cfg) Watched.start events)
    (remeasured : Along (Watched.next cfg) (Remeasured prices cfg) Watched.start events) :
    Along (Watched.next cfg) (Covers prices cfg) Watched.start events := by
  rintro before event after rfl
  have metered : Metered prices (run (Watched.next cfg) Watched.start before).turn.session :=
    (honest.and remeasured).of_append.invariant (fun w => Metered prices w.turn.session)
      (fun w event meets kept => Watched.metered_next kept meets.1 meets.2)
      fun tokens known => nomatch known
  cases event with
  | prompt blocks => trivial
  | round r =>
    intro running starts known
    have word := remeasured before (.round r) after rfl running starts known
    exact (Watched.metered_drained metered).request_le known word.1

/-! ## A text that costs less than its size -/

/-- One text is one token, and of everything else eight bytes are. -/
def cheap (text : String) : Prices where
  overhead := 2
  cost item :=
    if item = .user text then min 1 item.contextPressureBytes else (item.contextPressureBytes + 7) / 8
  cost_le item := by
    split_ifs
    · exact min_le_right _ _
    · omega

/-- The model answers with one letter, and reports its cost or not. -/
def letter (reported : Option Nat) : Round :=
  { steered "" .error with steers := [], reply := .response ⟨"c", [], .endTurn, reported, none⟩ }

def Session.prompted (s : Session) (text : String) : Session :=
  { s with
    originalTask := s.originalTask.or (some text)
    history := s.history ++ [.user text] }

def Session.lettered (s : Session) (cfg : Config) (reported : Option Nat) : Session :=
  let sent := truncateHistory s.history cfg.maxHistoryBytes
  { s with
    history := sent ++ [.assistant "c" []]
    lastRequestInputTokens := reported.or s.lastRequestInputTokens
    lastRequestHistoryBytes := (reported.map fun _ => pressure sent).or s.lastRequestHistoryBytes }

namespace Watched

variable {w : Watched} {s : Session} {cfg : Config} {prices : Prices} {reported : Option Nat}

/-- The run of a prompt has begun, and no handoff is due. -/
structure Ready (cfg : Config) (w : Watched) (s : Session) : Prop where
  running : w.running = true
  turn : w.turn = s.begin
  quiet : s.shouldHandoff cfg = false

theorem Ready.prompt {text : String} (is : w.turn.session = s)
    (short : Text.byteLength text ≤ maxPromptBytes)
    (quiet : (s.prompted text).shouldHandoff cfg = false) :
    Ready cfg (w.next cfg (.prompt [.text text])) (s.prompted text) := by
  have prompted : w.next cfg (.prompt [.text text]) = _ := w.prompt_text short
  rw [prompted]
  exact ⟨rfl, by rw [← is]; rfl, quiet⟩

theorem Ready.compacted (ready : Ready cfg w s) :
    (w.turn.drained (letter reported)).session.compacted cfg (letter reported) =
      some (truncateHistory s.history cfg.maxHistoryBytes) := by
  rw [ready.turn]
  change s.compacted cfg (letter reported) = _
  rw [Session.compacted, Session.maybeHandoff, if_pos ready.quiet]

theorem Ready.answer (ready : Ready cfg w s) (unlimited : cfg.maxRounds = 0) :
    (w.next cfg (.round (letter reported))).turn.session = s.lettered cfg reported := by
  have starts : s.begin.starts cfg (letter reported) = true := by
    simp [Turn.starts, unlimited, letter, steered]
  have skipped : (s.begin.drained (letter reported)).session.maybeHandoff cfg (letter reported) =
      .skipped := by
    change s.maybeHandoff cfg (letter reported) = _
    rw [Session.maybeHandoff, if_pos ready.quiet]
  rw [Watched.next, ready.running, if_pos rfl, turn_round, ready.turn, Turn.iterate_of_starts starts,
    skipped]
  cases reported <;> simp [Turn.request, Turn.account, Turn.answered, Next.turn, Turn.drained,
    Turn.withHistory, drainSteers, Session.begin, Session.lettered, letter, steered, mapStop]

theorem Ready.honest (ready : Ready cfg w s) (told : ∀ tokens ∈ reported,
    tokens = prices.request (truncateHistory s.history cfg.maxHistoryBytes)) :
    Honest prices cfg w (.round (letter reported)) := by
  intro _ _ sent asked tokens mem
  rw [ready.compacted, Option.mem_some_iff] at asked
  rw [← asked]
  exact told tokens mem

theorem Ready.remeasured (ready : Ready cfg w s) (word : prices.request s.history ≤ u64Max)
    (cut : truncateHistory s.history cfg.maxHistoryBytes ≠ s.history → reported.isSome = true) :
    Remeasured prices cfg w (.round (letter reported)) := by
  intro _ _ _
  rw [ready.turn]
  exact ⟨word, fun _ changed => cut changed⟩

end Watched

/-- Room in the context window for all of a conversation that is not cut. -/
def wide : Config := { narrow with maxContextTokens := 2000000 }

/-- Two large texts and a letter; the second answer comes with its cost or not. -/
def exchange (a b : String) (reported : Option Nat) : List Event :=
  [.prompt [.text a], .round (letter (some 3)), .prompt [.text b], .round (letter reported),
    .prompt [.text "d"], .round (letter none)]

/-- The estimate for a session whose last request was measured. -/
theorem Session.projected_eq {s : Session} {tokens bytes : Nat}
    (reported : s.lastRequestInputTokens = some tokens)
    (measured : s.lastRequestHistoryBytes = some bytes) :
    s.projectedHandoffInputTokens = min (tokens + (pressure s.history - bytes)) u64Max := by
  rw [Session.projectedHandoffInputTokens, reported, measured]
  rfl

theorem Session.shouldHandoff_of_lt {s : Session} {cfg : Config} {tokens : Nat}
    (reported : s.lastRequestInputTokens = some tokens)
    (below : s.projectedHandoffInputTokens <
      tokenThreshold cfg.maxContextTokens cfg.maxOutputTokens) : s.shouldHandoff cfg = false := by
  rw [Session.shouldHandoff, reported]
  exact decide_eq_false (Nat.not_le.2 below)

theorem pressure_text (text : String) : pressure [.user text] = Text.byteLength text := rfl

section Exchange

variable {a b : String} {reported : Option Nat}

def beforeFirst (a : String) : Session := Session.new.prompted a

def beforeSecond (a b : String) : Session := ((beforeFirst a).lettered wide (some 3)).prompted b

def beforeThird (a b : String) (reported : Option Nat) : Session :=
  ((beforeSecond a b).lettered wide reported).prompted "d"

variable (sizeA : Text.byteLength a = 600000) (sizeB : Text.byteLength b = 600000)

include sizeA

theorem truncate_first :
    truncateHistory (beforeFirst a).history wide.maxHistoryBytes = [.user a] := by
  apply truncateFrom_of_le
  change Text.byteLength a + 0 ≤ maxPromptBytes
  rw [sizeA]
  decide

theorem beforeSecond_eq : beforeSecond a b =
    ⟨[.user a, .assistant "c" [], .user b], some a, 0, some 3, some 600000⟩ := by
  rw [beforeSecond, Session.lettered, truncate_first sizeA, Session.prompted, pressure_text, sizeA]
  rfl

include sizeB

theorem truncate_second :
    truncateHistory (beforeSecond a b).history wide.maxHistoryBytes = [.user b] := by
  rw [beforeSecond_eq sizeA]
  apply truncateHistory_of_dropTurn
  · change maxPromptBytes < Text.byteLength a + (1 + (Text.byteLength b + 0))
    rw [sizeA, sizeB]
    decide
  · rfl
  · change Text.byteLength b + 0 ≤ maxPromptBytes
    rw [sizeB]
    decide

theorem beforeThird_eq : beforeThird a b reported =
    ⟨[.user b, .assistant "c" [], .user "d"], some a, 0, reported.or (some 3), some 600000⟩ := by
  rw [beforeThird, Session.lettered, truncate_second sizeA sizeB, Session.prompted, pressure_text,
    sizeB, beforeSecond_eq sizeA]
  cases reported <;> rfl

theorem pressure_second : pressure (beforeSecond a b).history = 1200001 := by
  rw [beforeSecond_eq sizeA]
  change Text.byteLength a + (1 + (Text.byteLength b + 0)) = 1200001
  rw [sizeA, sizeB]

theorem pressure_third : pressure (beforeThird a b reported).history = 600002 := by
  rw [beforeThird_eq sizeA sizeB]
  change Text.byteLength b + (1 + (1 + 0)) = 600002
  rw [sizeB]

theorem projected_second : (beforeSecond a b).projectedHandoffInputTokens = 600004 := by
  have reported : (beforeSecond a b).lastRequestInputTokens = some 3 := rfl
  have measured : (beforeSecond a b).lastRequestHistoryBytes = some 600000 := by
    rw [beforeSecond_eq sizeA]
  rw [Session.projected_eq reported measured, pressure_second sizeA sizeB]
  decide

/-- The estimate before the third request, by the cost that was reported last. -/
theorem projected_third : (beforeThird a b reported).projectedHandoffInputTokens =
    min (reported.getD 3 + 2) u64Max := by
  have known : (beforeThird a b reported).lastRequestInputTokens = some (reported.getD 3) := by
    rw [beforeThird_eq sizeA sizeB]
    cases reported <;> rfl
  have measured : (beforeThird a b reported).lastRequestHistoryBytes = some 600000 := by
    rw [beforeThird_eq sizeA sizeB]
  rw [Session.projected_eq known measured, pressure_third sizeA sizeB]

omit sizeB in
theorem ready_first :
    Watched.Ready wide (Watched.start.next wide (.prompt [.text a])) (beforeFirst a) := by
  refine .prompt rfl ?_ ?_
  · rw [sizeA]
    decide
  · change decide (_ < pressure [.user a]) = false
    rw [pressure_text, sizeA]
    decide

theorem ready_second : Watched.Ready wide (run (Watched.next wide) Watched.start
    [.prompt [.text a], .round (letter (some 3)), .prompt [.text b]]) (beforeSecond a b) := by
  refine .prompt ((ready_first sizeA).answer rfl) ?_ ?_
  · rw [sizeB]
    decide
  · refine Session.shouldHandoff_of_lt rfl ?_
    change (beforeSecond a b).projectedHandoffInputTokens < _
    rw [projected_second sizeA sizeB]
    decide

theorem ready_third (told : ∀ tokens ∈ reported, tokens = 75002) :
    Watched.Ready wide (run (Watched.next wide) Watched.start
      [.prompt [.text a], .round (letter (some 3)), .prompt [.text b], .round (letter reported),
        .prompt [.text "d"]]) (beforeThird a b reported) := by
  have known : (beforeThird a b reported).lastRequestInputTokens = some (reported.getD 3) := by
    rw [beforeThird_eq sizeA sizeB]
    cases reported <;> rfl
  have below : reported.getD 3 ≤ 75002 := by
    cases reported with
    | none => decide
    | some tokens => exact (told tokens rfl).le
  have least : 75002 + 2 < tokenThreshold wide.maxContextTokens wide.maxOutputTokens := by decide
  refine .prompt ((ready_second sizeA sizeB).answer rfl)
    (show Text.byteLength "d" ≤ maxPromptBytes by decide) (Session.shouldHandoff_of_lt known ?_)
  change (beforeThird a b reported).projectedHandoffInputTokens < _
  rw [projected_third sizeA sizeB]
  omega

omit sizeB in
theorem request_first : (cheap a).request [.user a] = 3 := by
  have cost : (cheap a).cost (.user a) = 1 := by
    refine (if_pos rfl).trans ?_
    change min 1 (Text.byteLength a) = 1
    rw [sizeA]
    decide
  rw [Prices.request_cons, cost]
  rfl

omit sizeA in
theorem cost_second (other : b ≠ a) : (cheap a).cost (.user b) = 75000 := by
  refine (if_neg fun same => other (HistoryItem.user.inj same)).trans ?_
  change (Text.byteLength b + 7) / 8 = 75000
  rw [sizeB]

theorem honest_exchange (other : b ≠ a) (told : ∀ tokens ∈ reported, tokens = 75002) :
    Along (Watched.next wide) (Honest (cheap a) wide) Watched.start (exchange a b reported) := by
  have overhead : (cheap a).request [] = 2 := rfl
  have second : (cheap a).request [.user b] = 75002 := by
    rw [Prices.request_cons, cost_second sizeB other, overhead]
  refine along_cons.2 ⟨trivial, along_cons.2 ⟨(ready_first sizeA).honest ?_, along_cons.2 ⟨trivial,
    along_cons.2 ⟨(ready_second sizeA sizeB).honest ?_, along_cons.2 ⟨trivial,
      along_cons.2 ⟨(ready_third sizeA sizeB told).honest ?_, along_nil⟩⟩⟩⟩⟩⟩
  · rintro tokens ⟨⟩
    rw [truncate_first sizeA, request_first sizeA]
  · intro tokens mem
    rw [truncate_second sizeA sizeB, second, told tokens mem]
  · rintro tokens ⟨⟩

omit sizeA sizeB in
theorem request_le_u64Max {history : List HistoryItem} (bounded : pressure history ≤ 2000000) :
    (cheap a).request history ≤ u64Max := by
  have cost := (cheap a).sum_cost_le history
  have least : 2 + 2000000 ≤ u64Max := by decide
  change 2 + _ ≤ _
  omega

theorem remeasured_exchange : Along (Watched.next wide) (Remeasured (cheap a) wide) Watched.start
    (exchange a b (some 75002)) := by
  have told : ∀ tokens ∈ some 75002, tokens = 75002 := by
    rintro tokens ⟨⟩
    rfl
  refine along_cons.2 ⟨trivial, along_cons.2 ⟨(ready_first sizeA).remeasured ?_ ?_,
    along_cons.2 ⟨trivial, along_cons.2 ⟨(ready_second sizeA sizeB).remeasured ?_ fun _ => rfl,
      along_cons.2 ⟨trivial, along_cons.2 ⟨(ready_third sizeA sizeB told).remeasured ?_ ?_,
        along_nil⟩⟩⟩⟩⟩⟩
  · apply request_le_u64Max
    change pressure [.user a] ≤ 2000000
    rw [pressure_text, sizeA]
    decide
  · intro changed
    exact absurd (truncate_first sizeA) changed
  · apply request_le_u64Max
    rw [pressure_second sizeA sizeB]
    decide
  · apply request_le_u64Max
    rw [pressure_third sizeA sizeB]
    decide
  · intro changed
    refine absurd (truncateFrom_of_le ?_ _) changed
    rw [beforeThird_eq sizeA sizeB]
    change Text.byteLength b + (1 + (1 + 0)) ≤ maxPromptBytes
    rw [sizeB]
    decide

theorem not_covers_exchange (other : b ≠ a) :
    ¬Along (Watched.next wide) (Covers (cheap a) wide) Watched.start (exchange a b none) := by
  intro covers
  have ready := @ready_third a b none sizeA sizeB (by rintro tokens ⟨⟩)
  have third := covers _ (.round (letter none)) [] rfl ready.running
  rw [ready.turn] at third
  have covered : (cheap a).request (beforeThird a b none).history ≤
      (beforeThird a b none).projectedHandoffInputTokens := third rfl rfl
  rw [projected_third sizeA sizeB, beforeThird_eq sizeA sizeB, Prices.request_cons,
    cost_second sizeB other] at covered
  have short : min ((none : Option Nat).getD 3 + 2) u64Max < 75000 := by decide
  omega

end Exchange

/-- The cost of what truncation leaves is reported. -/
theorem gate_covers_repeats :
    wide.validate = .ok () ∧
      Along (Watched.next wide) (Honest (cheap (filled 'y')) wide) Watched.start
        (exchange (filled 'y') (filled 'z') (some 75002)) ∧
      Along (Watched.next wide) (Covers (cheap (filled 'y')) wide) Watched.start
        (exchange (filled 'y') (filled 'z') (some 75002)) := by
  have sizeY : Text.byteLength (filled 'y') = 600000 := byteLength_filled (by decide)
  have sizeZ : Text.byteLength (filled 'z') = 600000 := byteLength_filled (by decide)
  have told : ∀ tokens ∈ some 75002, tokens = 75002 := by
    rintro tokens ⟨⟩
    rfl
  have honest := honest_exchange sizeY sizeZ filled_ne told
  exact ⟨Config.validate_eq_ok.2 (by decide), honest,
    gate_covers honest (remeasured_exchange sizeY sizeZ)⟩

/-- The second answer comes without its cost, after the first text was dropped for the second. -/
theorem gate_falls_short :
    wide.validate = .ok () ∧
      Along (Watched.next wide) (Honest (cheap (filled 'y')) wide) Watched.start
        (exchange (filled 'y') (filled 'z') none) ∧
      ¬Along (Watched.next wide) (Covers (cheap (filled 'y')) wide) Watched.start
        (exchange (filled 'y') (filled 'z') none) := by
  have sizeY : Text.byteLength (filled 'y') = 600000 := byteLength_filled (by decide)
  have sizeZ : Text.byteLength (filled 'z') = 600000 := byteLength_filled (by decide)
  have told : ∀ tokens ∈ (none : Option Nat), tokens = 75002 := by rintro tokens ⟨⟩
  exact ⟨Config.validate_eq_ok.2 (by decide), honest_exchange sizeY sizeZ filled_ne told,
    not_covers_exchange sizeY sizeZ filled_ne⟩

end Agent

end Carryforth
