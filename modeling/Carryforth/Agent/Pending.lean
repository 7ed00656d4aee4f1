import Carryforth.Agent.Run
import Carryforth.Lib.Steps

/-!
# User texts that wait for an answer

A run is watched together with its transcript, which is what the conversation would be if it were
never cut and never handed over.  The user texts behind the last answer of the transcript are pending.
They are in every conversation that the model is sent, as long as there is at most one of them, or
they are not handed over and fit the conversation (`requests_pending`).  Otherwise they are not: a
handoff keeps the last user text only, and truncation drops user texts one by one
(`requests_lose_pending`).
-/

namespace Carryforth

namespace Agent

open Steps

/-! ## Pending texts -/

/-- A user text waits, and an answer is for all texts that wait. -/
def awaits (waiting : List HistoryItem) : HistoryItem → List HistoryItem
  | .user text => waiting ++ [.user text]
  | .assistant _ _ => []
  | .toolResult _ => waiting

/-- The user texts behind the last answer. -/
def pending (transcript : List HistoryItem) : List HistoryItem := transcript.foldl awaits []

theorem pending_append_user (transcript : List HistoryItem) (text : String) :
    pending (transcript ++ [.user text]) = pending transcript ++ [.user text] := by
  rw [pending, List.foldl_append]
  rfl

theorem isUser_of_mem_pending {transcript : List HistoryItem} {item : HistoryItem}
    (mem : item ∈ pending transcript) : item.isUser = true := by
  induction transcript using List.reverseRecOn with
  | nil => cases mem
  | append_singleton transcript last ih =>
    rw [pending, List.foldl_append] at mem
    cases last with
    | user text =>
      rcases List.mem_append.1 mem with before | here
      · exact ih before
      · rw [List.mem_singleton.1 here]
        rfl
    | assistant text calls => cases mem
    | toolResult result => exact ih mem

/-- What an answer adds: the answer, and no user texts. -/
structure Answer (items : List HistoryItem) : Prop where
  said : ∃ text calls, .assistant text calls ∈ items
  noUser : ∀ item ∈ items, item.isUser = false

theorem pending_append_answer {transcript items : List HistoryItem} (answer : Answer items) :
    pending (transcript ++ items) = [] := by
  rw [pending, List.foldl_append]
  have kept : ∀ items : List HistoryItem, (∀ item ∈ items, item.isUser = false) →
      items.foldl awaits [] = [] := by
    intro items
    induction items with
    | nil => exact fun _ => rfl
    | cons item items ih =>
      intro noUser
      obtain ⟨first, rest⟩ := List.forall_mem_cons.1 noUser
      cases item with
      | user text => cases first
      | assistant text calls => exact ih rest
      | toolResult result => exact ih rest
  obtain ⟨⟨text, calls, mem⟩, noUser⟩ := answer
  obtain ⟨before, after, rfl⟩ := List.append_of_mem mem
  rw [List.foldl_append]
  exact kept after fun item mem => noUser item (List.mem_append_right _ (List.mem_cons_of_mem _ mem))

/-! ## Cutting and handing over -/

/-- The size of some items in the body of a request. -/
def bytes (items : List HistoryItem) : Nat := (items.map HistoryItem.estimatedBytes).sum

theorem bytes_append (first second : List HistoryItem) :
    bytes (first ++ second) = bytes first + bytes second := by
  unfold bytes
  rw [List.map_append, List.sum_append]

/-- User texts at the end of a conversation are behind items that are none. -/
theorem suffix_of_append {before next waiting : List HistoryItem}
    (users : ∀ item ∈ waiting, item.isUser = true) (others : ∀ item ∈ before, item.isUser = false)
    (suffix : waiting <:+ before ++ next) : waiting <:+ next := by
  rcases List.suffix_or_suffix_of_suffix suffix (List.suffix_append before next) with
    inside | ⟨more, rfl⟩
  · exact inside
  · obtain ⟨rest, whole⟩ := suffix
    rw [← List.append_assoc, List.append_cancel_right_eq] at whole
    cases more with
    | nil => exact List.suffix_rfl
    | cons item more =>
      have here := users item List.mem_cons_self
      rw [others item (whole ▸ List.mem_append_right _ List.mem_cons_self)] at here
      cases here

theorem suffix_truncateFrom {maxBytes total : Nat} {history waiting : List HistoryItem}
    (sum : total = bytes history) (users : ∀ item ∈ waiting, item.isUser = true)
    (suffix : waiting <:+ history) (room : waiting.length ≤ 1 ∨ bytes waiting ≤ maxBytes) :
    waiting <:+ truncateFrom maxBytes total history := by
  fun_induction truncateFrom maxBytes total history with
  | case1 total history fits => exact suffix
  | case2 total history large last => exact suffix
  | case3 total history large next dropped ih =>
    obtain ⟨before, rest, others⟩ := dropTurn_tail dropped
    obtain ⟨item, _, text, after, whole, is⟩ := dropTurn_eq_some dropped
    have parts : history = (item :: before) ++ next := by
      rw [whole, List.tail_cons] at rest
      rw [whole, rest, List.cons_append]
    have cut : history.take (history.length - next.length) = item :: before := by
      rw [parts, List.length_append, Nat.add_sub_cancel, List.take_left]
    refine ih ?_ ?_
    · change total - bytes _ = bytes next
      rw [cut, sum, parts, bytes_append, Nat.add_sub_cancel_left]
    · rw [parts, List.cons_append] at suffix
      rcases List.suffix_cons_iff.1 suffix with all | inside
      · -- all that is left is pending, and it would have to fit
        rw [← List.cons_append, ← parts] at all
        rcases room with one | fits
        · rw [all, parts, List.length_append, List.length_cons, is, List.length_cons] at one
          omega
        · rw [all, ← sum] at fits
          exact absurd fits large
      · exact suffix_of_append users others inside

theorem suffix_truncateHistory {maxBytes : Nat} {history waiting : List HistoryItem}
    (users : ∀ item ∈ waiting, item.isUser = true) (suffix : waiting <:+ history)
    (room : waiting.length ≤ 1 ∨ bytes waiting ≤ maxBytes) :
    waiting <:+ truncateHistory history maxBytes :=
  suffix_truncateFrom rfl users suffix room

theorem suffix_handedOver {summary : String} {postCompact : List (String × String)}
    {history waiting : List HistoryItem} (users : ∀ item ∈ waiting, item.isUser = true)
    (suffix : waiting <:+ history) (one : waiting.length ≤ 1) :
    waiting <:+ handedOver summary postCompact history := by
  match waiting, users, one with
  | [], _, _ => exact List.nil_suffix
  | [.user text], _, _ =>
    obtain ⟨before, rfl⟩ := suffix
    have last : currentPrompt (before ++ [.user text]) = some text := by
      rw [currentPrompt, List.reverse_append]
      rfl
    rw [handedOver, last]
    exact List.suffix_cons _ _
  | [.assistant text calls], users, _ => exact nomatch users _ List.mem_cons_self
  | [.toolResult result], users, _ => exact nomatch users _ List.mem_cons_self

/-! ## What a round does -/

/-- A round takes in the texts that were queued, unless it ends before. -/
def Turn.starts (t : Turn) (cfg : Config) (r : Round) : Bool :=
  !decide (0 < cfg.maxRounds ∧ cfg.maxRounds ≤ t.round) && !r.cancelled

def SummaryReply.isUsable : SummaryReply → Bool
  | .summary text => !Text.isBlank text
  | _ => false

/-- The conversation after it was handed over or cut, if the model is asked. -/
def Session.compacted (s : Session) (cfg : Config) (r : Round) : Option (List HistoryItem) :=
  match s.maybeHandoff cfg r with
  | .cancelled => none
  | .performed s => some s.history
  | .skipped => some (truncateHistory s.history cfg.maxHistoryBytes)

theorem answer_executeCalls (cfg : Config) (t : ToolRun) (history : List HistoryItem) (text : String)
    (calls : List ToolCall) : ∃ items, Answer items ∧
      (executeCalls cfg t (history ++ [.assistant text calls]) calls).1 = history ++ items := by
  have results : ∀ slots, ∃ items, Answer items ∧
      appendResults (history ++ [.assistant text calls]) calls slots = history ++ items := by
    intro slots
    refine ⟨_, ⟨⟨text, calls, List.mem_cons_self⟩, List.forall_mem_cons.2 ⟨rfl, fun item mem => ?_⟩⟩,
      List.append_assoc _ _ _⟩
    obtain ⟨result, -, rfl⟩ := List.mem_map.1 mem
    rfl
  unfold executeCalls
  split
  · exact results _
  · exact results _

theorem pushHookOutputs_eq (history : List HistoryItem) (hook : String) (nonce : Nat → Nat)
    (outputs : List (String × String)) : ∃ items, (∀ item ∈ items, item.isUser = false) ∧
      pushHookOutputsAsToolResults history hook nonce outputs = history ++ items := by
  unfold pushHookOutputsAsToolResults
  induction outputs.zipIdx generalizing history with
  | nil => exact ⟨[], List.forall_mem_nil _, (List.append_nil _).symm⟩
  | cons output rest ih =>
    obtain ⟨items, noUser, is⟩ := ih (history ++ hookPair hook (nonce output.2) output.1)
    refine ⟨hookPair hook (nonce output.2) output.1 ++ items, fun item mem => ?_, ?_⟩
    · rcases List.mem_append.1 mem with here | later
      · rcases List.mem_cons.1 here with rfl | here
        · rfl
        · rw [List.mem_singleton.1 here]
          rfl
      · exact noUser item later
    · rw [List.foldl_cons, is, List.append_assoc]

/-- The conversation goes on, with an answer or with nothing. -/
def Grows (history after : List HistoryItem) : Prop :=
  ∃ items, (items = [] ∨ Answer items) ∧ after = history ++ items

theorem Grows.refl (history : List HistoryItem) : Grows history history :=
  ⟨[], .inl rfl, (List.append_nil _).symm⟩

theorem Turn.grows_answered (t : Turn) (cfg : Config) (r : Round) (response : LlmResponse) :
    (t.answered cfg r response).turn.requests = t.requests ∧
      Grows t.session.history (t.answered cfg r response).turn.session.history := by
  unfold Turn.answered
  dsimp only
  split_ifs
  · exact ⟨rfl, .refl _⟩
  · obtain ⟨items, noUser, is⟩ := pushHookOutputs_eq
      (t.session.history ++ [.assistant response.text []]) "_Stop" r.nonce r.objections
    refine ⟨rfl, .assistant response.text [] :: items, .inr ⟨⟨_, _, List.mem_cons_self⟩, ?_⟩, ?_⟩
    · exact List.forall_mem_cons.2 ⟨rfl, noUser⟩
    · exact is.trans (List.append_assoc _ _ _)
  · refine ⟨rfl, [.assistant response.text []], .inr ⟨⟨_, _, List.mem_cons_self⟩, ?_⟩, rfl⟩
    exact List.forall_mem_cons.2 ⟨rfl, List.forall_mem_nil _⟩

theorem Turn.grows_called (t : Turn) (cfg : Config) (r : Round) (response : LlmResponse) :
    (t.called cfg r response).turn.requests = t.requests ∧
      Grows t.session.history (t.called cfg r response).turn.session.history := by
  obtain ⟨items, answer, is⟩ := answer_executeCalls cfg r.tools t.session.history response.text
    (response.toolCalls.take maxToolCallsPerTurn)
  unfold Turn.called
  dsimp only
  split_ifs
  · exact ⟨rfl, items, .inr answer, is⟩
  · exact ⟨rfl, items, .inr answer, is⟩

/-- The model is sent the conversation, and it grows by the answer. -/
theorem Turn.grows_request (t : Turn) (cfg : Config) (r : Round) :
    (t.request cfg r).turn.requests = t.requests ++ [t.session.history] ∧
      Grows t.session.history (t.request cfg r).turn.session.history := by
  unfold Turn.request
  cases r.reply with
  | cancelled => exact ⟨rfl, .refl _⟩
  | error e => exact ⟨rfl, .refl _⟩
  | response response =>
    have account := Turn.account_history { t with
      round := t.round + 1, requests := t.requests ++ [t.session.history] } response
    dsimp only
    split_ifs
    · obtain ⟨requests, grows⟩ := Turn.grows_answered (Turn.account { t with
        round := t.round + 1, requests := t.requests ++ [t.session.history] } response) cfg r response
      rw [account.1] at grows
      exact ⟨requests.trans account.2, grows⟩
    · obtain ⟨requests, grows⟩ := Turn.grows_called (Turn.account { t with
        round := t.round + 1, requests := t.requests ++ [t.session.history] } response) cfg r response
      rw [account.1] at grows
      exact ⟨requests.trans account.2, grows⟩

/-- A run that has taken in what was queued. -/
def Turn.drained (t : Turn) (r : Round) : Turn :=
  t.withHistory (drainSteers t.session.history r.steers)

theorem Turn.iterate_of_not_starts {t : Turn} {cfg : Config} {r : Round}
    (ends : t.starts cfg r = false) : (t.iterate cfg r).turn = t := by
  rw [starts, Bool.and_eq_false_iff, Bool.not_eq_false', decide_eq_true_eq, Bool.not_eq_false'] at ends
  unfold iterate
  split_ifs with last cancelled
  · rfl
  · rfl
  · exact absurd ends (not_or.2 ⟨last, cancelled⟩)

theorem Turn.iterate_of_starts {t : Turn} {cfg : Config} {r : Round} (starts : t.starts cfg r = true) :
    t.iterate cfg r = match (t.drained r).session.maybeHandoff cfg r with
      | .cancelled => .done (t.drained r) (.ok .cancelled)
      | .performed s => Turn.request { t.drained r with session := { s with
          lastRequestInputTokens := none
          lastRequestHistoryBytes := none } } cfg r
      | .skipped => ((t.drained r).withHistory
          (truncateHistory (t.drained r).session.history cfg.maxHistoryBytes)).request cfg r := by
  rw [Turn.starts, Bool.and_eq_true, Bool.not_eq_true', decide_eq_false_iff_not,
    Bool.not_eq_true'] at starts
  unfold iterate
  rw [if_neg starts.1, if_neg (Bool.eq_false_iff.1 starts.2)]
  rfl

/-- The model is sent the conversation as it was handed over or cut, or the round is cancelled. -/
theorem Turn.iterate_cases {t : Turn} {cfg : Config} {r : Round} (starts : t.starts cfg r = true) :
    ((t.drained r).session.compacted cfg r = none ∧ (t.iterate cfg r).turn = t.drained r) ∨
      ∃ sent, (t.drained r).session.compacted cfg r = some sent ∧
        (t.iterate cfg r).turn.requests = t.requests ++ [sent] ∧
        Grows sent (t.iterate cfg r).turn.session.history := by
  rw [iterate_of_starts starts, Session.compacted]
  cases (t.drained r).session.maybeHandoff cfg r with
  | cancelled => exact .inl ⟨rfl, rfl⟩
  | performed s => exact .inr ⟨_, rfl, Turn.grows_request _ cfg r⟩
  | skipped => exact .inr ⟨_, rfl, Turn.grows_request _ cfg r⟩

/-! ## Watched runs -/

/-- A run with its transcript, and with what the transcript was whenever the model was asked. -/
structure Watched where
  turn : Turn
  running : Bool
  transcript : List HistoryItem
  asked : List (List HistoryItem × List HistoryItem)

inductive Event
  | prompt (blocks : List ContentBlock)
  | round (r : Round)

def Session.begin (s : Session) : Turn :=
  { session := s, turnInputTokens := none, turnOutputTokens := none, round := 0,
    stopRejections := 0, requests := [] }

def Next.isAgain : Next → Bool
  | .again _ => true
  | .done _ _ => false

namespace Watched

def start : Watched := ⟨Session.new.begin, false, [], []⟩

def prompt (w : Watched) (blocks : List ContentBlock) : Watched :=
  let s := w.turn.session
  let refused : Watched := { w with turn := s.begin, running := false }
  match promptToText blocks with
  | .error _ => refused
  | .ok text =>
    if maxPromptBytes < Text.byteLength text then refused
    else
      { w with
        turn := Session.begin
          { s with
            originalTask := s.originalTask.or (some text)
            history := s.history ++ [.user text] }
        running := true
        transcript := w.transcript ++ [.user text] }

/-- The transcript gets what was queued, and what the conversation has grown by since the request. -/
def round (w : Watched) (cfg : Config) (r : Round) : Watched :=
  let next := w.turn.iterate cfg r
  let transcript := if w.turn.starts cfg r then drainSteers w.transcript r.steers else w.transcript
  match next.turn.requests.drop w.turn.requests.length with
  | [] => { w with turn := next.turn, running := next.isAgain, transcript }
  | sent :: _ =>
    { turn := next.turn
      running := next.isAgain
      transcript := transcript ++ next.turn.session.history.drop sent.length
      asked := w.asked ++ [(transcript, sent)] }

def next (cfg : Config) (w : Watched) : Event → Watched
  | .prompt blocks => w.prompt blocks
  | .round r => if w.running then w.round cfg r else w

end Watched

/-- The pending texts have room: there is at most one, or they fit and there is no handoff, since none
is due, there were enough of them, or there is no summary. -/
def Room (cfg : Config) (w : Watched) : Event → Prop
  | .prompt _ => True
  | .round r => w.running = true → w.turn.starts cfg r = true →
      (pending (drainSteers w.transcript r.steers)).length ≤ 1 ∨
        bytes (pending (drainSteers w.transcript r.steers)) ≤ cfg.maxHistoryBytes ∧
          ((w.turn.drained r).session.shouldHandoff cfg = false ∨
            cfg.maxHandoffs ≤ w.turn.session.handoffCount ∨ r.summary.isUsable = false)

/-- The pending texts are at the end of the conversation, and were whenever the model was asked. -/
structure Watched.Kept (w : Watched) : Prop where
  history : pending w.transcript <:+ w.turn.session.history
  asked : ∀ ask ∈ w.asked, pending ask.1 <:+ ask.2

theorem suffix_drainSteers {transcript history : List HistoryItem} (steers : List (List ContentBlock))
    (suffix : pending transcript <:+ history) :
    pending (drainSteers transcript steers) <:+ drainSteers history steers := by
  unfold drainSteers
  induction steers generalizing transcript history with
  | nil => exact suffix
  | cons blocks steers ih =>
    rw [List.foldl_cons, List.foldl_cons]
    apply ih
    split
    · split_ifs
      · exact suffix
      · rw [pending_append_user]
        obtain ⟨before, rfl⟩ := suffix
        exact ⟨before, (List.append_assoc _ _ _).symm⟩
    · exact suffix

/-- What has room is still there after the conversation was handed over or cut. -/
theorem Session.suffix_compacted {s : Session} {cfg : Config} {r : Round}
    {waiting sent : List HistoryItem} (users : ∀ item ∈ waiting, item.isUser = true)
    (suffix : waiting <:+ s.history)
    (room : waiting.length ≤ 1 ∨ bytes waiting ≤ cfg.maxHistoryBytes ∧
      (s.shouldHandoff cfg = false ∨ cfg.maxHandoffs ≤ s.handoffCount ∨ r.summary.isUsable = false))
    (compacted : s.compacted cfg r = some sent) : waiting <:+ sent := by
  unfold Session.compacted at compacted
  cases outcome : s.maybeHandoff cfg r with
  | cancelled =>
    rw [outcome] at compacted
    cases compacted
  | performed s' =>
    rw [outcome] at compacted
    obtain rfl := Option.some.inj compacted
    obtain ⟨due, more, summary, replied, visible, rfl⟩ := maybeHandoff_eq_performed outcome
    rcases room with one | ⟨-, skipped | enough | unusable⟩
    · exact suffix_handedOver users suffix one
    · rw [due] at skipped
      cases skipped
    · omega
    · rw [replied, SummaryReply.isUsable, visible] at unusable
      cases unusable
  | skipped =>
    rw [outcome] at compacted
    obtain rfl := Option.some.inj compacted
    exact suffix_truncateHistory users suffix (room.imp_right And.left)

namespace Watched

variable {w : Watched} {cfg : Config} {r : Round}

theorem round_of_not_starts (ends : w.turn.starts cfg r = false) :
    w.round cfg r = { w with running := (w.turn.iterate cfg r).isAgain } := by
  rw [round, Turn.iterate_of_not_starts ends, List.drop_length, ends]
  rfl

theorem round_of_cancelled (starts : w.turn.starts cfg r = true)
    (same : (w.turn.iterate cfg r).turn = w.turn.drained r) :
    w.round cfg r = { w with
      turn := w.turn.drained r
      running := (w.turn.iterate cfg r).isAgain
      transcript := drainSteers w.transcript r.steers } := by
  have requests : (w.turn.drained r).requests = w.turn.requests := rfl
  rw [round, same, requests, List.drop_length, starts]
  rfl

theorem round_of_asked (starts : w.turn.starts cfg r = true) {sent items : List HistoryItem}
    (requests : (w.turn.iterate cfg r).turn.requests = w.turn.requests ++ [sent])
    (grown : (w.turn.iterate cfg r).turn.session.history = sent ++ items) :
    w.round cfg r =
      { turn := (w.turn.iterate cfg r).turn
        running := (w.turn.iterate cfg r).isAgain
        transcript := drainSteers w.transcript r.steers ++ items
        asked := w.asked ++ [(drainSteers w.transcript r.steers, sent)] } := by
  rw [round, requests, List.drop_left, starts, if_pos rfl]
  dsimp only
  rw [grown, List.drop_left]

theorem Kept.round (kept : w.Kept) (running : w.running = true) (room : Room cfg w (.round r)) :
    (w.round cfg r).Kept := by
  cases starts : w.turn.starts cfg r with
  | false =>
    rw [round_of_not_starts starts]
    exact ⟨kept.history, kept.asked⟩
  | true =>
    have drained : pending (drainSteers w.transcript r.steers) <:+ (w.turn.drained r).session.history :=
      suffix_drainSteers r.steers kept.history
    rcases Turn.iterate_cases starts with ⟨-, same⟩ | ⟨sent, compacted, requests, items, grows, grown⟩
    · rw [round_of_cancelled starts same]
      exact ⟨drained, kept.asked⟩
    · have there := Session.suffix_compacted (fun _ => isUser_of_mem_pending) drained
        (room running starts) compacted
      rw [round_of_asked starts requests grown]
      refine ⟨?_, List.forall_mem_append.2 ⟨kept.asked, List.forall_mem_singleton.2 there⟩⟩
      dsimp only
      rw [grown]
      rcases grows with rfl | answer
      · rwa [List.append_nil, List.append_nil]
      · rw [pending_append_answer answer]
        exact List.nil_suffix

theorem Kept.prompt (kept : w.Kept) (blocks : List ContentBlock) : (w.prompt blocks).Kept := by
  unfold Watched.prompt
  dsimp only
  split
  · exact ⟨kept.history, kept.asked⟩
  · rename_i text _
    split_ifs
    · exact ⟨kept.history, kept.asked⟩
    · refine ⟨?_, kept.asked⟩
      dsimp only
      rw [pending_append_user]
      obtain ⟨before, whole⟩ := kept.history
      exact ⟨before, by rw [← List.append_assoc, whole]; rfl⟩

theorem Kept.next (kept : w.Kept) {event : Event} (room : Room cfg w event) :
    (w.next cfg event).Kept := by
  cases event with
  | prompt blocks => exact kept.prompt blocks
  | round r =>
    rw [Watched.next]
    split_ifs with running
    · exact kept.round running room
    · exact kept

end Watched

/-! ## Watching changes nothing -/

def eventsOf (l : List (List ContentBlock × List Round)) : List Event :=
  l.flatMap fun run => .prompt run.1 :: run.2.map .round

namespace Watched

variable {w : Watched} {cfg : Config} {r : Round}

/-- The conversations of earlier runs, and those of this run. -/
def Tracks (earlier : List (List HistoryItem)) (w : Watched) : Prop :=
  w.asked.map Prod.snd = earlier ++ w.turn.requests

theorem turn_round : (w.round cfg r).turn = (w.turn.iterate cfg r).turn := by
  unfold round
  dsimp only
  split
  · rfl
  · rfl

theorem running_round : (w.round cfg r).running = (w.turn.iterate cfg r).isAgain := by
  unfold round
  dsimp only
  split
  · rfl
  · rfl

theorem Tracks.round {earlier : List (List HistoryItem)} (tracks : w.Tracks earlier) :
    (w.round cfg r).Tracks earlier := by
  cases starts : w.turn.starts cfg r with
  | false =>
    rw [round_of_not_starts starts]
    exact tracks
  | true =>
    rcases Turn.iterate_cases starts with ⟨-, same⟩ | ⟨sent, -, requests, items, -, grown⟩
    · rw [round_of_cancelled starts same]
      exact tracks
    · rw [round_of_asked starts requests grown, Tracks]
      dsimp only
      rw [requests, List.map_append, tracks, List.append_assoc]
      rfl

theorem run_rounds_of_not_running (ended : w.running = false) (rounds : List Round) :
    Steps.run (Watched.next cfg) w (rounds.map .round) = w := by
  induction rounds with
  | nil => rfl
  | cons r rounds ih =>
    have same : w.next cfg (.round r) = w := by rw [Watched.next, ended, if_neg Bool.false_ne_true]
    change Steps.run (Watched.next cfg) (w.next cfg (.round r)) (rounds.map .round) = w
    rw [same, ih]

theorem run_rounds {earlier : List (List HistoryItem)} (running : w.running = true)
    (tracks : w.Tracks earlier) (rounds : List Round) :
    (Steps.run (Watched.next cfg) w (rounds.map .round)).turn = (w.turn.loop cfg rounds).1 ∧
      (Steps.run (Watched.next cfg) w (rounds.map .round)).Tracks earlier := by
  induction rounds generalizing w with
  | nil => exact ⟨rfl, tracks⟩
  | cons r rounds ih =>
    have first : w.next cfg (.round r) = w.round cfg r := by rw [Watched.next, running, if_pos rfl]
    have turn := @turn_round w cfg r
    have again := @running_round w cfg r
    have after : (w.round cfg r).Tracks earlier := tracks.round
    change (Steps.run (Watched.next cfg) (w.next cfg (.round r)) (rounds.map .round)).turn = _ ∧
      (Steps.run (Watched.next cfg) (w.next cfg (.round r)) (rounds.map .round)).Tracks earlier
    rw [first, Turn.loop]
    cases is : w.turn.iterate cfg r with
    | again t =>
      rw [is] at turn again
      obtain ⟨same, later⟩ := ih again after
      rw [turn] at same
      exact ⟨same, later⟩
    | done t result =>
      rw [is] at turn again
      rw [run_rounds_of_not_running again]
      exact ⟨turn, after⟩

/-- A watched run is a run. -/
theorem run_prompt {earlier : List (List HistoryItem)} (asked : w.asked.map Prod.snd = earlier)
    (blocks : List ContentBlock) (rounds : List Round) :
    (Steps.run (Watched.next cfg) w (.prompt blocks :: rounds.map .round)).turn =
        (w.turn.session.run cfg blocks rounds).1 ∧
      (Steps.run (Watched.next cfg) w (.prompt blocks :: rounds.map .round)).Tracks earlier := by
  change (Steps.run (Watched.next cfg) (w.prompt blocks) (rounds.map .round)).turn = _ ∧
    (Steps.run (Watched.next cfg) (w.prompt blocks) (rounds.map .round)).Tracks earlier
  have fresh : ∀ (s : Session) (running : Bool) (transcript : List HistoryItem),
      (⟨s.begin, running, transcript, w.asked⟩ : Watched).Tracks earlier := fun _ _ _ =>
    asked.trans (List.append_nil _).symm
  unfold Watched.prompt Session.run
  cases promptToText blocks with
  | error e =>
    dsimp only
    rw [run_rounds_of_not_running rfl]
    exact ⟨rfl, fresh _ _ _⟩
  | ok text =>
    dsimp only
    split_ifs
    · rw [run_rounds_of_not_running rfl]
      exact ⟨rfl, fresh _ _ _⟩
    · exact @run_rounds ⟨_, true, _, _⟩ cfg earlier rfl (fresh _ _ _) rounds

end Watched

/-- The watched run of some prompts and rounds sends the model what the runs send it. -/
theorem asked_eventsOf (cfg : Config) (l : List (List ContentBlock × List Round)) :
    (run (Watched.next cfg) Watched.start (eventsOf l)).asked.map Prod.snd = (runs cfg l).2 := by
  have loop : ∀ (l : List (List ContentBlock × List Round)) (w : Watched),
      (run (Watched.next cfg) w (eventsOf l)).asked.map Prod.snd =
        (l.foldl (fun state run =>
          let turn := (state.1.run cfg run.1 run.2).1
          (turn.session, state.2 ++ turn.requests)) (w.turn.session, w.asked.map Prod.snd)).2 := by
    intro l
    induction l with
    | nil => exact fun _ => rfl
    | cons first l ih =>
      intro w
      obtain ⟨turn, tracks⟩ := @Watched.run_prompt w cfg _ rfl first.1 first.2
      have rest := ih (run (Watched.next cfg) w (.prompt first.1 :: first.2.map .round))
      rw [tracks, turn] at rest
      rw [eventsOf, List.flatMap_cons, run_append]
      exact rest
  exact loop l Watched.start

/-- Over any prompts and rounds of a session, as long as the pending texts have room: all of them are
in every conversation that the model is sent, and in the conversation itself. -/
theorem requests_pending {cfg : Config} {events : List Event}
    (room : Along (Watched.next cfg) (Room cfg) Watched.start events) :
    (∀ ask ∈ (run (Watched.next cfg) Watched.start events).asked, pending ask.1 <:+ ask.2) ∧
      pending (run (Watched.next cfg) Watched.start events).transcript <:+
        (run (Watched.next cfg) Watched.start events).turn.session.history := by
  have kept : (run (Watched.next cfg) Watched.start events).Kept :=
    room.invariant Watched.Kept (fun w event room kept => kept.next room)
      ⟨List.nil_suffix, List.forall_mem_nil _⟩
  exact ⟨kept.asked, kept.history⟩

/-! ## Two texts for one request -/

theorem requests_pending_room :
    Along (Watched.next .default) (Room .default) Watched.start
        [.prompt [.text "a"], .round (steered "b" .error)] ∧
      ∀ ask ∈ (run (Watched.next .default) Watched.start
        [.prompt [.text "a"], .round (steered "b" .error)]).asked, pending ask.1 <:+ ask.2 :=
  have room : Along (Watched.next .default) (Room .default) Watched.start
      [.prompt [.text "a"], .round (steered "b" .error)] := by
    refine along_cons.2 ⟨trivial, along_cons.2 ⟨fun _ _ => .inr ?_, along_nil⟩⟩
    decide +kernel
  ⟨room, (requests_pending room).1⟩

theorem Watched.prompt_text (w : Watched) {text : String}
    (short : Text.byteLength text ≤ maxPromptBytes) :
    w.prompt [.text text] = { w with
      turn := Session.begin { w.turn.session with
        originalTask := w.turn.session.originalTask.or (some text)
        history := w.turn.session.history ++ [.user text] }
      running := true
      transcript := w.transcript ++ [.user text] } := by
  have is : promptToText [.text text] = .ok text := by simp [promptToText]
  rw [Watched.prompt]
  simp only [is]
  rw [if_neg (Nat.not_lt.2 short)]

theorem drainSteers_text (history : List HistoryItem) {text : String}
    (visible : Text.isBlank text = false) :
    drainSteers history [[.text text]] = history ++ [.user text] := by
  have is : promptToText [.text text] = .ok text := by simp [promptToText]
  simp [drainSteers, is, visible]

/-- A session with a prompt and a text that was queued. -/
def twoTexts (a b : String) : Session :=
  { Session.new with originalTask := some a, history := [.user a, .user b] }

/-- The model is asked once, about a prompt and a text that was queued. -/
theorem asked_steered {cfg : Config} {a b : String} {summary : SummaryReply} {sent : List HistoryItem}
    (unlimited : cfg.maxRounds = 0) (short : Text.byteLength a ≤ maxPromptBytes)
    (visible : Text.isBlank b = false)
    (compacted : (twoTexts a b).compacted cfg (steered b summary) = some sent) :
    (run (Watched.next cfg) Watched.start
      [.prompt [.text a], .round (steered b summary)]).asked = [([.user a, .user b], sent)] := by
  have prompted := Watched.prompt_text Watched.start short
  have starts : (Watched.start.prompt [.text a]).turn.starts cfg (steered b summary) = true := by
    simp [prompted, Turn.starts, unlimited, steered]
  have drained : ((Watched.start.prompt [.text a]).turn.drained (steered b summary)).session =
      twoTexts a b := by
    simp only [prompted, Turn.drained, Turn.withHistory, Session.begin, steered,
      drainSteers_text _ visible]
    rfl
  rcases Turn.iterate_cases starts with ⟨cancelled, -⟩ | ⟨sent', asked, requests, items, -, grown⟩
  · rw [drained, compacted] at cancelled
    cases cancelled
  · rw [drained, compacted] at asked
    obtain rfl := Option.some.inj asked
    change ((Watched.start.prompt [.text a]).next cfg (.round (steered b summary))).asked = _
    rw [Watched.next, prompted, if_pos rfl, ← prompted, Watched.round_of_asked starts requests grown,
      prompted, steered, drainSteers_text _ visible]
    rfl

/-- The least room for the conversation that an agent starts with. -/
def narrow : Config := { Config.default with maxHistoryBytes := maxPromptBytes }

section TwoTexts

variable {a b : String} (large : maxPromptBytes < Text.byteLength a + Text.byteLength b)

include large

theorem shouldHandoff_twoTexts : (twoTexts a b).shouldHandoff narrow = true := by
  have size : pressure (twoTexts a b).history = Text.byteLength a + Text.byteLength b := rfl
  have least : byteFallbackThreshold narrow.maxContextTokens narrow.maxOutputTokens
      narrow.maxHistoryBytes ≤ maxPromptBytes := by decide
  change decide (_ < pressure (twoTexts a b).history) = true
  rw [size, decide_eq_true_eq]
  exact least.trans_lt large

theorem compacted_summary : (twoTexts a b).compacted narrow (steered b (.summary "s")) =
    some [.user "[Context Handoff]\ns", .user b] := by
  rw [Session.compacted, Session.maybeHandoff, shouldHandoff_twoTexts large]
  rfl

theorem compacted_error (fits : Text.byteLength b ≤ maxPromptBytes) :
    (twoTexts a b).compacted narrow (steered b .error) = some [.user b] := by
  have cut : truncateHistory (twoTexts a b).history narrow.maxHistoryBytes = [.user b] :=
    truncateHistory_of_dropTurn large rfl fits
  rw [← cut, Session.compacted, Session.maybeHandoff, shouldHandoff_twoTexts large]
  rfl

end TwoTexts

/-- A text of one letter, of which two are too large for the conversation. -/
def filled (c : Char) : String := String.ofList (List.replicate 600000 c)

theorem byteLength_filled {c : Char} (ascii : c.utf8Size = 1) :
    Text.byteLength (filled c) = 600000 := by
  rw [filled, Text.byteLength_ofList, List.length_replicate]
  intro d mem
  rwa [List.eq_of_mem_replicate mem]

theorem mem_filled {c d : Char} : d ∈ (filled c).toList ↔ d = c := by
  rw [filled, String.toList_ofList, List.mem_replicate]
  exact and_iff_right (by decide)

theorem filled_ne : filled 'z' ≠ filled 'y' := by
  intro same
  have mem : 'y' ∈ (filled 'z').toList := by
    rw [same]
    exact mem_filled.2 rfl
  exact absurd (mem_filled.1 mem) (by decide)

theorem isBlank_filled {c : Char} (visible : Text.isWhiteSpace c = false) :
    Text.isBlank (filled c) = false := by
  rw [Text.isBlank, List.all_eq_false]
  exact ⟨c, mem_filled.2 rfl, Bool.eq_false_iff.1 visible⟩

/-- A handoff loses the first of two texts, and so does truncation. -/
theorem requests_lose_pending :
    narrow.validate = .ok () ∧
    (∃ ask ∈ (run (Watched.next narrow) Watched.start
        [.prompt [.text (filled 'y')], .round (steered (filled 'z') (.summary "s"))]).asked,
      HistoryItem.user (filled 'y') ∈ pending ask.1 ∧ HistoryItem.user (filled 'y') ∉ ask.2) ∧
    ∃ ask ∈ (run (Watched.next narrow) Watched.start
        [.prompt [.text (filled 'y')], .round (steered (filled 'z') .error)]).asked,
      HistoryItem.user (filled 'y') ∈ pending ask.1 ∧ HistoryItem.user (filled 'y') ∉ ask.2 := by
  have fits : ∀ {c : Char}, c.utf8Size = 1 → Text.byteLength (filled c) ≤ maxPromptBytes := by
    intro c ascii
    rw [byteLength_filled ascii]
    decide
  have large : maxPromptBytes < Text.byteLength (filled 'y') + Text.byteLength (filled 'z') := by
    rw [byteLength_filled (by decide), byteLength_filled (by decide)]
    decide
  have visible : Text.isBlank (filled 'z') = false := isBlank_filled (by decide)
  have handed := asked_steered rfl (fits (by decide)) visible (compacted_summary large)
  have cut := asked_steered rfl (fits (by decide)) visible
    (compacted_error large (fits (by decide)))
  have waits : HistoryItem.user (filled 'y') ∈ pending [.user (filled 'y'), .user (filled 'z')] :=
    List.mem_cons_self
  have first : HistoryItem.user (filled 'y') ≠ .user "[Context Handoff]\ns" := by
    intro same
    have mem : 'y' ∈ "[Context Handoff]\ns".toList := HistoryItem.user.inj same ▸ mem_filled.2 rfl
    exact absurd mem (by decide)
  have second : HistoryItem.user (filled 'y') ≠ .user (filled 'z') := fun same =>
    filled_ne (HistoryItem.user.inj same).symm
  refine ⟨Config.validate_eq_ok.2 (by decide),
    ⟨_, by rw [handed]; exact List.mem_singleton_self _, waits, ?_⟩,
    ⟨_, by rw [cut]; exact List.mem_singleton_self _, waits, ?_⟩⟩
  · rw [List.mem_cons, List.mem_singleton, not_or]
    exact ⟨first, second⟩
  · rw [List.mem_singleton]
    exact second

end Agent

end Carryforth
