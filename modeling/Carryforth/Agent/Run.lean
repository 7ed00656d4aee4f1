import Carryforth.Agent.History
import Carryforth.Lib.Json

/-!
# Agent runs

A run answers one prompt in rounds: take in what was queued for the agent, hand the context over or
cut it if it has become too large, ask the model, and either execute the tools it calls or stop.
Everything from outside (the model, the tools, the hooks, cancellation, where the code looks for it)
is the input of a round.  Whenever the model is asked, the conversation begins with a user text and
its calls and results are paired (`requests_wellFormed`).
-/

namespace Carryforth

namespace Agent

open Fallible

def maxPromptBytes : Nat := 1024 * 1024

/-- How many of the calls of one answer are executed. -/
def maxToolCallsPerTurn : Nat := 64

def errorReflectionSuffix : String :=
  "\n\n[Reflect] Before retrying, identify the cause and change your approach."

structure Config where
  maxRounds : Nat
  stopMaxRejections : Nat
  maxHandoffs : Nat
  maxContextTokens : Nat
  maxOutputTokens : Nat
  maxHistoryBytes : Nat
  /-- In seconds. -/
  toolTimeout : Nat
deriving DecidableEq, Repr

namespace Config

/-- What holds if the environment sets nothing. -/
def default : Config :=
  { maxRounds := 0, stopMaxRejections := 3, maxHandoffs := 10, maxContextTokens := 200000,
    maxOutputTokens := 32768, maxHistoryBytes := 16 * 1024 * 1024, toolTimeout := 660 }

def minHistoryBytes : Nat := 4096

/-- The checks before the agent starts, as far as a run reads what they check. -/
def validate (cfg : Config) : Except String Unit := do
  ensure (1 ≤ cfg.maxOutputTokens) "config: BUZZ_AGENT_MAX_OUTPUT_TOKENS must be >= 1"
  ensure (cfg.maxOutputTokens < cfg.maxContextTokens)
    (s!"config: BUZZ_AGENT_MAX_CONTEXT_TOKENS ({cfg.maxContextTokens}) must be > " ++
      s!"BUZZ_AGENT_MAX_OUTPUT_TOKENS ({cfg.maxOutputTokens}) — " ++
      "the context window must leave room for the response")
  ensure (minHistoryBytes ≤ cfg.maxHistoryBytes)
    s!"config: BUZZ_AGENT_MAX_HISTORY_BYTES must be >= {minHistoryBytes}"
  ensure (maxPromptBytes ≤ cfg.maxHistoryBytes)
    (s!"config: BUZZ_AGENT_MAX_HISTORY_BYTES ({cfg.maxHistoryBytes}) must be >= " ++
      s!"MAX_PROMPT_BYTES ({maxPromptBytes})")
  ensure (1 ≤ cfg.toolTimeout) "config: BUZZ_AGENT_TOOL_TIMEOUT_SECS must be >= 1"

theorem validate_eq_ok {cfg : Config} : cfg.validate = .ok () ↔
    1 ≤ cfg.maxOutputTokens ∧ cfg.maxOutputTokens < cfg.maxContextTokens ∧
      maxPromptBytes ≤ cfg.maxHistoryBytes ∧ 1 ≤ cfg.toolTimeout := by
  have least : minHistoryBytes ≤ maxPromptBytes := by decide
  unfold validate
  simp only [then_eq_ok, ensure_eq_ok]
  constructor
  · rintro ⟨output, context, -, history, timeout⟩
    exact ⟨output, context, history, timeout⟩
  · rintro ⟨output, context, history, timeout⟩
    exact ⟨output, context, least.trans history, history, timeout⟩

end Config

structure Session where
  history : List HistoryItem
  originalTask : Option String
  handoffCount : Nat
  lastRequestInputTokens : Option Nat
  lastRequestHistoryBytes : Option Nat
deriving DecidableEq, Repr

def Session.new : Session :=
  { history := []
    originalTask := none
    handoffCount := 0
    lastRequestInputTokens := none
    lastRequestHistoryBytes := none }

inductive ContentBlock
  | text (text : String)
  | resourceLink (uri : String)
  | unsupported
deriving DecidableEq, Repr

inductive ProviderStop
  | endTurn
  | toolUse
  | maxTokens
  | refusal
  | other
deriving DecidableEq, Repr

inductive StopReason
  | endTurn
  | maxTokens
  | maxTurnRequests
  | refusal
  | cancelled
deriving DecidableEq, Repr

inductive AgentError
  | invalidParams (msg : String)
  | llm (msg : String)
deriving DecidableEq, Repr

structure LlmResponse where
  text : String
  toolCalls : List ToolCall
  stop : ProviderStop
  inputTokens : Option Nat
  outputTokens : Option Nat
deriving DecidableEq, Repr

/-! ## The outside of a round -/

/-- How an MCP call ends; the registry puts the provider id it was given on the result. -/
inductive McpReply
  | result (content : List ToolResultContent) (isError : Bool)
  | cancelled
  | error (msg : String)
  | timeout (cancelled : Bool)
deriving DecidableEq, Repr

/-- What happens while the calls of one answer are executed: whether cancellation is seen before
each call, what loading a skill gives, which tools there are, which calls finish and how while the
run waits for them, which finish while it drains them after a cancellation, and whether cancellation
is seen at the end. -/
structure ToolRun where
  cancelledBefore : Nat → Bool
  skill : Nat → List ToolResultContent × Bool
  has : String → Bool
  isHook : String → Bool
  joined : List (Nat × McpReply)
  drained : List (Nat × McpReply)
  cancelledAfter : Bool

inductive SummaryReply
  | cancelled
  | error
  | summary (text : String)
deriving DecidableEq, Repr

inductive LlmReply
  | cancelled
  | error (e : AgentError)
  | response (r : LlmResponse)
deriving DecidableEq, Repr

/-- The inputs of one round; hooks answer with their server and a text. -/
structure Round where
  cancelled : Bool
  steers : List (List ContentBlock)
  summary : SummaryReply
  postCompact : List (String × String)
  reply : LlmReply
  tools : ToolRun
  objections : List (String × String)
  /-- The ordinals that the process gives to the objections. -/
  nonce : Nat → Nat

/-! ## Texts -/

def promptToText (prompt : List ContentBlock) : Except AgentError String := do
  let parts ← prompt.mapM fun block =>
    match block with
    | .text text => .ok text
    | .resourceLink uri => .ok s!"[resource: {uri}]"
    | .unsupported => .error (.invalidParams
        "prompt: unsupported content block (only text and resource_link are advertised)")
  return "\n".intercalate parts

/-- Append the queued texts, without those that are empty or cannot be shown. -/
def drainSteers (history : List HistoryItem) (steers : List (List ContentBlock)) :
    List HistoryItem :=
  steers.foldl (fun history blocks =>
    match promptToText blocks with
    | .ok text => if Text.isBlank text then history else history ++ [.user text]
    | .error _ => history) history

def syntheticHookId (hook server : String) (ordinal : Nat) : String :=
  s!"buzz_hook_{hook}_{server}_{ordinal}"

def formatHookOutputBody (hook server text : String) : String :=
  String.ofList ("\x7b\"hook\":".toList ++ Json.string hook ++ ",\"server\":".toList ++
    Json.string server ++ ",\"text\":".toList ++ Json.string text ++ "\x7d".toList)

def hookPair (hook : String) (ordinal : Nat) (output : String × String) : List HistoryItem :=
  let providerId := syntheticHookId hook output.1 ordinal
  [.assistant "" [{ providerId, name := s!"{output.1}__{hook}", arguments := "\x7b\x7d" }],
    .toolResult {
      providerId, content := [.text (formatHookOutputBody hook output.1 output.2)],
      isError := false }]

def pushHookOutputsAsToolResults (history : List HistoryItem) (hook : String) (nonce : Nat → Nat)
    (outputs : List (String × String)) : List HistoryItem :=
  outputs.zipIdx.foldl (fun history output =>
    history ++ hookPair hook (nonce output.2) output.1) history

def hookOutputsText (outputs : List (String × String)) : String :=
  "\n\n".intercalate (outputs.map fun output => s!"[{output.1}]\n{output.2}")

/-! ## Handing the context over -/

def u64Max : Nat := 2 ^ 64 - 1

def tokenThreshold (maxContextTokens maxOutputTokens : Nat) : Nat :=
  min (maxContextTokens / 10 * 9) (maxContextTokens - maxOutputTokens)

def byteFallbackThreshold (maxContextTokens maxOutputTokens maxHistoryBytes : Nat) : Nat :=
  min (tokenThreshold maxContextTokens maxOutputTokens) (maxHistoryBytes / 10 * 9)

/-- The tokens of the last request, and one for each byte that was added since. -/
def Session.projectedHandoffInputTokens (s : Session) : Nat :=
  match s.lastRequestInputTokens with
  | some measured =>
    min (measured + (pressure s.history - s.lastRequestHistoryBytes.getD 0)) u64Max
  | none => pressure s.history

def Session.shouldHandoff (s : Session) (cfg : Config) : Bool :=
  match s.lastRequestInputTokens with
  | some _ =>
    tokenThreshold cfg.maxContextTokens cfg.maxOutputTokens ≤ s.projectedHandoffInputTokens
  | none =>
    byteFallbackThreshold cfg.maxContextTokens cfg.maxOutputTokens cfg.maxHistoryBytes <
      pressure s.history

inductive HandoffOutcome
  | performed (s : Session)
  | skipped
  | cancelled

def currentPrompt (history : List HistoryItem) : Option String :=
  history.reverse.findSome? fun item =>
    match item with
    | .user s => some s
    | _ => none

/-- The conversation after it was replaced by its summary. -/
def handedOver (summary : String) (postCompact : List (String × String))
    (history : List HistoryItem) : List HistoryItem :=
  let text := "[Context Handoff]\n" ++ summary ++
    if postCompact = [] then ""
    else "\n\n[Post-compact hook output — untrusted]\n" ++ hookOutputsText postCompact
  .user text :: (currentPrompt history).toList.map .user

def Session.maybeHandoff (s : Session) (cfg : Config) (r : Round) : HandoffOutcome :=
  if s.shouldHandoff cfg = false then .skipped
  else if cfg.maxHandoffs ≤ s.handoffCount then .skipped
  else match r.summary with
    | .cancelled => .cancelled
    | .error => .skipped
    | .summary text =>
      if Text.isBlank text then .skipped
      else .performed { s with
        history := handedOver text r.postCompact s.history
        handoffCount := s.handoffCount + 1 }

/-- A handoff is due, is not the one too many, and has a summary. -/
theorem Session.maybeHandoff_eq_performed {s s' : Session} {cfg : Config} {r : Round}
    (performed : s.maybeHandoff cfg r = .performed s') :
    s.shouldHandoff cfg = true ∧ s.handoffCount < cfg.maxHandoffs ∧
      ∃ summary, r.summary = .summary summary ∧ Text.isBlank summary = false ∧
        s' = { s with
          history := handedOver summary r.postCompact s.history
          handoffCount := s.handoffCount + 1 } := by
  unfold maybeHandoff at performed
  split_ifs at performed with skipped used
  split at performed
  · cases performed
  · cases performed
  · rename_i summary replied
    split_ifs at performed with blank
    exact ⟨Bool.eq_true_of_not_eq_false skipped, Nat.lt_of_not_le used, summary, replied,
      Bool.eq_false_of_not_eq_true blank, (HandoffOutcome.performed.inj performed).symm⟩

/-! ## Executing tools -/

def loadSkillTool : String := "load_skill"

def syntheticToolResult (call : ToolCall) (msg : String) : ToolResult :=
  { providerId := call.providerId, content := [.text msg], isError := true }

/-- The result of a call that ended like this. -/
def invokeTool (cfg : Config) (call : ToolCall) : McpReply → ToolResult
  | .result content isError => { providerId := call.providerId, content, isError }
  | .cancelled => syntheticToolResult call "cancelled"
  | .error msg => syntheticToolResult call msg
  | .timeout true => syntheticToolResult call "cancelled"
  | .timeout false => syntheticToolResult call
      (s!"tool: timeout after {cfg.toolTimeout}s. " ++
        "The command took too long. Try a faster approach.")

/-- The slots of the results, by the position of the call. -/
abbrev Slots := List (Option ToolResult)

/-- What the preflight leaves: the slots so far and the calls to run, or that it was cancelled. -/
inductive Preflight
  | cancelled (slots : Slots)
  | ready (slots : Slots) (runnable : List Nat)

def Preflight.slots : Preflight → Slots
  | .cancelled slots => slots
  | .ready slots _ => slots

def fillCancelled (calls : List ToolCall) (slots : Slots) : Slots :=
  List.zipWith (fun call slot => some (slot.getD (syntheticToolResult call "cancelled"))) calls slots

/-- Go through the calls from position `i` on. -/
def preflight (t : ToolRun) (calls : List ToolCall) : Nat → List ToolCall → Slots → List Nat → Preflight
  | _, [], slots, runnable => .ready slots runnable
  | i, call :: rest, slots, runnable =>
    if t.cancelledBefore i then .cancelled (fillCancelled calls slots)
    else if call.name = loadSkillTool then
      preflight t calls (i + 1) rest (slots.set i (some
        { providerId := call.providerId, content := (t.skill i).1, isError := (t.skill i).2 })) runnable
    else if t.has call.name = false ∨ t.isHook call.name = true then
      preflight t calls (i + 1) rest
        (slots.set i (some (syntheticToolResult call s!"unknown tool: {call.name}"))) runnable
    else preflight t calls (i + 1) rest slots (runnable ++ [i])

def joinOne (cfg : Config) (calls : List ToolCall) (runnable : List Nat) (slots : Slots)
    (done : Nat × McpReply) : Slots :=
  match calls[done.1]? with
  | some call =>
    if done.1 ∈ runnable then slots.set done.1 (some (invokeTool cfg call done.2)) else slots
  | none => slots

/-- A call has finished after the cancellation. -/
def drainOne (cfg : Config) (calls : List ToolCall) (runnable : List Nat) (slots : Slots)
    (done : Nat × McpReply) : Slots :=
  if (slots.getD done.1 none).isNone then joinOne cfg calls runnable slots done else slots

/-- Fill the slot of a call that never finished. -/
def fillOne (calls : List ToolCall) (slots : Slots) (i : Nat) : Slots :=
  match calls[i]?, slots.getD i none with
  | some call, none => slots.set i (some (syntheticToolResult call "cancelled"))
  | _, _ => slots

def executeParallel (cfg : Config) (t : ToolRun) (calls : List ToolCall) (runnable : List Nat)
    (slots : Slots) : Slots :=
  runnable.foldl (fillOne calls)
    (t.drained.foldl (drainOne cfg calls runnable) (t.joined.foldl (joinOne cfg calls runnable) slots))

/-- The result of a slot; errors ask for a reflection. -/
def resultOf (call : ToolCall) (slot : Option ToolResult) : ToolResult :=
  let result := slot.getD
    { providerId := call.providerId, content := [.text "internal error: missing result"],
      isError := true }
  if result.isError then { result with content := result.content ++ [.text errorReflectionSuffix] }
  else result

def appendResults (history : List HistoryItem) (calls : List ToolCall) (slots : Slots) :
    List HistoryItem :=
  history ++ (List.zipWith resultOf calls slots).map .toolResult

/-- The conversation with the results of the calls, and whether the run was cancelled. -/
def executeCalls (cfg : Config) (t : ToolRun) (history : List HistoryItem) (calls : List ToolCall) :
    List HistoryItem × Bool :=
  match preflight t calls 0 calls (List.replicate calls.length none) [] with
  | .cancelled slots => (appendResults history calls slots, true)
  | .ready slots runnable =>
    (appendResults history calls (executeParallel cfg t calls runnable slots), t.cancelledAfter)

/-! ## The loop -/

/-- A run under way: the session, its counters, and the conversations the model was sent. -/
structure Turn where
  session : Session
  turnInputTokens : Option Nat
  turnOutputTokens : Option Nat
  round : Nat
  stopRejections : Nat
  requests : List (List HistoryItem)
deriving DecidableEq, Repr

inductive Next
  | again (t : Turn)
  | done (t : Turn) (result : Except AgentError StopReason)

def mapStop : ProviderStop → StopReason
  | .endTurn | .toolUse | .other => .endTurn
  | .maxTokens => .maxTokens
  | .refusal => .refusal

/-- The usage that a response reports, with the size of the conversation that was sent. -/
def Turn.account (t : Turn) (r : LlmResponse) : Turn :=
  let t := match r.inputTokens with
    | some tokens => { t with
        session := { t.session with
          lastRequestInputTokens := some tokens
          lastRequestHistoryBytes := some (pressure t.session.history) }
        turnInputTokens := some (min (t.turnInputTokens.getD 0 + tokens) u64Max) }
    | none => t
  match r.outputTokens with
  | some out => { t with turnOutputTokens := some (min (t.turnOutputTokens.getD 0 + out) u64Max) }
  | none => t

def Turn.withHistory (t : Turn) (history : List HistoryItem) : Turn :=
  { t with session := { t.session with history } }

/-- The rest of a round, after an answer without calls. -/
def Turn.answered (t : Turn) (cfg : Config) (r : Round) (response : LlmResponse) : Next :=
  if response.stop = .toolUse then
    .done t (.error (.llm "provider: stop=tool_use but zero tool_calls"))
  else
    let t := t.withHistory (t.session.history ++ [.assistant response.text []])
    if mapStop response.stop = .endTurn ∧ t.stopRejections < cfg.stopMaxRejections ∧
        r.objections ≠ [] then
      .again { t.withHistory (pushHookOutputsAsToolResults t.session.history "_Stop" r.nonce
        r.objections) with stopRejections := t.stopRejections + 1 }
    else .done t (.ok (mapStop response.stop))

/-- The rest of a round, after an answer with calls. -/
def Turn.called (t : Turn) (cfg : Config) (r : Round) (response : LlmResponse) : Next :=
  let calls := response.toolCalls.take maxToolCallsPerTurn
  let (history, cancelled) := executeCalls cfg r.tools
    (t.session.history ++ [.assistant response.text calls]) calls
  if cancelled then .done (t.withHistory history) (.ok .cancelled) else .again (t.withHistory history)

def Turn.request (t : Turn) (cfg : Config) (r : Round) : Next :=
  let t := { t with round := t.round + 1, requests := t.requests ++ [t.session.history] }
  match r.reply with
  | .cancelled => .done t (.ok .cancelled)
  | .error e => .done t (.error e)
  | .response response =>
    let t := t.account response
    if response.toolCalls = [] then t.answered cfg r response else t.called cfg r response

def Turn.iterate (t : Turn) (cfg : Config) (r : Round) : Next :=
  if 0 < cfg.maxRounds ∧ cfg.maxRounds ≤ t.round then .done t (.ok .maxTurnRequests)
  else if r.cancelled then .done t (.ok .cancelled)
  else
    let t := t.withHistory (drainSteers t.session.history r.steers)
    match t.session.maybeHandoff cfg r with
    | .cancelled => .done t (.ok .cancelled)
    | .performed s => Turn.request { t with session := { s with
        lastRequestInputTokens := none
        lastRequestHistoryBytes := none } } cfg r
    | .skipped =>
      (t.withHistory (truncateHistory t.session.history cfg.maxHistoryBytes)).request cfg r

/-- The rounds of a run, as far as their inputs go. -/
def Turn.loop (cfg : Config) : Turn → List Round → Turn × Option (Except AgentError StopReason)
  | t, [] => (t, none)
  | t, r :: rest =>
    match t.iterate cfg r with
    | .again t => t.loop cfg rest
    | .done t result => (t, some result)

def Session.run (s : Session) (cfg : Config) (prompt : List ContentBlock) (rounds : List Round) :
    Turn × Option (Except AgentError StopReason) :=
  let start : Turn :=
    { session := s, turnInputTokens := none, turnOutputTokens := none, round := 0,
      stopRejections := 0, requests := [] }
  match promptToText prompt with
  | .error e => (start, some (.error e))
  | .ok text =>
    if maxPromptBytes < Text.byteLength text then
      (start, some (.error (.invalidParams s!"prompt: exceeds {maxPromptBytes} bytes")))
    else
      Turn.loop cfg { start with session := { s with
        originalTask := s.originalTask.or (some text)
        history := s.history ++ [.user text] } } rounds

/-- The session after some runs, with all conversations the model was sent. -/
def runs (cfg : Config) (l : List (List ContentBlock × List Round)) :
    Session × List (List HistoryItem) :=
  l.foldl (fun state run =>
    let turn := (state.1.run cfg run.1 run.2).1
    (turn.session, state.2 ++ turn.requests)) (Session.new, [])

/-! ## The results of an answer's calls -/

/-- The slot of a call holds no result of another call. -/
def Matching (call : ToolCall) (slot : Option ToolResult) : Prop :=
  ∀ r, slot = some r → r.providerId = call.providerId

theorem forall₂_set {α β : Type} {R : α → β → Prop} {as : List α} {bs : List β}
    (all : List.Forall₂ R as bs) {i : Nat} {b : β} (here : ∀ a, as[i]? = some a → R a b) :
    List.Forall₂ R as (bs.set i b) := by
  induction all generalizing i with
  | nil => exact .nil
  | cons first rest ih =>
    cases i with
    | zero => exact .cons (here _ rfl) rest
    | succ i => exact .cons first (ih fun a found => here a found)

variable {cfg : Config} {t : ToolRun} {calls : List ToolCall} {slots : Slots}

theorem matching_invokeTool (cfg : Config) (call : ToolCall) (reply : McpReply) :
    (invokeTool cfg call reply).providerId = call.providerId := by
  cases reply with
  | timeout cancelled => cases cancelled <;> rfl
  | _ => rfl

theorem matching_set (all : List.Forall₂ Matching calls slots) {i : Nat} {call : ToolCall}
    (found : calls[i]? = some call) {r : ToolResult} (same : r.providerId = call.providerId) :
    List.Forall₂ Matching calls (slots.set i (some r)) := by
  refine forall₂_set all fun other here r' is => ?_
  rw [found, Option.some.injEq] at here
  rw [← Option.some.inj is, ← here, same]

theorem matching_fillCancelled (all : List.Forall₂ Matching calls slots) :
    List.Forall₂ Matching calls (fillCancelled calls slots) := by
  induction all with
  | nil => exact .nil
  | @cons call slot calls slots first rest ih =>
    refine .cons (fun r is => ?_) ih
    rw [← Option.some.inj is]
    cases slot with
    | none => rfl
    | some r => exact first r rfl

theorem matching_preflight (t : ToolRun) {i : Nat} {rest : List ToolCall} (runnable : List Nat)
    (all : List.Forall₂ Matching calls slots) (remaining : calls.drop i = rest) :
    List.Forall₂ Matching calls (preflight t calls i rest slots runnable).slots := by
  induction rest generalizing i slots runnable with
  | nil => exact all
  | cons call rest ih =>
    have found : calls[i]? = some call := by
      rw [← List.head?_drop, remaining]
      rfl
    have next : calls.drop (i + 1) = rest := by
      rw [← List.tail_drop, remaining]
      rfl
    rw [preflight]
    split_ifs
    · exact matching_fillCancelled all
    · exact ih _ (matching_set all found rfl) next
    · exact ih _ (matching_set all found rfl) next
    · exact ih _ all next

theorem matching_joinOne {runnable : List Nat} (all : List.Forall₂ Matching calls slots)
    (done : Nat × McpReply) : List.Forall₂ Matching calls (joinOne cfg calls runnable slots done) := by
  unfold joinOne
  split
  · rename_i call found
    split_ifs
    · exact matching_set all found (matching_invokeTool cfg call done.2)
    · exact all
  · exact all

theorem matching_executeParallel {runnable : List Nat} (all : List.Forall₂ Matching calls slots) :
    List.Forall₂ Matching calls (executeParallel cfg t calls runnable slots) := by
  have loop : ∀ {α : Type} (f : Slots → α → Slots), (∀ slots a, List.Forall₂ Matching calls slots →
      List.Forall₂ Matching calls (f slots a)) → ∀ (l : List α) (slots : Slots),
      List.Forall₂ Matching calls slots → List.Forall₂ Matching calls (l.foldl f slots) := by
    intro α f step l
    induction l with
    | nil => exact fun _ all => all
    | cons a l ih => exact fun slots all => ih _ (step slots a all)
  refine loop _ (fun slots i all => ?_) _ _ (loop _ (fun slots done all => ?_) _ _
    (loop _ (fun slots done all => matching_joinOne all done) _ _ all))
  · unfold fillOne
    split
    · exact matching_set all ‹_› rfl
    · exact all
  · unfold drainOne
    split_ifs
    · exact matching_joinOne all done
    · exact all

/-- The results of an answer's calls carry the provider ids of the calls, in their order. -/
theorem providerIds_results (all : List.Forall₂ Matching calls slots) :
    (List.zipWith resultOf calls slots).map ToolResult.providerId =
      calls.map ToolCall.providerId := by
  have one : ∀ call slot, Matching call slot → (resultOf call slot).providerId = call.providerId := by
    intro call slot same
    cases slot with
    | none => rfl
    | some r =>
      rw [resultOf]
      split_ifs
      · exact same r rfl
      · exact same r rfl
  induction all with
  | nil => rfl
  | cons first rest ih => rw [List.zipWith_cons_cons, List.map_cons, List.map_cons, one _ _ first, ih]

/-- An answer and its calls are followed by their results. -/
theorem paired_executeCalls (cfg : Config) (t : ToolRun) (calls : List ToolCall)
    {history : List HistoryItem} (paired : Paired history) (text : String) :
    ∃ after, (executeCalls cfg t (history ++ [.assistant text calls]) calls).1 = history ++ after ∧
      Paired (history ++ after) := by
  have empty : List.Forall₂ Matching calls (List.replicate calls.length none) := by
    clear paired
    induction calls with
    | nil => exact .nil
    | cons call calls ih => exact .cons (fun _ is => nomatch is) ih
  have ready := matching_preflight t [] empty (List.drop_zero (l := calls))
  have block : ∀ slots, List.Forall₂ Matching calls slots →
      ∃ after, appendResults (history ++ [.assistant text calls]) calls slots = history ++ after ∧
        Paired (history ++ after) := by
    intro slots all
    refine ⟨_, by rw [appendResults, List.append_assoc, List.singleton_append], ?_⟩
    exact paired.append_answer text calls _ (providerIds_results all)
  unfold executeCalls
  split
  · rename_i slots is
    rw [is] at ready
    exact block slots ready
  · rename_i slots runnable is
    rw [is] at ready
    exact block _ (matching_executeParallel ready)

/-! ## Every request is well formed -/

def WellFormed (history : List HistoryItem) : Prop :=
  (∃ text rest, history = .user text :: rest) ∧ Paired history

theorem WellFormed.append {history after : List HistoryItem} (wellFormed : WellFormed history)
    (paired : Paired (history ++ after)) : WellFormed (history ++ after) := by
  obtain ⟨⟨text, rest, rfl⟩, -⟩ := wellFormed
  exact ⟨⟨text, rest ++ after, rfl⟩, paired⟩

theorem wellFormed_drainSteers {history : List HistoryItem} (wellFormed : WellFormed history)
    (steers : List (List ContentBlock)) : WellFormed (drainSteers history steers) := by
  unfold drainSteers
  induction steers generalizing history with
  | nil => exact wellFormed
  | cons blocks steers ih =>
    rw [List.foldl_cons]
    apply ih
    split
    · split_ifs
      · exact wellFormed
      · exact wellFormed.append (wellFormed.2.append_user _)
    · exact wellFormed

theorem wellFormed_pushHookOutputs {history : List HistoryItem} (wellFormed : WellFormed history)
    (hook : String) (nonce : Nat → Nat) (outputs : List (String × String)) :
    WellFormed (pushHookOutputsAsToolResults history hook nonce outputs) := by
  unfold pushHookOutputsAsToolResults
  induction outputs.zipIdx generalizing history with
  | nil => exact wellFormed
  | cons output rest ih =>
    rw [List.foldl_cons]
    apply ih
    exact wellFormed.append (wellFormed.2.append_answer "" [_] [_] rfl)

theorem wellFormed_truncateHistory {history : List HistoryItem} (wellFormed : WellFormed history)
    (maxBytes : Nat) : WellFormed (truncateHistory history maxBytes) := by
  rcases truncateHistory_cases history maxBytes with same | ⟨before, text, rest, kept, whole⟩
  · rw [same]
    exact wellFormed
  · rw [kept]
    exact ⟨⟨text, rest, rfl⟩, (whole ▸ wellFormed.2).of_append_user⟩

theorem wellFormed_handedOver (summary : String) (postCompact : List (String × String))
    (history : List HistoryItem) : WellFormed (handedOver summary postCompact history) := by
  refine ⟨⟨_, _, rfl⟩, .user _ ?_⟩
  cases currentPrompt history with
  | none => exact .nil
  | some prompt => exact .user prompt .nil

/-- A run whose conversation and requests so far are well formed. -/
structure Turn.Good (t : Turn) : Prop where
  history : WellFormed t.session.history
  requests : ∀ h ∈ t.requests, WellFormed h

def Next.turn : Next → Turn
  | .again t => t
  | .done t _ => t

theorem Turn.account_history (t : Turn) (r : LlmResponse) :
    (t.account r).session.history = t.session.history ∧ (t.account r).requests = t.requests := by
  unfold Turn.account
  cases r.inputTokens <;> cases r.outputTokens <;> exact ⟨rfl, rfl⟩

theorem Turn.Good.answered {t : Turn} (good : t.Good) (cfg : Config) (r : Round)
    (response : LlmResponse) : (t.answered cfg r response).turn.Good := by
  have said : WellFormed (t.session.history ++ [.assistant response.text []]) :=
    good.history.append (good.history.2.append_answer response.text [] [] rfl)
  unfold Turn.answered
  dsimp only
  split_ifs
  · exact good
  · exact ⟨wellFormed_pushHookOutputs said _ _ _, good.requests⟩
  · exact ⟨said, good.requests⟩

theorem Turn.Good.called {t : Turn} (good : t.Good) (cfg : Config) (r : Round)
    (response : LlmResponse) : (t.called cfg r response).turn.Good := by
  obtain ⟨after, is, paired⟩ := paired_executeCalls cfg r.tools
    (response.toolCalls.take maxToolCallsPerTurn) good.history.2 response.text
  have executed : WellFormed (executeCalls cfg r.tools (t.session.history ++
      [.assistant response.text (response.toolCalls.take maxToolCallsPerTurn)])
      (response.toolCalls.take maxToolCallsPerTurn)).1 := by
    rw [is]
    exact good.history.append paired
  unfold Turn.called
  dsimp only
  split_ifs
  · exact ⟨executed, good.requests⟩
  · exact ⟨executed, good.requests⟩

theorem Turn.Good.request {t : Turn} (good : t.Good) (cfg : Config) (r : Round) :
    (t.request cfg r).turn.Good := by
  have asked : ∀ h ∈ t.requests ++ [t.session.history], WellFormed h := by
    intro h mem
    rcases List.mem_append.1 mem with mem | mem
    · exact good.requests h mem
    · rw [List.mem_singleton.1 mem]
      exact good.history
  unfold Turn.request
  cases r.reply with
  | cancelled => exact ⟨good.history, asked⟩
  | error e => exact ⟨good.history, asked⟩
  | response response =>
    have accounted : Turn.Good (Turn.account { t with
        round := t.round + 1, requests := t.requests ++ [t.session.history] } response) := by
      refine ⟨?_, ?_⟩
      · rw [(Turn.account_history _ response).1]
        exact good.history
      · rw [(Turn.account_history _ response).2]
        exact asked
    dsimp only
    split_ifs
    · exact accounted.answered cfg r response
    · exact accounted.called cfg r response

theorem Turn.Good.iterate {t : Turn} (good : t.Good) (cfg : Config) (r : Round) :
    (t.iterate cfg r).turn.Good := by
  have steered := wellFormed_drainSteers good.history r.steers
  unfold Turn.iterate
  split_ifs
  · exact good
  · exact good
  · dsimp only
    split
    · exact ⟨steered, good.requests⟩
    · rename_i s performed
      apply Turn.Good.request
      refine ⟨?_, good.requests⟩
      obtain ⟨-, -, summary, -, -, rfl⟩ := Session.maybeHandoff_eq_performed performed
      exact wellFormed_handedOver _ _ _
    · apply Turn.Good.request
      exact ⟨wellFormed_truncateHistory steered _, good.requests⟩

theorem Turn.Good.loop {t : Turn} (good : t.Good) (cfg : Config) (rounds : List Round) :
    (t.loop cfg rounds).1.Good := by
  induction rounds generalizing t with
  | nil => exact good
  | cons r rest ih =>
    have next := good.iterate cfg r
    rw [Turn.loop]
    split
    · rename_i t' is
      rw [is] at next
      exact ih next
    · rename_i t' result is
      rw [is] at next
      exact next

/-- Between two runs the conversation is empty or well formed. -/
theorem run_good {s : Session} (between : s.history = [] ∨ WellFormed s.history) (cfg : Config)
    (prompt : List ContentBlock) (rounds : List Round) :
    ((s.run cfg prompt rounds).1.session.history = [] ∨
        WellFormed (s.run cfg prompt rounds).1.session.history) ∧
      ∀ h ∈ (s.run cfg prompt rounds).1.requests, WellFormed h := by
  unfold Session.run
  dsimp only
  split
  · exact ⟨between, fun _ mem => nomatch mem⟩
  · rename_i text _
    split_ifs
    · exact ⟨between, fun _ mem => nomatch mem⟩
    · have prompted : WellFormed (s.history ++ [.user text]) := by
        rcases between with empty | wellFormed
        · rw [empty]
          exact ⟨⟨text, [], rfl⟩, .user text .nil⟩
        · exact wellFormed.append (wellFormed.2.append_user text)
      have good := Turn.Good.loop (t := ⟨{ s with
        originalTask := s.originalTask.or (some text)
        history := s.history ++ [.user text] }, none, none, 0, 0, []⟩)
        ⟨prompted, fun _ mem => nomatch mem⟩ cfg rounds
      exact ⟨.inr good.history, good.requests⟩

/-- Over all runs of a session, from an empty conversation: whenever the model is asked, the
conversation begins with a user text, and its calls and results are paired. -/
theorem requests_wellFormed (cfg : Config) (l : List (List ContentBlock × List Round)) :
    ∀ h ∈ (runs cfg l).2, WellFormed h := by
  have loop : ∀ (l : List (List ContentBlock × List Round)) (state : Session × List (List HistoryItem)),
      (state.1.history = [] ∨ WellFormed state.1.history) → (∀ h ∈ state.2, WellFormed h) →
      ∀ h ∈ (l.foldl (fun state run =>
        let turn := (state.1.run cfg run.1 run.2).1
        (turn.session, state.2 ++ turn.requests)) state).2, WellFormed h := by
    intro l
    induction l with
    | nil => exact fun _ _ asked => asked
    | cons run l ih =>
      intro state between asked
      obtain ⟨after, requests⟩ := run_good between cfg run.1 run.2
      refine ih _ after fun h mem => ?_
      exact (List.mem_append.1 mem).elim (asked h) (requests h)
  exact loop l (Session.new, []) (.inl rfl) fun _ mem => nomatch mem

/-- A second text is queued before the model is asked, which then answers. -/
def steered (text : String) (summary : SummaryReply) : Round :=
  { cancelled := false
    steers := [[.text text]]
    summary
    postCompact := []
    reply := .response ⟨"c", [], .endTurn, none, none⟩
    tools := ⟨fun _ => false, fun _ => ([], false), fun _ => false, fun _ => false, [], [], false⟩
    objections := []
    nonce := id }

theorem requests_wellFormed_steered :
    [.user "a", .user "b"] ∈ (runs .default [([.text "a"], [steered "b" .error])]).2 ∧
      WellFormed [.user "a", .user "b"] :=
  have asked : [.user "a", .user "b"] ∈ (runs .default [([.text "a"], [steered "b" .error])]).2 := by
    decide +kernel
  ⟨asked, requests_wellFormed _ _ _ asked⟩

end Agent

end Carryforth
