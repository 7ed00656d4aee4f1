import Carryforth.Lib.Text

/-!
# The conversation of an agent

What the model is sent: user texts, answers that may call tools, and the results of these calls.
Providers refuse a conversation unless the results of an answer's calls stand right behind it, one
for each call and in the same order; `Paired` is this rule, and cutting a conversation before a user
text keeps it (`Paired.of_append_user`).
-/

namespace Carryforth

namespace Agent

/-! ## Items -/

def imageContextTokenEquiv : Nat := 16 * 1024

inductive ToolResultContent
  | text (s : String)
  | image (data mimeType : String)
deriving DecidableEq, Repr

namespace ToolResultContent

def estimatedBytes : ToolResultContent → Nat
  | .text s => Text.byteLength s
  | .image data mimeType => Text.byteLength data + Text.byteLength mimeType

def contextPressureBytes : ToolResultContent → Nat
  | .text s => Text.byteLength s
  | .image _ mimeType => imageContextTokenEquiv + Text.byteLength mimeType

end ToolResultContent

/-- A call of a tool; its arguments are given as JSON text. -/
structure ToolCall where
  providerId : String
  name : String
  arguments : String
deriving DecidableEq, Repr

structure ToolResult where
  providerId : String
  content : List ToolResultContent
  isError : Bool
deriving DecidableEq, Repr

inductive HistoryItem
  | user (text : String)
  | assistant (text : String) (toolCalls : List ToolCall)
  | toolResult (result : ToolResult)
deriving DecidableEq, Repr

namespace HistoryItem

def isUser : HistoryItem → Bool
  | .user _ => true
  | _ => false

def sizeWith (contentSize : ToolResultContent → Nat) : HistoryItem → Nat
  | .user s => Text.byteLength s
  | .assistant text toolCalls => Text.byteLength text + (toolCalls.map fun c =>
      Text.byteLength c.providerId + Text.byteLength c.name + Text.byteLength c.arguments).sum
  | .toolResult r => Text.byteLength r.providerId + (r.content.map contentSize).sum

def estimatedBytes : HistoryItem → Nat := sizeWith ToolResultContent.estimatedBytes

def contextPressureBytes : HistoryItem → Nat := sizeWith ToolResultContent.contextPressureBytes

end HistoryItem

/-- The size of a conversation in the context window. -/
def pressure (history : List HistoryItem) : Nat := (history.map HistoryItem.contextPressureBytes).sum

/-! ## Truncation -/

/-- The conversation from its second user text on, if there is one behind its first item. -/
def dropTurn (history : List HistoryItem) : Option (List HistoryItem) :=
  match history.tail.dropWhile fun item => !item.isUser with
  | [] => none
  | next => some next

theorem dropTurn_eq_some {history next : List HistoryItem} (dropped : dropTurn history = some next) :
    ∃ item before text rest, history = item :: (before ++ next) ∧ next = .user text :: rest := by
  unfold dropTurn at dropped
  split at dropped
  · cases dropped
  · rename_i found none
    obtain rfl := Option.some.inj dropped
    cases history with
    | nil => exact absurd rfl none
    | cons item tail =>
      have split := List.takeWhile_append_dropWhile (p := fun item : HistoryItem => !item.isUser)
        (l := tail)
      cases after : tail.dropWhile fun item => !item.isUser with
      | nil => exact absurd after none
      | cons first rest =>
        have starts := List.head_dropWhile_not (fun item : HistoryItem => !item.isUser)
          (l := tail) (by rw [after]; exact List.cons_ne_nil _ _)
        simp only [after, List.head_cons, Bool.not_eq_false'] at starts
        cases first with
        | user text => exact ⟨item, _, text, rest, by rw [List.tail_cons, split], after⟩
        | assistant text calls => cases starts
        | toolResult r => cases starts

/-- The items that are dropped behind the first are no user texts. -/
theorem dropTurn_tail {history next : List HistoryItem} (dropped : dropTurn history = some next) :
    ∃ before, history.tail = before ++ next ∧ ∀ item ∈ before, item.isUser = false := by
  unfold dropTurn at dropped
  split at dropped
  · cases dropped
  · obtain rfl := Option.some.inj dropped
    refine ⟨_, (List.takeWhile_append_dropWhile (p := fun item : HistoryItem => !item.isUser)).symm,
      fun item mem => ?_⟩
    have skipped := List.mem_takeWhile_imp mem
    rwa [Bool.not_eq_true'] at skipped

/-- Drop whole turns from the front while the conversation is too large. -/
def truncateFrom (maxBytes total : Nat) (history : List HistoryItem) : List HistoryItem :=
  if total ≤ maxBytes then history
  else
    match _dropped : dropTurn history with
    | none => history
    | some next =>
      truncateFrom maxBytes (total - ((history.take (history.length - next.length)).map
        HistoryItem.estimatedBytes).sum) next
termination_by history.length
decreasing_by
  obtain ⟨item, before, text, rest, rfl, -⟩ := dropTurn_eq_some _dropped
  simp only [List.length_cons, List.length_append]
  omega

def truncateHistory (history : List HistoryItem) (maxBytes : Nat) : List HistoryItem :=
  truncateFrom maxBytes (history.map HistoryItem.estimatedBytes).sum history

theorem truncateFrom_of_le {maxBytes total : Nat} (fits : total ≤ maxBytes)
    (history : List HistoryItem) : truncateFrom maxBytes total history = history := by
  rw [truncateFrom, if_pos fits]

theorem truncateHistory_of_dropTurn {maxBytes : Nat} {history next : List HistoryItem}
    (large : maxBytes < (history.map HistoryItem.estimatedBytes).sum)
    (dropped : dropTurn history = some next)
    (fits : (next.map HistoryItem.estimatedBytes).sum ≤ maxBytes) :
    truncateHistory history maxBytes = next := by
  rw [truncateHistory, truncateFrom, if_neg (Nat.not_le.2 large)]
  split
  · rename_i none
    rw [dropped] at none
    cases none
  · rename_i next' found
    rw [dropped] at found
    obtain rfl := Option.some.inj found
    apply truncateFrom_of_le
    obtain ⟨item, before, -, -, rfl, -⟩ := dropTurn_eq_some dropped
    have cut : (item :: (before ++ next)).take ((item :: (before ++ next)).length - next.length) =
        item :: before := by
      rw [← List.cons_append, List.length_append, Nat.add_sub_cancel, List.take_left]
    rw [cut, ← List.cons_append, List.map_append, List.sum_append, Nat.add_sub_cancel_left]
    exact fits

/-- What truncation leaves is the conversation, or a part of it from a user text to its end. -/
theorem truncateFrom_cases (maxBytes total : Nat) (history : List HistoryItem) :
    truncateFrom maxBytes total history = history ∨
      ∃ before text rest, truncateFrom maxBytes total history = .user text :: rest ∧
        history = before ++ .user text :: rest := by
  fun_induction truncateFrom maxBytes total history with
  | case1 total history fits => exact .inl rfl
  | case2 total history large last => exact .inl rfl
  | case3 total history large next dropped ih =>
    obtain ⟨item, before, text, rest, rfl, rfl⟩ := dropTurn_eq_some dropped
    refine .inr ?_
    rcases ih with same | ⟨cut, text', rest', kept, whole⟩
    · exact ⟨item :: before, text, rest, same, rfl⟩
    · refine ⟨item :: before ++ cut, text', rest', kept, ?_⟩
      rw [whole]
      simp

theorem truncateHistory_cases (history : List HistoryItem) (maxBytes : Nat) :
    truncateHistory history maxBytes = history ∨
      ∃ before text rest, truncateHistory history maxBytes = .user text :: rest ∧
        history = before ++ .user text :: rest :=
  truncateFrom_cases maxBytes _ history

/-! ## Calls and their results -/

/-- Every answer that calls tools is followed by the results of its calls, one for each call and in
their order, and there are no other results. -/
inductive Paired : List HistoryItem → Prop
  | nil : Paired []
  | user (text : String) {rest : List HistoryItem} (after : Paired rest) :
    Paired (.user text :: rest)
  | assistant (text : String) {calls : List ToolCall} {results : List ToolResult}
    {rest : List HistoryItem} (same : results.map ToolResult.providerId =
      calls.map ToolCall.providerId) (after : Paired rest) :
    Paired (.assistant text calls :: (results.map .toolResult ++ rest))

namespace Paired

variable {h k : List HistoryItem}

theorem append (first : Paired h) (second : Paired k) : Paired (h ++ k) := by
  induction first with
  | nil => exact second
  | user text _ ih => exact .user text ih
  | assistant text same _ ih =>
    rw [List.cons_append, List.append_assoc]
    exact .assistant text same ih

theorem append_user (paired : Paired h) (text : String) : Paired (h ++ [.user text]) :=
  paired.append (.user text .nil)

theorem append_answer (paired : Paired h) (text : String) (calls : List ToolCall)
    (results : List ToolResult)
    (same : results.map ToolResult.providerId = calls.map ToolCall.providerId) :
    Paired (h ++ (.assistant text calls :: results.map .toolResult)) := by
  have block := assistant text same .nil
  rw [List.append_nil] at block
  exact paired.append block

theorem of_append_user {before rest : List HistoryItem} {text : String}
    (paired : Paired (before ++ .user text :: rest)) : Paired (.user text :: rest) := by
  generalize whole : before ++ .user text :: rest = l at paired
  induction paired generalizing before with
  | nil => exact absurd whole (by simp)
  | user other after ih =>
    cases before with
    | nil =>
      rw [List.nil_append] at whole
      rw [whole]
      exact .user other after
    | cons item before => exact ih (List.cons.inj whole).2
  | @assistant other calls results tail same after ih =>
    cases before with
    | nil => cases whole
    | cons item before =>
      -- the results are no user texts, so the cut is behind them
      rcases List.append_eq_append_iff.1 (List.cons.inj whole).2 with
        ⟨cut, resultsEq, restEq⟩ | ⟨cut, -, tailEq⟩
      · cases cut with
        | nil => exact @ih [] restEq
        | cons first cut =>
          have result : first ∈ results.map HistoryItem.toolResult := by
            rw [resultsEq]
            exact List.mem_append_right _ List.mem_cons_self
          obtain ⟨r, -, is⟩ := List.mem_map.1 result
          rw [← is] at restEq
          cases restEq
      · exact ih tailEq.symm

end Paired

end Agent

end Carryforth
