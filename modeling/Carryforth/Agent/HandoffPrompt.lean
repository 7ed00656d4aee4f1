import Carryforth.Agent.Run
import Carryforth.Lib.FirstFit

/-!
# The prompt of a handoff

The summary of a conversation is asked for with a prompt that shows the conversation, newest items
first in line for the bytes that are left.  The items that are shown are not always the newest ones: an
item that does not fit is passed over, and older ones may still be shown.  The newest item is cut if
it alone is too long, but counts as omitted; and the line that says how many items were omitted has no
place in the budget.  `buildHandoffPrompt_faithful_iff` says when none of this matters.
-/

namespace Carryforth

namespace Agent

open FirstFit

def handoffMaxOutputTokens : Nat := 8192

def handoffOriginalTaskMaxBytes : Nat := 16 * 1024

def handoffMaxToolNames : Nat := 20

def conservativeBytesPerToken : Nat := 1

/-! ## Texts -/

/-- The longest beginning of a text that has at most some bytes. -/
def floorBytes : Nat → List Char → List Char
  | _, [] => []
  | n, c :: cs => if c.utf8Size ≤ n then c :: floorBytes (n - c.utf8Size) cs else []

def clampBytes (s : String) (maxBytes : Nat) : String :=
  if Text.byteLength s ≤ maxBytes then s
  else if maxBytes < 4 then String.ofList (floorBytes maxBytes s.toList)
  else String.ofList (floorBytes (maxBytes - Text.byteLength "…") s.toList) ++ "…"

def ToolResultContent.asTextLossy : ToolResultContent → String
  | .text s => s
  | .image data mimeType => s!"[image: {mimeType}, {Text.byteLength data} base64 bytes]"

def ToolResult.text (r : ToolResult) : String :=
  "\n".intercalate (r.content.map ToolResultContent.asTextLossy)

def historySnippet : HistoryItem → String
  | .user s => "[user] " ++ s ++ "\n"
  | .assistant text toolCalls =>
    "[assistant] " ++ text ++ String.join (toolCalls.map fun c => s!" tool:{c.name}") ++ "\n"
  | .toolResult r => (if r.isError then "[tool_err] " else "[tool] ") ++ r.text ++ "\n"

/-! ## The prompt -/

def handoffTools (tools : List String) : String :=
  if tools = [] then "(none)\n"
  else
    let shown := min tools.length handoffMaxToolNames
    ", ".intercalate (tools.take shown) ++
      (if shown < tools.length then s!", … (+{tools.length - shown} more)" else "") ++ "\n"

def Session.handoffHead (s : Session) (tools : List String) : String :=
  s!"[Internal handoff #{s.handoffCount + 1} — context reset]\n\n" ++ "# Original Task\n" ++
    clampBytes (s.originalTask.getD "(unknown)") handoffOriginalTaskMaxBytes ++
    "\n\n# Available Tools\n" ++ handoffTools tools

def handoffTail : String :=
  "\n# Instructions\n" ++ "Produce a context handoff summary covering: (1) original task, " ++
    "(2) what was accomplished, (3) key decisions, (4) what remains, " ++
    "(5) one concrete next step. Be concise but thorough. Plain text.\n"

def historyHeader : String := "\n# Session History (oldest first)\n"

def handoffPromptBudgetBytes (maxContextTokens maxOutputTokens fixedPromptBytes : Nat) : Nat :=
  (maxContextTokens - maxOutputTokens) * conservativeBytesPerToken - fixedPromptBytes

/-- The snippets so far, newest first, their bytes, and how many items were passed over. -/
structure Collected where
  snippets : List String
  snippetsBytes : Nat
  dropped : Nat
deriving DecidableEq, Repr

/-- One item. -/
def Collected.add (budget : Nat) (c : Collected) (item : HistoryItem) : Collected :=
  let snippet := historySnippet item
  let snippetBytes := Text.byteLength snippet
  if budget < c.snippetsBytes + snippetBytes then
    if c.snippets = [] then
      { snippets := [clampBytes snippet budget], snippetsBytes := budget, dropped := c.dropped + 1 }
    else { c with dropped := c.dropped + 1 }
  else
    { c with
      snippets := c.snippets ++ [snippet]
      snippetsBytes := c.snippetsBytes + snippetBytes }

def collect (budget : Nat) (history : List HistoryItem) : Collected :=
  history.reverse.foldl (Collected.add budget) ⟨[], 0, 0⟩

/-- The bytes of everything but the conversation. -/
def Session.handoffFixedBytes (s : Session) (tools : List String) : Nat :=
  Text.byteLength (s.handoffHead tools) + Text.byteLength historyHeader + Text.byteLength handoffTail

def Session.handoffBudget (s : Session) (cfg : Config) (tools : List String) : Nat :=
  handoffPromptBudgetBytes cfg.maxContextTokens handoffMaxOutputTokens (s.handoffFixedBytes tools)

/-- The line about the items that are not shown. -/
def omissionLine (dropped : Nat) : String :=
  if 0 < dropped then s!"(… {dropped} older items omitted)\n" else ""

def Session.buildHandoffPrompt (s : Session) (cfg : Config) (tools : List String) : String :=
  let c := collect (s.handoffBudget cfg tools) s.history
  s.handoffHead tools ++ historyHeader ++ omissionLine c.dropped ++ String.join c.snippets.reverse ++
    handoffTail

/-! ## What is shown -/

theorem historySnippet_pos (item : HistoryItem) : 0 < Text.byteLength (historySnippet item) := by
  have line : ∀ s : String, 0 < Text.byteLength (s ++ "\n") := by
    intro s
    rw [Text.byteLength_append]
    exact Nat.add_pos_right _ (by decide)
  cases item with
  | user s => exact line _
  | assistant text toolCalls => exact line _
  | toolResult r => exact line _

def textBytes (texts : List String) : Nat := total Text.byteLength texts

theorem textBytes_cons (text : String) (texts : List String) :
    textBytes (text :: texts) = Text.byteLength text + textBytes texts := total_cons

theorem byteLength_join (texts : List String) :
    Text.byteLength (String.join texts) = textBytes texts := by
  have loop : ∀ (texts : List String) (s : String),
      Text.byteLength (texts.foldl (· ++ ·) s) = Text.byteLength s + textBytes texts := by
    intro texts
    induction texts with
    | nil => exact fun s => (Nat.add_zero _).symm
    | cons t texts ih =>
      intro s
      rw [List.foldl_cons, ih, Text.byteLength_append, textBytes, textBytes, total_cons, Nat.add_assoc]
  exact (loop texts "").trans (Nat.zero_add _)

theorem textBytes_reverse (texts : List String) : textBytes texts.reverse = textBytes texts := by
  unfold textBytes total
  rw [List.map_reverse, List.sum_reverse]

theorem foldl_add {budget : Nat} {c : Collected} (some : c.snippets ≠ []) (items : List HistoryItem) :
    items.foldl (Collected.add budget) c =
      { snippets := c.snippets ++
          kept Text.byteLength budget c.snippetsBytes (items.map historySnippet)
        snippetsBytes := c.snippetsBytes +
          textBytes (kept Text.byteLength budget c.snippetsBytes (items.map historySnippet))
        dropped := c.dropped + (items.length -
          (kept Text.byteLength budget c.snippetsBytes (items.map historySnippet)).length) } := by
  induction items generalizing c with
  | nil =>
    simp only [List.foldl_nil, List.map_nil, kept, List.append_nil, List.length_nil, Nat.sub_self,
      Nat.add_zero, textBytes, total, List.sum_nil]
  | cons item items ih =>
    have few := @length_kept_le String Text.byteLength budget
    rw [List.foldl_cons, List.map_cons, Collected.add]
    split_ifs with large
    · rw [@ih ⟨c.snippets, c.snippetsBytes, c.dropped + 1⟩ some, kept_of_not_fits (Nat.not_le.2 large)]
      have bound := @few c.snippetsBytes (items.map historySnippet)
      rw [List.length_map] at bound
      simp only [Collected.mk.injEq, List.length_cons, true_and]
      omega
    · rw [ih (List.append_ne_nil_of_right_ne_nil _ (List.cons_ne_nil _ _)),
        kept_of_fits (Nat.not_lt.1 large)]
      simp only [List.append_assoc, List.singleton_append, List.length_cons, textBytes, total_cons,
        Nat.add_assoc, Nat.add_sub_add_right]

section Collect

variable {budget : Nat} {older : List HistoryItem} {newest : HistoryItem}

/-- The snippets of the other items that are kept next to the newest. -/
def keptOlder (budget : Nat) (older : List HistoryItem) (newest : HistoryItem) : List String :=
  kept Text.byteLength budget (Text.byteLength (historySnippet newest))
    (older.reverse.map historySnippet)

theorem collect_of_fits (fits : Text.byteLength (historySnippet newest) ≤ budget) :
    collect budget (older ++ [newest]) =
      { snippets := historySnippet newest :: keptOlder budget older newest
        snippetsBytes := textBytes (historySnippet newest :: keptOlder budget older newest)
        dropped := older.length - (keptOlder budget older newest).length } := by
  have first : Collected.add budget ⟨[], 0, 0⟩ newest =
      ⟨[historySnippet newest], Text.byteLength (historySnippet newest), 0⟩ := by
    simp only [Collected.add, Nat.zero_add, Nat.not_lt.2 fits, if_false, List.nil_append]
  rw [collect, List.reverse_append, List.reverse_singleton, List.singleton_append, List.foldl_cons,
    first, foldl_add (List.cons_ne_nil _ _)]
  simp only [keptOlder, List.singleton_append, textBytes, total_cons, Nat.zero_add,
    List.length_reverse]

/-- If the newest item does not fit, it is cut, and nothing else is shown. -/
theorem collect_of_large (large : budget < Text.byteLength (historySnippet newest)) :
    collect budget (older ++ [newest]) =
      { snippets := [clampBytes (historySnippet newest) budget]
        snippetsBytes := budget
        dropped := older.length + 1 } := by
  have first : Collected.add budget ⟨[], 0, 0⟩ newest =
      ⟨[clampBytes (historySnippet newest) budget], budget, 1⟩ := by
    simp only [Collected.add, Nat.zero_add, large, if_true]
  have nothing : kept Text.byteLength budget budget (older.reverse.map historySnippet) = [] := by
    refine kept_eq_nil fun text mem => ?_
    obtain ⟨item, -, rfl⟩ := List.mem_map.1 mem
    exact Nat.lt_add_of_pos_right (historySnippet_pos item)
  rw [collect, List.reverse_append, List.reverse_singleton, List.singleton_append, List.foldl_cons,
    first, foldl_add (List.cons_ne_nil _ _), nothing]
  simp only [List.append_nil, textBytes, total, List.map_nil, List.sum_nil, Nat.add_zero,
    List.length_nil, Nat.sub_zero, List.length_reverse, Nat.add_comm]

end Collect

/-! ## When the prompt is faithful -/

/-- A text or a beginning of it, which may be marked. -/
def Shortened (s t : String) : Prop := ∃ cut rest, s = cut ++ rest ∧ (t = cut ∨ t = cut ++ "…")

/-- The items in their order; only the newest may be shortened. -/
def Renders (shown : List HistoryItem) (snippets : List String) : Prop :=
  (shown = [] ∧ snippets = []) ∨
    ∃ older newest text, shown = older ++ [newest] ∧ Shortened (historySnippet newest) text ∧
      snippets = older.map historySnippet ++ [text]

/-- The prompt shows the newest items, says how many there are before them, and is not too long. -/
def Session.Faithful (s : Session) (cfg : Config) (tools : List String) : Prop :=
  ∃ missing shown, s.history = missing ++ shown ∧
    Renders shown (collect (s.handoffBudget cfg tools) s.history).snippets.reverse ∧
    (collect (s.handoffBudget cfg tools) s.history).dropped = missing.length ∧
    Text.byteLength (s.buildHandoffPrompt cfg tools) ≤ cfg.maxContextTokens - handoffMaxOutputTokens

/-- The newest item fits; and where items are left out, each of them is too large for what the newer
ones leave, and these leave room for the line about it. -/
def Session.Fits (s : Session) (cfg : Config) (tools : List String) : Prop :=
  ∃ missing shown, s.history = missing ++ shown ∧ (shown = [] → missing = []) ∧
    (∀ item ∈ missing, s.handoffBudget cfg tools <
      textBytes (shown.map historySnippet) + Text.byteLength (historySnippet item)) ∧
    textBytes (shown.map historySnippet) + Text.byteLength (omissionLine missing.length) ≤
      s.handoffBudget cfg tools

theorem byteLength_buildHandoffPrompt (s : Session) (cfg : Config) (tools : List String) :
    Text.byteLength (s.buildHandoffPrompt cfg tools) = s.handoffFixedBytes tools +
      Text.byteLength (omissionLine (collect (s.handoffBudget cfg tools) s.history).dropped) +
      textBytes (collect (s.handoffBudget cfg tools) s.history).snippets := by
  simp only [Session.buildHandoffPrompt, Session.handoffFixedBytes, Text.byteLength_append,
    byteLength_join, textBytes_reverse]
  omega

theorem shortened_self (s : String) : Shortened s s := ⟨s, "", (String.append_empty).symm, .inl rfl⟩

theorem byteLength_omissionLine_zero : Text.byteLength (omissionLine 0) = 0 := by decide

theorem textBytes_nil : textBytes [] = 0 := rfl

theorem textBytes_concat (items : List HistoryItem) (newest : HistoryItem) :
    textBytes ((items ++ [newest]).map historySnippet) =
      Text.byteLength (historySnippet newest) + textBytes (items.reverse.map historySnippet) := by
  rw [← textBytes_reverse, ← List.map_reverse, List.reverse_append]
  exact textBytes_cons _ _

/-- Next to the newest item, the newest of the others are kept exactly if the rest is too large. -/
theorem keptOlder_eq_iff {budget : Nat} {missing items : List HistoryItem} {newest : HistoryItem}
    (fits : Text.byteLength (historySnippet newest) ≤ budget) :
    keptOlder budget (missing ++ items) newest = items.reverse.map historySnippet ↔
      textBytes ((items ++ [newest]).map historySnippet) ≤ budget ∧ ∀ item ∈ missing,
        budget < textBytes ((items ++ [newest]).map historySnippet) +
          Text.byteLength (historySnippet item) := by
  have parts : (missing ++ items).reverse.map historySnippet =
      items.reverse.map historySnippet ++ missing.reverse.map historySnippet := by
    rw [List.reverse_append, List.map_append]
  rw [textBytes_concat, keptOlder, parts]
  constructor
  · intro same
    have within := @total_kept_le String Text.byteLength budget _
      (items.reverse.map historySnippet ++ missing.reverse.map historySnippet) fits
    obtain ⟨rest, whole, large⟩ := exists_of_kept_eq_take (by rw [same, List.take_left])
    rw [same] at within whole large
    obtain rfl := List.append_cancel_left whole
    refine ⟨within, fun item mem => ?_⟩
    exact large _ (List.mem_map_of_mem (List.mem_reverse.2 mem))
  · rintro ⟨within, large⟩
    refine kept_append within fun text mem => ?_
    obtain ⟨item, there, rfl⟩ := List.mem_map.1 mem
    exact large item (List.mem_reverse.1 there)

section Faithful

variable {s : Session} {cfg : Config} {tools : List String} {older : List HistoryItem}
  {newest : HistoryItem}

theorem handoffBudget_add
    (fixed : s.handoffFixedBytes tools ≤ cfg.maxContextTokens - handoffMaxOutputTokens) :
    s.handoffBudget cfg tools + s.handoffFixedBytes tools =
      cfg.maxContextTokens - handoffMaxOutputTokens := by
  rw [Session.handoffBudget, handoffPromptBudgetBytes, conservativeBytesPerToken, Nat.mul_one,
    Nat.sub_add_cancel fixed]

theorem faithful_of_empty (empty : s.history = [])
    (fixed : s.handoffFixedBytes tools ≤ cfg.maxContextTokens - handoffMaxOutputTokens) :
    s.Faithful cfg tools := by
  have size := byteLength_buildHandoffPrompt s cfg tools
  have nothing : collect (s.handoffBudget cfg tools) s.history = ⟨[], 0, 0⟩ := by
    rw [empty]
    rfl
  rw [nothing] at size
  simp only [byteLength_omissionLine_zero, textBytes_nil, Nat.add_zero] at size
  refine ⟨[], [], empty, ?_, ?_, size.trans_le fixed⟩
  · rw [nothing]
    exact .inl ⟨rfl, rfl⟩
  · rw [nothing]
    rfl

theorem not_faithful_of_large (is : s.history = older ++ [newest])
    (large : s.handoffBudget cfg tools < Text.byteLength (historySnippet newest)) :
    ¬s.Faithful cfg tools := by
  rintro ⟨missing, shown, whole, renders, count, -⟩
  rw [is] at whole renders count
  rw [collect_of_large large] at renders count
  have length := congrArg List.length whole
  simp only [List.length_append, List.length_singleton] at length count
  have none : shown = [] := List.eq_nil_of_length_eq_zero (by omega)
  rcases renders with ⟨-, empty⟩ | ⟨items, last, text, there, -, -⟩
  · cases empty
  · rw [none] at there
    exact absurd there (List.append_ne_nil_of_right_ne_nil _ (List.cons_ne_nil _ _)).symm

theorem split_last {missing shown : List HistoryItem} (whole : older ++ [newest] = missing ++ shown)
    (all : shown = [] → missing = []) :
    ∃ items, shown = items ++ [newest] ∧ older = missing ++ items := by
  rcases List.eq_nil_or_concat shown with none | ⟨items, last, rfl⟩
  · rw [none, all none] at whole
    exact absurd whole (List.append_ne_nil_of_right_ne_nil _ (List.cons_ne_nil _ _))
  · rw [List.concat_eq_append, ← List.append_assoc] at whole
    obtain ⟨rfl, same⟩ := List.append_inj' whole rfl
    rw [List.concat_eq_append, (List.cons.inj same).1]
    exact ⟨items, rfl, rfl⟩

theorem not_fits_of_large (is : s.history = older ++ [newest])
    (large : s.handoffBudget cfg tools < Text.byteLength (historySnippet newest)) :
    ¬s.Fits cfg tools := by
  rintro ⟨missing, shown, whole, all, -, within⟩
  obtain ⟨items, rfl, -⟩ := split_last (is.symm.trans whole) all
  rw [textBytes_concat] at within
  omega

theorem byteLength_of_fits (is : s.history = older ++ [newest])
    (fits : Text.byteLength (historySnippet newest) ≤ s.handoffBudget cfg tools) :
    Text.byteLength (s.buildHandoffPrompt cfg tools) = s.handoffFixedBytes tools +
      Text.byteLength (omissionLine
        (older.length - (keptOlder (s.handoffBudget cfg tools) older newest).length)) +
      (Text.byteLength (historySnippet newest) +
        textBytes (keptOlder (s.handoffBudget cfg tools) older newest)) := by
  rw [byteLength_buildHandoffPrompt, is, collect_of_fits fits, textBytes_cons]

theorem fits_of_faithful (is : s.history = older ++ [newest])
    (fixed : s.handoffFixedBytes tools ≤ cfg.maxContextTokens - handoffMaxOutputTokens)
    (fits : Text.byteLength (historySnippet newest) ≤ s.handoffBudget cfg tools)
    (faithful : s.Faithful cfg tools) : s.Fits cfg tools := by
  have budget := handoffBudget_add fixed
  have size := byteLength_of_fits is fits
  obtain ⟨missing, shown, whole, renders, count, bounded⟩ := faithful
  rw [is, collect_of_fits fits] at renders count
  dsimp only at count
  rcases renders with ⟨-, none⟩ | ⟨items, last, text, rfl, -, snippets⟩
  · simp at none
  · obtain ⟨rfl, same⟩ := List.append_inj' ((List.append_assoc _ _ _).trans
      (whole.symm.trans is)) rfl
    obtain rfl := (List.cons.inj same).1
    rw [List.reverse_cons] at snippets
    have shown := congrArg List.reverse (List.append_inj' snippets rfl).1
    rw [List.reverse_reverse, ← List.map_reverse] at shown
    refine ⟨missing, items ++ [last], whole, fun none => ?_, ((keptOlder_eq_iff fits).1 shown).2, ?_⟩
    · simp at none
    · rw [size, count, shown] at bounded
      rw [textBytes_concat]
      omega

theorem faithful_of_fits (is : s.history = older ++ [newest])
    (fixed : s.handoffFixedBytes tools ≤ cfg.maxContextTokens - handoffMaxOutputTokens)
    (fits : Text.byteLength (historySnippet newest) ≤ s.handoffBudget cfg tools)
    (room : s.Fits cfg tools) : s.Faithful cfg tools := by
  have budget := handoffBudget_add fixed
  have size := byteLength_of_fits is fits
  obtain ⟨missing, shown, whole, all, large, within⟩ := room
  obtain ⟨items, rfl, rfl⟩ := split_last (is.symm.trans whole) all
  have shown := (keptOlder_eq_iff fits).2 ⟨(Nat.le_add_right _ _).trans within, large⟩
  have count : (missing ++ items).length - (items.reverse.map historySnippet).length =
      missing.length := by
    rw [List.length_append, List.length_map, List.length_reverse, Nat.add_sub_cancel]
  refine ⟨missing, items ++ [newest], whole, .inr ⟨items, newest, _, rfl, shortened_self _, ?_⟩, ?_, ?_⟩
  · rw [is, collect_of_fits fits, shown, List.reverse_cons, ← List.map_reverse, List.reverse_reverse]
  · rw [is, collect_of_fits fits, shown]
    exact count
  · rw [size, shown, count]
    rw [textBytes_concat] at within
    omega

end Faithful

/-- The prompt of a handoff shows the newest items, oldest first and only the newest one shortened,
reports the number of those before them, and keeps to its limit, exactly if the newest item fits, all
items that are left out are older than those that fit, and the line about them fits too. -/
theorem buildHandoffPrompt_faithful_iff {s : Session} {cfg : Config} {tools : List String}
    (fixed : s.handoffFixedBytes tools ≤ cfg.maxContextTokens - handoffMaxOutputTokens) :
    s.Faithful cfg tools ↔ s.Fits cfg tools := by
  rcases List.eq_nil_or_concat s.history with empty | ⟨older, newest, is⟩
  · exact iff_of_true (faithful_of_empty empty fixed)
      ⟨[], [], empty, fun _ => rfl, List.forall_mem_nil _, Nat.zero_le _⟩
  · rw [List.concat_eq_append] at is
    rcases Nat.lt_or_ge (s.handoffBudget cfg tools) (Text.byteLength (historySnippet newest)) with
      large | fits
    · exact iff_of_false (not_faithful_of_large is large) (not_fits_of_large is large)
    · exact ⟨fits_of_faithful is fixed fits, faithful_of_fits is fixed fits⟩

/-! ## A budget of sixty bytes -/

def sixty (history : List HistoryItem) : Session := { Session.new with history }

/-- Room for sixty bytes of the conversation. -/
def sixtyConfig : Config :=
  { Config.default with maxContextTokens := 8192 + 335 + 60, maxOutputTokens := 4096 }

/-- A user text of sixty bytes, which does not fit. -/
def long : HistoryItem := .user (String.ofList (List.replicate 60 'b'))

theorem buildHandoffPrompt_faithful_iff_short :
    (sixty [long, .user "c"]).handoffFixedBytes [] ≤
        sixtyConfig.maxContextTokens - handoffMaxOutputTokens ∧
      ((sixty [long, .user "c"]).Faithful sixtyConfig [] ↔
        (sixty [long, .user "c"]).Fits sixtyConfig []) ∧
      (sixty [long, .user "c"]).Fits sixtyConfig [] :=
  have fixed : (sixty [long, .user "c"]).handoffFixedBytes [] ≤
      sixtyConfig.maxContextTokens - handoffMaxOutputTokens := by decide +kernel
  ⟨fixed, buildHandoffPrompt_faithful_iff fixed,
    [long], [.user "c"], rfl, nofun, by decide +kernel, by decide +kernel⟩

/-- An item in the middle is passed over; an item that is cut counts as omitted; and the line about
omitted items makes the prompt too long. -/
theorem buildHandoffPrompt_unfaithful :
    sixtyConfig.validate = .ok () ∧
    (¬(sixty [.user "a", long, .user "c"]).Faithful sixtyConfig [] ∧
        (collect ((sixty [.user "a", long, .user "c"]).handoffBudget sixtyConfig [])
          [.user "a", long, .user "c"]).snippets = ["[user] c\n", "[user] a\n"]) ∧
      (¬(sixty [long]).Faithful sixtyConfig [] ∧
        (collect ((sixty [long]).handoffBudget sixtyConfig []) [long]).dropped = 1) ∧
      (¬(sixty [long, .user "0123456789012345678901234567890123456789"]).Faithful sixtyConfig [] ∧
        sixtyConfig.maxContextTokens - handoffMaxOutputTokens < Text.byteLength
          ((sixty [long, .user "0123456789012345678901234567890123456789"]).buildHandoffPrompt
            sixtyConfig [])) := by
  have skips : collect ((sixty [.user "a", long, .user "c"]).handoffBudget sixtyConfig [])
      (sixty [.user "a", long, .user "c"]).history = ⟨["[user] c\n", "[user] a\n"], 18, 1⟩ := by
    decide +kernel
  have exceeds : sixtyConfig.maxContextTokens - handoffMaxOutputTokens < Text.byteLength
      ((sixty [long, .user "0123456789012345678901234567890123456789"]).buildHandoffPrompt
        sixtyConfig []) := by
    decide +kernel
  refine ⟨Config.validate_eq_ok.2 (by decide), ⟨?_, congrArg Collected.snippets skips⟩,
    ⟨?_, by decide +kernel⟩, ?_, exceeds⟩
  · rintro ⟨missing, shown, whole, renders, count, -⟩
    rw [skips] at renders count
    match missing, count, whole with
    | [_], _, whole =>
      obtain ⟨-, rfl⟩ := List.cons.inj whole
      rcases renders with ⟨none, -⟩ | ⟨items, last, text, there, -, snippets⟩
      · cases none
      · have split : [long] ++ [.user "c"] = items ++ [last] := there
        obtain ⟨rfl, -⟩ := List.append_inj' split rfl
        have first : "[user] a\n" = historySnippet long := (List.cons.inj snippets).1
        exact absurd first (by decide +kernel)
  · rintro ⟨missing, shown, whole, renders, count, bounded⟩
    exact absurd bounded (by decide +kernel)
  · rintro ⟨missing, shown, whole, renders, count, bounded⟩
    exact absurd bounded (Nat.not_le.2 exceeds)

end Agent

end Carryforth
