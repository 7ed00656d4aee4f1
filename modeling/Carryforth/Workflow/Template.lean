import Carryforth.Lib.CanonicalJson
import Carryforth.Lib.Lines
import Carryforth.Lib.Marks
import Carryforth.Workflow.Scheduler

/-!
# Templates

The text of a step has placeholders for fields of the trigger and for outputs of earlier steps.  The
scanner goes from mark to mark and appends to its result, so what it puts in for a placeholder is
never scanned.  It writes an unknown placeholder back without the white space around its expression:
the rest of the template is kept as written iff there is none (`resolveTemplate_iff`).
-/

namespace Carryforth

namespace Workflow

open Lines Marks

/-! ## The parts of a template -/

def openMark : List Char := ['\x7b', '\x7b']

def closeMark : List Char := ['\x7d', '\x7d']

theorem length_lt_of_cut {t a rest body tail : List Char} (opened : First openMark t a rest)
    (closed : First closeMark rest body tail) : tail.length < t.length := by
  have first := opened.length
  have second := closed.length
  have marked : openMark.length = 2 := rfl
  omega

inductive Part
  | text (cs : List Char)
  | placeholder (body : List Char)
deriving DecidableEq, Repr

def Part.source : Part → List Char
  | .text cs => cs
  | .placeholder body => openMark ++ (body ++ closeMark)

/-- The placeholders go from the first opening mark to the next closing mark, and so on after it. -/
inductive Parts : List Char → List Part → Prop
  | plain {t : List Char} (outside : ¬openMark <:+: t) : Parts t [.text t]
  | unclosed {t a rest : List Char} (opened : First openMark t a rest)
      (unclosed : ¬closeMark <:+: rest) : Parts t [.text t]
  | placeholder {t a rest body tail : List Char} {parts : List Part}
      (opened : First openMark t a rest) (closed : First closeMark rest body tail)
      (later : Parts tail parts) : Parts t (.text a :: .placeholder body :: parts)

theorem exists_parts (t : List Char) : ∃ parts, Parts t parts := by
  cases opened : cutAt openMark t with
  | none => exact ⟨_, .plain (cutAt_eq_none_iff.1 opened)⟩
  | some cut =>
    obtain ⟨a, rest⟩ := cut
    cases closed : cutAt closeMark rest with
    | none => exact ⟨_, .unclosed (cutAt_eq_some opened) (cutAt_eq_none_iff.1 closed)⟩
    | some cut =>
      obtain ⟨body, tail⟩ := cut
      have shorter := length_lt_of_cut (cutAt_eq_some opened) (cutAt_eq_some closed)
      obtain ⟨parts, later⟩ := exists_parts tail
      exact ⟨_, .placeholder (cutAt_eq_some opened) (cutAt_eq_some closed) later⟩
termination_by t.length

theorem Parts.unique {t : List Char} {parts parts' : List Part} (first : Parts t parts)
    (second : Parts t parts') : parts = parts' := by
  induction first generalizing parts' with
  | plain outside =>
    cases second with
    | plain => rfl
    | unclosed => rfl
    | placeholder opened => exact absurd opened.inside outside
  | unclosed opened unclosed =>
    cases second with
    | plain => rfl
    | unclosed => rfl
    | placeholder opened' closed =>
      obtain ⟨-, rfl⟩ := opened.unique opened'
      exact absurd closed.inside unclosed
  | placeholder opened closed later ih =>
    cases second with
    | plain outside => exact absurd opened.inside outside
    | unclosed opened' unclosed =>
      obtain ⟨-, rfl⟩ := opened.unique opened'
      exact absurd closed.inside unclosed
    | placeholder opened' closed' later' =>
      obtain ⟨rfl, rfl⟩ := opened.unique opened'
      obtain ⟨rfl, rfl⟩ := closed.unique closed'
      rw [ih later']

theorem Parts.source {t : List Char} {parts : List Part} (split : Parts t parts) :
    parts.flatMap Part.source = t := by
  induction split with
  | plain => simp [Part.source]
  | unclosed => simp [Part.source]
  | placeholder opened closed later ih =>
    rw [opened.1, closed.1]
    simp [Part.source, ih]

/-! ## Variables -/

/-- The `npub` of a text that is a public key in hexadecimal. -/
class Npub where
  encode : String → Option String

structure TriggerContext where
  text : String
  author : String
  channelId : String
  timestamp : String
  emoji : String
  messageId : String
  webhookFields : String → Option String

def TriggerContext.getField (ctx : TriggerContext) (name : String) : Option String :=
  match name with
  | "text" => some ctx.text
  | "author" => some ctx.author
  | "channel_id" => some ctx.channelId
  | "timestamp" => some ctx.timestamp
  | "emoji" => some ctx.emoji
  | "message_id" => some ctx.messageId
  | other => ctx.webhookFields other

abbrev StepOutputs := String → Option Json.Value

def jsonToString [Json.ScalarText] : Json.Value → String
  | .string s => s
  | .bool b => if b then "true" else "false"
  | .number n => String.ofList (Json.ScalarText.number n)
  | .null => ""
  | other => String.ofList (Json.canonical other)

def jsonGetStr [Json.ScalarText] (value : Json.Value) (key : String) : Option String :=
  (value.get key).map jsonToString

def resolveVariable [Json.ScalarText] (path : String) (ctx : TriggerContext)
    (outputs : StepOutputs) : Option String :=
  match Text.stripPrefix "trigger." path with
  | some field => ctx.getField field
  | none => do
    let rest ← Text.stripPrefix "steps." path
    let (stepId, rest) ← splitFirst '.' rest.toList
    let (middle, field) ← splitFirst '.' rest
    if middle = "output".toList then
      let output ← outputs (String.ofList stepId)
      jsonGetStr output (String.ofList field)
    else none

def applyFilter [Npub] (value filter : String) : Except WorkflowError String :=
  let filter := Text.trim filter
  match (Text.stripPrefix "truncate(" filter).bind (Text.stripLast ')') with
  | some inner =>
    match Text.readUnsigned 64 (Text.trim inner) with
    | none => .error (.templateError s!"truncate() requires a number, got: {inner}")
    | some n => .ok (String.ofList (value.toList.take n))
  | none =>
    if filter = "npub" ∨ filter = "truncate_pubkey" then .ok ((Npub.encode value).getD value)
    else .error (.templateError s!"unknown filter: {filter}")

section Scanner

variable [Json.ScalarText] [Npub] (ctx : TriggerContext) (outputs : StepOutputs)

/-- The value of an expression, if its variable is known. -/
def evaluate (expr : String) : Option (Except WorkflowError String) :=
  match splitFirst '|' expr.toList with
  | some (path, filter) =>
    (resolveVariable (Text.trim (String.ofList path)) ctx outputs).map fun v =>
      applyFilter v (Text.trim (String.ofList filter))
  | none => (resolveVariable (Text.trim expr) ctx outputs).map .ok

/-! ## The scanner -/

/-- What is pushed for a placeholder: its value, or its expression between the marks. -/
def pushed (body : List Char) : Except WorkflowError (List Char) :=
  let expr := Text.trim (String.ofList body)
  match evaluate ctx outputs expr with
  | some value => value.map String.toList
  | none => .ok (openMark ++ (expr.toList ++ closeMark))

/-- The loop over the remaining text, which gets shorter with every placeholder. -/
def resolveLoop : Nat → List Char → List Char → Except WorkflowError (List Char)
  | 0, result, remaining => .ok (result ++ remaining)
  | fuel + 1, result, remaining =>
    match cutAt openMark remaining with
    | none => .ok (result ++ remaining)
    | some (before, rest) =>
      match cutAt closeMark rest with
      | none => .ok (result ++ before ++ openMark ++ rest)
      | some (body, tail) => do
        let value ← pushed ctx outputs body
        resolveLoop fuel (result ++ before ++ value) tail

def resolveTemplate (template : String) : Except WorkflowError String :=
  if openMark <:+: template.toList then
    (resolveLoop ctx outputs template.length [] template.toList).map String.ofList
  else .ok template

/-! ## What is written -/

/-- A placeholder whose variable is known gives its value, and everything else stays. -/
def substituted : Part → List Char
  | .text cs => cs
  | .placeholder body =>
    match evaluate ctx outputs (Text.trim (String.ofList body)) with
    | some (.ok value) => value.toList
    | _ => (Part.placeholder body).source

/-- What the scanner writes for a part. -/
def emitted : Part → List Char
  | .text cs => cs
  | .placeholder body =>
    match evaluate ctx outputs (Text.trim (String.ofList body)) with
    | some (.ok value) => value.toList
    | some (.error _) => (Part.placeholder body).source
    | none => (Part.placeholder (Text.trim (String.ofList body)).toList).source

omit [Json.ScalarText] [Npub] in
theorem toList_trim_sublist (body : List Char) :
    (Text.trim (String.ofList body)).toList.Sublist body := by
  unfold Text.trim
  rw [String.toList_ofList, String.toList_ofList, ← List.reverse_sublist, List.reverse_reverse]
  exact (List.dropWhile_sublist _).trans (List.dropWhile_sublist _).reverse

theorem emitted_of_pushed {body value : List Char} (ok : pushed ctx outputs body = .ok value) :
    emitted ctx outputs (.placeholder body) = value ∧
      ∀ e, evaluate ctx outputs (Text.trim (String.ofList body)) ≠ some (.error e) := by
  unfold pushed at ok
  cases known : evaluate ctx outputs (Text.trim (String.ofList body)) with
  | none =>
    simp only [known] at ok
    cases ok
    exact ⟨by simp only [emitted, known, Part.source], fun e => nofun⟩
  | some result =>
    cases result with
    | ok v =>
      simp only [known] at ok
      cases ok
      exact ⟨by simp only [emitted, known], fun e => nofun⟩
    | error e =>
      simp only [known] at ok
      cases ok

theorem resolveLoop_eq {fuel : Nat} {result remaining output : List Char} {parts : List Part}
    (split : Parts remaining parts) (enough : remaining.length ≤ fuel)
    (ok : resolveLoop ctx outputs fuel result remaining = .ok output) :
    output = result ++ parts.flatMap (emitted ctx outputs) ∧
      ∀ body, .placeholder body ∈ parts →
        ∀ e, evaluate ctx outputs (Text.trim (String.ofList body)) ≠ some (.error e) := by
  induction split generalizing fuel result with
  | plain outside =>
    have free := cutAt_eq_none_iff.2 outside
    refine ⟨?_, by simp⟩
    cases fuel with
    | zero =>
      cases ok
      simp [emitted]
    | succ fuel =>
      simp only [resolveLoop, free] at ok
      cases ok
      simp [emitted]
  | unclosed opened unclosed =>
    have free := cutAt_eq_none_iff.2 unclosed
    have cut := cutAt_eq_some_iff.2 opened
    refine ⟨?_, by simp⟩
    cases fuel with
    | zero =>
      cases ok
      simp [emitted]
    | succ fuel =>
      simp only [resolveLoop, cut, free] at ok
      cases ok
      simp [emitted, opened.1]
  | placeholder opened closed later ih =>
    have shorter := length_lt_of_cut opened closed
    cases fuel with
    | zero => omega
    | succ fuel =>
      simp only [resolveLoop, cutAt_eq_some_iff.2 opened, cutAt_eq_some_iff.2 closed] at ok
      obtain ⟨value, is, ok⟩ := Fallible.bind_eq_ok.1 ok
      obtain ⟨here, sound⟩ := emitted_of_pushed ctx outputs is
      obtain ⟨rest, sounds⟩ := ih (by omega) ok
      refine ⟨?_, fun body mem => ?_⟩
      · rw [rest, List.flatMap_cons, List.flatMap_cons, here]
        simp [emitted]
      · simp only [List.mem_cons, reduceCtorEq, false_or, Part.placeholder.injEq] at mem
        rcases mem with rfl | mem
        · exact sound
        · exact sounds body mem

/-- Of what the scanner writes and what should stand there, the former is never longer. -/
theorem length_emitted_le (part : Part) :
    (emitted ctx outputs part).length ≤ (substituted ctx outputs part).length := by
  cases part with
  | text cs => exact le_refl _
  | placeholder body =>
    have shorter := (toList_trim_sublist body).length_le
    cases known : evaluate ctx outputs (Text.trim (String.ofList body)) with
    | none =>
      simp only [emitted, substituted, known, Part.source, List.length_append]
      omega
    | some result =>
      cases result with
      | ok v => simp only [emitted, substituted, known, le_refl]
      | error e => simp only [emitted, substituted, known, le_refl]

theorem emitted_eq_iff (body : List Char) :
    emitted ctx outputs (.placeholder body) = substituted ctx outputs (.placeholder body) ↔
      (evaluate ctx outputs (Text.trim (String.ofList body)) = none →
        (Text.trim (String.ofList body)).toList = body) := by
  cases known : evaluate ctx outputs (Text.trim (String.ofList body)) with
  | none => simp [emitted, substituted, known, Part.source]
  | some result =>
    cases result with
    | ok v => simp [emitted, substituted, known]
    | error e => simp [emitted, substituted, known]

/-- If the template can be resolved, no filter of it fails, and the result is the template with each
known placeholder replaced by its value, everything else as it is, iff the unknown placeholders have
no white space around their expression. -/
theorem resolveTemplate_iff {template output : String}
    (ok : resolveTemplate ctx outputs template = .ok output) :
    ∃ parts, Parts template.toList parts ∧ parts.flatMap Part.source = template.toList ∧
      (∀ body, .placeholder body ∈ parts →
        ∀ e, evaluate ctx outputs (Text.trim (String.ofList body)) ≠ some (.error e)) ∧
      (output.toList = parts.flatMap (substituted ctx outputs) ↔
        ∀ body, .placeholder body ∈ parts →
          evaluate ctx outputs (Text.trim (String.ofList body)) = none →
          (Text.trim (String.ofList body)).toList = body) := by
  obtain ⟨parts, split⟩ := exists_parts template.toList
  obtain ⟨written, sound⟩ : output.toList = parts.flatMap (emitted ctx outputs) ∧
      ∀ body, .placeholder body ∈ parts →
        ∀ e, evaluate ctx outputs (Text.trim (String.ofList body)) ≠ some (.error e) := by
    unfold resolveTemplate at ok
    split at ok
    · cases scanned : resolveLoop ctx outputs template.length [] template.toList with
      | error e =>
        rw [scanned] at ok
        cases ok
      | ok result =>
        rw [scanned] at ok
        cases ok
        rw [String.toList_ofList]
        exact resolveLoop_eq ctx outputs split (le_refl _) scanned
    · next outside =>
      cases ok
      rw [split.unique (.plain outside)]
      exact ⟨by simp [emitted], by simp⟩
  refine ⟨parts, split, split.source, sound, ?_⟩
  rw [written, flatMap_eq_iff (length_emitted_le ctx outputs)]
  constructor
  · intro each body mem
    exact (emitted_eq_iff ctx outputs body).1 (each _ mem)
  · intro each part mem
    cases part with
    | text cs => rfl
    | placeholder body => exact (emitted_eq_iff ctx outputs body).2 (each body mem)

end Scanner

/-- A message that looks like a placeholder. -/
def braced : TriggerContext :=
  ⟨"\x7b\x7bx\x7d\x7d", "", "", "", "", "", fun _ => none⟩

abbrev plainKeys : Npub := ⟨fun _ => none⟩

theorem resolveTemplate_iff_braced :
    @resolveTemplate Json.plainText plainKeys braced (fun _ => none)
        "\x7b\x7btrigger.text\x7d\x7d \x7b\x7by\x7d\x7d" =
          .ok "\x7b\x7bx\x7d\x7d \x7b\x7by\x7d\x7d" ∧
      ∃ parts, Parts "\x7b\x7btrigger.text\x7d\x7d \x7b\x7by\x7d\x7d".toList parts ∧
        parts.flatMap Part.source =
          "\x7b\x7btrigger.text\x7d\x7d \x7b\x7by\x7d\x7d".toList ∧
        (∀ body, .placeholder body ∈ parts →
          ∀ e, @evaluate Json.plainText plainKeys braced (fun _ => none)
            (Text.trim (String.ofList body)) ≠ some (.error e)) ∧
        ("\x7b\x7bx\x7d\x7d \x7b\x7by\x7d\x7d".toList =
            parts.flatMap (@substituted Json.plainText plainKeys braced fun _ => none) ↔
          ∀ body, .placeholder body ∈ parts →
            @evaluate Json.plainText plainKeys braced (fun _ => none)
              (Text.trim (String.ofList body)) = none →
            (Text.trim (String.ofList body)).toList = body) := by
  have ok : @resolveTemplate Json.plainText plainKeys braced (fun _ => none)
      "\x7b\x7btrigger.text\x7d\x7d \x7b\x7by\x7d\x7d" =
        .ok "\x7b\x7bx\x7d\x7d \x7b\x7by\x7d\x7d" := by
    decide +kernel
  exact ⟨ok, @resolveTemplate_iff Json.plainText plainKeys _ _ _ _ ok⟩

/-- The white space of an unknown placeholder is lost. -/
theorem resolveTemplate_loses_space :
    @resolveTemplate Json.plainText plainKeys braced (fun _ => none) "\x7b\x7b x \x7d\x7d" =
        .ok "\x7b\x7bx\x7d\x7d" ∧
      Parts "\x7b\x7b x \x7d\x7d".toList [.text [], .placeholder [' ', 'x', ' '], .text []] ∧
      "\x7b\x7bx\x7d\x7d".toList ≠
        [Part.text [], .placeholder [' ', 'x', ' '], .text []].flatMap
          (@substituted Json.plainText plainKeys braced fun _ => none) := by
  refine ⟨by decide +kernel, ?_, by decide +kernel⟩
  refine @Parts.placeholder _ [] " x \x7d\x7d".toList _ [] _ (cutAt_eq_some ?_) (cutAt_eq_some ?_)
    (.plain ?_)
  · decide +kernel
  · decide +kernel
  · decide +kernel

end Workflow

end Carryforth
