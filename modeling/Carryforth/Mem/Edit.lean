import Carryforth.Engram.Body
import Carryforth.Lib.Lines
import Carryforth.Lib.Steps
import Carryforth.Mem.Patch
import Carryforth.Types

/-!
# Memory edits

Clients edit the value of one slug with `cf mem patch`: they fetch the head, compare its hash with
the one the patch was made for, apply the patch and submit an event that is dated after the head.
The relay takes the event as the new head if it is the latest.  The comparison and the submission
are two steps.  A client whose patch is written while no other one was written since its fetch has
patched the head; otherwise its date alone makes it replace an edit it has not seen
(`noLostUpdate_of_exclusive`, `overwrites_written`).  The head only moves on, and depends on the
stored events alone (`run_head`).
-/

namespace Carryforth

namespace Mem

open Fallible Text Engram
open LinePatch (Patch)

/-! ## Events and their head -/

/-- A valid event of a slug: when it was made, its identifier and the body in it. -/
structure Stored where
  createdAt : Nat
  id : EventId
  body : Body
deriving DecidableEq, Repr

/-- Of two events the later one, or the one with the lower identifier. -/
def later (a b : Stored) : Stored :=
  if a.createdAt < b.createdAt then b
  else if b.createdAt < a.createdAt then a
  else if b.id < a.id then b
  else a

def selectHead : List Stored → Option Stored
  | [] => none
  | e :: events => some (events.foldl later e)

def monotonicCreatedAt (now : Nat) (priorHead : Option Nat) : Nat :=
  match priorHead with
  | some t => max now (min (t + 1) (2 ^ 64 - 1))
  | none => now

/-- The event replaces the head. -/
def Supersedes (event : Stored) (head : Option Stored) : Prop :=
  ∀ h, head = some h → h.createdAt < event.createdAt ∨
    h.createdAt = event.createdAt ∧ event.id < h.id

theorem supersedes_some {event head : Stored} : Supersedes event (some head) ↔
    head.createdAt < event.createdAt ∨ head.createdAt = event.createdAt ∧ event.id < head.id :=
  ⟨fun is => is head rfl, fun is _ same => Option.some.inj same ▸ is⟩

instance (event : Stored) : DecidablePred (Supersedes event)
  | none => .isTrue fun _ h => (nomatch h)
  | some _ => decidable_of_iff _ supersedes_some.symm

theorem later_eq (a b : Stored) : later a b = if Supersedes b (some a) then b else a := by
  unfold later
  by_cases newer : a.createdAt < b.createdAt
  · rw [if_pos newer, if_pos (supersedes_some.2 (.inl newer))]
  · rw [if_neg newer]
    by_cases older : b.createdAt < a.createdAt
    · rw [if_pos older, if_neg]
      intro supersedes
      rcases supersedes_some.1 supersedes with before | ⟨same, -⟩ <;> omega
    · rw [if_neg older]
      have same : a.createdAt = b.createdAt := by omega
      by_cases lower : b.id < a.id
      · rw [if_pos lower, if_pos (supersedes_some.2 (.inr ⟨same, lower⟩))]
      · rw [if_neg lower, if_neg]
        intro supersedes
        rcases supersedes_some.1 supersedes with before | ⟨-, low⟩
        · omega
        · exact lower low

/-- An event that arrives becomes the head if it supersedes it, and changes nothing otherwise. -/
theorem selectHead_append (events : List Stored) (event : Stored) :
    selectHead (events ++ [event]) =
      if Supersedes event (selectHead events) then some event else selectHead events := by
  cases events with
  | nil => rfl
  | cons e events =>
    rw [List.cons_append, selectHead, List.foldl_append]
    show some (later (events.foldl later e) event) = _
    rw [later_eq]
    show _ = if Supersedes event (some (events.foldl later e)) then some event
      else some (events.foldl later e)
    split_ifs <;> rfl

def headAfter (head : Option Stored) (event : Stored) : Option Stored :=
  if Supersedes event head then some event else head

theorem selectHead_eq_foldl (events : List Stored) :
    selectHead events = events.foldl headAfter none := by
  induction events using List.reverseRecOn with
  | nil => rfl
  | append_singleton events event ih =>
    rw [selectHead_append, ih, List.foldl_append]
    rfl

theorem Supersedes.trans {a b : Stored} {head : Option Stored} (later : Supersedes b (some a))
    (early : Supersedes a head) : Supersedes b head := by
  intro h is
  rcases early h is with first | ⟨first, low⟩ <;>
    rcases supersedes_some.1 later with second | ⟨second, lower⟩
  · exact .inl (by omega)
  · exact .inl (by omega)
  · exact .inl (by omega)
  · exact .inr ⟨by omega, BitVec.lt_trans lower low⟩

/-- Of two events the earlier one makes no difference. -/
theorem headAfter_headAfter {a b : Stored} (later : Supersedes b (some a)) (head : Option Stored) :
    headAfter (headAfter head a) b = headAfter head b ∧
      headAfter (headAfter head b) a = headAfter head b := by
  have not : ¬Supersedes a (some b) := by
    rw [supersedes_some] at later ⊢
    bv_omega
  by_cases first : Supersedes a head
  · simp [headAfter, first, later, later.trans first, not]
  · by_cases second : Supersedes b head <;> simp [headAfter, first, second, not]

/-- The head does not depend on the order in which the events arrive. -/
theorem selectHead_perm {events events' : List Stored} (perm : events.Perm events')
    (ids : ∀ a ∈ events, ∀ b ∈ events, a.id = b.id → a = b) :
    selectHead events = selectHead events' := by
  rw [selectHead_eq_foldl, selectHead_eq_foldl]
  refine perm.foldl_eq' (fun a memA b memB head => ?_) none
  by_cases same : a = b
  · rw [same]
  have different : a.id ≠ b.id := fun is => same (ids a memA b memB is)
  have apart : Supersedes b (some a) ∨ Supersedes a (some b) := by
    rw [supersedes_some, supersedes_some]
    bv_omega
  rcases apart with later | later
  · obtain ⟨left, right⟩ := headAfter_headAfter later head
    exact left.trans right.symm
  · obtain ⟨left, right⟩ := headAfter_headAfter later head
    exact right.trans left.symm

/-! ## The command -/

inductive CliError
  | usage (text : String)
  | conflict (text : String)
  | notFound (text : String)
  | other (text : String)
deriving DecidableEq, Repr

/-- The digest and the reader of unified diffs. -/
class PatchTools where
  sha256 : List UInt8 → List UInt8
  parsePatch : String → Except String (Patch String)
  quote : String → String

/-- Where the diff comes from, with what reading gave. -/
inductive DiffSource
  | file (path : String) (content : Except String String)
  | stdin (content : Except String String)

structure PatchArgs where
  rawSlug : String
  diff : DiffSource
  baseHash : Option String
  noBaseHash : Bool
  dryRun : Bool
  allowEmpty : Bool

def DiffSource.read : DiffSource → Except CliError String
  | .file path content =>
    within (fun e => .usage ("failed to read --patch-file " ++ path ++ ": " ++ e)) content
  | .stdin content => do
    let buf ← within (fun e => .other ("stdin read failed: " ++ e)) content
    ensure (buf ≠ "") (.usage ("refusing to apply empty patch from stdin (an upstream pipeline " ++
      "step likely failed)"))
    return buf

def valueOf : Body → Option String
  | .core profile => some profile
  | .memory _ value => value

/-- The body that carries a value under a slug. -/
def bodyFor (slug value : String) : Body :=
  if slug = coreSlug then .core value else .memory slug (some value)

theorem valueOf_bodyFor (slug value : String) : valueOf (bodyFor slug value) = some value := by
  unfold bodyFor
  split_ifs <;> rfl

def fetchValue (events : List Stored) (slug : String) : Except CliError (Stored × String) :=
  match selectHead events with
  | none => .error (.notFound ("not found: " ++ slug))
  | some head =>
    match valueOf head.body with
    | none => .error (.notFound ("tombstoned: " ++ slug))
    | some value => .ok (head, value)

def headValue (events : List Stored) : Option String := (selectHead events).bind (valueOf ·.body)

theorem fetchValue_eq_ok {events : List Stored} {slug : String} {head : Stored} {value : String}
    (ok : fetchValue events slug = .ok (head, value)) : headValue events = some value := by
  unfold fetchValue at ok
  split at ok
  · cases ok
  · rename_i found selected
    split at ok
    · cases ok
    · rename_i text is
      cases ok
      rw [headValue, selected]
      exact is

/-- The patch, what it was applied to, and the event to submit. -/
structure Draft where
  baseHash : Option String
  patch : Patch String
  base : String
  value : String
  event : Stored

section Command

variable [PatchTools]

def sha256Hex (s : String) : String := String.ofList (encodeHex (PatchTools.sha256 (utf8 s)))

def toAsciiLowercase (s : String) : String := String.ofList (s.toList.map Char.toLower)

/-- One of the two ways to say which value the patch is for. -/
def checkBaseHash (args : PatchArgs) : Except CliError Unit := do
  match args.baseHash, args.noBaseHash with
  | some _, true => .error (.usage "--base-hash and --no-base-hash are mutually exclusive")
  | none, false => .error (.usage ("missing --base-hash <hex> (run `cf mem hash <slug>` to get " ++
      "it). Pass --no-base-hash to skip this check at your own risk."))
  | _, _ => .ok ()
  checkSome args.baseHash fun h =>
    ensure (byteLength h = 64 ∧ h.toList.all isAsciiHexdigit = true)
      (.usage "--base-hash must be a 64-character hex sha256 digest")

def patchValue (slug diffText current : String) (allowEmpty : Bool) :
    Except CliError (Patch String × String) := do
  let headers := ((lines diffText).filter fun l => (stripPrefix "--- " l).isSome).length
  ensure (headers ≤ 1) (.usage (s!"multi-file patch not supported (found {headers} `--- ` " ++
    "headers); a memory slug is a single virtual file"))
  let patch ← within (fun e => .usage ("malformed unified diff: " ++ e))
    (PatchTools.parsePatch diffText)
  within (fun fault => .usage ("patch did not apply cleanly to slug `" ++ slug ++ "`: " ++
      fault.text PatchTools.quote ++ ". Context must match the current value verbatim at the " ++
      "declared line numbers — no fuzz, no offset."))
    (verifyHunksAtDeclaredPosition current patch)
  let (_, newValue) ← okOr (apply current patch) (.usage ("patch did not apply cleanly to slug `" ++
    slug ++ "`: error applying hunk. Context must match the current value verbatim — no fuzz, " ++
    "no offset."))
  ensure (byteLength newValue ≤ 65535) (.usage ("patched value would exceed 65535-byte NIP-44 " ++
    s!"plaintext limit (got {byteLength newValue} bytes)"))
  ensure (newValue ≠ "" ∨ allowEmpty = true) (.usage ("refusing to write empty value (patch " ++
    "result is empty). Pass --allow-empty to confirm, or use `cf mem rm <slug>` to tombstone."))
  return (patch, newValue)

/-- The command up to the submission, on the events of its slug; a dry run submits nothing.  The
clock shows `now`, and the event is given the identifier `id`. -/
def cmdPatch (events : String → List Stored) (args : PatchArgs) (now : Nat) (id : EventId) :
    Except CliError (String × Option Draft) := do
  let slug ← within (fun e => CliError.usage ("invalid slug: " ++ e.text PatchTools.quote))
    (normalizeSlug args.rawSlug)
  checkBaseHash args
  let diffText ← args.diff.read
  let (head, current) ← fetchValue (events slug) slug
  checkSome args.baseHash fun expected =>
    ensure (sha256Hex current = toAsciiLowercase expected)
      (.conflict ("slug `" ++ slug ++ "` has changed since patch was generated (expected sha256 " ++
        expected ++ ", got " ++ sha256Hex current ++ "). Re-fetch and regenerate the patch."))
  let (patch, newValue) ← patchValue slug diffText current args.allowEmpty
  if args.dryRun then return (slug, none)
  else do
    let body := bodyFor slug newValue
    let createdAt := monotonicCreatedAt now (some head.createdAt)
    ensure (body.toJsonBytes.length ≤ 65535) (.other ("build event failed: " ++
      (EngramError.bodyTooLarge body.toJsonBytes.length).text PatchTools.quote))
    return (slug, some { baseHash := args.baseHash, patch, base := current, value := newValue
                         event := ⟨createdAt, id, body⟩ })

/-- What a draft holds: the value it was made from, with the hash that was asked for, and that value
patched, which is also the value of the event. -/
structure Draft.Sound (draft : Draft) : Prop where
  hashed : ∀ h, draft.baseHash = some h → sha256Hex draft.base = toAsciiLowercase h
  applied : ∃ landings, apply draft.base draft.patch = some (landings, draft.value)
  body : valueOf draft.event.body = some draft.value

theorem patchValue_eq_ok {slug diffText current : String} {allowEmpty : Bool}
    {patch : Patch String} {value : String}
    (ok : patchValue slug diffText current allowEmpty = .ok (patch, value)) :
    ∃ landings, apply current patch = some (landings, value) := by
  simp only [patchValue, bind_eq_ok, exists_unit, ensure_eq_ok, within_eq_ok, okOr_eq_ok,
    pure_eq_ok] at ok
  obtain ⟨-, parsed, -, -, ⟨landings, newValue⟩, applied, -, -, same⟩ := ok
  cases same
  exact ⟨landings, applied⟩

theorem cmdPatch_eq_ok {events : String → List Stored} {args : PatchArgs} {now : Nat} {id : EventId}
    {slug : String} {draft : Draft} (ok : cmdPatch events args now id = .ok (slug, some draft)) :
    headValue (events slug) = some draft.base ∧ draft.Sound := by
  simp only [cmdPatch, bind_eq_ok, exists_unit, within_eq_ok, checkSome_eq_ok, ensure_eq_ok] at ok
  obtain ⟨s, -, -, diffText, -, ⟨head, current⟩, fetched, hashed, ⟨patch, newValue⟩, patched,
    rest⟩ := ok
  dsimp only at rest
  split_ifs at rest with dry
  · cases rest
  · simp only [bind_eq_ok, exists_unit, ensure_eq_ok, pure_eq_ok] at rest
    obtain ⟨-, same⟩ := rest
    cases same
    exact ⟨fetchValue_eq_ok fetched, hashed, patchValue_eq_ok patched,
      valueOf_bodyFor slug newValue⟩

end Command

/-! ## Clients and the relay -/

/-- A client that is about to submit: the slug, the draft, and how many patches of the slug had been
written when it fetched the head. -/
structure Pending where
  slug : String
  draft : Draft
  seen : Nat

/-- A patch that was reported as written, and the value of the head just before. -/
structure Entry where
  slug : String
  draft : Draft
  headBefore : Option String

structure World (ι : Type) where
  events : String → List Stored
  phase : ι → Option Pending
  written : List Entry

namespace World

variable {ι : Type}

def log (w : World ι) (slug : String) : List Entry := w.written.filter (·.slug = slug)

/-- The relay with events from before, and no client at work. -/
def start (events : String → List Stored) : World ι :=
  { events, phase := fun _ => none, written := [] }

inductive Action (ι : Type)
  /-- A client runs the command up to its submission. -/
  | fetch (c : ι) (args : PatchArgs) (now : Nat) (id : EventId)
  /-- A client submits its event: it is written if it becomes the head, and a conflict otherwise. -/
  | submit (c : ι)

section Steps

variable [DecidableEq ι]

def setPhase (w : World ι) (c : ι) (phase : Option Pending) : World ι :=
  { w with phase := Function.update w.phase c phase }

def store (w : World ι) (slug : String) (event : Stored) : World ι :=
  { w with events := Function.update w.events slug (w.events slug ++ [event]) }

def report (w : World ι) (e : Entry) : World ι := { w with written := w.written ++ [e] }

def step [PatchTools] (w : World ι) : Action ι → World ι
  | .fetch c args now id =>
    match cmdPatch w.events args now id with
    | .ok (slug, some draft) =>
      w.setPhase c (some ⟨slug, draft, (w.log slug).length⟩)
    | _ => w.setPhase c none
  | .submit c =>
    match w.phase c with
    | none => w
    | some p =>
      let delivered := (w.store p.slug p.draft.event).setPhase c none
      if Supersedes p.draft.event (selectHead (w.events p.slug)) then
        delivered.report ⟨p.slug, p.draft, headValue (w.events p.slug)⟩
      else delivered

end Steps

/-- An event that becomes the head was made from a fetch after which no patch of the slug was
written. -/
def Exclusive (w : World ι) : Action ι → Prop
  | .submit c => ∀ p, w.phase c = some p →
    Supersedes p.draft.event (selectHead (w.events p.slug)) → (w.log p.slug).length = p.seen
  | .fetch _ _ _ _ => True

instance (w : World ι) : DecidablePred (Exclusive w)
  | .fetch _ _ _ _ => .isTrue trivial
  | .submit c => match phase : w.phase c with
    | none => .isTrue fun _ is => (nomatch phase.symm.trans is)
    | some p => decidable_of_iff (Supersedes p.draft.event (selectHead (w.events p.slug)) →
        (w.log p.slug).length = p.seen)
      ⟨fun is _ same => Option.some.inj (phase.symm.trans same) ▸ is, fun is => is p phase⟩

/-- No edit that was reported as written is lost: each was made from the value that was the head just
before, and its value is the base of the next one or the head. -/
structure NoLostUpdate [PatchTools] (w : World ι) : Prop where
  sound : ∀ e ∈ w.written, e.draft.Sound
  onHead : ∀ e ∈ w.written, e.headBefore = some e.draft.base
  chained : ∀ slug, (w.log slug).IsChain fun e next => next.draft.base = e.draft.value
  last : ∀ slug e, (w.log slug).getLast? = some e →
    headValue (w.events slug) = some e.draft.value

/-! ## The invariant -/

theorem headValue_store (w : World ι) (slug other : String) (event : Stored) :
    headValue ((w.store slug event).events other) =
      if other = slug ∧ Supersedes event (selectHead (w.events slug)) then valueOf event.body
      else headValue (w.events other) := by
  by_cases same : other = slug
  · subst same
    have events : (w.store other event).events other = w.events other ++ [event] :=
      Function.update_self ..
    rw [events, headValue, selectHead_append]
    split_ifs with supersedes both both
    · rfl
    · exact absurd ⟨rfl, supersedes⟩ both
    · exact absurd both.2 supersedes
    · rfl
  · have events : (w.store slug event).events other = w.events other :=
      Function.update_of_ne same ..
    rw [events, if_neg fun both => same both.1]

theorem log_report (w : World ι) (e : Entry) (slug : String) :
    (w.report e).log slug = if e.slug = slug then w.log slug ++ [e] else w.log slug := by
  unfold World.log World.report
  rw [List.filter_append]
  by_cases same : e.slug = slug
  · rw [if_pos same, List.filter_cons_of_pos (by simpa using same), List.filter_nil]
  · rw [if_neg same, List.filter_cons_of_neg (by simpa using same), List.filter_nil, List.append_nil]

/-- No edit is lost so far, and a client that saw the last written patch has the head for its base. -/
structure Inv [PatchTools] (w : World ι) : Prop extends NoLostUpdate w where
  pending : ∀ c p, w.phase c = some p → p.draft.Sound ∧ p.seen ≤ (w.log p.slug).length ∧
    (p.seen = (w.log p.slug).length → headValue (w.events p.slug) = some p.draft.base)

namespace Inv

variable [PatchTools] {w : World ι}

theorem start (events : String → List Stored) : Inv (start events : World ι) where
  sound := fun _ mem => nomatch mem
  onHead := fun _ mem => nomatch mem
  chained := fun _ => .nil
  last := fun _ _ is => nomatch is
  pending := fun _ _ is => nomatch is

/-- An event that does not become the head changes no value. -/
theorem store (inv : Inv w) {slug : String} {event : Stored}
    (stale : ¬Supersedes event (selectHead (w.events slug))) : Inv (w.store slug event) := by
  have same : ∀ other, headValue ((w.store slug event).events other) = headValue (w.events other) :=
    fun other => by rw [headValue_store, if_neg fun both => stale both.2]
  refine { inv with last := fun other e is => ?_, pending := fun c p is => ?_ }
  · rw [same]
    exact inv.last other e is
  · rw [same]
    exact inv.pending c p is

/-- A patch of the head is written: its value is the new head. -/
theorem write (inv : Inv w) {p : Pending} (sound : p.draft.Sound)
    (supersedes : Supersedes p.draft.event (selectHead (w.events p.slug)))
    (base : headValue (w.events p.slug) = some p.draft.base) :
    Inv ((w.store p.slug p.draft.event).report
      ⟨p.slug, p.draft, headValue (w.events p.slug)⟩) where
  sound := List.forall_mem_append.2 ⟨inv.sound, fun e mem => List.mem_singleton.1 mem ▸ sound⟩
  onHead := List.forall_mem_append.2 ⟨inv.onHead, fun e mem => List.mem_singleton.1 mem ▸ base⟩
  chained := fun slug => by
    rw [log_report]
    split_ifs with same
    · subst same
      refine List.isChain_append.2 ⟨inv.chained p.slug, .singleton _, fun e last next is => ?_⟩
      have head := inv.last p.slug e last
      rw [base] at head
      rw [← Option.some.inj is]
      exact Option.some.inj head
    · exact inv.chained slug
  last := fun slug e is => by
    rw [log_report] at is
    show headValue ((w.store p.slug p.draft.event).events slug) = _
    rw [headValue_store]
    split_ifs at is with same
    · subst same
      rw [List.getLast?_concat] at is
      rw [if_pos ⟨rfl, supersedes⟩, ← Option.some.inj is]
      exact sound.body
    · rw [if_neg fun both => same both.1.symm]
      exact inv.last slug e is
  pending := fun c q is => by
    obtain ⟨ok, seen, fresh⟩ := inv.pending c q is
    refine ⟨ok, ?_, ?_⟩
    · rw [log_report]
      split_ifs
      · rw [List.length_append]
        exact Nat.le_add_right_of_le seen
      · exact seen
    · rw [log_report]
      show _ → headValue ((w.store p.slug p.draft.event).events q.slug) = _
      rw [headValue_store]
      split_ifs with same both both
      · -- a client that had not seen this patch
        intro all
        rw [List.length_append, List.length_singleton] at all
        change q.seen = (w.log q.slug).length + 1 at all
        omega
      · exact absurd ⟨same.symm, supersedes⟩ both
      · exact absurd both.1.symm same
      · exact fresh

variable [DecidableEq ι]

/-- A client may get any new phase that is right for it. -/
theorem setPhase (inv : Inv w) {c : ι} {phase : Option Pending}
    (right : ∀ p, phase = some p → p.draft.Sound ∧ p.seen ≤ (w.log p.slug).length ∧
      (p.seen = (w.log p.slug).length → headValue (w.events p.slug) = some p.draft.base)) :
    Inv (w.setPhase c phase) := by
  refine { inv with pending := fun c' p is => ?_ }
  change Function.update w.phase c phase c' = some p at is
  rw [Function.update_apply] at is
  split_ifs at is
  · exact right p is
  · exact inv.pending c' p is

theorem fetch (inv : Inv w) (c : ι) (args : PatchArgs) (now : Nat) (id : EventId) :
    Inv (w.step (.fetch c args now id)) := by
  unfold step
  dsimp only
  split
  · rename_i slug draft ok
    obtain ⟨base, sound⟩ := cmdPatch_eq_ok ok
    refine inv.setPhase fun p is => ?_
    obtain rfl := Option.some.inj is
    exact ⟨sound, Nat.le_refl _, fun _ => base⟩
  · exact inv.setPhase fun p is => (nomatch is)

theorem submit (inv : Inv w) (c : ι) (exclusive : Exclusive w (.submit c)) :
    Inv (w.step (.submit c)) := by
  unfold step
  dsimp only
  split
  · exact inv
  · rename_i p phase
    obtain ⟨sound, -, fresh⟩ := inv.pending c p phase
    split_ifs with supersedes
    · have written := inv.write sound supersedes (fresh (exclusive p phase supersedes).symm)
      exact written.setPhase fun p is => (nomatch is)
    · exact (inv.store supersedes).setPhase fun p is => (nomatch is)

theorem step (inv : Inv w) (a : Action ι) (exclusive : Exclusive w a) : Inv (w.step a) := by
  cases a with
  | fetch c args now id => exact inv.fetch c args now id
  | submit c => exact inv.submit c exclusive

end Inv

/-- In a run where every patch that becomes the head saw the last one written, none is lost. -/
theorem noLostUpdate_of_exclusive [PatchTools] [DecidableEq ι] (events : String → List Stored)
    (actions : List (Action ι)) (exclusive : Steps.Along step Exclusive (start events) actions) :
    NoLostUpdate (Steps.run step (start events : World ι) actions) :=
  (exclusive.invariant Inv (fun _ a exclusive inv => inv.step a exclusive)
    (Inv.start events)).toNoLostUpdate

theorem events_step [PatchTools] [DecidableEq ι] (w : World ι) (a : Action ι) (slug : String) :
    (w.step a).events slug = w.events slug ∨
      ∃ e, (w.step a).events slug = w.events slug ++ [e] := by
  cases a with
  | fetch c args now id =>
    unfold step
    dsimp only
    split <;> exact .inl rfl
  | submit c =>
    unfold step
    dsimp only
    split
    · exact .inl rfl
    · rename_i p _
      have stored : (w.store p.slug p.draft.event).events slug = w.events slug ∨
          ∃ e, (w.store p.slug p.draft.event).events slug = w.events slug ++ [e] := by
        by_cases own : slug = p.slug
        · exact .inr ⟨p.draft.event, own ▸ Function.update_self ..⟩
        · exact .inl (Function.update_of_ne own ..)
      split_ifs <;> exact stored

/-- Over every run the head of a slug only moves on to later events, and whoever reads the stored
events, in whatever order, finds the same head. -/
theorem run_head [PatchTools] [DecidableEq ι] (w : World ι) (actions : List (Action ι))
    (slug : String) :
    (∀ h, selectHead (w.events slug) = some h →
      ∃ h', selectHead ((Steps.run step w actions).events slug) = some h' ∧
        (h' = h ∨ Supersedes h' (some h))) ∧
    ∀ read, read.Perm ((Steps.run step w actions).events slug) →
      (∀ a ∈ read, ∀ b ∈ read, a.id = b.id → a = b) →
        selectHead read = selectHead ((Steps.run step w actions).events slug) := by
  refine ⟨fun h is => ?_, fun read perm ids => selectHead_perm perm ids⟩
  refine Steps.run_invariant (fun w' : World ι => ∃ h', selectHead (w'.events slug) = some h' ∧
    (h' = h ∨ Supersedes h' (some h))) ?_ ⟨h, is, .inl rfl⟩
  rintro w' a ⟨h', is', later⟩
  rcases events_step w' a slug with same | ⟨e, grown⟩
  · exact ⟨h', same ▸ is', later⟩
  · rw [grown, selectHead_append, is']
    split_ifs with supersedes
    · refine ⟨e, rfl, .inr ?_⟩
      rcases later with rfl | later
      · exact supersedes
      · exact supersedes.trans later
    · exact ⟨h', rfl, later⟩

/-! ## Two clients -/

/-- A digest that tells short texts apart, and a reader of diffs that spell the old and the new
letter of a one-line text. -/
@[reducible] def plainTools : PatchTools where
  sha256 := fun bytes => (bytes ++ List.replicate 32 0).take 32
  parsePatch := fun text =>
    .ok { hunks := [⟨1, 1, [.delete (String.ofList (text.toList.take 1 ++ ['\n'])),
            .insert (String.ofList (text.toList.drop 1 ++ ['\n']))]⟩]
          inOrder := .singleton _ }
  quote := id

/-- The value of `mem/n` is `a`. -/
def oneNote : World Nat :=
  start fun _ => [⟨5, 9, .memory "mem/n" (some "a\n")⟩]

def edit (diff base : String) : PatchArgs where
  rawSlug := "n"
  diff := .stdin (.ok diff)
  baseHash := some (@sha256Hex plainTools base)
  noBaseHash := false
  dryRun := false
  allowEmpty := false

def runEdits (actions : List (Action Nat)) : World Nat :=
  Steps.run (@step Nat _ plainTools) oneNote actions

theorem noLostUpdate_of_exclusive_turns :
    let w := runEdits [.fetch 0 (edit "ab" "a\n") 10 1, .submit 0,
      .fetch 1 (edit "bc" "b\n") 7 2, .submit 1]
    w.written.length = 2 ∧ @NoLostUpdate Nat plainTools w := by
  refine ⟨by decide +kernel, @noLostUpdate_of_exclusive Nat plainTools _ _ _ ?_⟩
  decide +kernel

/-- Two clients fetch the same head and both are told that their edit was written; the second one
replaces the first one's value without having seen it. -/
theorem overwrites_written :
    (runEdits [.fetch 0 (edit "ab" "a\n") 10 1, .fetch 1 (edit "ac" "a\n") 20 2, .submit 0,
      .submit 1]).written.map (fun e => (e.headBefore, e.draft.base, e.draft.value)) =
    [(some "a\n", "a\n", "b\n"), (some "b\n", "a\n", "c\n")] := by
  decide +kernel

end World

end Mem

end Carryforth
