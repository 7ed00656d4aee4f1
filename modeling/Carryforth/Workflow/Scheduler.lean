import Carryforth.Lib.Steps
import Carryforth.Lib.Text
import Carryforth.Types
import Mathlib.Order.Bounds.Basic

/-!
# The schedule loop

On each tick the loop visits the workflows with a schedule.  A cron schedule is due when it has an
instant in the window that ends at the tick; an interval is due when it has passed since the anchor,
which is the tick of the last run or, after a restart, the last claimed instant.  What is due is
claimed in a table, once for each workflow and instant, and a run is created for it.  What the
database answers is an input of each visit.
-/

namespace Carryforth

namespace Workflow

/-! ## Times -/

def second : Int := 1000000000

def minute : Int := 60 * second

/-- The whole seconds since the epoch, rounded down. -/
def timestamp (t : DateTime) : Int := t / second

/-- The whole seconds of a duration, rounded towards zero. -/
def numSeconds (duration : Int) : Int := duration.tdiv second

def InCalendar (secs : Int) : Prop := -8334601228800 ≤ secs ∧ secs ≤ 8210266876799

instance (secs : Int) : Decidable (InCalendar secs) := inferInstanceAs (Decidable (_ ∧ _))

def fromTimestamp (secs : Int) : Option DateTime :=
  if InCalendar secs then some (secs * second) else none

inductive WorkflowError
  | invalidDefinition (message : String)
  | templateError (message : String)
deriving DecidableEq, Repr

/-- A number with its unit, whose overflow is an error. -/
def scaled (duration number : String) (unit : Nat) : Except WorkflowError Nat :=
  match Text.readUnsigned 64 number with
  | none => .error (.invalidDefinition s!"invalid duration: {duration}")
  | some n =>
    if n * unit < 2 ^ 64 then .ok (n * unit)
    else .error (.invalidDefinition s!"duration overflow: {duration}")

def parseDurationSecs (text : String) : Except WorkflowError Nat :=
  let duration := Text.trim text
  match Text.stripLast 'h' duration with
  | some n => scaled duration (Text.trim n) 3600
  | none =>
    match Text.stripLast 'm' duration with
    | some n => scaled duration (Text.trim n) 60
    | none =>
      match Text.stripLast 's' duration with
      | some n => scaled duration (Text.trim n) 1
      | none => scaled duration duration 1

/-! ## Schedules -/

structure CronSchedule where
  instants : Set DateTime
  next : DateTime → Option DateTime
  minute_dvd : ∀ u ∈ instants, minute ∣ u
  next_eq_some : ∀ t u, next t = some u ↔ IsLeast {v ∈ instants | t < v} u

class CronReader where
  parse : String → Option CronSchedule

/-- Add the seconds and the years that the expression leaves out. -/
def normalizeCron (expr : String) : String :=
  match ((expr.toList.splitOnP Text.isWhiteSpace).filter (· ≠ [])).length with
  | 5 => s!"0 {expr} *"
  | 6 => s!"{expr} *"
  | _ => expr

def cronFireInstant [CronReader] (expr : String) (now : DateTime) (windowSecs : Int) :
    Option DateTime :=
  (CronReader.parse (normalizeCron expr)).bind fun schedule =>
    (schedule.next (now - windowSecs * second)).filter fun t => t ≤ now

/-- A word read as a signed one. -/
def asI64 (n : Nat) : Int := (BitVec.ofNat 64 n).toInt

def intervalFireInstant (dur : String) (now : DateTime) : Option DateTime :=
  match parseDurationSecs dur with
  | .ok secs => if 0 < secs then fromTimestamp (timestamp now / asI64 secs * asI64 secs) else none
  | .error _ => none

def intervalShouldFire (dur : String) (lastFired : Option DateTime) (now : DateTime) : Bool :=
  match parseDurationSecs dur with
  | .ok secs => secs ≤ (numSeconds (now - lastFired.getD now)).natAbs
  | .error _ => false

/-! ## Workflows -/

inductive TriggerDef
  | schedule (cron interval : Option String)
  /-- The triggers of events, which the loop does not look at. -/
  | event
deriving DecidableEq, Repr

structure WorkflowDef where
  enabled : Bool
  trigger : TriggerDef
deriving DecidableEq, Repr

abbrev WorkflowKey := Uuid × Uuid

structure WorkflowRecord where
  key : WorkflowKey
  channelId : Option Uuid
  /-- The definition, if its JSON can be read. -/
  definition : Option WorkflowDef
deriving DecidableEq, Repr

inductive ClaimReply
  | failed
  /-- The workflow is not stored any more. -/
  | gone
  | executed
deriving DecidableEq, Repr

/-- How the database answers while a workflow is visited. -/
structure Replies where
  anchorRead : Bool
  claim : ClaimReply
  runCreated : Bool
deriving DecidableEq, Repr

def Replies.reliable : Replies := ⟨true, .executed, true⟩

/-- The workflows of a tick, if they can be loaded. -/
structure Tick where
  now : DateTime
  workflows : Option (List (WorkflowRecord × Replies))
deriving DecidableEq, Repr

inductive TriggerType
  | cron
  | interval
deriving DecidableEq, Repr

structure WorkflowRun where
  key : WorkflowKey
  scheduledFor : DateTime
  /-- The tick that created the run. -/
  now : DateTime
  triggerType : TriggerType
deriving DecidableEq, Repr

structure WorkflowEngine where
  lastFired : WorkflowKey → Option DateTime
  /-- The table `scheduled_workflow_fires`. -/
  fires : List (WorkflowKey × DateTime)
  runs : List WorkflowRun

namespace WorkflowEngine

def start : WorkflowEngine := ⟨fun _ => none, [], []⟩

/-! ## A visit -/

def firesOf (e : WorkflowEngine) (key : WorkflowKey) : List DateTime :=
  (e.fires.filter fun row => row.1 = key).map Prod.snd

def runsOf (e : WorkflowEngine) (key : WorkflowKey) : List WorkflowRun :=
  e.runs.filter fun run => run.key = key

def latestScheduledWorkflowFire (e : WorkflowEngine) (key : WorkflowKey) : Option DateTime :=
  (e.firesOf key).max?

def anchor (e : WorkflowEngine) (key : WorkflowKey) (now : DateTime) : WorkflowEngine :=
  { e with lastFired := Function.update e.lastFired key (some now) }

def intervalPrefilterShouldFire (e : WorkflowEngine) (key : WorkflowKey) (dur : String)
    (last : Option DateTime) (now : DateTime) : WorkflowEngine × Bool :=
  if intervalShouldFire dur last now then (e, true)
  else if last.isNone then (e.anchor key now, false)
  else (e, false)

/-- The anchor of an interval: the one in memory, or the one that the database has. -/
def lastFire (e : WorkflowEngine) (key : WorkflowKey) (replies : Replies) : Option DateTime :=
  match e.lastFired key with
  | some t => some t
  | none => if replies.anchorRead then e.latestScheduledWorkflowFire key else none

def due [CronReader] (e : WorkflowEngine) (now : DateTime) (key : WorkflowKey)
    (trigger : TriggerDef) (replies : Replies) :
    WorkflowEngine × Option (DateTime × TriggerType) :=
  match trigger with
  | .schedule (some expr) none => (e, (cronFireInstant expr now 60).map (·, .cron))
  | .schedule none (some dur) =>
    let (e, fire) := e.intervalPrefilterShouldFire key dur (e.lastFire key replies) now
    (e, if fire then (intervalFireInstant dur now).map (·, .interval) else none)
  | _ => (e, none)

def anchorInterval (e : WorkflowEngine) (key : WorkflowKey) (now : DateTime)
    (triggerType : TriggerType) : WorkflowEngine :=
  if triggerType = .interval then e.anchor key now else e

/-- Claim an instant and create its run. -/
def fire (e : WorkflowEngine) (now : DateTime) (key : WorkflowKey) (replies : Replies)
    (due : DateTime × TriggerType) : WorkflowEngine :=
  match replies.claim with
  | .failed => e
  | .gone => e.anchorInterval key now due.2
  | .executed =>
    if (key, due.1) ∈ e.fires then e.anchorInterval key now due.2
    else
      let e := { e with fires := e.fires ++ [(key, due.1)] }
      if replies.runCreated then
        anchorInterval { e with runs := e.runs ++ [⟨key, due.1, now, due.2⟩] } key now due.2
      else e

def visit [CronReader] (now : DateTime) (e : WorkflowEngine) (listed : WorkflowRecord × Replies) :
    WorkflowEngine :=
  match listed.1.definition, listed.1.channelId with
  | some d, some _ =>
    if d.enabled then
      match e.due now listed.1.key d.trigger listed.2 with
      | (e, some due) => e.fire now listed.1.key listed.2 due
      | (e, none) => e
    else e
  | _, _ => e

/-! ## The loop -/

/-- Forget the anchors of workflows that are not listed. -/
def retain (e : WorkflowEngine) (listed : List (WorkflowRecord × Replies)) : WorkflowEngine :=
  { e with lastFired := fun key =>
      if listed.any fun l => l.1.key = key then e.lastFired key else none }

def tick [CronReader] (e : WorkflowEngine) (t : Tick) : WorkflowEngine :=
  match t.workflows with
  | none => e
  | some listed => (listed.foldl (visit t.now) e).retain listed

inductive Action
  | tick (t : Tick)
  /-- The process starts again, with nothing in memory. -/
  | restart

def step [CronReader] (e : WorkflowEngine) : Action → WorkflowEngine
  | .tick t => e.tick t
  | .restart => { e with lastFired := fun _ => none }

/-! ## What a visit can do -/

variable [CronReader] {e : WorkflowEngine} {now : DateTime} {key : WorkflowKey}

/-- A visit does nothing, sets the anchor, claims a free instant without a run, or with one. -/
inductive Visited (now : DateTime) (key : WorkflowKey) (e : WorkflowEngine) : WorkflowEngine → Prop
  | nothing : Visited now key e e
  | anchored : Visited now key e (e.anchor key now)
  | claimed {instant : DateTime} (free : (key, instant) ∉ e.fires) :
      Visited now key e { e with fires := e.fires ++ [(key, instant)] }
  | created {instant : DateTime} {triggerType : TriggerType} (free : (key, instant) ∉ e.fires) :
      Visited now key e
        (anchorInterval { e with
          fires := e.fires ++ [(key, instant)]
          runs := e.runs ++ [⟨key, instant, now, triggerType⟩] } key now triggerType)

omit [CronReader] in
theorem visited_anchorInterval (triggerType : TriggerType) :
    Visited now key e (e.anchorInterval key now triggerType) := by
  unfold anchorInterval
  split
  · exact .anchored
  · exact .nothing

omit [CronReader] in
theorem visited_fire (replies : Replies) (due : DateTime × TriggerType) :
    Visited now key e (e.fire now key replies due) := by
  unfold fire
  cases replies.claim with
  | failed => exact .nothing
  | gone => exact visited_anchorInterval _
  | executed =>
    by_cases taken : (key, due.1) ∈ e.fires
    · simp only [if_pos taken]
      exact visited_anchorInterval _
    · simp only [if_neg taken]
      cases replies.runCreated with
      | false => exact .claimed taken
      | true => exact .created taken

/-- Finding out what is due either leaves everything as it is, or sets the anchor and finds
nothing. -/
theorem due_cases (e : WorkflowEngine) (now : DateTime) (key : WorkflowKey) (trigger : TriggerDef)
    (replies : Replies) :
    (e.due now key trigger replies).1 = e ∨
      e.due now key trigger replies = (e.anchor key now, none) := by
  unfold due
  split
  · exact .inl rfl
  · unfold intervalPrefilterShouldFire
    split_ifs
    · exact .inl rfl
    · exact .inr rfl
    · exact .inl rfl
  · exact .inl rfl

theorem visited (e : WorkflowEngine) (now : DateTime) (listed : WorkflowRecord × Replies) :
    Visited now listed.1.key e (visit now e listed) := by
  unfold visit
  split
  · split
    · rename_i d _ _ _ _
      rcases due_cases e now listed.1.key d.trigger listed.2 with same | set
      · split
        · next e' due is =>
          rw [is] at same
          exact same ▸ visited_fire listed.2 due
        · next e' is =>
          rw [is] at same
          exact same ▸ .nothing
      · rw [set]
        exact .anchored
    · exact .nothing
  · exact .nothing

omit [CronReader] in
@[simp] theorem fires_anchorInterval (triggerType : TriggerType) :
    (e.anchorInterval key now triggerType).fires = e.fires := by
  unfold anchorInterval
  split <;> rfl

omit [CronReader] in
@[simp] theorem runs_anchorInterval (triggerType : TriggerType) :
    (e.anchorInterval key now triggerType).runs = e.runs := by
  unfold anchorInterval
  split <;> rfl

omit [CronReader] in
theorem lastFired_anchor_of_ne {other : WorkflowKey} (different : other ≠ key) :
    (e.anchor other now).lastFired key = e.lastFired key :=
  Function.update_of_ne different.symm _ _

omit [CronReader] in
theorem lastFired_anchorInterval_of_ne {other : WorkflowKey} (different : other ≠ key)
    (triggerType : TriggerType) :
    (e.anchorInterval other now triggerType).lastFired key = e.lastFired key := by
  unfold anchorInterval
  split
  · exact lastFired_anchor_of_ne different
  · rfl

omit [CronReader] in
theorem Visited.other {other : WorkflowKey} {e' : WorkflowEngine} (visited : Visited now other e e')
    (different : other ≠ key) :
    e'.lastFired key = e.lastFired key ∧ e'.firesOf key = e.firesOf key ∧
      e'.runsOf key = e.runsOf key := by
  cases visited with
  | nothing => exact ⟨rfl, rfl, rfl⟩
  | anchored => exact ⟨lastFired_anchor_of_ne different, rfl, rfl⟩
  | claimed free =>
    refine ⟨rfl, ?_, rfl⟩
    simp [firesOf, List.filter_append, different]
  | created free =>
    refine ⟨lastFired_anchorInterval_of_ne different _, ?_, ?_⟩
    · simp [firesOf, List.filter_append, different]
    · simp [runsOf, List.filter_append, different]

omit [CronReader] in
theorem Visited.nodup {e' : WorkflowEngine} (visited : Visited now key e e')
    (nodup : e.fires.Nodup) : e'.fires.Nodup := by
  have append : ∀ {instant : DateTime}, (key, instant) ∉ e.fires →
      (e.fires ++ [(key, instant)]).Nodup := by
    intro instant free
    refine List.nodup_append.2 ⟨nodup, List.nodup_singleton _, ?_⟩
    intro a mem b single same
    rw [List.mem_singleton.1 single] at same
    exact free (same ▸ mem)
  cases visited with
  | nothing => exact nodup
  | anchored => exact nodup
  | claimed free => exact append free
  | created free =>
    rw [fires_anchorInterval]
    exact append free

end WorkflowEngine

end Workflow

end Carryforth
