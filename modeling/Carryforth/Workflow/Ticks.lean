import Carryforth.Workflow.Scheduler
import Mathlib.Data.List.Chain

/-!
# Runs of the schedule loop

The runs of an interval workflow keep their distance as long as the anchor is in memory.  After a
restart the anchor is the claimed instant, which is the start of the interval that the last run fell
into, and the next run may follow too soon (`runs_close`).  The distance is kept if every tick without
an anchor in memory is as far into its interval as the tick that ran the interval before was
(`run_spaced`).

A cron instant is found by the first tick that is not before it, if it lies in the window of that
tick.  So the ticks miss exactly the instants between a tick and the window of the next one
(`run_cron_iff`), and each instant that is found is run once.
-/

namespace Carryforth

namespace Workflow

open Steps

variable {now : DateTime} {key : WorkflowKey} {s : Nat}

theorem le_numSeconds {d : Int} (forward : 0 ≤ d) :
    s ≤ (numSeconds d).natAbs ↔ s * second ≤ d := by
  unfold numSeconds second
  rw [Int.tdiv_eq_ediv_of_nonneg forward]
  omega

/-- The start of the interval that a time is in. -/
def bucket (s : Nat) (t : DateTime) : DateTime := timestamp t / asI64 s * asI64 s * second

def offset (s : Nat) (t : DateTime) : Int := t - bucket s t

theorem intervalFireInstant_eq_some {dur : String} {instant : DateTime}
    (parsed : parseDurationSecs dur = .ok s) (found : intervalFireInstant dur now = some instant) :
    instant = bucket s now ∧ InCalendar (timestamp instant) := by
  simp only [intervalFireInstant, parsed, fromTimestamp, Option.ite_none_right_eq_some,
    Option.some.injEq] at found
  obtain ⟨-, inside, rfl⟩ := found
  refine ⟨rfl, ?_⟩
  rwa [timestamp, Int.mul_ediv_cancel _ (by decide)]

/-- Times of the calendar are not so far apart that an interval between them is no signed word. -/
theorem lt_of_passed {a : DateTime} (before : InCalendar (timestamp a))
    (inside : InCalendar (timestamp now)) (passed : s ≤ (numSeconds (now - a)).natAbs) :
    s < 2 ^ 63 := by
  unfold InCalendar timestamp second at before inside
  rw [numSeconds, second, Int.natAbs_tdiv] at passed
  have quotient : s ≤ (now - a).natAbs / 1000000000 := passed
  omega

/-- A later time in another interval is an interval later, unless it is in the next interval and not
as far into it. -/
theorem le_sub_of_bucket (positive : 0 < s) (small : s < 2 ^ 63) {t u : DateTime} (order : t ≤ u)
    (other : bucket s t ≠ bucket s u)
    (next : bucket s t + s * second = bucket s u → offset s t ≤ offset s u) :
    s * second ≤ u - t := by
  have word : asI64 s = s := by
    rw [asI64, BitVec.toInt_ofNat', Int.bmod_eq_of_le (by omega) (by omega)]
  unfold offset bucket at next
  unfold bucket at other
  rw [word] at next other
  have whole : (0 : Int) < s := by omega
  have quotients : timestamp t / s ≤ timestamp u / s :=
    Int.ediv_le_ediv whole (Int.ediv_le_ediv (by decide) order)
  have startT := Int.ediv_mul_le (timestamp t) whole.ne'
  have endT := Int.lt_ediv_add_one_mul_self (timestamp t) whole
  have startU := Int.ediv_mul_le (timestamp u) whole.ne'
  generalize timestamp t / s = m at *
  generalize timestamp u / s = n at *
  rw [add_mul, one_mul] at endT
  -- the intervals are next to each other, or there is one between them
  rcases Int.lt_or_le n (m + 2) with near | far
  · obtain rfl : n = m + 1 := by
      have : m ≠ n := by
        rintro rfl
        exact other rfl
      omega
    rw [add_mul, one_mul, add_mul] at next
    have ahead := next rfl
    omega
  · have between : (m + 2) * s ≤ n * s := Int.mul_le_mul_of_nonneg_right far whole.le
    rw [add_mul] at between
    unfold timestamp second at *
    omega

/-- A definition with an interval of so many seconds. -/
def WorkflowDef.HasInterval (s : Nat) (d : WorkflowDef) : Prop :=
  ∃ dur, d.trigger = .schedule none (some dur) ∧ parseDurationSecs dur = .ok s

namespace WorkflowEngine

/-! ## Intervals -/

section Interval

variable [CronReader] {e : WorkflowEngine}

namespace Action

def time : Action → Option DateTime
  | .tick t => some t.now
  | .restart => none

/-- Whenever the workflow is listed, its interval has so many seconds. -/
def HasInterval (key : WorkflowKey) (s : Nat) : Action → Prop
  | .tick t => ∀ listed ∈ t.workflows.getD [], listed.1.key = key →
      ∀ d ∈ listed.1.definition, d.HasInterval s
  | .restart => True

end Action

/-- All runs of the workflow are at least an interval old. -/
def Old (key : WorkflowKey) (s : Nat) (now : DateTime) (e : WorkflowEngine) : Prop :=
  ∀ r ∈ e.runsOf key, s * second ≤ now - r.now

/-- Without an anchor in memory, a tick is at least as far into its interval as the tick that ran the
interval before. -/
def InStep (key : WorkflowKey) (s : Nat) (now : DateTime) (e : WorkflowEngine) : Prop :=
  e.lastFired key = none → ∀ r ∈ e.runsOf key,
    r.scheduledFor + s * second = bucket s now → offset s r.now ≤ offset s now

/-- The condition on the ticks that list the workflow. -/
def Settled (key : WorkflowKey) (s : Nat) (e : WorkflowEngine) : Action → Prop
  | .tick t => (∃ l ∈ t.workflows.getD [], l.1.key = key) → e.InStep key s t.now
  | .restart => True

/-- The runs of the workflow are at least an interval apart. -/
def Spaced (key : WorkflowKey) (s : Nat) (e : WorkflowEngine) : Prop :=
  (e.runsOf key).Pairwise fun a b => s * second ≤ b.now - a.now

instance : Decidable (e.InStep key s now) := inferInstanceAs (Decidable (_ → ∀ r ∈ _, _))

instance : (a : Action) → Decidable (e.Settled key s a)
  | .tick t => inferInstanceAs (Decidable (_ → e.InStep key s t.now))
  | .restart => inferInstanceAs (Decidable True)

instance : Decidable (e.Spaced key s) := inferInstanceAs (Decidable (List.Pairwise _ _))

/-- Nothing lies after the last tick `c`, and no run after the anchor; a run is for the interval of
its tick, which is claimed. -/
structure Anchored (key : WorkflowKey) (s : Nat) (c : DateTime) (e : WorkflowEngine) : Prop where
  spaced : e.Spaced key s
  past : ∀ r ∈ e.runsOf key, r.now ≤ c
  anchor : ∀ t ∈ e.lastFired key, t ≤ c ∧ ∀ r ∈ e.runsOf key, r.now ≤ t
  claimed : ∀ r ∈ e.runsOf key, r.scheduledFor = bucket s r.now ∧ r.scheduledFor ∈ e.firesOf key
  calendar : ∀ a ∈ e.firesOf key, InCalendar (timestamp a)

omit [CronReader] in
theorem anchored_start (c : DateTime) : start.Anchored key s c where
  spaced := List.Pairwise.nil
  past := List.forall_mem_nil _
  anchor t set := by cases set
  claimed := List.forall_mem_nil _
  calendar := List.forall_mem_nil _

omit [CronReader] in
theorem Anchored.mono {c : DateTime} (anchored : e.Anchored key s c) (later : c ≤ now) :
    e.Anchored key s now :=
  { anchored with
    past := fun r mem => le_trans (anchored.past r mem) later
    anchor := fun t set => ⟨le_trans (anchored.anchor t set).1 later, (anchored.anchor t set).2⟩ }

omit [CronReader] in
theorem Anchored.set (anchored : e.Anchored key s now) :
    (e.anchor key now).Anchored key s now ∧ (e.anchor key now).InStep key s now := by
  have here : (e.anchor key now).lastFired key = some now := Function.update_self ..
  refine ⟨⟨anchored.spaced, anchored.past, fun t set => ?_, anchored.claimed, anchored.calendar⟩,
    fun missing => ?_⟩
  · obtain rfl : now = t := by simpa [here] using set
    exact ⟨le_refl _, anchored.past⟩
  · rw [here] at missing
    cases missing

omit [CronReader] in
/-- When a workflow is due for an interval that is not claimed, its runs are old. -/
theorem Anchored.old (anchored : e.Anchored key s now) (inStep : e.InStep key s now)
    (positive : 0 < s) (inside : InCalendar (timestamp now)) {replies : Replies}
    (passed : s ≤ (numSeconds (now - (e.lastFire key replies).getD now)).natAbs)
    (free : bucket s now ∉ e.firesOf key) : e.Old key s now := by
  have fresh : ¬s ≤ (numSeconds (now - now)).natAbs := by
    rw [sub_self, le_numSeconds (le_refl 0)]
    unfold second
    omega
  unfold lastFire at passed
  cases set : e.lastFired key with
  | some t =>
    obtain ⟨past, after⟩ := anchored.anchor t set
    simp only [set, Option.getD_some, le_numSeconds (sub_nonneg.2 past)] at passed
    intro r mem
    exact le_trans passed (sub_le_sub_left (after r mem) now)
  | none =>
    cases read : replies.anchorRead with
    | false =>
      simp only [set, read, Bool.false_eq_true, if_false, Option.getD_none] at passed
      exact absurd passed fresh
    | true =>
      cases claimed : e.latestScheduledWorkflowFire key with
      | none =>
        simp only [set, read, claimed, if_true, Option.getD_none] at passed
        exact absurd passed fresh
      | some a =>
        simp only [set, read, claimed, if_true, Option.getD_some] at passed
        have small := lt_of_passed (anchored.calendar a (List.max?_mem claimed)) inside passed
        intro r mem
        obtain ⟨is, taken⟩ := anchored.claimed r mem
        refine le_sub_of_bucket positive small (anchored.past r mem) (fun same => ?_)
          (fun next => inStep set r mem (is ▸ next))
        rw [is, same] at taken
        exact free taken

omit [CronReader] in
theorem mem_firesOf {u : DateTime} : u ∈ e.firesOf key ↔ (key, u) ∈ e.fires := by
  simp [firesOf]

omit [CronReader] in
theorem Anchored.claim (anchored : e.Anchored key s now) {instant : DateTime}
    (inside : InCalendar (timestamp instant)) :
    { e with fires := e.fires ++ [(key, instant)] }.Anchored key s now := by
  have fires : { e with fires := e.fires ++ [(key, instant)] }.firesOf key =
      e.firesOf key ++ [instant] := by
    simp [firesOf, List.filter_append]
  refine ⟨anchored.spaced, anchored.past, anchored.anchor, fun r mem => ?_, ?_⟩
  · obtain ⟨is, mem⟩ := anchored.claimed r mem
    exact ⟨is, fires ▸ List.mem_append_left _ mem⟩
  · rw [fires, List.forall_mem_append]
    exact ⟨anchored.calendar, List.forall_mem_singleton.2 inside⟩

omit [CronReader] in
theorem Anchored.create (anchored : e.Anchored key s now) (claimed : bucket s now ∈ e.firesOf key)
    (old : e.Old key s now) :
    (WorkflowEngine.anchor { e with runs := e.runs ++ [⟨key, bucket s now, now, .interval⟩] } key
      now).Anchored key s now := by
  obtain ⟨ran, is⟩ : ∃ ran, ran =
      WorkflowEngine.anchor { e with runs := e.runs ++ [⟨key, bucket s now, now, .interval⟩] } key
        now :=
    ⟨_, rfl⟩
  have runs : ran.runsOf key = e.runsOf key ++ [⟨key, bucket s now, now, .interval⟩] := by
    simp [is, WorkflowEngine.anchor, runsOf, List.filter_append]
  have fires : ran.firesOf key = e.firesOf key := by rw [is]; rfl
  have here : ran.lastFired key = some now := by
    rw [is]
    exact Function.update_self ..
  have past : ∀ r ∈ ran.runsOf key, r.now ≤ now := by
    rw [runs, List.forall_mem_append]
    exact ⟨anchored.past, List.forall_mem_singleton.2 (le_refl now)⟩
  rw [← is]
  refine ⟨?_, past, fun t set => ?_, ?_, fires ▸ anchored.calendar⟩
  · rw [Spaced, runs, List.pairwise_append]
    exact ⟨anchored.spaced, List.pairwise_singleton _ _,
      fun r mem => List.forall_mem_singleton.2 (old r mem)⟩
  · obtain rfl : now = t := by simpa [here] using set
    exact ⟨le_refl _, past⟩
  · rw [runs, fires, List.forall_mem_append]
    exact ⟨anchored.claimed, List.forall_mem_singleton.2 ⟨rfl, claimed⟩⟩

omit [CronReader] in
/-- Claiming the interval of a tick keeps the distance, if the runs are old. -/
theorem Anchored.fire (anchored : e.Anchored key s now) (inStep : e.InStep key s now)
    {instant : DateTime} (is : instant = bucket s now)
    (inside : InCalendar (timestamp instant)) (rested : instant ∉ e.firesOf key → e.Old key s now)
    (replies : Replies) :
    (e.fire now key replies (instant, .interval)).Anchored key s now ∧
      (e.fire now key replies (instant, .interval)).InStep key s now := by
  unfold WorkflowEngine.fire
  cases replies.claim with
  | failed => exact ⟨anchored, inStep⟩
  | gone => exact anchored.set
  | executed =>
    by_cases taken : (key, instant) ∈ e.fires
    · simp only [if_pos taken]
      exact anchored.set
    · simp only [if_neg taken]
      have old := rested fun mem => taken (mem_firesOf.1 mem)
      have claimed := anchored.claim inside
      cases replies.runCreated with
      | false => exact ⟨claimed, inStep⟩
      | true =>
        subst is
        refine ⟨claimed.create (mem_firesOf.2 (by simp)) old, fun missing => ?_⟩
        exact absurd missing (by simp [anchorInterval, WorkflowEngine.anchor])

theorem Anchored.visit (anchored : e.Anchored key s now) (inStep : e.InStep key s now)
    (positive : 0 < s) (inside : InCalendar (timestamp now)) {listed : WorkflowRecord × Replies}
    (here : listed.1.key = key) (interval : ∀ d ∈ listed.1.definition, d.HasInterval s) :
    (visit now e listed).Anchored key s now ∧ (visit now e listed).InStep key s now := by
  subst here
  unfold WorkflowEngine.visit
  split
  · next d _ defined _ =>
    obtain ⟨dur, trigger, parsed⟩ := interval d defined
    by_cases passed : s ≤ (numSeconds (now - (e.lastFire listed.1.key listed.2).getD now)).natAbs
    · have fires : e.due now listed.1.key d.trigger listed.2 =
          (e, (intervalFireInstant dur now).map (·, .interval)) := by
        simp [due, trigger, intervalPrefilterShouldFire, intervalShouldFire, parsed, passed]
      rw [fires]
      split
      · cases found : intervalFireInstant dur now with
        | none => exact ⟨anchored, inStep⟩
        | some instant =>
          obtain ⟨rfl, claimable⟩ := intervalFireInstant_eq_some parsed found
          exact anchored.fire inStep rfl claimable
            (anchored.old inStep positive inside passed) listed.2
      · exact ⟨anchored, inStep⟩
    · have waits : e.due now listed.1.key d.trigger listed.2 = (e.anchor listed.1.key now, none) ∨
          e.due now listed.1.key d.trigger listed.2 = (e, none) := by
        simp only [due, trigger, intervalPrefilterShouldFire, intervalShouldFire, parsed, passed,
          decide_false, Bool.false_eq_true, if_false]
        split
        · exact .inl rfl
        · exact .inr rfl
      rcases waits with waits | waits
      · rw [waits]
        split
        · exact anchored.set
        · exact ⟨anchored, inStep⟩
      · rw [waits]
        split
        · exact ⟨anchored, inStep⟩
        · exact ⟨anchored, inStep⟩
  · exact ⟨anchored, inStep⟩

/-- Visits keep the distance, those of other workflows included. -/
theorem Anchored.foldl (positive : 0 < s) (inside : InCalendar (timestamp now))
    (listed : List (WorkflowRecord × Replies))
    (interval : ∀ l ∈ listed, l.1.key = key → ∀ d ∈ l.1.definition, d.HasInterval s) :
    ∀ {e : WorkflowEngine}, e.Anchored key s now →
      ((∃ l ∈ listed, l.1.key = key) → e.InStep key s now) →
      (listed.foldl (WorkflowEngine.visit now) e).Anchored key s now := by
  induction listed with
  | nil => exact fun anchored _ => anchored
  | cons l listed ih =>
    intro e anchored inStep
    have later := @ih fun l mem => interval l (List.mem_cons_of_mem _ mem)
    by_cases here : l.1.key = key
    · obtain ⟨kept, after⟩ := anchored.visit (inStep ⟨l, List.mem_cons_self, here⟩) positive inside here
        (interval l List.mem_cons_self here)
      exact later kept fun _ => after
    · obtain ⟨anchor, fires, runs⟩ := (visited e now l).other here
      refine later ⟨?_, ?_, ?_, ?_, ?_⟩ ?_
      · rw [Spaced, runs]
        exact anchored.spaced
      · rw [runs]
        exact anchored.past
      · rw [runs, anchor]
        exact anchored.anchor
      · rw [runs, fires]
        exact anchored.claimed
      · rw [fires]
        exact anchored.calendar
      · rintro ⟨l', mem, is⟩
        rw [InStep, anchor, runs]
        exact inStep ⟨l', List.mem_cons_of_mem _ mem, is⟩

theorem Anchored.tick {c : DateTime} (anchored : e.Anchored key s c) (positive : 0 < s) {t : Tick}
    (later : c ≤ t.now) (inside : InCalendar (timestamp t.now))
    (interval : (Action.tick t).HasInterval key s) (settled : e.Settled key s (.tick t)) :
    (e.tick t).Anchored key s t.now := by
  have each : ∀ l ∈ t.workflows.getD [], l.1.key = key →
      ∀ d ∈ l.1.definition, d.HasInterval s := interval
  have inStep : (∃ l ∈ t.workflows.getD [], l.1.key = key) → e.InStep key s t.now := settled
  unfold WorkflowEngine.tick
  cases loaded : t.workflows with
  | none => exact anchored.mono later
  | some listed =>
    rw [loaded] at each inStep
    have kept := Anchored.foldl positive inside listed each (anchored.mono later) inStep
    refine { kept with anchor := fun t set => ?_ }
    simp only [retain] at set
    split at set
    · exact kept.anchor t set
    · cases set

/-- In every run whose ticks without an anchor are in step with the runs before them, the runs of a
workflow with an unchanged interval are at least an interval apart. -/
theorem run_spaced (positive : 0 < s) {actions : List Action}
    (clock : (actions.filterMap Action.time).Pairwise (· ≤ ·))
    (calendar : ∀ t ∈ actions.filterMap Action.time, InCalendar (timestamp t))
    (interval : ∀ a ∈ actions, a.HasInterval key s)
    (settled : Along step (Settled key s) start actions) :
    (run step start actions).Spaced key s := by
  have loop : ∀ (actions : List Action) (e : WorkflowEngine) (c : DateTime),
      (c :: actions.filterMap Action.time).Pairwise (· ≤ ·) →
      (∀ t ∈ actions.filterMap Action.time, InCalendar (timestamp t)) →
      (∀ a ∈ actions, a.HasInterval key s) → Along step (Settled key s) e actions →
      e.Anchored key s c → (run step e actions).Spaced key s := by
    intro actions
    induction actions with
    | nil => exact fun e c _ _ _ _ anchored => anchored.spaced
    | cons action actions ih =>
      intro e c clock calendar interval settled anchored
      obtain ⟨first, settled⟩ := along_cons.1 settled
      have later := fun a mem => interval a (List.mem_cons_of_mem action mem)
      cases action with
      | restart =>
        refine ih _ c clock calendar later settled { anchored with anchor := fun t set => ?_ }
        cases set
      | tick t =>
        simp only [List.filterMap_cons, Action.time, List.pairwise_cons,
          List.forall_mem_cons] at clock calendar
        refine ih _ t.now (List.pairwise_cons.2 clock.2) calendar.2 later settled ?_
        exact anchored.tick positive clock.1.1 calendar.1 (interval _ List.mem_cons_self) first
  cases times : actions.filterMap Action.time with
  | nil =>
    exact loop actions start 0 (by rw [times]; exact List.pairwise_singleton _ _) calendar interval
      settled (anchored_start 0)
  | cons c rest =>
    refine loop actions start c ?_ calendar interval settled (anchored_start c)
    rw [times] at clock ⊢
    refine List.pairwise_cons.2 ⟨?_, clock⟩
    exact List.forall_mem_cons.2 ⟨le_refl c, (List.pairwise_cons.1 clock).1⟩

end Interval

theorem isLeast_minute (t : Int) :
    IsLeast {v : Int | v ∈ {u | minute ∣ u} ∧ t < v} ((t / minute + 1) * minute) := by
  unfold minute second
  refine ⟨⟨Dvd.intro_left _ rfl, by omega⟩, ?_⟩
  rintro v ⟨⟨n, rfl⟩, after⟩
  omega

def everyMinute : CronSchedule where
  instants := {u | minute ∣ u}
  next t := some ((t / minute + 1) * minute)
  minute_dvd _ mem := mem
  next_eq_some t _ :=
    ⟨fun is => Option.some.inj is ▸ isLeast_minute t,
      fun least => congrArg some ((isLeast_minute t).unique least)⟩

abbrev minutely : CronReader := ⟨fun _ => some everyMinute⟩

def everyTwoMinutes (secs : Int) : Action :=
  .tick ⟨secs * second, some [(⟨(1, 1), some 1, some ⟨true, .schedule none (some "2m")⟩⟩, .reliable)]⟩

theorem hasInterval_everyTwoMinutes (secs : Int) :
    (everyTwoMinutes secs).HasInterval (1, 1) 120 := by
  intro listed mem here d defined
  obtain rfl := List.mem_singleton.1 mem
  obtain rfl := Option.some.inj defined
  exact ⟨"2m", rfl, by decide +kernel⟩

/-- A run a second into its interval, a restart, and a run ten seconds into the next one. -/
def restarted : List Action :=
  [everyTwoMinutes 0, everyTwoMinutes 60, everyTwoMinutes 121, .restart, everyTwoMinutes 250]

theorem run_spaced_restarted :
    Along (@step minutely) (Settled (1, 1) 120) start restarted ∧
      ((run (@step minutely) start restarted).runsOf (1, 1)).map WorkflowRun.now =
        [121 * second, 250 * second] ∧
      (run (@step minutely) start restarted).Spaced (1, 1) 120 :=
  have settled : Along (@step minutely) (Settled (1, 1) 120) start restarted := by decide +kernel
  ⟨settled, by decide +kernel,
    @run_spaced (1, 1) 120 minutely (by decide) _ (by decide +kernel) (by decide +kernel)
      (by
        intro a mem
        simp only [restarted, List.mem_cons, List.not_mem_nil, or_false] at mem
        rcases mem with rfl | rfl | rfl | rfl | rfl
        · exact hasInterval_everyTwoMinutes 0
        · exact hasInterval_everyTwoMinutes 60
        · exact hasInterval_everyTwoMinutes 121
        · exact trivial
        · exact hasInterval_everyTwoMinutes 250) settled⟩

/-- The last run before the restart is at 239 seconds, in the interval that starts at 120; the next
one is 61 seconds later. -/
theorem runs_close :
    ¬(run (@step minutely) start [everyTwoMinutes 0, everyTwoMinutes 60, everyTwoMinutes 239, .restart,
      everyTwoMinutes 300]).Spaced (1, 1) 120 := by
  decide +kernel

/-! ## Cron schedules -/

section Cron

variable [CronReader] {e : WorkflowEngine} {expr : String} {schedule : CronSchedule} {t : Tick}
  {ticks : List Tick}

/-- A record with a channel and a cron expression, for which the database does what it is asked. -/
structure RunsCron (expr : String) (l : WorkflowRecord × Replies) : Prop where
  channel : l.1.channelId.isSome = true
  definition : l.1.definition = some ⟨true, .schedule (some expr) none⟩
  reliable : l.2 = .reliable

def ListsCron (key : WorkflowKey) (expr : String) (t : Tick) : Prop :=
  ∃ listed, t.workflows = some listed ∧ (∃ l ∈ listed, l.1.key = key) ∧
    ∀ l ∈ listed, l.1.key = key → RunsCron expr l

/-- Every claimed instant of the workflow has its run, and no instant is claimed twice. -/
structure Matched (key : WorkflowKey) (e : WorkflowEngine) : Prop where
  runs : e.firesOf key = (e.runsOf key).map WorkflowRun.scheduledFor
  nodup : e.fires.Nodup

theorem visit_cron {l : WorkflowRecord × Replies} (runs : RunsCron expr l) :
    visit now e l = match cronFireInstant expr now 60 with
      | some u =>
        if (l.1.key, u) ∈ e.fires then e
        else { e with
          fires := e.fires ++ [(l.1.key, u)]
          runs := e.runs ++ [⟨l.1.key, u, now, .cron⟩] }
      | none => e := by
  obtain ⟨c, channel⟩ := Option.isSome_iff_exists.1 runs.channel
  unfold visit
  simp only [runs.definition, channel, due, if_true]
  cases cronFireInstant expr now 60 with
  | none => rfl
  | some u => simp [fire, runs.reliable, Replies.reliable, anchorInterval]

theorem Matched.visit (now : DateTime) (matched : e.Matched key) {l : WorkflowRecord × Replies}
    (here : l.1.key = key) (runs : RunsCron expr l) :
    (visit now e l).Matched key ∧ ∀ u, u ∈ (visit now e l).firesOf key ↔
      u ∈ e.firesOf key ∨ cronFireInstant expr now 60 = some u := by
  subst here
  have nodup := (visited e now l).nodup matched.nodup
  rw [visit_cron runs] at nodup ⊢
  cases found : cronFireInstant expr now 60 with
  | none => exact ⟨matched, by simp⟩
  | some v =>
    rw [found] at nodup
    by_cases taken : (l.1.key, v) ∈ e.fires
    · simp only [if_pos taken]
      refine ⟨matched, fun u => ⟨.inl, ?_⟩⟩
      rintro (mem | is)
      · exact mem
      · exact mem_firesOf.2 (Option.some.inj is ▸ taken)
    · simp only [if_neg taken] at nodup ⊢
      refine ⟨⟨?_, nodup⟩, fun u => ?_⟩
      · have runs := matched.runs
        simp only [firesOf, runsOf] at runs
        simp [firesOf, runsOf, List.filter_append, runs]
      · simp [mem_firesOf, eq_comm]

theorem Matched.foldl (now : DateTime) (listed : List (WorkflowRecord × Replies))
    (each : ∀ l ∈ listed, l.1.key = key → RunsCron expr l) :
    ∀ e : WorkflowEngine, e.Matched key →
      (listed.foldl (WorkflowEngine.visit now) e).Matched key ∧
      ∀ u, u ∈ (listed.foldl (WorkflowEngine.visit now) e).firesOf key ↔
        u ∈ e.firesOf key ∨ (∃ l ∈ listed, l.1.key = key) ∧ cronFireInstant expr now 60 = some u := by
  induction listed with
  | nil => exact fun e matched => ⟨matched, by simp⟩
  | cons l listed ih =>
    intro e matched
    have later := ih fun l mem => each l (List.mem_cons_of_mem _ mem)
    by_cases here : l.1.key = key
    · obtain ⟨kept, claims⟩ :=
        matched.visit now here (each l List.mem_cons_self here)
      obtain ⟨all, claimsAll⟩ := later _ kept
      refine ⟨all, fun u => ?_⟩
      rw [List.foldl_cons, claimsAll, claims]
      simp only [List.mem_cons, exists_eq_or_imp, here, true_or, true_and]
      tauto
    · have visit := visited e now l
      obtain ⟨-, fires, runs⟩ := visit.other here
      obtain ⟨all, claimsAll⟩ := later (WorkflowEngine.visit now e l)
        ⟨by rw [fires, runs]; exact matched.runs, visit.nodup matched.nodup⟩
      refine ⟨all, fun u => ?_⟩
      rw [List.foldl_cons, claimsAll, fires]
      simp [here]

/-- A tick claims and runs what is due, and nothing else. -/
theorem Matched.tick (matched : e.Matched key) (lists : ListsCron key expr t) :
    (e.tick t).Matched key ∧ ∀ u, u ∈ (e.tick t).firesOf key ↔
      u ∈ e.firesOf key ∨ cronFireInstant expr t.now 60 = some u := by
  obtain ⟨listed, loaded, there, each⟩ := lists
  obtain ⟨kept, claims⟩ := Matched.foldl t.now listed each e matched
  unfold WorkflowEngine.tick
  rw [loaded]
  exact ⟨⟨kept.runs, kept.nodup⟩, fun u => (claims u).trans (by rw [and_iff_right there])⟩

theorem Matched.run (lists : ∀ t ∈ ticks, ListsCron key expr t) :
    ∀ e : WorkflowEngine, e.Matched key →
      (run step e (ticks.map .tick)).Matched key ∧
      ∀ u, u ∈ (run step e (ticks.map .tick)).firesOf key ↔
        u ∈ e.firesOf key ∨ ∃ t ∈ ticks, cronFireInstant expr t.now 60 = some u := by
  induction ticks with
  | nil => exact fun e matched => ⟨matched, by simp [Steps.run]⟩
  | cons t ticks ih =>
    intro e matched
    obtain ⟨kept, claims⟩ := matched.tick (lists t List.mem_cons_self)
    obtain ⟨all, claimsAll⟩ := ih (fun t mem => lists t (List.mem_cons_of_mem _ mem)) _ kept
    refine ⟨all, fun u => (claimsAll u).trans ?_⟩
    rw [claims]
    simp [or_assoc]

theorem cronFireInstant_eq (parsed : CronReader.parse (normalizeCron expr) = some schedule)
    {u : DateTime} : cronFireInstant expr now 60 = some u ↔
      u ∈ schedule.instants ∧ now - minute < u ∧ u ≤ now := by
  have window : now - 60 * second = now - minute := rfl
  simp only [cronFireInstant, parsed, Option.bind_some, window, Option.filter_eq_some_iff,
    schedule.next_eq_some, decide_eq_true_eq]
  constructor
  · rintro ⟨⟨⟨mem, after⟩, -⟩, past⟩
    exact ⟨mem, after, past⟩
  · rintro ⟨mem, after, past⟩
    refine ⟨⟨⟨mem, after⟩, ?_⟩, past⟩
    -- two instants of the window would be less than a minute apart
    rintro v ⟨mem', after'⟩
    obtain ⟨m, rfl⟩ := schedule.minute_dvd u mem
    obtain ⟨n, rfl⟩ := schedule.minute_dvd v mem'
    have close : minute * (m - n) < minute * 1 := by linarith
    have order : m ≤ n := by
      have := lt_of_mul_lt_mul_left close (by decide)
      omega
    exact mul_le_mul_of_nonneg_left order (by decide)

/-- Each instant between the first and the last tick is found by a tick, and no instant is run
twice. -/
structure CronExact (key : WorkflowKey) (expr : String) (schedule : CronSchedule)
    (ticks : List Tick) : Prop where
  found : ∀ first ∈ ticks.head?, ∀ last ∈ ticks.getLast?, ∀ u ∈ schedule.instants,
    first.now < u → u ≤ last.now → (∃ t ∈ ticks, cronFireInstant expr t.now 60 = some u) ∧
      (((run step start (ticks.map .tick)).runsOf key).map WorkflowRun.scheduledFor).count u = 1
  once : ∀ u,
    (((run step start (ticks.map .tick)).runsOf key).map WorkflowRun.scheduledFor).count u ≤ 1

/-- No instant lies between a tick and the window of the next one. -/
def Gapless (schedule : CronSchedule) (ticks : List Tick) : Prop :=
  ticks.IsChain fun a b => ∀ u ∈ schedule.instants, a.now < u → b.now - minute < u

omit [CronReader] in
/-- The first tick that is not before an instant has it in its window. -/
theorem Gapless.exists_tick {u : DateTime} (mem : u ∈ schedule.instants) {last : Tick} :
    ∀ {first : Tick} {ticks : List Tick}, Gapless schedule (first :: ticks) →
      last ∈ (first :: ticks).getLast? → first.now < u → u ≤ last.now →
      ∃ t ∈ first :: ticks, t.now - minute < u ∧ u ≤ t.now := by
  intro first ticks
  induction ticks generalizing first with
  | nil =>
    intro _ ends after past
    obtain rfl : first = last := by simpa using ends
    exact absurd after (not_lt.2 past)
  | cons next ticks ih =>
    intro gapless ends after past
    obtain ⟨covers, later⟩ := List.isChain_cons_cons.1 gapless
    by_cases reached : u ≤ next.now
    · exact ⟨next, by simp, covers u mem after, reached⟩
    · rw [List.getLast?_cons_cons] at ends
      obtain ⟨t, mem, window⟩ := ih later ends (not_le.1 reached) past
      exact ⟨t, List.mem_cons_of_mem _ mem, window⟩

omit [CronReader] in
theorem head_le (increasing : ticks.Pairwise fun a b => a.now < b.now) {first : Tick}
    (isFirst : ticks.head? = some first) (mem : t ∈ ticks) : first.now ≤ t.now := by
  obtain ⟨rest, rfl⟩ := List.head?_eq_some_iff.1 isFirst
  rcases List.mem_cons.1 mem with rfl | mem
  · exact le_refl _
  · exact le_of_lt ((List.pairwise_cons.1 increasing).1 t mem)

omit [CronReader] in
theorem le_getLast (increasing : ticks.Pairwise fun a b => a.now < b.now) {last : Tick}
    (isLast : ticks.getLast? = some last) (mem : t ∈ ticks) : t.now ≤ last.now := by
  obtain ⟨rest, rfl⟩ := List.getLast?_eq_some_iff.1 isLast
  rcases List.mem_append.1 mem with mem | mem
  · exact le_of_lt ((List.pairwise_append.1 increasing).2.2 t mem last List.mem_cons_self)
  · rw [List.mem_singleton.1 mem]

/-- The ticks find and run every instant between the first and the last of them, once each, iff no
instant lies between a tick and the window of the next one. -/
theorem run_cron_iff (parsed : CronReader.parse (normalizeCron expr) = some schedule)
    (increasing : ticks.Pairwise fun a b => a.now < b.now)
    (lists : ∀ t ∈ ticks, ListsCron key expr t) :
    CronExact key expr schedule ticks ↔ Gapless schedule ticks := by
  obtain ⟨matched, claims⟩ := Matched.run lists start ⟨rfl, List.nodup_nil⟩
  have once : (((run step start (ticks.map .tick)).runsOf key).map
      WorkflowRun.scheduledFor).Nodup := by
    rw [← matched.runs]
    refine (matched.nodup.filter _).map_on ?_
    intro a inA b inB same
    have first := of_decide_eq_true (List.mem_filter.1 inA).2
    have second := of_decide_eq_true (List.mem_filter.1 inB).2
    exact Prod.ext (first.trans second.symm) same
  constructor
  · intro complete
    refine List.isChain_iff_forall_rel_of_append_cons_cons.2 fun a b before after is u mem past => ?_
    by_contra missed
    have missed : u ≤ b.now - minute := not_lt.1 missed
    have inA : a ∈ ticks := by simp [is]
    have inB : b ∈ ticks := by simp [is]
    obtain ⟨first, isFirst⟩ :=
      Option.isSome_iff_exists.1 (List.isSome_head?.2 (List.ne_nil_of_mem inA))
    obtain ⟨last, isLast⟩ :=
      Option.isSome_iff_exists.1 (List.getLast?_isSome.2 (List.ne_nil_of_mem inA))
    have early : first.now < u := lt_of_le_of_lt (head_le increasing isFirst inA) past
    have late : u ≤ last.now :=
      le_trans (le_trans missed (sub_le_self _ (by decide))) (le_getLast increasing isLast inB)
    obtain ⟨⟨t, inT, fires⟩, -⟩ := complete.found first isFirst last isLast u mem early late
    obtain ⟨-, window, reached⟩ := (cronFireInstant_eq parsed).1 fires
    -- ticks up to `a` are before the instant, and those from `b` on have it behind their window
    rw [is, List.pairwise_append, List.pairwise_cons, List.pairwise_cons] at increasing
    obtain ⟨-, ⟨-, fromB, -⟩, apart⟩ := increasing
    simp only [is, List.mem_append, List.mem_cons] at inT
    rcases inT with inT | rfl | rfl | inT
    · exact absurd reached (not_le.2 (lt_trans (apart t inT a List.mem_cons_self) past))
    · exact absurd reached (not_le.2 past)
    · exact absurd missed (not_le.2 window)
    · exact absurd missed (not_le.2 (lt_trans (sub_lt_sub_right (fromB t inT) _) window))
  · intro gapless
    refine ⟨?_, fun u => List.nodup_iff_count_le_one.1 once u⟩
    intro first isFirst last isLast u mem after past
    obtain ⟨found, here, window⟩ : ∃ t ∈ ticks, t.now - minute < u ∧ u ≤ t.now := by
      cases ticks with
      | nil => cases isFirst
      | cons head rest =>
        obtain rfl := Option.some.inj isFirst
        exact gapless.exists_tick mem isLast after past
    have fires := (cronFireInstant_eq parsed).2 ⟨mem, window⟩
    refine ⟨⟨found, here, fires⟩, List.count_eq_one_of_mem once ?_⟩
    rw [← matched.runs]
    exact (claims u).2 (.inr ⟨found, here, fires⟩)

end Cron

/-- A workflow of every minute, visited at a half second. -/
def cronTick (halfSecs : Int) : Tick :=
  ⟨halfSecs * 500000000,
    some [(⟨(1, 1), some 1, some ⟨true, .schedule (some "* * * * *") none⟩⟩, .reliable)]⟩

theorem listsCron_cronTick (halfSecs : Int) : ListsCron (1, 1) "* * * * *" (cronTick halfSecs) := by
  refine ⟨_, rfl, ⟨_, List.mem_cons_self, rfl⟩, ?_⟩
  intro l mem _
  obtain rfl := List.mem_singleton.1 mem
  exact ⟨rfl, rfl, rfl⟩

theorem run_cron_iff_minutes :
    Gapless everyMinute [cronTick 0, cronTick 120, cronTick 240] ∧
      @CronExact minutely (1, 1) "* * * * *" everyMinute
        [cronTick 0, cronTick 120, cronTick 240] :=
  have gapless : Gapless everyMinute [cronTick 0, cronTick 120, cronTick 240] := by
    unfold Gapless
    simp only [List.isChain_cons_cons, List.isChain_singleton, and_true]
    exact ⟨fun u _ after => after, fun u _ after => after⟩
  ⟨gapless, (@run_cron_iff (1, 1) minutely "* * * * *" everyMinute _ rfl (by decide +kernel) (by
    intro t mem
    simp only [List.mem_cons, List.not_mem_nil, or_false] at mem
    rcases mem with rfl | rfl | rfl
    · exact listsCron_cronTick 0
    · exact listsCron_cronTick 120
    · exact listsCron_cronTick 240)).2 gapless⟩

/-- The ticks at 59.5 and 120.5 seconds are 61 seconds apart, and miss the instant at 60 seconds. -/
theorem cron_instant_missed :
    (cronTick 241).now - (cronTick 119).now = 61 * second ∧
      ¬@CronExact minutely (1, 1) "* * * * *" everyMinute [cronTick 119, cronTick 241] := by
  refine ⟨by decide, fun complete => ?_⟩
  obtain ⟨⟨t, mem, found⟩, -⟩ := @CronExact.found minutely _ _ _ _ complete _ rfl _ rfl
    (60 * second) ⟨1, rfl⟩ (by decide) (by decide)
  simp only [List.mem_cons, List.not_mem_nil, or_false] at mem
  rcases mem with rfl | rfl
  · exact absurd found (by decide +kernel)
  · exact absurd found (by decide +kernel)

end WorkflowEngine

end Workflow

end Carryforth
