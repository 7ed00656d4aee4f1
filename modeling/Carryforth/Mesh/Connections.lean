import Carryforth.Lib.Steps
import Carryforth.Mesh.Runtime

/-!
# Connections between two runtimes

Two runtimes dial each other, offer every connection to `install_peer` on both sides and tear one
down when one of its loops gets a receive error.  The table of a runtime is keyed by the other
runtime and not by the connection.  A loop that has its error runs on to `remove_peer` even when its
task is aborted meanwhile, since there is no wait in between; it then takes out whatever entry there
is.  As long as no connection is installed between the error of a loop and its call, a loop takes
out its own connection only, and both sides settle on the connection that the smaller runtime dialed
(`teardown_of_careful`); without that they do not (`removes_newer`).
-/

namespace Carryforth

namespace Mesh

inductive Side
  | left
  | right
deriving DecidableEq, Repr

def Side.other : Side → Side
  | .left => .right
  | .right => .left

/-- A connection, by the side that dialed it and a number. -/
structure Conn where
  dialer : Side
  number : Nat
deriving DecidableEq, Repr

/-- The loops of a connection that call `remove_peer`. -/
inductive RecvLoop
  | datagram
  | stream
deriving DecidableEq, Repr

inductive Task
  /-- It was never spawned. -/
  | unborn
  /-- It waits to receive. -/
  | running
  /-- It has its receive error and has yet to call `remove_peer`. -/
  | failed
  /-- It was aborted at a wait, or has returned. -/
  | ended
deriving DecidableEq, Repr

/-- What a runtime has of the other one: the entry of its table, the tasks of all connections, the
connections that were offered, and the state in its membership table. -/
structure Site where
  entry : Option Conn
  task : Conn → RecvLoop → Task
  offered : List Conn
  state : ConnectionState

namespace Site

def start : Site :=
  { entry := none, task := fun _ _ => .unborn, offered := [], state := .disconnected }

def abort (site : Site) (c : Conn) : Site :=
  { site with task := fun c' loop =>
      if c' = c ∧ site.task c' loop = .running then .ended else site.task c' loop }

def setTask (site : Site) (c : Conn) (loop : RecvLoop) (task : Task) : Site :=
  { site with task := fun c' loop' => if c' = c ∧ loop' = loop then task else site.task c' loop' }

/-- The connection becomes the entry, with its loops. -/
def insert (site : Site) (c : Conn) : Site :=
  { site with
    entry := some c
    task := fun c' loop => if c' = c then .running else site.task c' loop
    state := .connected }

/-- A connection is installed unless there is one that wins the tie-break. -/
def accepts (site : Site) (here remote : RuntimeId) (dialedByUs : Bool) : Bool :=
  site.entry.isNone || Node.newConnectionWins here remote dialedByUs

/-- The site afterwards, and the connection that is dropped with this. -/
def installPeer (site : Site) (here remote : RuntimeId) (c : Conn) (dialedByUs : Bool) :
    Site × Option Conn :=
  match site.entry with
  | some existing =>
    if Node.newConnectionWins here remote dialedByUs = false then (site, some c)
    else ((site.abort existing).insert c, some existing)
  | none => (site.insert c, none)

def removePeer (site : Site) : Site :=
  match site.entry with
  | some entry => { site.abort entry with entry := none, state := .disconnected }
  | none => site

end Site

/-- Both sides, and the connections that `install_peer` has closed on one of them. -/
structure Link where
  site : Side → Site
  closed : List Conn

namespace Link

def start : Link := { site := fun _ => .start, closed := [] }

inductive Action
  /-- A connection is handed to `install_peer`, by the dial loop or by the accept loop. -/
  | offer (s : Side) (c : Conn)
  | error (s : Side) (c : Conn) (loop : RecvLoop)
  /-- A loop that has its error calls `remove_peer`. -/
  | remove (s : Side) (c : Conn) (loop : RecvLoop)
deriving DecidableEq, Repr

def Action.conn : Action → Conn
  | .offer _ c => c
  | .error _ c _ => c
  | .remove _ c _ => c

def setSite (l : Link) (s : Side) (site : Site) : Link :=
  { l with site := fun s' => if s' = s then site else l.site s' }

theorem site_setSite (l : Link) (s s' : Side) (site : Site) :
    (l.setSite s site).site s' = if s' = s then site else l.site s' := rfl

variable (ids : Side → RuntimeId)

/-- A connection is offered once on each side. -/
def step (l : Link) : Action → Link
  | .offer s c =>
    if c ∈ (l.site s).offered then l
    else
      let installed := (l.site s).installPeer (ids s) (ids s.other) c (c.dialer == s)
      { l.setSite s { installed.1 with offered := c :: (l.site s).offered } with
        closed := installed.2.toList ++ l.closed }
  | .error s c loop =>
    if (l.site s).task c loop = .running then l.setSite s ((l.site s).setTask c loop .failed)
    else l
  | .remove s c loop =>
    if (l.site s).task c loop = .failed then
      l.setSite s ((l.site s).removePeer.setTask c loop .ended)
    else l

/-- A call of `remove_peer` that takes an entry out takes out the connection it is called for. -/
def RemovesOwn (l : Link) : Action → Prop
  | .remove s c loop => (l.site s).task c loop = .failed →
    ∀ entry, (l.site s).entry = some entry → entry = c
  | _ => True

/-- A connection is not installed while a loop of another one has its error and has not yet called
`remove_peer`. -/
def Careful (l : Link) : Action → Prop
  | .offer s c => c ∉ (l.site s).offered →
    (l.site s).accepts (ids s) (ids s.other) (c.dialer == s) = true →
    ∀ c' ∈ (l.site s).offered,
      (l.site s).task c' .datagram ≠ .failed ∧ (l.site s).task c' .stream ≠ .failed
  | _ => True

/-- Only connections that `install_peer` has closed fail. -/
def FailsClosed (l : Link) : Action → Prop
  | .error _ c _ => c ∈ l.closed
  | _ => True

instance (l : Link) : DecidablePred (Careful ids l)
  | .offer s c => inferInstanceAs (Decidable (c ∉ (l.site s).offered →
      (l.site s).accepts (ids s) (ids s.other) (c.dialer == s) = true →
      ∀ c' ∈ (l.site s).offered,
        (l.site s).task c' .datagram ≠ .failed ∧ (l.site s).task c' .stream ≠ .failed))
  | .error _ _ _ => .isTrue trivial
  | .remove _ _ _ => .isTrue trivial

instance (l : Link) : DecidablePred (FailsClosed l)
  | .offer _ _ => .isTrue trivial
  | .error _ c _ => inferInstanceAs (Decidable (c ∈ l.closed))
  | .remove _ _ _ => .isTrue trivial

def smaller : Side := if ids .left < ids .right then .left else .right

/-! ## A loop takes out its own connection -/

/-- What holds on a side between the steps. -/
structure Tidy (site : Site) : Prop where
  running : ∀ {c loop}, site.task c loop = .running → site.entry = some c
  failed : ∀ {c loop}, site.task c loop = .failed → site.entry = none ∨ site.entry = some c
  known : ∀ {c loop}, site.task c loop = .failed → c ∈ site.offered
  entered : ∀ {c}, site.entry = some c → c ∈ site.offered

namespace Tidy

variable {site : Site} {c : Conn} {loop : RecvLoop}

theorem start : Tidy Site.start :=
  ⟨fun h => (nomatch h), fun h => (nomatch h), fun h => (nomatch h), fun h => (nomatch h)⟩

theorem offered (tidy : Tidy site) (c : Conn) : Tidy { site with offered := c :: site.offered } :=
  ⟨tidy.running, tidy.failed, fun h => List.mem_cons_of_mem _ (tidy.known h),
    fun h => List.mem_cons_of_mem _ (tidy.entered h)⟩

theorem error (tidy : Tidy site) (running : site.task c loop = .running) :
    Tidy (site.setTask c loop .failed) where
  running := fun {c' loop'} is => by
    change (if c' = c ∧ loop' = loop then Task.failed else site.task c' loop') = _ at is
    split_ifs at is
    exact tidy.running is
  failed := fun {c' loop'} is => by
    change (if c' = c ∧ loop' = loop then Task.failed else site.task c' loop') = _ at is
    split_ifs at is with here
    · obtain ⟨rfl, rfl⟩ := here
      exact .inr (tidy.running running)
    · exact tidy.failed is
  known := fun {c' loop'} is => by
    change (if c' = c ∧ loop' = loop then Task.failed else site.task c' loop') = _ at is
    split_ifs at is with here
    · obtain ⟨rfl, rfl⟩ := here
      exact tidy.entered (tidy.running running)
    · exact tidy.known is
  entered := tidy.entered

theorem ended (tidy : Tidy site) (c : Conn) (loop : RecvLoop) :
    Tidy (site.setTask c loop .ended) := by
  have before : ∀ {c' loop' task}, task ≠ Task.ended →
      (site.setTask c loop .ended).task c' loop' = task → site.task c' loop' = task := by
    intro c' loop' task other is
    change (if c' = c ∧ loop' = loop then Task.ended else site.task c' loop') = _ at is
    split_ifs at is
    · exact absurd is.symm other
    · exact is
  exact ⟨fun is => tidy.running (before (by decide) is),
    fun is => tidy.failed (before (by decide) is), fun is => tidy.known (before (by decide) is),
    tidy.entered⟩

theorem not_running_abort (tidy : Tidy site) {entry : Conn} (held : site.entry = some entry)
    (c : Conn) (loop : RecvLoop) : (site.abort entry).task c loop ≠ .running := by
  intro is
  change (if c = entry ∧ site.task c loop = .running then Task.ended else site.task c loop) = _ at is
  split_ifs at is with here
  have same := tidy.running is
  rw [held] at same
  exact here ⟨(Option.some.inj same).symm, is⟩

theorem task_of_abort_failed {entry : Conn} (is : (site.abort entry).task c loop = .failed) :
    site.task c loop = .failed := by
  change (if c = entry ∧ site.task c loop = .running then Task.ended else site.task c loop) = _ at is
  split_ifs at is
  exact is

/-- A call of `remove_peer` leaves no entry. -/
theorem removePeer (tidy : Tidy site) : Tidy site.removePeer := by
  unfold Site.removePeer
  split
  · rename_i entry held
    exact ⟨fun is => absurd is (tidy.not_running_abort held _ _), fun _ => .inl rfl,
      fun is => tidy.known (task_of_abort_failed is), fun is => (nomatch is)⟩
  · exact tidy

/-- A connection becomes the entry of a side where no task waits and none has failed. -/
theorem insert (unrun : ∀ c loop, site.task c loop ≠ .running)
    (unfailed : ∀ c loop, site.task c loop ≠ .failed) (c : Conn) :
    Tidy { site.insert c with offered := c :: site.offered } where
  running := fun {c' loop} is => by
    change (if c' = c then Task.running else site.task c' loop) = _ at is
    split_ifs at is with here
    · rw [here]
      rfl
    · exact absurd is (unrun c' loop)
  failed := fun {c' loop} is => by
    change (if c' = c then Task.running else site.task c' loop) = _ at is
    split_ifs at is
    exact absurd is (unfailed c' loop)
  known := fun {c' loop} is => by
    change (if c' = c then Task.running else site.task c' loop) = _ at is
    split_ifs at is
    exact absurd is (unfailed c' loop)
  entered := fun is => Option.some.inj is ▸ List.mem_cons_self

/-- An offer keeps a side tidy if nothing has failed where the connection is installed. -/
theorem installPeer (tidy : Tidy site) {here remote : RuntimeId} {dialedByUs : Bool}
    (careful : site.accepts here remote dialedByUs = true →
      ∀ c' ∈ site.offered, site.task c' .datagram ≠ .failed ∧ site.task c' .stream ≠ .failed)
    (c : Conn) :
    Tidy { (site.installPeer here remote c dialedByUs).1 with offered := c :: site.offered } := by
  have unfailed : site.accepts here remote dialedByUs = true →
      ∀ c loop, site.task c loop ≠ .failed := by
    intro accepts c loop is
    obtain ⟨datagram, stream⟩ := careful accepts c (tidy.known is)
    cases loop with
    | datagram => exact datagram is
    | stream => exact stream is
  unfold Site.installPeer
  split
  · rename_i existing held
    split_ifs with keeps
    · exact tidy.offered c
    · have accepts : site.accepts here remote dialedByUs = true := by
        rw [Bool.not_eq_false] at keeps
        rw [Site.accepts, keeps, Bool.or_true]
      exact insert (tidy.not_running_abort held)
        (fun c' loop is => unfailed accepts c' loop (task_of_abort_failed is)) c
  · rename_i empty
    have accepts : site.accepts here remote dialedByUs = true := by
      rw [Site.accepts, empty]
      rfl
    refine insert (fun c' loop is => ?_) (unfailed accepts) c
    have held := tidy.running is
    rw [empty] at held
    cases held

end Tidy

variable {ids} {l : Link}

theorem tidy_step (tidy : ∀ s, Tidy (l.site s)) {a : Action} (careful : Careful ids l a) (s : Side) :
    Tidy ((step ids l a).site s) := by
  have set : ∀ {s' : Side} {site : Site}, Tidy site → Tidy ((l.setSite s' site).site s) := by
    intro s' site kept
    rw [site_setSite]
    split_ifs
    · exact kept
    · exact tidy s
  cases a with
  | offer s' c =>
    unfold step
    dsimp only
    split_ifs with again
    · exact tidy s
    · exact set ((tidy s').installPeer (careful again) c)
  | error s' c loop =>
    unfold step
    dsimp only
    split_ifs with running
    · exact set ((tidy s').error running)
    · exact tidy s
  | remove s' c loop =>
    unfold step
    dsimp only
    split_ifs
    · exact set ((tidy s').removePeer.ended c loop)
    · exact tidy s

theorem removesOwn_of_tidy (tidy : ∀ s, Tidy (l.site s)) (a : Action) : RemovesOwn l a := by
  cases a with
  | offer s c => trivial
  | error s c loop => trivial
  | remove s c loop =>
    intro failed entry held
    rcases (tidy s).failed failed with empty | own
    · rw [empty] at held
      cases held
    · rw [own] at held
      exact (Option.some.inj held).symm

/-! ## Both sides settle -/

theorem newConnectionWins_iff (apart : ids .left ≠ ids .right) (s : Side) (c : Conn) :
    Node.newConnectionWins (ids s) (ids s.other) (c.dialer == s) = true ↔
      c.dialer = smaller ids := by
  obtain ⟨dialer, number⟩ := c
  unfold Node.newConnectionWins smaller
  by_cases less : ids .left < ids .right
  · have greater : ¬ids .right < ids .left := BitVec.lt_asymm less
    cases s <;> cases dialer <;> simp [Side.other, less, greater]
  · have greater : ids .right < ids .left := by bv_omega
    cases s <;> cases dialer <;> simp [Side.other, less, greater]

/-- With two connections, of which the first is the one that the smaller runtime dialed: it is never
closed and never fails, and stays the entry where it was offered. -/
structure Settled (c c' : Conn) (l : Link) : Prop where
  tidy : ∀ s, Tidy (l.site s)
  live : c ∉ l.closed
  unfailed : ∀ s loop, (l.site s).task c loop ≠ .failed
  only : ∀ {s entry}, (l.site s).entry = some entry → entry = c ∨ entry = c'
  held : ∀ {s}, c ∈ (l.site s).offered → (l.site s).entry = some c

namespace Settled

variable {c c' : Conn}

theorem start (c c' : Conn) : Settled c c' Link.start :=
  ⟨fun _ => .start, fun h => (nomatch h), fun _ _ h => (nomatch h), fun h => (nomatch h),
    fun h => (nomatch h)⟩

/-- A side may change as long as it stays tidy and settled itself. -/
theorem setSite (settled : Settled c c' l) {s : Side} {site : Site} {closed : List Conn}
    (tidy : Tidy site) (live : c ∉ closed) (unfailed : ∀ loop, site.task c loop ≠ .failed)
    (only : ∀ {entry}, site.entry = some entry → entry = c ∨ entry = c')
    (held : c ∈ site.offered → site.entry = some c) :
    Settled c c' { l.setSite s site with closed } where
  tidy := fun s' => by
    show Tidy (if s' = s then site else l.site s')
    split_ifs
    · exact tidy
    · exact settled.tidy s'
  live := live
  unfailed := fun s' loop => by
    show (if s' = s then site else l.site s').task c loop ≠ .failed
    split_ifs
    · exact unfailed loop
    · exact settled.unfailed s' loop
  only := fun {s' entry} is => by
    change (if s' = s then site else l.site s').entry = some entry at is
    split_ifs at is
    · exact only is
    · exact settled.only is
  held := fun {s'} mem => by
    change c ∈ (if s' = s then site else l.site s').offered at mem
    show (if s' = s then site else l.site s').entry = some c
    split_ifs at mem ⊢
    · exact held mem
    · exact settled.held mem

theorem not_failed_insert {site : Site} (unfailed : ∀ loop, site.task c loop ≠ .failed) (x : Conn)
    (loop : RecvLoop) : (site.insert x).task c loop ≠ .failed := by
  intro is
  change (if c = x then Task.running else site.task c loop) = _ at is
  split_ifs at is
  exact unfailed loop is

theorem not_failed_abort {site : Site} (unfailed : ∀ loop, site.task c loop ≠ .failed) (x : Conn)
    (loop : RecvLoop) : (site.abort x).task c loop ≠ .failed := fun is =>
  unfailed loop (Tidy.task_of_abort_failed is)

theorem offer_winner (settled : Settled c c' l) (apart : ids .left ≠ ids .right)
    (winner : c.dialer = smaller ids) {s : Side} (fresh : c ∉ (l.site s).offered)
    (careful : Careful ids l (.offer s c)) :
    Settled c c' (step ids l (.offer s c)) := by
  have wins := (newConnectionWins_iff apart s c).2 winner
  have tidy := (settled.tidy s).installPeer (careful fresh) c
  have step_eq : step ids l (.offer s c) =
      (let installed := (l.site s).installPeer (ids s) (ids s.other) c (c.dialer == s)
       { l.setSite s { installed.1 with offered := c :: (l.site s).offered } with
         closed := installed.2.toList ++ l.closed }) := if_neg fresh
  rw [step_eq]
  cases entry : (l.site s).entry with
  | none =>
    have installed : (l.site s).installPeer (ids s) (ids s.other) c (c.dialer == s) =
        ((l.site s).insert c, none) := by
      unfold Site.installPeer
      rw [entry]
    rw [installed] at tidy ⊢
    exact settled.setSite tidy settled.live (not_failed_insert (settled.unfailed s) c)
      (fun is => .inl (Option.some.inj is).symm) fun _ => rfl
  | some existing =>
    have installed : (l.site s).installPeer (ids s) (ids s.other) c (c.dialer == s) =
        (((l.site s).abort existing).insert c, some existing) := by
      unfold Site.installPeer
      rw [entry]
      dsimp only
      rw [wins, if_neg (by decide)]
    -- the winner itself is not there yet, so the loser is replaced
    have loser : existing ≠ c := by
      rintro rfl
      exact fresh ((settled.tidy s).entered entry)
    rw [installed] at tidy ⊢
    refine settled.setSite tidy ?_
      (not_failed_insert (not_failed_abort (settled.unfailed s) existing) c)
      (fun is => .inl (Option.some.inj is).symm) fun _ => rfl
    rw [Option.toList_some, List.singleton_append, List.mem_cons, not_or]
    exact ⟨fun same => loser same.symm, settled.live⟩

/-- The loser is installed only where the winner was not offered. -/
theorem offer_loser (settled : Settled c c' l) (apart : ids .left ≠ ids .right)
    (loser : c'.dialer ≠ smaller ids) {s : Side} (fresh : c' ∉ (l.site s).offered)
    (different : c' ≠ c) (careful : Careful ids l (.offer s c')) :
    Settled c c' (step ids l (.offer s c')) := by
  have loses : Node.newConnectionWins (ids s) (ids s.other) (c'.dialer == s) = false :=
    Bool.eq_false_iff.2 fun wins => loser ((newConnectionWins_iff apart s c').1 wins)
  have tidy := (settled.tidy s).installPeer (careful fresh) c'
  have step_eq : step ids l (.offer s c') =
      (let installed := (l.site s).installPeer (ids s) (ids s.other) c' (c'.dialer == s)
       { l.setSite s { installed.1 with offered := c' :: (l.site s).offered } with
         closed := installed.2.toList ++ l.closed }) := if_neg fresh
  have before : c ∈ c' :: (l.site s).offered → c ∈ (l.site s).offered := fun mem =>
    (List.mem_cons.1 mem).resolve_left fun same => different same.symm
  rw [step_eq]
  cases entry : (l.site s).entry with
  | none =>
    have installed : (l.site s).installPeer (ids s) (ids s.other) c' (c'.dialer == s) =
        ((l.site s).insert c', none) := by
      unfold Site.installPeer
      rw [entry]
    rw [installed] at tidy ⊢
    refine settled.setSite tidy settled.live (not_failed_insert (settled.unfailed s) c')
      (fun is => .inr (Option.some.inj is).symm) fun mem => ?_
    have held := settled.held (before mem)
    rw [entry] at held
    cases held
  | some existing =>
    have installed : (l.site s).installPeer (ids s) (ids s.other) c' (c'.dialer == s) =
        (l.site s, some c') := by
      unfold Site.installPeer
      rw [entry]
      dsimp only
      rw [if_pos loses]
    rw [installed] at tidy ⊢
    refine settled.setSite tidy ?_ (settled.unfailed s) settled.only fun mem =>
      settled.held (before mem)
    rw [Option.toList_some, List.singleton_append, List.mem_cons, not_or]
    exact ⟨fun same => different same.symm, settled.live⟩

theorem error (settled : Settled c c' l) {s : Side} {x : Conn} {loop : RecvLoop}
    (closed : x ∈ l.closed) : Settled c c' (step ids l (.error s x loop)) := by
  unfold step
  dsimp only
  split_ifs with running
  · refine settled.setSite ((settled.tidy s).error running) settled.live (fun loop' is => ?_)
      settled.only settled.held
    change (if c = x ∧ loop' = loop then Task.failed else (l.site s).task c loop') = _ at is
    split_ifs at is with here
    · exact settled.live (here.1 ▸ closed)
    · exact settled.unfailed s loop' is
  · exact settled

theorem remove (settled : Settled c c' l) {s : Side} {x : Conn} {loop : RecvLoop} :
    Settled c c' (step ids l (.remove s x loop)) := by
  unfold step
  dsimp only
  split_ifs with failed
  · have tidy := (settled.tidy s).removePeer.ended x loop
    -- a loop of the winner has not failed, so the winner is not there
    have absent : c ∉ (l.site s).offered := by
      intro mem
      have held := settled.held mem
      rcases (settled.tidy s).failed failed with empty | own
      · rw [empty] at held
        cases held
      · rw [own] at held
        rw [Option.some.inj held] at failed
        exact settled.unfailed s loop failed
    have same : (l.site s).removePeer.offered = (l.site s).offered := by
      unfold Site.removePeer
      split <;> rfl
    have gone : (l.site s).removePeer.entry = none := by
      unfold Site.removePeer
      split
      · rfl
      · assumption
    have unfailed : ∀ loop', (l.site s).removePeer.task c loop' ≠ .failed := by
      intro loop'
      unfold Site.removePeer
      split
      · exact not_failed_abort (settled.unfailed s) _ loop'
      · exact settled.unfailed s loop'
    refine settled.setSite tidy settled.live (fun loop' is => ?_) (fun is => ?_) fun mem => ?_
    · change (if c = x ∧ loop' = loop then Task.ended else _) = _ at is
      split_ifs at is
      exact unfailed loop' is
    · exact absurd (gone.symm.trans is) (by simp)
    · exact absurd (same ▸ mem) absent
  · exact settled

end Settled

theorem settled_step {c c' : Conn} (settled : Settled c c' l) (apart : ids .left ≠ ids .right)
    (winner : c.dialer = smaller ids) (loser : c'.dialer ≠ smaller ids) {a : Action}
    (careful : Careful ids l a) (closed : FailsClosed l a) (only : a.conn = c ∨ a.conn = c') :
    Settled c c' (step ids l a) := by
  have different : c' ≠ c := fun same => loser (same ▸ winner)
  cases a with
  | offer s x =>
    by_cases again : x ∈ (l.site s).offered
    · have idle : step ids l (.offer s x) = l := if_pos again
      rw [idle]
      exact settled
    · rcases only with rfl | rfl
      · exact settled.offer_winner apart winner again careful
      · exact settled.offer_loser apart loser again different careful
  | error s x loop => exact settled.error closed
  | remove s x loop => exact settled.remove

/-! ## Runs -/

structure SimultaneousDial (ids : Side → RuntimeId) (c c' : Conn) (actions : List Action) :
    Prop where
  winner : c.dialer = smaller ids
  loser : c'.dialer ≠ smaller ids
  only : ∀ a ∈ actions, a.conn = c ∨ a.conn = c'
  closed : Steps.Along (step ids) FailsClosed start actions
  offered : ∀ s, c ∈ ((Steps.run (step ids) start actions).site s).offered ∧
    c' ∈ ((Steps.run (step ids) start actions).site s).offered

/-- Every removal is of the connection it is called for, and connections that were dialed at once
leave both sides with the one that the smaller runtime dialed. -/
def TornDownByItself (ids : Side → RuntimeId) (actions : List Action) : Prop :=
  Steps.Along (step ids) RemovesOwn start actions ∧
  ∀ c c', SimultaneousDial ids c c' actions →
    ∀ s, ((Steps.run (step ids) start actions).site s).entry = some c

theorem removesOwn_of_careful {actions : List Action}
    (careful : Steps.Along (step ids) (Careful ids) start actions) :
    Steps.Along (step ids) RemovesOwn start actions := by
  rintro before action after rfl
  have tidy : ∀ s, Tidy ((Steps.run (step ids) start before).site s) :=
    careful.of_append.invariant (fun l => ∀ s, Tidy (l.site s))
      (fun l a careful tidy => tidy_step tidy careful) fun _ => Tidy.start
  exact removesOwn_of_tidy tidy action

theorem settled_of_careful (apart : ids .left ≠ ids .right) {actions : List Action}
    (careful : Steps.Along (step ids) (Careful ids) start actions) {c c' : Conn}
    (dial : SimultaneousDial ids c c' actions) :
    Settled c c' (Steps.run (step ids) start actions) := by
  have only : Steps.Along (step ids) (fun _ a => a.conn = c ∨ a.conn = c') start actions := by
    rintro before action after rfl
    exact dial.only action (by simp)
  refine ((careful.and dial.closed).and only).invariant (Settled c c') ?_ (Settled.start c c')
  rintro l a ⟨⟨careful, closed⟩, only⟩ settled
  exact settled_step settled apart dial.winner dial.loser careful closed only

/-- Without a connection installed between an error and its removal, connections are torn down only
by their own failure or by losing the tie-break. -/
theorem teardown_of_careful (ids : Side → RuntimeId) (apart : ids .left ≠ ids .right)
    (actions : List Action) (careful : Steps.Along (step ids) (Careful ids) start actions) :
    TornDownByItself ids actions :=
  ⟨removesOwn_of_careful careful, fun _ _ dial s =>
    (settled_of_careful apart careful dial).held (dial.offered s).1⟩

/-- Runtime one on the left and runtime two on the right. -/
def oneTwo : Side → RuntimeId
  | .left => 1
  | .right => 2

def dialedLeft : Conn := ⟨.left, 0⟩

def dialedRight : Conn := ⟨.right, 0⟩

/-- Both sides have dialed.  The left one drops the connection from the right, whose datagram loop
there gets an error. -/
def bothDialed : List Action :=
  [.offer .right dialedRight, .offer .left dialedLeft, .offer .left dialedRight,
    .error .right dialedRight .datagram]

theorem simultaneousDial_of {later : List Action}
    (only : ∀ a ∈ later, a.conn = dialedLeft ∨ a.conn = dialedRight)
    (closed : Steps.Along (step oneTwo) FailsClosed start (bothDialed ++ later))
    (offered : ∀ s,
      dialedLeft ∈ ((Steps.run (step oneTwo) start (bothDialed ++ later)).site s).offered ∧
      dialedRight ∈ ((Steps.run (step oneTwo) start (bothDialed ++ later)).site s).offered) :
    SimultaneousDial oneTwo dialedLeft dialedRight (bothDialed ++ later) where
  winner := by decide
  loser := by decide
  only := List.forall_mem_append.2 ⟨by decide, only⟩
  closed := closed
  offered := offered

/-- The error leads to the removal before the other connection is installed on the right. -/
theorem teardown_of_careful_bothDialed :
    let actions := bothDialed ++ [.remove .right dialedRight .datagram, .offer .right dialedLeft]
    SimultaneousDial oneTwo dialedLeft dialedRight actions ∧ TornDownByItself oneTwo actions := by
  refine ⟨simultaneousDial_of (by decide) (by decide) ?_,
    teardown_of_careful oneTwo (by decide) _ (by decide)⟩
  rintro (_ | _) <;> decide

/-- The connection that won is installed between the error and the removal, which takes it out. -/
theorem removes_newer :
    let before := bothDialed ++ [.offer .right dialedLeft]
    let l := Steps.run (step oneTwo) start before
    let l' := step oneTwo l (.remove .right dialedRight .datagram)
    SimultaneousDial oneTwo dialedLeft dialedRight
      (bothDialed ++ [.offer .right dialedLeft, .remove .right dialedRight .datagram]) ∧
    ((l.site .right).task dialedRight .datagram = .failed ∧
      (l.site .right).entry = some dialedLeft) ∧ (l'.site .right).entry = none := by
  refine ⟨simultaneousDial_of (by decide) (by decide) ?_, by decide⟩
  rintro (_ | _) <;> decide

end Link

end Mesh

end Carryforth
