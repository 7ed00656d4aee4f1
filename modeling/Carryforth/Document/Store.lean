import Carryforth.Document.Reduce

/-!
# Project Documents: the store

A store runs the reducer on its catalog and on the current Document of each command.  Over any
sequence of commands, in whatever order the clients' commands arrive, the accepted commands on a
Document carry the revisions 0, 1, 2, … and only the first creates it; a deleted Document stays as it
is, creation attributions stay, and the catalog counts exactly (`run_orderly`).
-/

namespace Carryforth

namespace Document

open Fallible

/-- A command together with what the adapter adds to it. -/
structure Change where
  command : ProjectDocumentCommand
  context : DocumentChangeContext
deriving DecidableEq, Repr

structure Store where
  catalog : DocumentCatalog
  documents : OrdMap Uuid CurrentDocument
  accepted : List Change

namespace Store

def start (catalog : DocumentCatalog) : Store := { catalog, documents := ∅, accepted := [] }

/-- One command; a rejected one changes nothing. -/
def step (s : Store) (change : Change) : Store :=
  match reduceDocument s.catalog s.documents[change.command.documentId]? change.command
      change.context with
  | .ok t =>
    { catalog := t.catalog
      documents := s.documents.insert change.command.documentId t.current
      accepted := s.accepted ++ [change] }
  | .error _ => s

def run (s : Store) (changes : List Change) : Store := changes.foldl step s

def commandsOn (s : Store) (id : Uuid) : List ProjectDocumentCommand :=
  (s.accepted.map Change.command).filter fun c => c.documentId = id

def isActive (d : CurrentDocument) : Bool := d.document.state = .active

/-- What holds of a store and the changes it has accepted since it was started. -/
structure Orderly (initializedAt : DateTime) (s : Store) : Prop where
  /-- Each command on a Document was based on the one before it. -/
  chain : ∀ id, (s.commandsOn id).map ProjectDocumentCommand.expectedDocumentRevision =
    List.range (s.commandsOn id).length
  /-- The first command on a Document creates it, and no other does. -/
  creates : ∀ id i c, (s.commandsOn id)[i]? = some c → (c.operation = .create ↔ i = 0)
  revisions : s.catalog.catalogRevision = s.accepted.length
  count : s.catalog.activeDocumentCount = OrdMap.countWhere isActive s.documents
  times : (initializedAt :: s.accepted.map fun change => change.context.canonicalAt).Pairwise
    (· < ·)

structure Keeps (d d' : CurrentDocument) : Prop where
  created : d'.document.created = d.document.created
  final : d.document.state = .deleted → d' = d

theorem Keeps.refl (d : CurrentDocument) : Keeps d d := ⟨rfl, fun _ => rfl⟩

theorem Keeps.trans {a b c : CurrentDocument} (first : Keeps a b) (second : Keeps b c) :
    Keeps a c := by
  refine ⟨second.created.trans first.created, fun deleted => ?_⟩
  have same := first.final deleted
  rw [second.final (by rw [same]; exact deleted), same]

/-! ## The invariant -/

/-- The stored Document of each identity is at the revision that its commands lead to. -/
structure Sound (initializedAt : DateTime) (s : Store) : Prop
    extends s.Orderly initializedAt where
  revision : ∀ id : Uuid, (s.commandsOn id).length =
    (s.documents[id]?.map fun d => d.document.currentRevision).getD 0
  stored : ∀ (id : Uuid) d, s.documents[id]? = some d → 1 ≤ d.document.currentRevision
  latest : ∀ time ∈ initializedAt :: s.accepted.map fun change => change.context.canonicalAt,
    time ≤ s.catalog.updatedAt

variable {initializedAt : DateTime} {s : Store}

theorem start_sound {catalog : DocumentCatalog} {projectId : Uuid} {generation : Nat}
    (made : DocumentCatalog.empty projectId generation initializedAt = .ok catalog) :
    (start catalog).Sound initializedAt := by
  simp only [DocumentCatalog.empty, DocumentCatalog.fromSnapshot, bind_eq_ok, exists_unit,
    pure_eq_ok] at made
  obtain ⟨-, rfl⟩ := made
  have none : ∀ id : Uuid, (∅ : OrdMap Uuid CurrentDocument)[id]? = none := fun id =>
    Std.ExtTreeMap.getElem?_empty
  refine { chain := fun id => rfl, creates := ?_, revisions := rfl, count := ?_, times := ?_
           revision := ?_, stored := ?_, latest := ?_ }
  · intro id i c is
    cases is
  · rfl
  · exact List.pairwise_singleton _ _
  · intro id
    show 0 = _
    rw [start, none]
    rfl
  · intro id d is
    rw [start, none] at is
    cases is
  · intro time mem
    rw [List.mem_singleton.1 mem]
    exact le_rfl

theorem commandsOn_append (accepted : List Change) (change : Change) (catalog : DocumentCatalog)
    (documents : OrdMap Uuid CurrentDocument) (id : Uuid) :
    commandsOn { catalog, documents, accepted := accepted ++ [change] } id =
      commandsOn { catalog, documents, accepted } id ++
        if change.command.documentId = id then [change.command] else [] := by
  unfold commandsOn
  dsimp only
  rw [List.map_append, List.filter_append]
  congr 1
  by_cases same : change.command.documentId = id
  · simp [same]
  · simp [same]

/-- An accepted command on a Document is based on the commands before it. -/
theorem Sound.based (sound : s.Sound initializedAt) {change : Change} {t : DocumentTransition}
    (accepted : Accepted s.catalog s.documents[change.command.documentId]? change.command
      change.context t) :
    change.command.expectedDocumentRevision =
        (s.commandsOn change.command.documentId).length ∧
      (change.command.operation = .create ↔
        (s.commandsOn change.command.documentId).length = 0) := by
  rw [sound.revision]
  by_cases create : change.command.operation = .create
  · obtain ⟨fresh, zero⟩ := accepted.finds.fresh create
    rw [fresh]
    exact ⟨zero, fun _ => rfl, fun _ => create⟩
  · obtain ⟨found, is, revision, -, -⟩ := accepted.finds.based create
    have positive := sound.stored _ found is
    rw [is]
    refine ⟨revision.symm, fun other => absurd other create, fun zero => ?_⟩
    simp only [Option.map_some, Option.getD_some] at zero
    omega

/-- The number of active Documents after an accepted command. -/
theorem Sound.counted (sound : s.Sound initializedAt) {change : Change} {t : DocumentTransition}
    (accepted : Accepted s.catalog s.documents[change.command.documentId]? change.command
      change.context t) :
    t.catalog.activeDocumentCount =
      OrdMap.countWhere isActive (s.documents.insert change.command.documentId t.current) := by
  have next := accepted.count
  rw [sound.count] at next
  have active : isActive t.current = decide (change.command.operation.state = .active) := by
    rw [isActive, accepted.state]
  cases operation : change.command.operation with
  | create =>
    rw [operation] at next active
    rw [OrdMap.countWhere_insert_of_none isActive (accepted.finds.fresh operation).1, active]
    exact nextRevision_eq_ok next
  | update =>
    obtain ⟨found, is, -, live, -⟩ := accepted.finds.based (by rw [operation]; decide)
    have replaced := OrdMap.countWhere_insert_of_some isActive is t.current
    have wasActive : isActive found = true := decide_eq_true live
    rw [operation] at next active
    rw [active, wasActive] at replaced
    have same := Except.ok.inj next
    simp only [DocumentOperation.state, decide_true, Bool.toNat_true] at replaced
    omega
  | delete =>
    obtain ⟨found, is, -, live, -⟩ := accepted.finds.based (by rw [operation]; decide)
    have replaced := OrdMap.countWhere_insert_of_some isActive is t.current
    have wasActive : isActive found = true := decide_eq_true live
    rw [operation] at next active
    rw [active, wasActive] at replaced
    simp only [nextCount, bind_eq_ok, ensure_eq_ok, exists_unit, pure_eq_ok] at next
    simp only [DocumentOperation.state, reduceCtorEq, decide_false, Bool.toNat_true,
      Bool.toNat_false] at replaced
    omega

theorem Sound.accept (sound : s.Sound initializedAt) {change : Change} {t : DocumentTransition}
    (accepted : Accepted s.catalog s.documents[change.command.documentId]? change.command
      change.context t) :
    Sound initializedAt { catalog := t.catalog
                          documents := s.documents.insert change.command.documentId t.current
                          accepted := s.accepted ++ [change] } := by
  obtain ⟨expected, first⟩ := sound.based accepted
  have commands : ∀ id, commandsOn { catalog := t.catalog
                                     documents := s.documents.insert change.command.documentId
                                       t.current
                                     accepted := s.accepted ++ [change] } id =
      s.commandsOn id ++ if change.command.documentId = id then [change.command] else [] := fun id =>
    commandsOn_append _ _ _ _ id
  have later : ∀ time ∈ initializedAt :: s.accepted.map fun change => change.context.canonicalAt,
      time < change.context.canonicalAt := fun time mem =>
    lt_of_le_of_lt (sound.latest time mem) accepted.later
  refine { chain := ?_, creates := ?_, revisions := ?_, count := sound.counted accepted, times := ?_
           revision := ?_, stored := ?_, latest := ?_ }
  · intro id
    rw [commands]
    split_ifs with same
    · rw [List.map_append, sound.chain, List.length_append, List.length_singleton,
        List.range_succ, ← same, ← expected]
      rfl
    · rw [List.append_nil]
      exact sound.chain id
  · intro id i c is
    rw [commands] at is
    split_ifs at is with same
    · rw [List.getElem?_append] at is
      split_ifs at is with inside
      · exact sound.creates id i c is
      · have last : i = (s.commandsOn id).length ∧ change.command = c := by
          rw [List.getElem?_singleton] at is
          split_ifs at is with zero
          exact ⟨by omega, Option.some.inj is⟩
        rw [← last.2, last.1, ← same]
        exact first
    · rw [List.append_nil] at is
      exact sound.creates id i c is
  · rw [accepted.catalogRevision, sound.revisions, List.length_append, List.length_singleton]
  · dsimp only
    rw [List.map_append, ← List.cons_append, List.pairwise_append]
    refine ⟨sound.times, List.pairwise_singleton _ _, fun time mem time' mem' => ?_⟩
    rw [List.mem_singleton.1 mem']
    exact later time mem
  · intro id
    rw [commands]
    dsimp only
    rw [OrdMap.get_insert]
    by_cases same : change.command.documentId = id
    · rw [if_pos same, if_pos same.symm, List.length_append, List.length_singleton, ← same,
        ← expected, Option.map_some, Option.getD_some, accepted.revision]
    · rw [if_neg same, if_neg (Ne.symm same), List.append_nil]
      exact sound.revision id
  · intro id d is
    dsimp only at is
    rw [OrdMap.get_insert] at is
    split_ifs at is with same
    · rw [← Option.some.inj is, accepted.revision]
      exact Nat.le_add_left 1 _
    · exact sound.stored id d is
  · intro time mem
    dsimp only at mem ⊢
    rw [List.map_append, ← List.cons_append] at mem
    rw [accepted.updatedAt]
    rcases List.mem_append.1 mem with mem | mem
    · exact le_of_lt (later time mem)
    · rw [List.mem_singleton.1 mem]

theorem Sound.step (sound : s.Sound initializedAt) (change : Change) :
    (s.step change).Sound initializedAt := by
  unfold Store.step
  split
  · rename_i t reduced
    exact sound.accept (reduceDocument_eq_ok reduced)
  · exact sound

theorem Sound.run (sound : s.Sound initializedAt) (changes : List Change) :
    (s.run changes).Sound initializedAt := by
  induction changes generalizing s with
  | nil => exact sound
  | cons change changes ih => exact ih (sound.step change)

/-! ## What stays -/

theorem keeps_step (s : Store) (change : Change) {id : Uuid} {d : CurrentDocument}
    (is : s.documents[id]? = some d) :
    ∃ d', (s.step change).documents[id]? = some d' ∧ Keeps d d' := by
  unfold Store.step
  split
  · rename_i t reduced
    have accepted := reduceDocument_eq_ok reduced
    dsimp only
    rw [OrdMap.get_insert]
    split_ifs with same
    · subst same
      have other : change.command.operation ≠ .create := fun create => by
        rw [(accepted.finds.fresh create).1] at is
        cases is
      obtain ⟨found, is', -, live, created⟩ := accepted.finds.based other
      obtain rfl : found = d := Option.some.inj (is'.symm.trans is)
      refine ⟨t.current, rfl, created.symm, fun deleted => ?_⟩
      rw [live] at deleted
      cases deleted
    · exact ⟨d, is, .refl d⟩
  · exact ⟨d, is, .refl d⟩

theorem keeps_run (s : Store) (changes : List Change) {id : Uuid} {d : CurrentDocument}
    (is : s.documents[id]? = some d) :
    ∃ d', (s.run changes).documents[id]? = some d' ∧ Keeps d d' := by
  induction changes generalizing s d with
  | nil => exact ⟨d, is, .refl d⟩
  | cons change changes ih =>
    obtain ⟨next, isNext, kept⟩ := keeps_step s change is
    obtain ⟨d', is', later⟩ := ih _ isNext
    exact ⟨d', is', kept.trans later⟩

/-- Over any sequence of commands the store is orderly, and between any two moments of it deleted
Documents and creation attributions do not change. -/
theorem run_orderly {projectId : Uuid} {generation : Nat} {catalog : DocumentCatalog}
    (made : DocumentCatalog.empty projectId generation initializedAt = .ok catalog)
    (before after : List Change) :
    ((start catalog).run before).Orderly initializedAt ∧
      ∀ (id : Uuid) d, ((start catalog).run before).documents[id]? = some d →
        ∃ d', ((start catalog).run (before ++ after)).documents[id]? = some d' ∧ Keeps d d' := by
  refine ⟨((start_sound made).run before).toOrderly, fun id d is => ?_⟩
  have whole : (start catalog).run (before ++ after) = ((start catalog).run before).run after :=
    List.foldl_append
  rw [whole]
  exact keeps_run _ after is

end Store

/-! ## A store with two clients -/

def sampleCatalog : DocumentCatalog :=
  { projectId := 1, catalogRevision := 0, activeDocumentCount := 0, projectionGeneration := 1
    initializedAt := 0, updatedAt := 0 }

def sampleDocumentId : Uuid := 0x00000000000040008000000000000001

def sampleChange (revision : Nat) (canonicalAt : DateTime) (request : DocumentCommandRequest) :
    Change :=
  { command := { schemaVersion := 1, expectedDocumentRevision := revision
                 actingAssignmentId := none, runtimeFence := none, request }
    context := { actor := 7, changeId := 9, canonicalAt, deletionBlocked := false } }

/-- A Document is created; two clients update it from the same revision. -/
def sampleChanges : List Change :=
  [sampleChange 0 1 (.create sampleDocumentId ⟨"a", none, ""⟩),
    sampleChange 1 2 (.update sampleDocumentId ⟨"b", none, ""⟩),
    sampleChange 1 3 (.update sampleDocumentId ⟨"c", none, ""⟩)]

def sampleDelete : List Change := [sampleChange 2 4 (.delete sampleDocumentId)]

theorem run_orderly_sampleChanges :
    DocumentCatalog.empty 1 1 0 = .ok sampleCatalog ∧
      ((Store.start sampleCatalog).run (sampleChanges ++ sampleDelete)).accepted.length = 3 ∧
      ((Store.start sampleCatalog).run sampleChanges).Orderly 0 ∧
      ∀ (id : Uuid) d, ((Store.start sampleCatalog).run sampleChanges).documents[id]? = some d →
        ∃ d', ((Store.start sampleCatalog).run (sampleChanges ++ sampleDelete)).documents[id]? =
          some d' ∧ Store.Keeps d d' :=
  ⟨rfl, by decide +kernel, @Store.run_orderly 0 1 1 sampleCatalog rfl sampleChanges sampleDelete⟩

end Document

end Carryforth
