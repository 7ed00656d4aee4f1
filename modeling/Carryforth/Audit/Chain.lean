import Carryforth.Audit.Hash
import Carryforth.Lib.Gapless
import Carryforth.Lib.Keys
import Carryforth.Lib.Steps

/-!
# The audit chain

The audit log is a table keyed by community and sequence number.  An append links the new row to the
last one of its community, and `verifyChain` recomputes the hashes of a range of rows and follows
their links.  In every run the rows of a community are numbered without gaps and verify
(`Chained.verifyChain_eq`), and if hashes tell the entries apart that occur, no range that was
tampered with does (`run_verifyChain`).
-/

namespace Carryforth

namespace Audit

open Fallible Std

abbrev CommunityId := Uuid

inductive AuditError
  | database
  | chainViolation (seq : Int64)
  | hashMismatch (seq : Int64)
  | unknownAction
deriving DecidableEq, Repr

/-- A stored row; the action is stored as its text. -/
structure Row where
  communityId : CommunityId
  seq : Int64
  hash : List UInt8
  prevHash : Option (List UInt8)
  action : String
  actorPubkey : Option (List UInt8)
  objectId : Option String
  detail : Json.Document
  createdAt : DateTime

structure NewAuditEntry where
  communityId : CommunityId
  action : AuditAction
  actorPubkey : Option (List UInt8)
  objectId : Option String
  detail : Json.Document

abbrev Table := OrdMap (CommunityId × Int64) Row

def rowToAuditEntry (row : Row) : Except AuditError AuditEntry := do
  let action ← within (fun _ => AuditError.unknownAction) (AuditAction.fromStr row.action)
  return {
    communityId := row.communityId
    seq := row.seq
    hash := row.hash
    prevHash := row.prevHash
    action := action
    actorPubkey := row.actorPubkey
    objectId := row.objectId
    detail := row.detail
    createdAt := row.createdAt }

def AuditEntry.toRow (e : AuditEntry) : Row where
  communityId := e.communityId
  seq := e.seq
  hash := e.hash
  prevHash := e.prevHash
  action := e.action.asStr
  actorPubkey := e.actorPubkey
  objectId := e.objectId
  detail := e.detail
  createdAt := e.createdAt

def logTimestamp (now : DateTime) : DateTime := toStoragePrecision now

/-- The rows of a community with numbers in a range, in ascending order. -/
def select (t : Table) (c : CommunityId) (inRange : Int64 → Bool) : List Row :=
  (t.toList.filter fun entry => entry.1.1 = c ∧ inRange entry.1.2).map Prod.snd

def between (fromSeq toSeq seq : Int64) : Bool := fromSeq ≤ seq ∧ seq ≤ toSeq

/-- Insert a row; the key and the hash of a row are unique in its community. -/
def insertRow (t : Table) (row : Row) : Except AuditError Table := do
  ensure (¬t.contains (row.communityId, row.seq) = true) .database
  ensure (∀ other ∈ select t row.communityId fun _ => true, other.hash ≠ row.hash) .database
  return t.insert (row.communityId, row.seq) row

section Hashing

variable [HashText] (sha256 : List UInt8 → BitVec 256)

/-- The entry that follows the last one of its community. -/
def nextEntry (t : Table) (entry : NewAuditEntry) (now : DateTime) : AuditEntry :=
  let head := (select t entry.communityId fun _ => true).getLast?
  let prev : Int64 × Option (List UInt8) :=
    match head with
    | some row => (row.seq, some row.hash)
    | none => (0, none)
  { communityId := entry.communityId
    seq := prev.1 + 1
    hash := []
    prevHash := prev.2
    action := entry.action
    actorPubkey := entry.actorPubkey
    objectId := entry.objectId
    detail := entry.detail
    createdAt := logTimestamp now }

def appendLocked (t : Table) (entry : NewAuditEntry) (now : DateTime) :
    Except AuditError (Table × AuditEntry) := do
  let auditEntry := nextEntry t entry now
  let auditEntry := { auditEntry with hash := auditEntry.computeHash sha256 }
  let t ← insertRow t auditEntry.toRow
  return (t, auditEntry)

/-- The loop of `verifyChain`, with the hash of the previous row. -/
def verifyRows : Option (List UInt8) → List Row → Except AuditError Bool
  | _, [] => .ok true
  | expectedPrev, row :: rows => do
    let entry ← rowToAuditEntry row
    checkSome expectedPrev fun expected =>
      ensure (entry.prevHash = some expected) (.chainViolation entry.seq)
    ensure (entry.computeHash sha256 = entry.hash) (.hashMismatch entry.seq)
    verifyRows (some entry.hash) rows

def verifyChain (t : Table) (community : CommunityId) (fromSeq toSeq : Int64) :
    Except AuditError Bool :=
  let rows := select t community (between fromSeq toSeq)
  if rows.isEmpty then .ok false else verifyRows sha256 none rows

/-! ## Runs -/

/-- A request to append an entry, and the clock when it is served. -/
structure Append where
  entry : NewAuditEntry
  now : DateTime

/-- Appends of one community exclude each other, so each one runs as a whole. -/
def step (t : Table) (a : Append) : Table :=
  match appendLocked sha256 t a.entry a.now with
  | .ok (t, _) => t
  | .error _ => t

def run (appends : List Append) : Table := Steps.run (step sha256) ∅ appends

end Hashing

/-! ## Selected rows -/

def RowsKeyed (t : Table) : Prop := OrdMap.Keyed (fun row : Row => (row.communityId, row.seq)) t

section Select

variable {t : Table} {c : CommunityId} {inRange : Int64 → Bool} {row : Row}

theorem mem_select :
    row ∈ select t c inRange ↔ ∃ s : Int64, t[(c, s)]? = some row ∧ inRange s = true := by
  simp only [select, List.mem_map, List.mem_filter, decide_eq_true_eq, Prod.exists,
    exists_eq_right, ExtTreeMap.mem_toList_iff_getElem?_eq_some]
  constructor
  · rintro ⟨_, s, found, rfl, inside⟩
    exact ⟨s, found, inside⟩
  · rintro ⟨s, found, inside⟩
    exact ⟨c, s, found, rfl, inside⟩

theorem RowsKeyed.mem_select (keyed : RowsKeyed t) : row ∈ select t c inRange ↔
    row.communityId = c ∧ t[(c, row.seq)]? = some row ∧ inRange row.seq = true := by
  rw [Audit.mem_select]
  constructor
  · rintro ⟨s, found, inside⟩
    cases keyed (c, s) row found
    exact ⟨rfl, found, inside⟩
  · rintro ⟨-, found, inside⟩
    exact ⟨row.seq, found, inside⟩

theorem RowsKeyed.sorted (keyed : RowsKeyed t) :
    (select t c inRange).Pairwise fun a b => a.seq.toInt < b.seq.toInt := by
  unfold select
  rw [List.pairwise_map]
  have ordered := (ExtTreeMap.ordered_keys_toList (t := t)).filter
    fun entry => entry.1.1 = c ∧ inRange entry.1.2
  refine ordered.imp_of_mem fun {a b} memA memB less => ?_
  obtain ⟨storedA, propsA⟩ := List.mem_filter.1 memA
  obtain ⟨storedB, propsB⟩ := List.mem_filter.1 memB
  have keyA := keyed _ _ (ExtTreeMap.mem_toList_iff_getElem?_eq_some.1 storedA)
  have keyB := keyed _ _ (ExtTreeMap.mem_toList_iff_getElem?_eq_some.1 storedB)
  have community : a.1.1 = b.1.1 :=
    (of_decide_eq_true propsA).1.trans (of_decide_eq_true propsB).1.symm
  have seqs : compare a.1.2 b.1.2 = .lt := by
    have both : (compare a.1.1 b.1.1).then (compare a.1.2 b.1.2) = .lt := less
    rwa [community, ReflOrd.compare_self] at both
  have seqA : a.2.seq = a.1.2 := congrArg Prod.snd keyA
  have seqB : b.2.seq = b.1.2 := congrArg Prod.snd keyB
  rw [← Int64.lt_iff_toInt_lt, seqA, seqB]
  exact compareOfLessAndEq_eq_lt.1 seqs

end Select

/-! ## What verification checks -/

/-- A row that is read back as an entry with its own hash. -/
def Sealed [HashText] (sha256 : List UInt8 → BitVec 256) (row : Row) : Prop :=
  ∃ e : AuditEntry, e.toRow = row ∧ e.computeHash sha256 = row.hash

/-- The hash of a row is recorded in the next one. -/
def Links (a b : Row) : Prop := b.prevHash = some a.hash

theorem rowToAuditEntry_eq_ok {row : Row} {e : AuditEntry} :
    rowToAuditEntry row = .ok e ↔ e.toRow = row := by
  constructor
  · intro read
    simp only [rowToAuditEntry, bind_eq_ok, pure_eq_ok, within_eq_ok] at read
    obtain ⟨action, known, rfl⟩ := read
    have text : action.asStr = row.action := by
      simp only [AuditAction.fromStr, okOr_eq_ok] at known
      have same := List.find?_some known
      exact of_decide_eq_true same
    cases row
    cases text
    rfl
  · rintro rfl
    simp only [rowToAuditEntry, AuditEntry.toRow, AuditAction.fromStr_asStr]
    rfl

section Verify

variable [HashText] {sha256 : List UInt8 → BitVec 256} {t : Table} {c : CommunityId} {i j s : Int64}
  {row : Row}

theorem verifyRows_eq_ok {expectedPrev : Option (List UInt8)} {rows : List Row} {b : Bool} :
    verifyRows sha256 expectedPrev rows = .ok b ↔ b = true ∧ (∀ row ∈ rows, Sealed sha256 row) ∧
      (∀ first ∈ rows.head?, ∀ h, expectedPrev = some h → first.prevHash = some h) ∧
      rows.IsChain Links := by
  induction rows generalizing expectedPrev with
  | nil => simp [verifyRows, eq_comm]
  | cons row rows ih =>
    simp only [verifyRows, bind_eq_ok, exists_unit, checkSome_eq_ok, ensure_eq_ok, ih,
      rowToAuditEntry_eq_ok]
    constructor
    · rintro ⟨e, rfl, first, hash, rfl, all, next, chain⟩
      refine ⟨rfl, ?_, ?_, List.isChain_cons.2 ⟨fun b is => next b is e.hash rfl, chain⟩⟩
      · intro row mem
        rcases List.mem_cons.1 mem with rfl | later
        · exact ⟨e, rfl, hash⟩
        · exact all row later
      · rintro row ⟨⟩ h is
        exact first h is
    · rintro ⟨rfl, all, first, chain⟩
      obtain ⟨e, is, hash⟩ := all row List.mem_cons_self
      subst is
      obtain ⟨next, chain⟩ := List.isChain_cons.1 chain
      refine ⟨e, rfl, fun h is => first _ rfl h is, hash, rfl,
        fun row mem => all row (List.mem_cons_of_mem _ mem), ?_, chain⟩
      rintro row is h ⟨⟩
      exact next row is

theorem verifyChain_eq_ok_true : verifyChain sha256 t c i j = .ok true ↔
    select t c (between i j) ≠ [] ∧ (∀ row ∈ select t c (between i j), Sealed sha256 row) ∧
      (select t c (between i j)).IsChain Links := by
  unfold verifyChain
  dsimp only
  split_ifs with empty
  · simp [List.isEmpty_iff.1 empty]
  · rw [List.isEmpty_iff] at empty
    simp [verifyRows_eq_ok, empty]

/-- A range that verifies has only rows with their own hash. -/
theorem sealed_of_verifyChain (verified : verifyChain sha256 t c i j = .ok true)
    (found : t[(c, s)]? = some row) (low : i ≤ s) (high : s ≤ j) : Sealed sha256 row :=
  (verifyChain_eq_ok_true.1 verified).2.1 row
    (mem_select.2 ⟨s, found, decide_eq_true ⟨low, high⟩⟩)

end Verify

/-! ## Runs keep the chains -/

/-- The rows of a community are numbered without gaps, have their own hashes, and each one records
the hash of the one before. -/
structure Chained [HashText] (sha256 : List UInt8 → BitVec 256) (t : Table) (c : CommunityId)
    (n : Nat) : Prop where
  numbered : ∀ s : Int64, t.contains (c, s) = true ↔ 1 ≤ s.toInt ∧ s.toInt ≤ n
  hashed : ∀ (s : Int64) row, t[(c, s)]? = some row → Sealed sha256 row
  linked : ∀ (p s : Int64) prev row, t[(c, p)]? = some prev → t[(c, s)]? = some row →
    s.toInt = p.toInt + 1 → Links prev row

section Runs

variable [HashText] {sha256 : List UInt8 → BitVec 256} {t : Table} {c : CommunityId} {n : Nat}

theorem chained_empty : Chained sha256 ∅ c 0 where
  numbered := by
    intro s
    simp
    omega
  hashed := by simp
  linked := by simp

theorem Chained.exists_row (chained : Chained sha256 t c n) {s : Int64} (low : 1 ≤ s.toInt)
    (high : s.toInt ≤ n) : ∃ row, t[(c, s)]? = some row :=
  OrdMap.contains_iff.1 ((chained.numbered s).2 ⟨low, high⟩)

theorem Chained.head (chained : Chained sha256 t c n) (keyed : RowsKeyed t)
    (fits : (n : Int) < 2 ^ 63) :
    match (select t c fun _ => true).getLast? with
    | some row => row.seq.toInt = n ∧ t[(c, row.seq)]? = some row
    | none => n = 0 := by
  have last : ∀ s : Int64, s.toInt = n → 0 < n →
      ∃ row ∈ select t c fun _ => true, row.seq = s := by
    intro s is some
    obtain ⟨row, found⟩ := chained.exists_row (by omega) (Int.le_of_eq is)
    have key := keyed _ _ found
    exact ⟨row, mem_select.2 ⟨s, found, rfl⟩, congrArg Prod.snd key⟩
  have top : (Int64.ofInt n).toInt = n := Int64.toInt_ofInt_of_le (by omega) fits
  cases is : (select t c fun _ => true).getLast? with
  | none =>
    by_contra some
    obtain ⟨row, mem, -⟩ := last _ top (Nat.pos_of_ne_zero some)
    rw [List.getLast?_eq_none_iff.1 is] at mem
    cases mem
  | some row =>
    obtain ⟨-, found, -⟩ := keyed.mem_select.1 (List.mem_of_getLast? is)
    have bounds := (chained.numbered row.seq).1 (OrdMap.contains_iff.2 ⟨row, found⟩)
    refine ⟨?_, found⟩
    obtain ⟨greatest, mem, seq⟩ := last _ top (by omega)
    have number : greatest.seq.toInt = n := by rw [seq, top]
    rcases Gapless.le_getLast_of_sorted keyed.sorted is mem with rfl | less
    · exact number
    · omega

/-- What an append does: nothing, or a new row behind the last one of its community. -/
theorem step_cases (sha256 : List UInt8 → BitVec 256) (t : Table) (a : Append) :
    step sha256 t a = t ∨ ∃ row, Sealed sha256 row ∧
      row.communityId = a.entry.communityId ∧ row.seq = (nextEntry t a.entry a.now).seq ∧
      row.prevHash = (nextEntry t a.entry a.now).prevHash ∧
      step sha256 t a = t.insert (a.entry.communityId, row.seq) row := by
  unfold step
  cases appended : appendLocked sha256 t a.entry a.now with
  | error _ => exact .inl rfl
  | ok result =>
    simp only [appendLocked, insertRow, bind_eq_ok, exists_unit, ensure_eq_ok, pure_eq_ok]
      at appended
    obtain ⟨t', ⟨-, -, rfl⟩, rfl⟩ := appended
    generalize next : nextEntry t a.entry a.now = e
    have community : e.communityId = a.entry.communityId := next ▸ rfl
    have hashed : Sealed sha256 { e with hash := e.computeHash sha256 }.toRow :=
      ⟨_, rfl, e.computeHash_withHash sha256 _⟩
    refine .inr ⟨_, hashed, community, rfl, rfl, ?_⟩
    rw [← community]
    rfl

theorem step_eq {a : Append} {e : AuditEntry} (next : nextEntry t a.entry a.now = e)
    (free : t.contains (e.communityId, e.seq) = false)
    (fresh : ∀ row ∈ select t e.communityId fun _ => true, row.hash ≠ e.computeHash sha256) :
    step sha256 t a = t.insert (e.communityId, e.seq)
      { e with hash := e.computeHash sha256 }.toRow := by
  have vacant : ¬t.contains (e.communityId, e.seq) = true := by simp [free]
  simp only [step, appendLocked, insertRow, next, AuditEntry.toRow, ensure_of vacant, ensure_of fresh,
    ok_bind]
  rfl

omit [HashText] in
theorem toInt_succ {s : Int64} (fits : s.toInt + 1 < 2 ^ 63) : (s + 1).toInt = s.toInt + 1 := by
  have low := s.le_toInt
  have one : (1 : Int64).toInt = 1 := rfl
  rw [Int64.toInt_add, one, Int.bmod_eq_of_le]
  · omega
  · omega

theorem RowsKeyed.step (keyed : RowsKeyed t) (a : Append) : RowsKeyed (step sha256 t a) := by
  rcases step_cases sha256 t a with same | ⟨row, -, community, -, -, inserted⟩
  · rwa [same]
  · rw [inserted]
    exact keyed.insert (by rw [community])

/-- The chain of another community is not touched. -/
theorem Chained.of_get {t' : Table} (chained : Chained sha256 t c n)
    (same : ∀ s : Int64, t'[(c, s)]? = t[(c, s)]?) : Chained sha256 t' c n where
  numbered s := by
    rw [ExtTreeMap.contains_eq_isSome_getElem?, same, ← ExtTreeMap.contains_eq_isSome_getElem?]
    exact chained.numbered s
  hashed s row found := chained.hashed s row (same s ▸ found)
  linked p s prev row before found next :=
    chained.linked p s prev row (same p ▸ before) (same s ▸ found) next

/-- A sealed row behind the last one continues the chain. -/
theorem Chained.insert (chained : Chained sha256 t c n) {s : Int64} {row : Row}
    (next : s.toInt = n + 1) (hashed : Sealed sha256 row)
    (linked : ∀ (p : Int64) prev, t[(c, p)]? = some prev → p.toInt = n → Links prev row) :
    Chained sha256 (t.insert (c, s) row) c (n + 1) where
  numbered k := by
    rw [ExtTreeMap.contains_insert, Bool.or_eq_true, chained.numbered k, beq_iff_eq,
      Std.compare_eq_iff_eq, Prod.mk.injEq, and_iff_right rfl, ← Int64.toInt_inj, next]
    omega
  hashed k other found := by
    rw [OrdMap.get_insert] at found
    split_ifs at found
    · cases found
      exact hashed
    · exact chained.hashed k other found
  linked p k prev other before found follows := by
    have inside : ∀ {q : Int64} {r : Row}, t[(c, q)]? = some r → q.toInt ≤ n := fun here =>
      ((chained.numbered _).1 (OrdMap.contains_iff.2 ⟨_, here⟩)).2
    rw [OrdMap.get_insert] at before found
    by_cases last : p = s
    · -- nothing follows the new row
      rw [if_neg ?_] at found
      · have bound := inside found
        rw [last] at follows
        omega
      · rintro ⟨⟩
        rw [last] at follows
        omega
    · rw [if_neg fun same => last (congrArg Prod.snd same)] at before
      split_ifs at found with new
      · cases found
        cases new
        exact linked p prev before (by omega)
      · exact chained.linked p k prev other before found follows

/-- The next entry of a community is numbered and linked behind the last row. -/
theorem Chained.nextEntry {entry : NewAuditEntry} (now : DateTime)
    (chained : Chained sha256 t entry.communityId n) (keyed : RowsKeyed t)
    (fits : (n : Int) + 1 < 2 ^ 63) :
    (nextEntry t entry now).seq.toInt = n + 1 ∧
      ∀ (p : Int64) prev, t[(entry.communityId, p)]? = some prev → p.toInt = n →
        (nextEntry t entry now).prevHash = some prev.hash := by
  have head := chained.head keyed (by omega)
  unfold Audit.nextEntry
  cases last : (select t entry.communityId fun _ => true).getLast? with
  | none =>
    rw [last] at head
    dsimp only at head ⊢
    refine ⟨by rw [head]; rfl, fun p prev found is => ?_⟩
    have bounds := (chained.numbered p).1 (OrdMap.contains_iff.2 ⟨prev, found⟩)
    omega
  | some row =>
    rw [last] at head
    dsimp only at head ⊢
    obtain ⟨number, stored⟩ := head
    refine ⟨by rw [toInt_succ (by omega), number], fun p prev found is => ?_⟩
    have same : p = row.seq := Int64.toInt_inj.1 (is.trans number.symm)
    rw [same, stored] at found
    rw [Option.some.inj found]

theorem Chained.step (chained : Chained sha256 t c n) (keyed : RowsKeyed t)
    (fits : (n : Int) + 1 < 2 ^ 63) (a : Append) :
    ∃ m ≤ n + 1, Chained sha256 (step sha256 t a) c m := by
  rcases step_cases sha256 t a with same | ⟨row, hashed, -, seq, prev, inserted⟩
  · rw [same]
    exact ⟨n, Nat.le_succ n, chained⟩
  · rw [inserted]
    by_cases own : a.entry.communityId = c
    · subst own
      obtain ⟨next, linked⟩ := chained.nextEntry a.now keyed fits
      rw [← seq] at next
      rw [← prev] at linked
      exact ⟨n + 1, Nat.le_refl _, chained.insert next hashed linked⟩
    · refine ⟨n, Nat.le_succ n, chained.of_get fun s => ?_⟩
      rw [OrdMap.get_insert, if_neg fun same => own (congrArg Prod.fst same).symm]

/-- In every run each community has a chain, as long as its rows can be numbered. -/
theorem run_chained (sha256 : List UInt8 → BitVec 256) (appends : List Append)
    (fits : appends.length < 2 ^ 63) (c : CommunityId) :
    RowsKeyed (run sha256 appends) ∧
      ∃ n ≤ appends.length, Chained sha256 (run sha256 appends) c n := by
  induction appends using List.reverseRecOn with
  | nil => exact ⟨OrdMap.keyed_empty, 0, Nat.le_refl 0, chained_empty⟩
  | append_singleton appends a ih =>
    rw [List.length_append, List.length_singleton] at fits
    obtain ⟨keyed, n, small, chained⟩ := ih (by omega)
    obtain ⟨m, bound, next⟩ := chained.step keyed (by omega) a
    have last : run sha256 (appends ++ [a]) = step sha256 (run sha256 appends) a := by
      rw [run, Steps.run_append]
      rfl
    rw [last, List.length_append, List.length_singleton]
    exact ⟨keyed.step a, m, by omega, next⟩

theorem Chained.verifyChain_eq (chained : Chained sha256 t c n) (keyed : RowsKeyed t) {i j : Int64}
    (low : 1 ≤ i.toInt) (order : i ≤ j) (high : j.toInt ≤ n) :
    verifyChain sha256 t c i j = .ok true := by
  rw [Int64.le_iff_toInt_le] at order
  obtain ⟨first, found⟩ := chained.exists_row low (by omega)
  rw [verifyChain_eq_ok_true]
  refine ⟨List.ne_nil_of_mem (mem_select.2 ⟨i, found, ?_⟩), ?_, ?_⟩
  · rw [between, decide_eq_true_eq, Int64.le_iff_toInt_le, Int64.le_iff_toInt_le]
    omega
  · intro row mem
    obtain ⟨s, here, -⟩ := mem_select.1 mem
    exact chained.hashed s row here
  · refine (Gapless.isChain_of_sorted keyed.sorted fun a b => by omega).imp ?_
    rintro a b ⟨memA, memB, less, none⟩
    obtain ⟨-, foundA, inA⟩ := keyed.mem_select.1 memA
    obtain ⟨-, foundB, inB⟩ := keyed.mem_select.1 memB
    refine chained.linked a.seq b.seq a b foundA foundB ?_
    -- a number between the two would have a row in the range
    by_contra gap
    have boundsA := (chained.numbered a.seq).1 (OrdMap.contains_iff.2 ⟨a, foundA⟩)
    have boundsB := (chained.numbered b.seq).1 (OrdMap.contains_iff.2 ⟨b, foundB⟩)
    have top := b.seq.toInt_lt
    have succ := toInt_succ (s := a.seq) (by omega)
    obtain ⟨row, there⟩ := chained.exists_row (s := a.seq + 1) (by omega) (by omega)
    have key : row.seq = a.seq + 1 := congrArg Prod.snd (keyed _ _ there)
    have mem : row ∈ select t c (between i j) := by
      refine mem_select.2 ⟨a.seq + 1, there, ?_⟩
      simp only [between, decide_eq_true_eq, Int64.le_iff_toInt_le] at inA inB ⊢
      omega
    refine none row mem ⟨?_, ?_⟩
    · rw [key]
      omega
    · rw [key]
      omega

end Runs

/-! ## Tampering -/

/-- Two rows differ in what they record, at the precision of storage. -/
def Differs (row other : Row) : Prop :=
  row.prevHash.getD genesisHash ≠ other.prevHash.getD genesisHash ∨ row.action ≠ other.action ∨
    row.actorPubkey ≠ other.actorPubkey ∨ row.objectId ≠ other.objectId ∨
    Json.sortKeys row.detail.value ≠ Json.sortKeys other.detail.value ∨
    toStoragePrecision row.createdAt ≠ toStoragePrecision other.createdAt

/-- The ways a range of a community's rows is tampered with. -/
inductive Tampering (t : Table) (c : CommunityId) (i j : Int64) : Table → Prop
  | change {s : Int64} {row other : Row} (found : t[(c, s)]? = some row) (low : i ≤ s)
      (high : s ≤ j) (community : other.communityId = row.communityId) (seq : other.seq = row.seq)
      (hash : other.hash = row.hash) (differs : Differs row other) :
      Tampering t c i j (t.insert (c, s) other)
  | delete {deleted : List Int64} (some : deleted ≠ []) (inside : ∀ s ∈ deleted, i < s ∧ s < j) :
      Tampering t c i j (t.filter fun key _ => ¬(key.1 = c ∧ key.2 ∈ deleted))
  | relabel {d : CommunityId} {s : Int64} {row : Row} (other : d ≠ c) (found : t[(d, s)]? = some row)
      (low : i ≤ s) (high : s ≤ j) :
      Tampering t c i j ((t.erase (d, s)).insert (c, s) { row with communityId := c })

/-- The hashes of the entries in two tables tell the entries apart. -/
def CollisionFree [HashText] (sha256 : List UInt8 → BitVec 256) (t t' : Table) : Prop :=
  ∀ e f : AuditEntry, (e.toRow ∈ t.valueList ∨ e.toRow ∈ t'.valueList) →
    (f.toRow ∈ t.valueList ∨ f.toRow ∈ t'.valueList) →
    e.computeHash sha256 = f.computeHash sha256 → Agree e f

section Tampered

variable [HashText] {sha256 : List UInt8 → BitVec 256} {t t' : Table} {c : CommunityId} {n : Nat}
  {i j : Int64}

omit [HashText] in
theorem not_differs_of_agree {e f : AuditEntry} (agree : Agree e f) :
    ¬Differs e.toRow f.toRow := by
  rintro (prev | action | actor | object | detail | created)
  · exact prev agree.prevHash
  · exact action (congrArg AuditAction.asStr agree.action)
  · exact actor agree.actorPubkey
  · exact object agree.objectId
  · exact detail agree.detail
  · exact created agree.createdAt

theorem agree_of_sealed (free : CollisionFree sha256 t t') {k k' : CommunityId × Int64}
    {row other : Row} (found : t[k]? = some row) (found' : t[k']? = some other ∨ t'[k']? = some other)
    (hashed : Sealed sha256 row) (hashed' : Sealed sha256 other) (hash : other.hash = row.hash) :
    ∃ e f : AuditEntry, e.toRow = row ∧ f.toRow = other ∧ Agree e f := by
  obtain ⟨e, rfl, own⟩ := hashed
  obtain ⟨f, rfl, own'⟩ := hashed'
  refine ⟨e, f, rfl, rfl, free e f (.inl (OrdMap.mem_valueList.2 ⟨k, found⟩)) ?_ ?_⟩
  · exact found'.imp (fun here => OrdMap.mem_valueList.2 ⟨k', here⟩)
      fun here => OrdMap.mem_valueList.2 ⟨k', here⟩
  · rw [own, own', hash]

/-- Rows of a chain that are linked as neighbours were neighbours before. -/
theorem Chained.seq_of_links (chained : Chained sha256 t c n) (keyed : RowsKeyed t)
    (free : CollisionFree sha256 t t') {a b : Row} (foundA : t[(c, a.seq)]? = some a)
    (foundB : t[(c, b.seq)]? = some b) (less : a.seq.toInt < b.seq.toInt) (links : Links a b) :
    b.seq.toInt = a.seq.toInt + 1 := by
  have boundsA := (chained.numbered a.seq).1 (OrdMap.contains_iff.2 ⟨a, foundA⟩)
  have boundsB := (chained.numbered b.seq).1 (OrdMap.contains_iff.2 ⟨b, foundB⟩)
  have top := b.seq.toInt_lt
  have pred : (Int64.ofInt (b.seq.toInt - 1)).toInt = b.seq.toInt - 1 :=
    Int64.toInt_ofInt_of_le (by omega) (by omega)
  obtain ⟨p, before⟩ := chained.exists_row (s := Int64.ofInt (b.seq.toInt - 1)) (by omega) (by omega)
  have linked := chained.linked _ _ p b before foundB (by omega)
  have hash : p.hash = a.hash := Option.some.inj (linked.symm.trans links)
  obtain ⟨e, f, rfl, rfl, agree⟩ := agree_of_sealed free foundA (.inl before)
    (chained.hashed _ _ foundA) (chained.hashed _ _ before) hash
  have seq : f.toRow.seq = Int64.ofInt (b.seq.toInt - 1) := congrArg Prod.snd (keyed _ _ before)
  have same : e.toRow.seq = f.toRow.seq := agree.seq
  rw [same, seq, pred]
  omega

/-- A range from which inner rows were deleted does not verify. -/
theorem Chained.not_verified_of_gap (chained : Chained sha256 t c n) (keyed : RowsKeyed t)
    (low : 1 ≤ i.toInt) (order : i ≤ j) (high : j.toInt ≤ n) {deleted : List Int64}
    (some : deleted ≠ []) (inside : ∀ s ∈ deleted, i < s ∧ s < j)
    (lookup : ∀ (s : Int64) row, t'[(c, s)]? = .some row ↔ t[(c, s)]? = .some row ∧ s ∉ deleted)
    (keyed' : RowsKeyed t') (free : CollisionFree sha256 t t') :
    verifyChain sha256 t' c i j ≠ .ok true := by
  intro verified
  obtain ⟨d, mem⟩ := List.exists_mem_of_ne_nil deleted some
  obtain ⟨above, below⟩ := inside d mem
  rw [Int64.lt_iff_toInt_lt] at above below
  rw [Int64.le_iff_toInt_le] at order
  -- the ends of the range are still there
  have kept : ∀ s : Int64, i.toInt ≤ s.toInt → s.toInt ≤ j.toInt → s ∉ deleted →
      ∃ row ∈ select t' c (between i j), row.seq = s := by
    intro s first last kept
    obtain ⟨row, found⟩ := chained.exists_row (s := s) (by omega) (by omega)
    refine ⟨row, mem_select.2 ⟨s, (lookup s row).2 ⟨found, kept⟩, ?_⟩,
      congrArg Prod.snd (keyed _ _ found)⟩
    rw [between, decide_eq_true_eq, Int64.le_iff_toInt_le, Int64.le_iff_toInt_le]
    exact ⟨first, last⟩
  obtain ⟨a, memA, seqA⟩ := kept i (Int.le_refl _) order
    fun gone => Int.lt_irrefl _ (Int64.lt_iff_toInt_lt.1 (inside i gone).1)
  obtain ⟨b, memB, seqB⟩ := kept j order (Int.le_refl _)
    fun gone => Int.lt_irrefl _ (Int64.lt_iff_toInt_lt.1 (inside j gone).2)
  -- so the links lead from one to the other without a gap
  have steps : (select t' c (between i j)).IsChain fun x y => y.seq.toInt = x.seq.toInt + 1 := by
    have links := (verifyChain_eq_ok_true.1 verified).2.2
    have sorted : (select t' c (between i j)).Pairwise fun x y => x.seq.toInt < y.seq.toInt :=
      keyed'.sorted
    have neighbours := Gapless.isChain_of_sorted sorted fun x y => by omega
    refine (Gapless.isChain_and links neighbours).imp ?_
    rintro x y ⟨link, memX, memY, less, -⟩
    obtain ⟨-, foundX, -⟩ := keyed'.mem_select.1 memX
    obtain ⟨-, foundY, -⟩ := keyed'.mem_select.1 memY
    exact chained.seq_of_links keyed free ((lookup _ _).1 foundX).1 ((lookup _ _).1 foundY).1
      less link
  obtain ⟨row, here, is⟩ := Gapless.mem_of_isChain_succ steps memA memB
    (k := d.toInt) (by rw [seqA]; omega) (by rw [seqB]; omega)
  obtain ⟨-, found, -⟩ := keyed'.mem_select.1 here
  exact ((lookup _ _).1 found).2 (Int64.toInt_inj.1 is ▸ mem)

/-- No range with a change, a gap or a foreign row verifies. -/
theorem Chained.not_verified (chained : Chained sha256 t c n) (keyed : RowsKeyed t)
    (hashed : ∀ (k : CommunityId × Int64) row, t[k]? = some row → Sealed sha256 row)
    (low : 1 ≤ i.toInt) (order : i ≤ j) (high : j.toInt ≤ n) (tampering : Tampering t c i j t')
    (free : CollisionFree sha256 t t') :
    verifyChain sha256 t' c i j ≠ .ok true := by
  intro verified
  cases tampering with
  | @change s row other found above below community seq hash differs =>
    have here : (t.insert (c, s) other)[(c, s)]? = some other := by
      rw [OrdMap.get_insert, if_pos rfl]
    have whole := sealed_of_verifyChain verified here above below
    obtain ⟨e, f, rfl, rfl, agree⟩ := agree_of_sealed free found (.inr here)
      (hashed _ _ found) whole hash
    exact not_differs_of_agree agree differs
  | @relabel d s row other found above below =>
    have here : ((t.erase (d, s)).insert (c, s) { row with communityId := c })[(c, s)]? =
        some { row with communityId := c } := by
      rw [OrdMap.get_insert, if_pos rfl]
    have whole := sealed_of_verifyChain verified here above below
    obtain ⟨e, f, first, second, agree⟩ := agree_of_sealed free found (.inr here)
      (hashed _ _ found) whole rfl
    have community : row.communityId = d := congrArg Prod.fst (keyed _ _ found)
    refine other ?_
    rw [← community, ← first]
    exact agree.communityId.trans (congrArg Row.communityId second)
  | @delete deleted some inside =>
    refine chained.not_verified_of_gap keyed low order high some inside (fun s row => ?_) ?_ free
      verified
    · rw [ExtTreeMap.getElem?_filter', Option.filter_eq_some_iff]
      simp
    · intro k row found
      rw [ExtTreeMap.getElem?_filter', Option.filter_eq_some_iff] at found
      exact keyed k row found.1

end Tampered

/-- In every run the rows of a community are numbered from 1 without gaps, every range of them
verifies, and no range that was tampered with does if the hashes tell apart the entries that
occur. -/
theorem run_verifyChain [HashText] (sha256 : List UInt8 → BitVec 256) (appends : List Append)
    (fits : appends.length < 2 ^ 63) (c : CommunityId) : ∃ n : Nat,
    (∀ s : Int64, (run sha256 appends).contains (c, s) = true ↔ 1 ≤ s.toInt ∧ s.toInt ≤ n) ∧
    ∀ i j : Int64, 1 ≤ i.toInt → i ≤ j → j.toInt ≤ n →
      verifyChain sha256 (run sha256 appends) c i j = .ok true ∧
      ∀ t', Tampering (run sha256 appends) c i j t' →
        CollisionFree sha256 (run sha256 appends) t' →
        verifyChain sha256 t' c i j ≠ .ok true := by
  obtain ⟨keyed, n, -, chained⟩ := run_chained sha256 appends fits c
  have hashed : ∀ (k : CommunityId × Int64) row, (run sha256 appends)[k]? = some row →
      Sealed sha256 row := by
    intro k row found
    obtain ⟨-, m, -, other⟩ := run_chained sha256 appends fits k.1
    exact other.hashed k.2 row found
  refine ⟨n, chained.numbered, fun i j low order high => ?_⟩
  refine ⟨chained.verifyChain_eq keyed low order high, fun t' tampering free => ?_⟩
  exact chained.not_verified keyed hashed low order high tampering free

/-! ## A sample log -/

/-- A hash for the sample: the bytes as digits. -/
def sampleSha256 (bytes : List UInt8) : BitVec 256 :=
  BitVec.ofNat 256 (bytes.foldl (fun n b => 257 * n + b.toNat + 1) 0)

def sampleAppend (objectId : String) : Append :=
  ⟨⟨1, .mediaUploaded, some [0xab], some objectId, ⟨.null, .null⟩⟩, 0⟩

/-- An entry of the sample before it is hashed. -/
def sampleUnhashed (objectId : String) (seq : Int64) (prevHash : Option (List UInt8)) : AuditEntry where
  communityId := 1
  seq := seq
  hash := []
  prevHash := prevHash
  action := .mediaUploaded
  actorPubkey := some [0xab]
  objectId := some objectId
  detail := ⟨.null, .null⟩
  createdAt := 0

def sampleHashed (objectId : String) (seq : Int64) (prevHash : Option (List UInt8)) : AuditEntry :=
  let e := sampleUnhashed objectId seq prevHash
  { e with hash := @AuditEntry.computeHash sampleText e sampleSha256 }

def sampleFirst : AuditEntry := sampleHashed "a" 1 none

def sampleSecond : AuditEntry := sampleHashed "b" 2 (some sampleFirst.hash)

def sampleThird : AuditEntry := sampleHashed "c" 3 (some sampleSecond.hash)

/-- The second entry about another object. -/
def sampleForged : AuditEntry := { sampleSecond with objectId := some "x" }

theorem nodup_sample : ([sampleFirst, sampleSecond, sampleThird, sampleForged].map fun e =>
    @AuditEntry.computeHash sampleText e sampleSha256).Nodup := by
  decide +kernel

def sampleLog : Table :=
  @run sampleText sampleSha256 [sampleAppend "a", sampleAppend "b", sampleAppend "c"]

theorem sample_hash_ne : sampleFirst.hash ≠ sampleSecond.hash ∧
    sampleFirst.hash ≠ sampleThird.hash ∧ sampleSecond.hash ≠ sampleThird.hash := by
  decide +kernel

/-- The next append of the sample, behind rows with other hashes. -/
theorem sample_step {t : Table} {objectId : String} {seq : Int64} {prevHash : Option (List UInt8)}
    (next : nextEntry t (sampleAppend objectId).entry 0 = sampleUnhashed objectId seq prevHash)
    (free : t.contains (1, seq) = false)
    (fresh : ∀ row ∈ select t 1 fun _ => true, row.hash ≠ (sampleHashed objectId seq prevHash).hash) :
    @step sampleText sampleSha256 t (sampleAppend objectId) =
      t.insert (1, seq) (sampleHashed objectId seq prevHash).toRow :=
  @step_eq sampleText sampleSha256 t (sampleAppend objectId) _ next free fresh

theorem sampleLog_eq : sampleLog = (((∅ : Table).insert (1, 1) sampleFirst.toRow).insert (1, 2)
    sampleSecond.toRow).insert (1, 3) sampleThird.toRow := by
  obtain ⟨ab, ac, bc⟩ := sample_hash_ne
  have first : @step sampleText sampleSha256 ∅ (sampleAppend "a") =
      (∅ : Table).insert (1, 1) sampleFirst.toRow :=
    sample_step rfl rfl (List.forall_mem_nil _)
  have second : @step sampleText sampleSha256 ((∅ : Table).insert (1, 1) sampleFirst.toRow)
      (sampleAppend "b") = ((∅ : Table).insert (1, 1) sampleFirst.toRow).insert (1, 2)
        sampleSecond.toRow :=
    sample_step rfl rfl (List.forall_mem_singleton.2 ab)
  have third : @step sampleText sampleSha256 (((∅ : Table).insert (1, 1) sampleFirst.toRow).insert
      (1, 2) sampleSecond.toRow) (sampleAppend "c") = (((∅ : Table).insert (1, 1)
        sampleFirst.toRow).insert (1, 2) sampleSecond.toRow).insert (1, 3) sampleThird.toRow := by
    have rows : select (((∅ : Table).insert (1, 1) sampleFirst.toRow).insert (1, 2)
        sampleSecond.toRow) 1 (fun _ => true) = [sampleFirst.toRow, sampleSecond.toRow] := rfl
    refine sample_step rfl rfl ?_
    rw [rows]
    exact List.forall_mem_cons.2 ⟨ac, List.forall_mem_singleton.2 bc⟩
  simp only [sampleLog, run, Steps.run, List.foldl_cons, List.foldl_nil, first, second, third]

theorem toRow_injective : Function.Injective AuditEntry.toRow := by
  intro e f same
  have read := rowToAuditEntry_eq_ok.2 same
  rw [rowToAuditEntry_eq_ok.2 rfl] at read
  exact (Except.ok.inj read).symm

theorem Agree.refl (e : AuditEntry) : Agree e e := ⟨rfl, rfl, rfl, rfl, rfl, rfl, rfl, rfl⟩

theorem sample_collisionFree : @CollisionFree sampleText sampleSha256 sampleLog
    (sampleLog.insert (1, 2) sampleForged.toRow) := by
  have occurs : ∀ e : AuditEntry, (e.toRow ∈ sampleLog.valueList ∨
      e.toRow ∈ OrdMap.valueList (sampleLog.insert (1, 2) sampleForged.toRow)) →
      e ∈ [sampleFirst, sampleSecond, sampleThird, sampleForged] := by
    have listed : ∀ {e f : AuditEntry}, some f.toRow = some e.toRow →
        f ∈ [sampleFirst, sampleSecond, sampleThird, sampleForged] →
        e ∈ [sampleFirst, sampleSecond, sampleThird, sampleForged] := fun same mem =>
      toRow_injective (Option.some.inj same) ▸ mem
    intro e mem
    simp only [sampleLog_eq, OrdMap.mem_valueList, OrdMap.get_insert, ExtTreeMap.getElem?_empty] at mem
    rcases mem with ⟨k, found⟩ | ⟨k, found⟩
    · split_ifs at found <;> exact listed found (by simp)
    · split_ifs at found <;> exact listed found (by simp)
  intro e f memE memF same
  rw [List.inj_on_of_nodup_map nodup_sample (occurs e memE) (occurs f memF) same]
  exact Agree.refl f

/-- Three rows verify, and not if the second one is changed. -/
theorem run_verifyChain_sampleLog :
    @verifyChain sampleText sampleSha256 sampleLog 1 1 3 = .ok true ∧
    @verifyChain sampleText sampleSha256 (sampleLog.insert (1, 2) sampleForged.toRow) 1 1 3 ≠
      .ok true := by
  obtain ⟨n, numbered, ranges⟩ := @run_verifyChain sampleText sampleSha256
    [sampleAppend "a", sampleAppend "b", sampleAppend "c"] (by decide) 1
  have second : sampleLog[((1 : CommunityId), (2 : Int64))]? = some sampleSecond.toRow := by
    rw [sampleLog_eq]
    rfl
  have third : sampleLog[((1 : CommunityId), (3 : Int64))]? = some sampleThird.toRow := by
    rw [sampleLog_eq]
    rfl
  have last := ((numbered 3).1 (OrdMap.contains_iff.2 ⟨_, third⟩)).2
  obtain ⟨verifies, tampered⟩ := ranges 1 3 (by decide) (by decide) last
  refine ⟨verifies, tampered _ (.change second (by decide) (by decide) rfl rfl rfl ?_)
    sample_collisionFree⟩
  exact .inr (.inr (.inr (.inl (by decide))))

end Audit

end Carryforth
