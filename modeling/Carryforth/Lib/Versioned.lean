import Carryforth.Lib.OrdMap

/-!
# Stores of versioned records

A record of a store carries its own revision and the store revision at which it was last written.
`touch` advances a record once per store revision, however often it is written while that revision
is prepared.  `StoreStep` is what one store revision may do to a map of such records: create one at
revision one, or rewrite one that is not yet closed, keeping its identity.  `Grows` is what remains
of this over a whole history; it is reflexive and transitive.
-/

/-- A record with its own revision and the store revision at which it was written. -/
class Versioned (α : Type) where
  revision : α → Nat
  writtenAt : α → Nat
  stamp : α → Nat → Nat → α
  revision_stamp : ∀ a n r, revision (stamp a n r) = n
  writtenAt_stamp : ∀ a n r, writtenAt (stamp a n r) = r

namespace Versioned

attribute [simp] revision_stamp writtenAt_stamp

variable {α ε : Type} [Versioned α]

/-- The record as written at store revision `r`: only the first write at `r` advances it. -/
def touched (a : α) (r : Nat) : α :=
  stamp a (if writtenAt a = r then revision a else revision a + 1) r

theorem revision_touched_of_lt {a : α} {r : Nat} (before : writtenAt a < r) :
    revision (touched a r) = revision a + 1 := by
  rw [touched, revision_stamp, if_neg (Nat.ne_of_lt before)]

/-- Write a record at store revision `r`, unless its own revision would pass `limit`. -/
def touch (limit : Nat) (overflow : ε) (a : α) (r : Nat) : Except ε α :=
  if writtenAt a ≠ r then do
    Fallible.ensure (revision a + 1 ≤ limit) overflow
    return stamp a (revision a + 1) r
  else
    return stamp a (revision a) r

theorem touch_eq_ok {limit : Nat} {overflow : ε} {a b : α} {r : Nat} :
    touch limit overflow a r = .ok b ↔
      (writtenAt a = r ∨ revision a < limit) ∧ b = touched a r := by
  unfold touch touched
  by_cases h : writtenAt a = r
  · rw [if_neg (not_not.2 h), if_pos h, Fallible.pure_eq_ok, eq_comm]
    exact ⟨fun same => ⟨.inl h, same⟩, And.right⟩
  · rw [if_pos h, if_neg h, Fallible.bind_eq_ok]
    simp only [Fallible.ensure_eq_ok, Fallible.pure_eq_ok, h, false_or]
    constructor
    · rintro ⟨_, below, same⟩
      exact ⟨below, same.symm⟩
    · rintro ⟨below, same⟩
      exact ⟨(), below, same.symm⟩

end Versioned

namespace Store

open Versioned

variable {κ α ι : Type} [Ord κ] [Std.TransOrd κ] [Std.LawfulEqOrd κ] [DecidableEq κ] [Versioned α]

/-- What one store revision `r` may do to the record under one key. -/
inductive EntryStep (closed : α → Prop) (ident : α → ι) (r : Nat) : Option α → Option α → Prop
  | same (o : Option α) : EntryStep closed ident r o o
  | created {a : α} (first : revision a = 1) (now : writtenAt a = r) :
      EntryStep closed ident r none (some a)
  | revised {a b : α} (live : ¬closed a) (kept : ident b = ident a)
      (next : revision b = revision a + 1) (now : writtenAt b = r) :
      EntryStep closed ident r (some a) (some b)

/-- What one store revision `r` may do to a map of records. -/
def StoreStep (closed : α → Prop) (ident : α → ι) (r : Nat) (m m' : OrdMap κ α) : Prop :=
  ∀ k : κ, EntryStep closed ident r m[k]? m'[k]?

/-- Every record was written before store revision `r`. -/
def WrittenBefore (r : Nat) (m : OrdMap κ α) : Prop :=
  ∀ (k : κ) (a : α), m[k]? = some a → writtenAt a < r

/-- Records are never lost, never change their identity, and never change once they are closed. -/
def Grows (closed : α → Prop) (ident : α → ι) (m m' : OrdMap κ α) : Prop :=
  ∀ (k : κ) (a : α), m[k]? = some a → ∃ b, m'[k]? = some b ∧ ident b = ident a ∧ (closed a → b = a)

variable {closed : α → Prop} {ident : α → ι} {r : Nat} {m m' m'' : OrdMap κ α}

omit [Std.LawfulEqOrd κ] [DecidableEq κ] in
theorem StoreStep.refl (m : OrdMap κ α) : StoreStep closed ident r m m := fun _ => .same _

theorem StoreStep.insert (step : StoreStep closed ident r m m') {k : κ} {a : α}
    (fresh : m'[k]? = none) (first : revision a = 1) (now : writtenAt a = r) :
    StoreStep closed ident r m (m'.insert k a) := by
  intro j
  rw [OrdMap.get_insert]
  split_ifs with h
  · subst h
    have entry := step j
    rw [fresh] at entry
    cases ho : m[j]? with
    | none => exact .created first now
    | some b =>
      rw [ho] at entry
      cases entry
  · exact step j

/-- Rewriting a live record, possibly not for the first time at this store revision. -/
theorem StoreStep.rewrite (step : StoreStep closed ident r m m') (before : WrittenBefore r m)
    {k : κ} {a b : α} (found : m'[k]? = some a) (live : ¬closed a) (kept : ident b = ident a)
    (next : revision b = revision (touched a r)) (now : writtenAt b = r) :
    StoreStep closed ident r m (m'.insert k b) := by
  intro j
  rw [OrdMap.get_insert]
  split_ifs with h
  · subst h
    have entry := step j
    rw [touched, revision_stamp] at next
    rw [found] at entry
    generalize ho : m[j]? = o at entry
    -- a record written earlier at `r` keeps the revision that first write gave it
    cases entry with
    | same =>
      rw [if_neg (Nat.ne_of_lt (before j a ho))] at next
      exact .revised live kept next now
    | created first written =>
      rw [if_pos written] at next
      exact .created (next.trans first) now
    | revised live' kept' next' written =>
      rw [if_pos written] at next
      exact .revised live' (kept.trans kept') (next.trans next') now
  · exact step j

/-- Creating several records under pairwise different free keys. -/
theorem StoreStep.overlay {key : α → κ} (step : StoreStep closed ident r m m') {values : List α}
    (nodup : (values.map key).Nodup)
    (fresh : ∀ a ∈ values, m'[key a]? = none ∧ revision a = 1 ∧ writtenAt a = r) :
    StoreStep closed ident r m (OrdMap.overlay key m' values) := by
  induction values generalizing m' with
  | nil => exact step
  | cons a values ih =>
    rw [List.map_cons, List.nodup_cons] at nodup
    obtain ⟨free, first, now⟩ := fresh a List.mem_cons_self
    refine ih (step.insert free first now) nodup.2 fun b hb => ?_
    have different : key b ≠ key a := fun same => nodup.1 (same ▸ List.mem_map_of_mem hb)
    rw [OrdMap.get_insert_of_ne different]
    exact fresh b (List.mem_cons_of_mem _ hb)

omit [Std.LawfulEqOrd κ] [DecidableEq κ] in
theorem StoreStep.map [Std.LawfulEqOrd κ] {f : κ → α → α}
    (rewrites : ∀ (k : κ) (a : α), m[k]? = some a → f k a = a ∨
      ¬closed a ∧ ident (f k a) = ident a ∧ revision (f k a) = revision a + 1 ∧
        writtenAt (f k a) = r) : StoreStep closed ident r m (Std.ExtTreeMap.map f m) := by
  intro k
  rw [Std.ExtTreeMap.getElem?_map]
  cases found : m[k]? with
  | none => exact .same _
  | some a =>
    rw [Option.map_some]
    rcases rewrites k a found with same | ⟨live, kept, next, now⟩
    · rw [same]
      exact .same _
    · exact .revised live kept next now

omit [Std.LawfulEqOrd κ] [DecidableEq κ] in
theorem StoreStep.grows (step : StoreStep closed ident r m m') : Grows closed ident m m' := by
  intro k a found
  have entry := step k
  rw [found] at entry
  generalize m'[k]? = o at entry
  cases entry with
  | same => exact ⟨a, rfl, rfl, fun _ => rfl⟩
  | revised live kept _ _ => exact ⟨_, rfl, kept, fun h => absurd h live⟩

omit [Std.LawfulEqOrd κ] [DecidableEq κ] in
theorem StoreStep.writtenBefore (step : StoreStep closed ident r m m')
    (before : WrittenBefore r m) : WrittenBefore (r + 1) m' := by
  intro k b found
  have entry := step k
  rw [found] at entry
  generalize ho : m[k]? = o at entry
  cases entry with
  | same => exact Nat.lt_succ_of_lt (before k b ho)
  | created _ now => exact now ▸ Nat.lt_succ_self _
  | revised _ _ _ now => exact now ▸ Nat.lt_succ_self _

omit [Std.LawfulEqOrd κ] [DecidableEq κ] [Versioned α] in
theorem Grows.refl (m : OrdMap κ α) : Grows closed ident m m :=
  fun _ a found => ⟨a, found, rfl, fun _ => rfl⟩

omit [Std.LawfulEqOrd κ] [DecidableEq κ] [Versioned α] in
theorem Grows.trans (first : Grows closed ident m m') (second : Grows closed ident m' m'') :
    Grows closed ident m m'' := by
  intro k a found
  obtain ⟨b, hb, identB, closedB⟩ := first k a found
  obtain ⟨c, hc, identC, closedC⟩ := second k b hb
  refine ⟨c, hc, identC.trans identB, fun h => ?_⟩
  have same := closedB h
  exact (closedC (same ▸ h)).trans same

end Store
