import Carryforth.Lib.OrdMap

/-!
# Grouping

The members of each key are kept in a map of lists, in which a key without members has no entry.
A single group is replaced by `store`, and a property of `Each` group is kept if the new one has it.
-/

namespace Grouping

open Std

variable {α β κ : Type} [Ord κ] [TransOrd κ] [LawfulEqOrd κ] [DecidableEq κ]

abbrev Groups (κ β : Type) [Ord κ] := OrdMap κ (List β)

/-- The group of a key, empty if the key is not there. -/
def of (m : Groups κ β) (k : κ) : List β := m[k]?.getD []

def push (m : Groups κ β) (k : κ) (b : β) : Groups κ β := m.insert k (of m k ++ [b])

omit [LawfulEqOrd κ] [DecidableEq κ] in
@[simp] theorem of_empty (k : κ) : of (∅ : Groups κ β) k = [] := by
  rw [of, ExtTreeMap.getElem?_empty]
  rfl

theorem of_push (m : Groups κ β) (k j : κ) (b : β) :
    of (push m k b) j = if j = k then of m k ++ [b] else of m j := by
  rw [of, push, OrdMap.get_insert]
  split_ifs
  · rfl
  · rfl

/-- Replace the group of a key; an empty group is not stored. -/
def store (m : Groups κ β) (k : κ) (members : List β) : Groups κ β :=
  if members.isEmpty then m.erase k else m.insert k members

theorem of_insert (m : Groups κ β) (k j : κ) (members : List β) :
    of (m.insert k members) j = if j = k then members else of m j := by
  rw [of, OrdMap.get_insert]
  split_ifs
  · rfl
  · rfl

theorem of_erase (m : Groups κ β) (k j : κ) :
    of (m.erase k) j = if j = k then [] else of m j := by
  rw [of, OrdMap.get_erase]
  split_ifs
  · rfl
  · rfl

theorem of_store (m : Groups κ β) (k j : κ) (members : List β) :
    of (store m k members) j = if j = k then members else of m j := by
  unfold store
  by_cases none : members.isEmpty = true
  · rw [if_pos none, of_erase, List.isEmpty_iff.1 none]
  · rw [if_neg none, of_insert]

omit [LawfulEqOrd κ] [DecidableEq κ] in
theorem of_eq_of_get {m : Groups κ β} {k : κ} {members : List β} (found : m[k]? = some members) :
    of m k = members := by
  rw [of, found]
  rfl

omit [LawfulEqOrd κ] [DecidableEq κ] in
theorem of_eq_nil {m : Groups κ β} {k : κ} (missing : m[k]? = none) : of m k = [] := by
  rw [of, missing]
  rfl

/-- Every group, the empty ones of other keys included, has a property. -/
def Each (P : List β → Prop) (m : Groups κ β) : Prop := ∀ k, P (of m k)

section Each

variable {P : List β → Prop} {m : Groups κ β} {members : List β}

theorem Each.insert (each : Each P m) (k : κ) (here : P members) : Each P (m.insert k members) := by
  intro j
  rw [of_insert]
  split
  · exact here
  · exact each j

theorem Each.erase (each : Each P m) (k : κ) (empty : P []) : Each P (m.erase k) := by
  intro j
  rw [of_erase]
  split
  · exact empty
  · exact each j

theorem Each.store (each : Each P m) (k : κ) (here : P members) : Each P (store m k members) := by
  intro j
  rw [of_store]
  split
  · exact here
  · exact each j

end Each

end Grouping
