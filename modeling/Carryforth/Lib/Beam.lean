import Carryforth.Lib.CanonicalSort

/-!
# The best few of a stream

Elements arrive one by one; each is put into its place, and when there are too many the last one is
dropped.  What is kept are always the best of all that have arrived, in order, and it does not matter
in which order they arrived.
-/

namespace Beam

variable {α : Type} (le : α → α → Prop) [DecidableRel le] (width : Nat)

/-- Put the element into its place, and drop the last one if they are too many. -/
def enter (kept : List α) (a : α) : List α :=
  let sorted := (kept ++ [a]).insertionSort le
  if width < sorted.length then sorted.dropLast else sorted

/-- The first ones in order. -/
def best (l : List α) : List α := (l.insertionSort le).take width

variable {le width} {l l' : List α} {a : α}

theorem length_best : (best le width l).length = min width l.length := by
  unfold best
  rw [List.length_take, List.length_insertionSort]

theorem mem_of_mem_best (mem : a ∈ best le width l) : a ∈ l :=
  (List.mem_insertionSort le).1 (List.mem_of_mem_take mem)

theorem enter_eq_take (few : l.length ≤ width) :
    enter le width l a = ((l ++ [a]).insertionSort le).take width := by
  have length : ((l ++ [a]).insertionSort le).length = l.length + 1 := by
    rw [List.length_insertionSort, List.length_append, List.length_singleton]
  dsimp only [enter]
  by_cases full : width < l.length + 1
  · have same : width = l.length := by omega
    rw [length, if_pos full, List.dropLast_eq_take, length, same, Nat.add_sub_cancel]
  · rw [length, if_neg full, List.take_of_length_le (by omega)]

theorem take_orderedInsert (l : List α) (a : α) (width : Nat) :
    ((l.take width).orderedInsert le a).take width = (l.orderedInsert le a).take width := by
  induction l generalizing width with
  | nil => rw [List.take_nil]
  | cons b l ih =>
    cases width with
    | zero => rfl
    | succ width =>
      rw [List.take_succ_cons, List.orderedInsert, List.orderedInsert]
      by_cases first : le a b
      · cases width with
        | zero => simp [first]
        | succ width => simp [first, List.take_take]
      · simp only [first, if_false, List.take_succ_cons, ih]

variable [Std.Total le] [IsTrans α le]

/-- What is kept stays the best of all that have arrived. -/
theorem enter_best (separates : CanonicalSort.Separates le (l ++ [a])) :
    enter le width (best le width l) a = best le width (l ++ [a]) := by
  have kept : (best le width l ++ [a]) ⊆ l ++ [a] :=
    List.append_subset.2 ⟨fun _ mem => List.mem_append_left _ (mem_of_mem_best mem),
      List.subset_append_right _ _⟩
  have sorted : (best le width l).insertionSort le = best le width l :=
    ((List.pairwise_insertionSort le l).take).insertionSort_eq
  rw [enter_eq_take (length_best.trans_le (min_le_left _ _)),
    CanonicalSort.insertionSort_eq_of_perm (separates.subset kept)
      (List.perm_append_singleton a _), List.insertionSort_cons, sorted]
  unfold best
  rw [CanonicalSort.insertionSort_eq_of_perm separates (List.perm_append_singleton a l),
    List.insertionSort_cons, take_orderedInsert]

theorem best_of_perm (separates : CanonicalSort.Separates le l) (perm : l.Perm l') :
    best le width l = best le width l' := by
  unfold best
  rw [CanonicalSort.insertionSort_eq_of_perm separates perm]

end Beam
