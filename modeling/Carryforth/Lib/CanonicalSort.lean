import Mathlib

/-!
# Sets written as sorted lists

A list stands for the set of its elements in one canonical way: it is sorted by a total preorder,
and refused if two neighbours are then equal.  On lists whose elements the order separates, the
result depends on the set only, it is refused exactly when an element occurs twice, and it is its
own canonical form.
-/

namespace CanonicalSort

variable {α : Type} {le : α → α → Prop} {l l' : List α}

/-- Elements of the list that the order puts on one level are equal. -/
def Separates (le : α → α → Prop) (l : List α) : Prop :=
  ∀ a ∈ l, ∀ b ∈ l, le a b → le b a → a = b

theorem Separates.subset (separates : Separates le l) (subset : l' ⊆ l) : Separates le l' :=
  fun a ha b hb => separates a (subset ha) b (subset hb)

/-- In a sorted list only neighbours can be equal. -/
theorem isChain_ne_iff_nodup (separates : Separates le l) (sorted : l.Pairwise le) :
    l.IsChain (· ≠ ·) ↔ l.Nodup := by
  refine ⟨fun distinct => ?_, List.Pairwise.isChain⟩
  induction l with
  | nil => exact List.nodup_nil
  | cons a l ih =>
    obtain ⟨below, sorted⟩ := List.pairwise_cons.1 sorted
    refine List.nodup_cons.2 ⟨fun mem => ?_, ih (separates.subset (List.subset_cons_self a l)) sorted
      distinct.tail⟩
    cases l with
    | nil => cases mem
    | cons b l =>
      have different : a ≠ b := (List.isChain_cons_cons.1 distinct).1
      have later : a ∈ l := (List.mem_cons.1 mem).resolve_left different
      exact different (separates a List.mem_cons_self b
        (List.mem_cons_of_mem a List.mem_cons_self) (below b List.mem_cons_self)
        (List.rel_of_pairwise_cons sorted later))

/-- Equal neighbours, found by walking over pairs. -/
theorem isChain_ne_iff_zip [DecidableEq α] :
    l.IsChain (· ≠ ·) ↔ ¬(l.zip l.tail).any (fun (a, b) => a = b) = true := by
  induction l with
  | nil => simp
  | cons a l ih =>
    cases l with
    | nil => simp
    | cons b l =>
      rw [List.isChain_cons_cons, ih]
      simp

section Sorted

variable [DecidableRel le] [Std.Total le] [IsTrans α le]

theorem insertionSort_eq_of_perm (separates : Separates le l) (perm : l.Perm l') :
    l.insertionSort le = l'.insertionSort le := by
  have sorted := (List.perm_insertionSort le l).trans
    (perm.trans (List.perm_insertionSort le l').symm)
  refine List.Perm.eq_of_pairwise ?_ (List.pairwise_insertionSort le l)
    (List.pairwise_insertionSort le l') sorted
  intro a b ha hb
  exact separates a ((List.mem_insertionSort le).1 ha) b
    (perm.mem_iff.2 ((List.mem_insertionSort le).1 hb))

/-- Equal neighbours appear exactly when an element occurs twice. -/
theorem isChain_ne_insertionSort (separates : Separates le l) :
    (l.insertionSort le).IsChain (· ≠ ·) ↔ l.Nodup := by
  have perm := List.perm_insertionSort le l
  rw [isChain_ne_iff_nodup (separates.subset perm.subset) (List.pairwise_insertionSort le l),
    perm.nodup_iff]

/-- Lists without repetition have one canonical form exactly when they have the same elements. -/
theorem insertionSort_eq_iff (separates : Separates le l) (nodup : l.Nodup) (nodup' : l'.Nodup) :
    l.insertionSort le = l'.insertionSort le ↔ ∀ a, a ∈ l ↔ a ∈ l' := by
  constructor
  · intro same a
    calc a ∈ l ↔ a ∈ l.insertionSort le := (List.mem_insertionSort le).symm
      _ ↔ a ∈ l'.insertionSort le := by rw [same]
      _ ↔ a ∈ l' := List.mem_insertionSort le
  · exact fun same => insertionSort_eq_of_perm separates
      ((List.perm_ext_iff_of_nodup nodup nodup').2 same)

end Sorted

/-! ## The order of a comparison -/

section Comparison

open Std

variable {cmp : α → α → Ordering} [TransCmp cmp]

theorem isLE_total (a b : α) : (cmp a b).isLE = true ∨ (cmp b a).isLE = true := by
  have swapped : cmp b a = (cmp a b).swap := OrientedCmp.eq_swap
  rw [swapped]
  cases cmp a b <;> simp

instance total_isLE : Std.Total fun a b => (cmp a b).isLE = true := ⟨isLE_total⟩

instance isTrans_isLE : IsTrans α fun a b => (cmp a b).isLE = true :=
  ⟨fun _ _ _ => TransCmp.isLE_trans⟩

instance total_ne_gt : Std.Total fun a b => cmp a b ≠ .gt :=
  ⟨fun a b => by
    rw [ne_eq, ne_eq, ← Ordering.isLE_iff_ne_gt, ← Ordering.isLE_iff_ne_gt]
    exact isLE_total a b⟩

instance isTrans_ne_gt : IsTrans α fun a b => cmp a b ≠ .gt :=
  ⟨fun a b c ab bc => by
    simp only [ne_eq, ← Ordering.isLE_iff_ne_gt] at ab bc ⊢
    exact TransCmp.isLE_trans ab bc⟩

/-- Comparing what is read off is again a comparison. -/
theorem transCmp_on {β : Type} (read : β → α) : TransCmp fun a b => cmp (read a) (read b) where
  eq_swap := OrientedCmp.eq_swap
  isLE_trans := TransCmp.isLE_trans

theorem separates_of_lawful [LawfulEqCmp cmp] (l : List α) :
    Separates (fun a b => (cmp a b).isLE = true) l :=
  fun _ _ _ _ ab ba => LawfulEqCmp.eq_of_compare (OrientedCmp.isLE_antisymm ab ba)

end Comparison

end CanonicalSort
