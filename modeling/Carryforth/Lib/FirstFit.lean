import Mathlib

/-!
# First fit

Go through a list and keep what still fits into a budget.  An entry that does not fit is passed over,
but smaller ones behind it may be kept.  What is kept is a beginning of the list exactly if nothing
behind it fits (`exists_of_kept_eq_take`, `kept_append`).
-/

namespace FirstFit

variable {α : Type} (size : α → Nat) (budget : Nat)

def total (l : List α) : Nat := (l.map size).sum

/-- What is kept when some of the budget is used already. -/
def kept : Nat → List α → List α
  | _, [] => []
  | used, a :: rest =>
    if used + size a ≤ budget then a :: kept (used + size a) rest else kept used rest

variable {size budget} {used : Nat} {a : α} {l first rest : List α}

theorem total_cons : total size (a :: l) = size a + total size l := by
  unfold total
  rw [List.map_cons, List.sum_cons]

theorem kept_of_fits (fits : used + size a ≤ budget) :
    kept size budget used (a :: l) = a :: kept size budget (used + size a) l := by
  rw [kept, if_pos fits]

theorem kept_of_not_fits (large : ¬used + size a ≤ budget) :
    kept size budget used (a :: l) = kept size budget used l := by
  rw [kept, if_neg large]

theorem length_kept_le : (kept size budget used l).length ≤ l.length := by
  induction l generalizing used with
  | nil => exact Nat.le_refl 0
  | cons a l ih =>
    by_cases fits : used + size a ≤ budget
    · rw [kept_of_fits fits, List.length_cons, List.length_cons]
      exact Nat.succ_le_succ ih
    · rw [kept_of_not_fits fits]
      exact Nat.le_succ_of_le ih

theorem total_kept_le (within : used ≤ budget) :
    used + total size (kept size budget used l) ≤ budget := by
  induction l generalizing used with
  | nil => exact within
  | cons a l ih =>
    by_cases fits : used + size a ≤ budget
    · rw [kept_of_fits fits, total_cons, ← Nat.add_assoc]
      exact ih fits
    · rw [kept_of_not_fits fits]
      exact ih within

theorem fits_of_mem_kept (mem : a ∈ kept size budget used l) : used + size a ≤ budget := by
  induction l generalizing used with
  | nil => cases mem
  | cons b l ih =>
    by_cases fits : used + size b ≤ budget
    · rw [kept_of_fits fits] at mem
      rcases List.mem_cons.1 mem with rfl | later
      · exact fits
      · have bound := ih later
        omega
    · rw [kept_of_not_fits fits] at mem
      exact ih mem

theorem large_of_kept_eq_nil (nothing : kept size budget used l = []) :
    ∀ a ∈ l, budget < used + size a := by
  induction l with
  | nil => exact List.forall_mem_nil _
  | cons a l ih =>
    by_cases fits : used + size a ≤ budget
    · rw [kept_of_fits fits] at nothing
      cases nothing
    · rw [kept_of_not_fits fits] at nothing
      exact List.forall_mem_cons.2 ⟨Nat.not_le.1 fits, ih nothing⟩

theorem kept_eq_nil (large : ∀ a ∈ l, budget < used + size a) : kept size budget used l = [] := by
  induction l with
  | nil => rfl
  | cons a l ih =>
    obtain ⟨here, later⟩ := List.forall_mem_cons.1 large
    rw [kept_of_not_fits (Nat.not_le.2 here)]
    exact ih later

theorem kept_append (fits : used + total size first ≤ budget)
    (large : ∀ a ∈ rest, budget < used + total size first + size a) :
    kept size budget used (first ++ rest) = first := by
  induction first generalizing used with
  | nil => exact kept_eq_nil large
  | cons a first ih =>
    rw [total_cons, ← Nat.add_assoc] at fits large
    rw [List.cons_append, kept_of_fits (Nat.le_trans (Nat.le_add_right _ _) fits), ih fits large]

theorem exists_of_kept_eq_take
    (same : kept size budget used l = l.take (kept size budget used l).length) :
    ∃ rest, l = kept size budget used l ++ rest ∧
      ∀ a ∈ rest, budget < used + total size (kept size budget used l) + size a := by
  induction l generalizing used with
  | nil => exact ⟨[], rfl, List.forall_mem_nil _⟩
  | cons a l ih =>
    by_cases fits : used + size a ≤ budget
    · rw [kept_of_fits fits, List.length_cons, List.take_succ_cons] at same
      obtain ⟨rest, whole, large⟩ := ih (List.cons.inj same).2
      refine ⟨rest, ?_, ?_⟩
      · rw [kept_of_fits fits, List.cons_append, ← whole]
      · rw [kept_of_fits fits, total_cons, ← Nat.add_assoc]
        exact large
    · rw [kept_of_not_fits fits] at same ⊢
      cases is : kept size budget used l with
      | nil =>
        refine ⟨a :: l, rfl, List.forall_mem_cons.2 ⟨Nat.not_le.1 fits, ?_⟩⟩
        exact large_of_kept_eq_nil is
      | cons b k =>
        -- what is kept first would have to be the entry that does not fit
        rw [is, List.length_cons, List.take_succ_cons] at same
        obtain ⟨rfl, -⟩ := List.cons.inj same
        exact absurd (fits_of_mem_kept (is ▸ List.mem_cons_self)) fits

end FirstFit
