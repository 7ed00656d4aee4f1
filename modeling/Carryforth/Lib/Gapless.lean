import Carryforth.Lib.OrdMap

/-!
# Sorted lists without gaps

Between neighbours of a sorted list there is nothing else of the list (`isChain_of_sorted`), and the
last element is the greatest (`le_getLast_of_sorted`).  Conversely a list of integers in which every
step goes up by one has everything between any two of its elements (`mem_of_isChain_succ`).
-/

namespace Gapless

variable {α : Type} {R : α → α → Prop}

/-- Neighbours of a sorted list are in order and have no element of the list between them. -/
theorem isChain_of_sorted {l : List α} (sorted : l.Pairwise R) (asymm : ∀ a b, R a b → ¬R b a) :
    l.IsChain fun a b => a ∈ l ∧ b ∈ l ∧ R a b ∧ ∀ x ∈ l, ¬(R a x ∧ R x b) := by
  have irrefl : ∀ a, ¬R a a := fun a self => asymm a a self self
  induction l with
  | nil => exact .nil
  | cons a l ih =>
    rw [List.pairwise_cons] at sorted
    have rest := ih sorted.2
    cases l with
    | nil => exact .singleton a
    | cons b l =>
      refine .cons_cons ⟨List.mem_cons_self, List.mem_cons_of_mem _ List.mem_cons_self,
        sorted.1 b List.mem_cons_self, ?_⟩ ?_
      · rintro x mem ⟨above, below⟩
        rcases List.mem_cons.1 mem with rfl | mem
        · exact irrefl x above
        · rcases List.mem_cons.1 mem with rfl | mem
          · exact irrefl x below
          · exact asymm x b below ((List.pairwise_cons.1 sorted.2).1 x mem)
      · refine rest.imp fun c d pair => ?_
        obtain ⟨memC, memD, order, none⟩ := pair
        refine ⟨List.mem_cons_of_mem _ memC, List.mem_cons_of_mem _ memD, order, ?_⟩
        rintro x mem ⟨above, below⟩
        rcases List.mem_cons.1 mem with rfl | mem
        · exact asymm c x above (sorted.1 c memC)
        · exact none x mem ⟨above, below⟩

theorem isChain_and {S : α → α → Prop} {l : List α} (first : l.IsChain R) (second : l.IsChain S) :
    l.IsChain fun a b => R a b ∧ S a b := by
  induction l with
  | nil => exact .nil
  | cons a l ih =>
    rw [List.isChain_cons] at first second ⊢
    exact ⟨fun b is => ⟨first.1 b is, second.1 b is⟩, ih first.2 second.2⟩

/-- Every other element of a sorted list comes before the last. -/
theorem le_getLast_of_sorted {l : List α} (sorted : l.Pairwise R) {last : α}
    (is : l.getLast? = some last) {a : α} (mem : a ∈ l) : a = last ∨ R a last := by
  obtain ⟨front, rfl⟩ := List.getLast?_eq_some_iff.1 is
  rcases List.mem_append.1 mem with before | final
  · exact .inr ((List.pairwise_append.1 sorted).2.2 a before last (List.mem_singleton_self last))
  · exact .inl (List.mem_singleton.1 final)

/-- A list that goes up one by one reaches everything between two of its elements. -/
theorem mem_of_isChain_succ {key : α → Int} {l : List α}
    (steps : l.IsChain fun a b => key b = key a + 1) {a b : α} (memA : a ∈ l) (memB : b ∈ l)
    {k : Int} (above : key a ≤ k) (below : k ≤ key b) : ∃ c ∈ l, key c = k := by
  induction l generalizing a with
  | nil => cases memA
  | cons c l ih =>
    have up : ∀ d ∈ l, key c < key d := by
      have less : (c :: l).IsChain fun a b => key a < key b := steps.imp fun _ _ next => by omega
      have : IsTrans α fun a b => key a < key b := ⟨fun _ _ _ => Int.lt_trans⟩
      exact (List.pairwise_cons.1 less.pairwise).1
    by_cases here : key c = k
    · exact ⟨c, List.mem_cons_self, here⟩
    · have low : key c ≤ key a := by
        rcases List.mem_cons.1 memA with rfl | later
        · exact Int.le_refl _
        · exact Int.le_of_lt (up a later)
      have later : b ∈ l := by
        refine (List.mem_cons.1 memB).resolve_left ?_
        rintro rfl
        omega
      cases l with
      | nil => cases later
      | cons d l =>
        obtain ⟨next, rest⟩ := List.isChain_cons_cons.1 steps
        obtain ⟨e, mem, is⟩ := ih rest List.mem_cons_self later (by omega)
        exact ⟨e, List.mem_cons_of_mem _ mem, is⟩

end Gapless
