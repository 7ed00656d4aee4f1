import Mathlib

/-!
# The strongest element of each key

A list is sorted so that elements with one key are neighbours, the strongest first, and then all but
the first of each key are dropped.  What is left are the strongest elements of the keys, so it depends
on the set of elements only.
-/

namespace Strongest

variable {α κ : Type} [DecidableEq κ] {le : α → α → Prop} {key : α → κ} {l l' : List α}

/-- An element that no element with its key precedes. -/
def IsStrongest (le : α → α → Prop) (key : α → κ) (l : List α) (a : α) : Prop :=
  a ∈ l ∧ ∀ b ∈ l, key b = key a → le a b

/-- Elements with one key are neighbours in the order. -/
def Convex (le : α → α → Prop) (key : α → κ) : Prop :=
  ∀ a b c, le a b → le b c → key a = key c → key b = key a

def firsts (key : α → κ) (l : List α) : List α := l.destutter fun a b => key a ≠ key b

omit [DecidableEq κ] in
/-- Nothing after the first element of another key has the key of what came before. -/
theorem key_ne_of_sorted (convex : Convex le key) {a b : α}
    (sorted : (a :: b :: l).Pairwise le) (different : key a ≠ key b) :
    ∀ c ∈ b :: l, key a ≠ key c := by
  intro c mem same
  obtain ⟨below, tail⟩ := List.pairwise_cons.1 sorted
  rcases List.mem_cons.1 mem with rfl | later
  · exact different same
  · exact different (convex a b c (below b List.mem_cons_self)
      (List.rel_of_pairwise_cons tail later) same).symm

section Sorted

variable [Std.Total le] [IsTrans α le]

theorem mem_destutter'_iff (convex : Convex le key) {a : α} (sorted : (a :: l).Pairwise le)
    (separates : ∀ b ∈ a :: l, ∀ c ∈ a :: l, le b c → le c b → b = c) (e : α) :
    e ∈ l.destutter' (fun a b => key a ≠ key b) a ↔ IsStrongest le key (a :: l) e := by
  have refl : ∀ b : α, le b b := fun b => (Std.Total.total b b).elim (fun h => h) fun h => h
  induction l generalizing a with
  | nil =>
    rw [List.destutter'_nil, IsStrongest, List.mem_singleton]
    refine ⟨fun is => ⟨is, fun b mem _ => ?_⟩, And.left⟩
    rw [List.mem_singleton.1 mem, is]
    exact refl a
  | cons b l ih =>
    obtain ⟨below, tail⟩ := List.pairwise_cons.1 sorted
    have skip : (a :: l).Sublist (a :: b :: l) := (List.sublist_cons_self b l).cons_cons a
    by_cases same : key a = key b
    · -- the second element is not the first of its key
      have rest := ih (sorted.sublist skip) fun c hc d hd =>
        separates c (skip.subset hc) d (skip.subset hd)
      rw [List.destutter'_cons_neg _ (not_not.2 same)]
      refine rest.trans ⟨?_, ?_⟩
      · rintro ⟨mem, first⟩
        refine ⟨skip.subset mem, fun c hc equal => ?_⟩
        rcases List.mem_cons.1 hc with rfl | hc
        · exact first c List.mem_cons_self equal
        rcases List.mem_cons.1 hc with rfl | hc
        · exact IsTrans.trans _ _ _ (first a List.mem_cons_self (same.trans equal))
            (below c List.mem_cons_self)
        · exact first c (List.mem_cons_of_mem a hc) equal
      · rintro ⟨mem, first⟩
        refine ⟨?_, fun c hc => first c (skip.subset hc)⟩
        rcases List.mem_cons.1 mem with rfl | mem
        · exact List.mem_cons_self
        rcases List.mem_cons.1 mem with rfl | mem
        · have is : a = e := separates a List.mem_cons_self e
            (List.mem_cons_of_mem a List.mem_cons_self) (below e List.mem_cons_self)
            (first a List.mem_cons_self same)
          rw [is]
          exact List.mem_cons_self
        · exact List.mem_cons_of_mem a mem
    · have other := key_ne_of_sorted convex sorted same
      have rest := ih tail fun c hc d hd =>
        separates c (List.mem_cons_of_mem a hc) d (List.mem_cons_of_mem a hd)
      rw [List.destutter'_cons_pos _ same, List.mem_cons]
      refine (or_congr_right rest).trans ⟨?_, ?_⟩
      · rintro (rfl | ⟨mem, first⟩)
        · refine ⟨List.mem_cons_self, fun c hc _ => ?_⟩
          rcases List.mem_cons.1 hc with rfl | hc
          · exact refl c
          · exact below c hc
        · refine ⟨List.mem_cons_of_mem a mem, fun c hc equal => ?_⟩
          rcases List.mem_cons.1 hc with rfl | hc
          · exact absurd equal (other e mem)
          · exact first c hc equal
      · rintro ⟨mem, first⟩
        rcases List.mem_cons.1 mem with rfl | mem
        · exact .inl rfl
        · exact .inr ⟨mem, fun c hc => first c (List.mem_cons_of_mem a hc)⟩

omit [Std.Total le] [IsTrans α le] in
theorem pairwise_destutter' (convex : Convex le key) {a : α} (sorted : (a :: l).Pairwise le) :
    (l.destutter' (fun a b => key a ≠ key b) a).Pairwise fun a b => key a ≠ key b := by
  induction l generalizing a with
  | nil => exact List.pairwise_singleton _ a
  | cons b l ih =>
    by_cases same : key a = key b
    · rw [List.destutter'_cons_neg _ (not_not.2 same)]
      exact ih (sorted.sublist ((List.sublist_cons_self b l).cons_cons a))
    · rw [List.destutter'_cons_pos _ same]
      refine List.pairwise_cons.2 ⟨fun c hc => ?_, ih (List.pairwise_cons.1 sorted).2⟩
      exact key_ne_of_sorted convex sorted same c ((List.destutter'_sublist _ _ b).subset hc)

variable [DecidableRel le]

theorem mem_firsts_iff (convex : Convex le key)
    (separates : ∀ b ∈ l, ∀ c ∈ l, le b c → le c b → b = c) (e : α) :
    e ∈ firsts key (l.insertionSort le) ↔ IsStrongest le key l e := by
  have members : ∀ b, b ∈ l.insertionSort le ↔ b ∈ l := fun b => List.mem_insertionSort le
  have sorted := List.pairwise_insertionSort le l
  have strongest : IsStrongest le key (l.insertionSort le) e ↔ IsStrongest le key l e := by
    simp only [IsStrongest, members]
  have separates' : ∀ b ∈ l.insertionSort le, ∀ c ∈ l.insertionSort le, le b c → le c b → b = c :=
    fun b hb c hc => separates b ((members b).1 hb) c ((members c).1 hc)
  rw [← strongest]
  cases is : l.insertionSort le with
  | nil => simp [firsts, IsStrongest]
  | cons a rest =>
    rw [is] at sorted separates'
    exact mem_destutter'_iff convex sorted separates' e

theorem pairwise_firsts (convex : Convex le key) (l : List α) :
    (firsts key (l.insertionSort le)).Pairwise fun a b => key a ≠ key b := by
  have sorted := List.pairwise_insertionSort le l
  cases is : l.insertionSort le with
  | nil => exact List.Pairwise.nil
  | cons a rest =>
    rw [is] at sorted
    exact pairwise_destutter' convex sorted

theorem exists_strongest (a : α) (mem : a ∈ l) : ∃ b, IsStrongest le key l b ∧ key b = key a := by
  have mem' : a ∈ (l.filter fun b => key b = key a).insertionSort le := by
    rw [List.mem_insertionSort, List.mem_filter]
    exact ⟨mem, decide_eq_true rfl⟩
  have sorted := List.pairwise_insertionSort le (l.filter fun b => key b = key a)
  have members : ∀ b, b ∈ (l.filter fun b => key b = key a).insertionSort le ↔
      b ∈ l ∧ key b = key a := by
    intro b
    rw [List.mem_insertionSort, List.mem_filter, decide_eq_true_eq]
  cases is : (l.filter fun b => key b = key a).insertionSort le with
  | nil =>
    rw [is] at mem'
    cases mem'
  | cons b rest =>
    rw [is] at sorted members
    obtain ⟨mem, same⟩ := (members b).1 List.mem_cons_self
    refine ⟨b, ⟨mem, fun c hc equal => ?_⟩, same⟩
    rcases List.mem_cons.1 ((members c).2 ⟨hc, equal.trans same⟩) with rfl | later
    · exact (Std.Total.total c c).elim (fun h => h) fun h => h
    · exact List.rel_of_pairwise_cons sorted later

end Sorted

end Strongest
