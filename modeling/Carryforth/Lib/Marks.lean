import Mathlib.Algebra.Order.BigOperators.Group.List
import Mathlib.Algebra.Order.Group.Nat
import Mathlib.Data.List.Infix

/-!
# Cutting at a mark

`cutAt` cuts a list at the first place where a mark stands (`First`).  There is only one such place,
and none iff the mark is not in the list.  `cutAtLast` cuts at the last place.
-/

namespace Marks

variable {α : Type} {mark l a b : List α}

/-- The mark stands after `a`, and nowhere before. -/
def First (mark l a b : List α) : Prop :=
  l = a ++ (mark ++ b) ∧ ∀ a' b', l = a' ++ (mark ++ b') → a.length ≤ a'.length

theorem First.unique {a' b' : List α} (here : First mark l a b) (there : First mark l a' b') :
    a = a' ∧ b = b' := by
  have length : a.length = a'.length :=
    le_antisymm (here.2 a' b' there.1) (there.2 a b here.1)
  obtain ⟨rfl, rest⟩ := List.append_inj (here.1.symm.trans there.1) length
  exact ⟨rfl, List.append_cancel_left rest⟩

theorem First.length (here : First mark l a b) : l.length = a.length + mark.length + b.length := by
  rw [here.1, List.length_append, List.length_append, Nat.add_assoc]

theorem First.inside (here : First mark l a b) : mark <:+: l :=
  ⟨a, b, by rw [here.1, List.append_assoc]⟩

theorem first_of_starts (starts : mark <+: l) : First mark l [] (l.drop mark.length) := by
  obtain ⟨b, rfl⟩ := starts
  exact ⟨by simp, fun _ _ _ => Nat.zero_le _⟩

/-- Two ways of writing the parts of a list, one never longer than the other, come to the same iff
they write each part alike. -/
theorem flatMap_eq_iff {β : Type} {f g : β → List α} (shorter : ∀ x, (f x).length ≤ (g x).length) :
    ∀ {parts : List β}, parts.flatMap f = parts.flatMap g ↔ ∀ x ∈ parts, f x = g x
  | [] => by simp
  | x :: parts => by
    have le : (parts.flatMap f).length ≤ (parts.flatMap g).length := by
      rw [List.length_flatMap, List.length_flatMap]
      exact List.sum_le_sum fun x _ => shorter x
    rw [List.flatMap_cons, List.flatMap_cons, List.forall_mem_cons]
    constructor
    · intro same
      have lengths := congrArg List.length same
      rw [List.length_append, List.length_append] at lengths
      have first := shorter x
      obtain ⟨here, rest⟩ := List.append_inj same (by omega)
      exact ⟨here, (flatMap_eq_iff shorter).1 rest⟩
    · rintro ⟨here, rest⟩
      rw [here, (flatMap_eq_iff shorter).2 rest]

variable [DecidableEq α]

/-- What is before the first mark, and what is after it. -/
def cutAt (mark : List α) : List α → Option (List α × List α)
  | [] => if mark = [] then some ([], []) else none
  | x :: l =>
    if mark <+: x :: l then some ([], (x :: l).drop mark.length)
    else (cutAt mark l).map fun p => (x :: p.1, p.2)

theorem cutAt_eq_some : ∀ {l a b : List α}, cutAt mark l = some (a, b) → First mark l a b
  | [], a, b => by
    intro cut
    unfold cutAt at cut
    split at cut
    · next empty =>
      cases cut
      exact ⟨by simp [empty], fun _ _ _ => Nat.zero_le _⟩
    · cases cut
  | x :: l, a, b => by
    intro cut
    unfold cutAt at cut
    split at cut
    · next starts =>
      cases cut
      exact first_of_starts starts
    · next starts =>
      obtain ⟨⟨before, after⟩, later, is⟩ := Option.map_eq_some_iff.1 cut
      cases is
      obtain ⟨whole, first⟩ := cutAt_eq_some later
      refine ⟨by rw [whole, List.cons_append], fun a' b' whole' => ?_⟩
      cases a' with
      | nil => exact absurd ⟨b', whole'.symm⟩ starts
      | cons y a' =>
        obtain ⟨-, rest⟩ := List.cons.inj whole'
        exact Nat.succ_le_succ (first a' b' rest)

theorem cutAt_of_inside : ∀ {l : List α}, mark <:+: l → cutAt mark l ≠ none
  | [], inside => by
    obtain rfl := List.infix_nil.1 inside
    simp [cutAt]
  | x :: l, inside => by
    unfold cutAt
    split
    · exact fun is => nomatch is
    · next starts =>
      rw [ne_eq, Option.map_eq_none_iff]
      exact cutAt_of_inside ((List.infix_cons_iff.1 inside).resolve_left starts)

theorem cutAt_eq_none_iff : cutAt mark l = none ↔ ¬mark <:+: l := by
  refine ⟨fun none inside => cutAt_of_inside inside none, fun outside => ?_⟩
  cases cut : cutAt mark l with
  | none => rfl
  | some p => exact absurd (cutAt_eq_some cut).inside outside

theorem cutAt_eq_some_iff : cutAt mark l = some (a, b) ↔ First mark l a b := by
  refine ⟨cutAt_eq_some, fun here => ?_⟩
  cases cut : cutAt mark l with
  | none => exact absurd here.inside (cutAt_eq_none_iff.1 cut)
  | some p =>
    obtain ⟨rfl, rfl⟩ := here.unique (cutAt_eq_some cut)
    rfl

def cutAtLast (mark : List α) : List α → Option (List α × List α)
  | [] => if mark = [] then some ([], []) else none
  | x :: l =>
    match cutAtLast mark l with
    | some (before, after) => some (x :: before, after)
    | none => if mark <+: x :: l then some ([], (x :: l).drop mark.length) else none

theorem cutAtLast_eq_none : ∀ {l : List α}, ¬mark <:+: l → cutAtLast mark l = none
  | [], outside => by
    have nonempty : mark ≠ [] := by
      rintro rfl
      exact outside List.nil_infix
    exact if_neg nonempty
  | x :: l, outside => by
    rw [List.infix_cons_iff, not_or] at outside
    rw [cutAtLast, cutAtLast_eq_none outside.2]
    exact if_neg outside.1

/-- A mark after which none begins is the last one. -/
theorem cutAtLast_append (nonempty : mark ≠ []) (last : ¬mark <:+: (mark ++ b).tail) :
    ∀ a, cutAtLast mark (a ++ (mark ++ b)) = some (a, b)
  | [] => by
    obtain ⟨x, rest, rfl⟩ := List.exists_cons_of_ne_nil nonempty
    rw [List.cons_append, List.tail_cons] at last
    rw [List.nil_append, List.cons_append, cutAtLast, cutAtLast_eq_none last]
    simp
  | x :: a => by rw [List.cons_append, cutAtLast, cutAtLast_append nonempty last a]

end Marks
