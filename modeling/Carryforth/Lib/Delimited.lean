import Mathlib.Data.List.Basic
import Mathlib.Tactic

/-!
# Writing that can be told apart

A way of writing values as lists is self-delimiting if what was written can be told from what
follows it, so that parts written one after the other determine each other.  There is one rule for
each way to get such writing: a fixed length, a terminator that does not occur inside, a length in
front, one part after another, a mark on which the rest depends, a list of parts behind their
number, a list of parts up to a stop that none of them begins with, and a list of nonempty parts up
to the end.
-/

namespace Delimited

variable {α β γ : Type} {P : α → Prop} {Q : β → Prop} {write : α → List γ} {write' : β → List γ}

/-- Of values with `P`, equal written beginnings come from equal values. -/
def SelfDelimiting (P : α → Prop) (write : α → List γ) : Prop :=
  ∀ ⦃a b : α⦄, P a → P b → ∀ ⦃s t : List γ⦄, write a ++ s = write b ++ t → a = b ∧ s = t

theorem of_length {n : Nat} (length : ∀ a, P a → (write a).length = n)
    (inj : Function.Injective write) : SelfDelimiting P write := by
  intro a b pa pb s t same
  obtain ⟨first, rest⟩ := List.append_inj same ((length a pa).trans (length b pb).symm)
  exact ⟨inj first, rest⟩

theorem terminated {stop : γ} (free : ∀ a, P a → stop ∉ write a)
    (inj : Function.Injective write) : SelfDelimiting P fun a => write a ++ [stop] := by
  intro a b pa pb s t same
  have loop : ∀ x y : List γ, stop ∉ x → stop ∉ y → x ++ stop :: s = y ++ stop :: t →
      x = y ∧ s = t := by
    intro x
    induction x with
    | nil =>
      intro y _ freeY same
      cases y with
      | nil => exact ⟨rfl, (List.cons.inj same).2⟩
      | cons c y => exact absurd (List.cons.inj same).1 fun h => freeY (h ▸ List.mem_cons_self)
    | cons c x ih =>
      intro y freeX freeY same
      cases y with
      | nil => exact absurd (List.cons.inj same).1.symm fun h => freeX (h ▸ List.mem_cons_self)
      | cons d y =>
        obtain ⟨first, same⟩ := List.cons.inj same
        obtain ⟨rest, after⟩ := ih y (fun h => freeX (List.mem_cons_of_mem _ h))
          (fun h => freeY (List.mem_cons_of_mem _ h)) same
        exact ⟨by rw [first, rest], after⟩
  rw [List.append_assoc, List.append_assoc] at same
  obtain ⟨first, rest⟩ := loop _ _ (free a pa) (free b pb) same
  exact ⟨inj first, rest⟩

/-- Parts of one kind end where something of another kind begins. -/
theorem append_inj_of_kind {p : γ → Prop} {x y s t : List γ} (inX : ∀ c ∈ x, p c)
    (inY : ∀ c ∈ y, p c) (afterX : ∀ c ∈ s.head?, ¬p c) (afterY : ∀ c ∈ t.head?, ¬p c)
    (same : x ++ s = y ++ t) : x = y ∧ s = t := by
  induction x generalizing y with
  | nil =>
    cases y with
    | nil => exact ⟨rfl, same⟩
    | cons d y =>
      rw [List.nil_append] at same
      exact absurd (inY d List.mem_cons_self) (afterX d (by rw [same]; rfl))
  | cons c x ih =>
    cases y with
    | nil =>
      rw [List.nil_append] at same
      exact absurd (inX c List.mem_cons_self) (afterY c (by rw [← same]; rfl))
    | cons d y =>
      obtain ⟨first, same⟩ := List.cons.inj same
      obtain ⟨rest, after⟩ := ih (fun e mem => inX e (List.mem_cons_of_mem _ mem))
        (fun e mem => inY e (List.mem_cons_of_mem _ mem)) same
      exact ⟨by rw [first, rest], after⟩

theorem lengthPrefixed {size : Nat → List γ} (sizes : SelfDelimiting (fun _ => True) size)
    (inj : Function.Injective write) :
    SelfDelimiting P fun a => size (write a).length ++ write a := by
  intro a b _ _ s t same
  rw [List.append_assoc, List.append_assoc] at same
  obtain ⟨length, same⟩ := sizes trivial trivial same
  obtain ⟨first, rest⟩ := List.append_inj same length
  exact ⟨inj first, rest⟩

namespace SelfDelimiting

theorem pair (first : SelfDelimiting P write) (second : SelfDelimiting Q write') :
    SelfDelimiting (fun v : α × β => P v.1 ∧ Q v.2) fun v => write v.1 ++ write' v.2 := by
  rintro ⟨a, b⟩ ⟨a', b'⟩ ⟨pa, pb⟩ ⟨pa', pb'⟩ s t same
  dsimp only at same
  rw [List.append_assoc, List.append_assoc] at same
  obtain ⟨rfl, after⟩ := first pa pa' same
  obtain ⟨rfl, rest⟩ := second pb pb' after
  exact ⟨rfl, rest⟩

/-- A mark in front, on which the rest depends. -/
theorem tagged {tag : α → β} {body : α → List γ} (tags : SelfDelimiting Q write')
    (maps : ∀ a, P a → Q (tag a))
    (bodies : ∀ a b, tag a = tag b → ∀ s t, body a ++ s = body b ++ t → a = b ∧ s = t) :
    SelfDelimiting P fun a => write' (tag a) ++ body a := by
  intro a b pa pb s t same
  rw [List.append_assoc, List.append_assoc] at same
  obtain ⟨marks, rest⟩ := tags (maps a pa) (maps b pb) same
  exact bodies a b marks s t rest

theorem followed (each : SelfDelimiting P write) (mark : List γ) :
    SelfDelimiting P fun a => write a ++ mark := by
  intro a b pa pb s t same
  rw [List.append_assoc, List.append_assoc] at same
  obtain ⟨rfl, rest⟩ := each pa pb same
  exact ⟨rfl, List.append_cancel_left rest⟩

theorem comap (each : SelfDelimiting P write) {f : β → α} (inj : Function.Injective f)
    (maps : ∀ b, Q b → P (f b)) : SelfDelimiting Q fun b => write (f b) := by
  intro a b qa qb s t same
  obtain ⟨parts, rest⟩ := each (maps a qa) (maps b qb) same
  exact ⟨inj parts, rest⟩

theorem append_inj_of_length (each : SelfDelimiting P write) {l l' : List α}
    (all : ∀ a ∈ l, P a) (all' : ∀ a ∈ l', P a) (length : l.length = l'.length) {s t : List γ}
    (same : l.flatMap write ++ s = l'.flatMap write ++ t) : l = l' ∧ s = t := by
  induction l generalizing l' with
  | nil =>
    rw [List.length_nil, eq_comm, List.length_eq_zero_iff] at length
    subst length
    exact ⟨rfl, same⟩
  | cons a l ih =>
    cases l' with
    | nil => cases length
    | cons b l' =>
      simp only [List.flatMap_cons, List.append_assoc] at same
      obtain ⟨rfl, after⟩ := each (all a List.mem_cons_self) (all' b List.mem_cons_self) same
      obtain ⟨rfl, rest⟩ := ih (fun x mem => all x (List.mem_cons_of_mem _ mem))
        (fun x mem => all' x (List.mem_cons_of_mem _ mem)) (Nat.succ.inj length) after
      exact ⟨rfl, rest⟩

/-- A number of parts, and then as many as it says. -/
theorem counted (each : SelfDelimiting P write) {bound : Nat → Prop} {size : Nat → List γ}
    (sizes : SelfDelimiting bound size) :
    SelfDelimiting (fun l : List α => bound l.length ∧ ∀ a ∈ l, P a)
      fun l => size l.length ++ l.flatMap write := by
  rintro l l' ⟨few, all⟩ ⟨few', all'⟩ s t same
  rw [List.append_assoc, List.append_assoc] at same
  obtain ⟨length, same⟩ := sizes few few' same
  exact each.append_inj_of_length all all' length same

/-- Parts up to a stop that none of them begins with. -/
theorem many (each : SelfDelimiting P write) {stop : γ}
    (begins : ∀ a, P a → ∃ c cs, write a = c :: cs ∧ c ≠ stop) :
    SelfDelimiting (fun l : List α => ∀ a ∈ l, P a) fun l => l.flatMap write ++ [stop] := by
  intro l l' all all' s t same
  induction l generalizing l' with
  | nil =>
    cases l' with
    | nil => exact ⟨rfl, (List.cons.inj same).2⟩
    | cons b l' =>
      obtain ⟨c, cs, first, other⟩ := begins b (all' b List.mem_cons_self)
      simp only [List.flatMap_nil, List.flatMap_cons, first, List.nil_append, List.cons_append] at same
      exact absurd (List.cons.inj same).1.symm other
  | cons a l ih =>
    cases l' with
    | nil =>
      obtain ⟨c, cs, first, other⟩ := begins a (all a List.mem_cons_self)
      simp only [List.flatMap_nil, List.flatMap_cons, first, List.nil_append, List.cons_append] at same
      exact absurd (List.cons.inj same).1 other
    | cons b l' =>
      simp only [List.flatMap_cons, List.append_assoc] at same
      obtain ⟨rfl, after⟩ := each (all a List.mem_cons_self) (all' b List.mem_cons_self) same
      rw [← List.append_assoc, ← List.append_assoc] at after
      obtain ⟨rfl, rest⟩ := ih (fun x mem => all x (List.mem_cons_of_mem _ mem))
        (fun x mem => all' x (List.mem_cons_of_mem _ mem)) after
      exact ⟨rfl, rest⟩

/-- Parts up to the end, none of them empty. -/
theorem flatMap_inj (each : SelfDelimiting P write) (nonempty : ∀ a, P a → write a ≠ [])
    {l l' : List α} (all : ∀ a ∈ l, P a) (all' : ∀ a ∈ l', P a)
    (same : l.flatMap write = l'.flatMap write) : l = l' := by
  induction l generalizing l' with
  | nil =>
    cases l' with
    | nil => rfl
    | cons b l' =>
      rw [List.flatMap_nil, List.flatMap_cons, eq_comm, List.append_eq_nil_iff] at same
      exact absurd same.1 (nonempty b (all' b List.mem_cons_self))
  | cons a l ih =>
    cases l' with
    | nil =>
      rw [List.flatMap_nil, List.flatMap_cons, List.append_eq_nil_iff] at same
      exact absurd same.1 (nonempty a (all a List.mem_cons_self))
    | cons b l' =>
      rw [List.flatMap_cons, List.flatMap_cons] at same
      obtain ⟨rfl, after⟩ := each (all a List.mem_cons_self) (all' b List.mem_cons_self) same
      rw [ih (fun x mem => all x (List.mem_cons_of_mem _ mem))
        (fun x mem => all' x (List.mem_cons_of_mem _ mem)) after]

end SelfDelimiting

end Delimited
