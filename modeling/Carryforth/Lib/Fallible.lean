import Mathlib

/-!
# Fallible computations

Code that stops at its first error is written in `Except ε`: `ensure` is a guard, `okOr` the demand
for a value that may be absent, and a loop is `List.forM` or `List.foldlM`.  The `_eq_ok` lemmas
read a successful run backwards, one statement at a time; `foldlM_invariant` is the loop rule.
-/

namespace Fallible

variable {ε α β γ : Type}

/-- Stop with `e` unless `c` holds. -/
def ensure (c : Prop) [Decidable c] (e : ε) : Except ε Unit := if c then .ok () else .error e

/-- The value of `o`, or the error `e` when it is absent. -/
def okOr (o : Option α) (e : ε) : Except ε α :=
  match o with
  | some a => .ok a
  | none => .error e

/-- Run a check on a value that may be absent. -/
def checkSome (o : Option α) (check : α → Except ε Unit) : Except ε Unit :=
  match o with
  | some a => check a
  | none => .ok ()

/-- Run a check only when `c` holds. -/
def checkIf (c : Prop) [Decidable c] (check : Except ε Unit) : Except ε Unit :=
  if c then check else .ok ()

/-- Run a computation whose errors are a part of the errors here. -/
def within (wrap : ε → γ) (x : Except ε α) : Except γ α := x.mapError wrap

@[simp] theorem ok_bind (a : α) (f : α → Except ε β) : (Except.ok a >>= f) = f a := rfl

@[simp] theorem error_bind (e : ε) (f : α → Except ε β) :
    ((Except.error e : Except ε α) >>= f) = .error e := rfl

@[simp] theorem pure_eq_ok (a b : α) : (pure a : Except ε α) = .ok b ↔ a = b :=
  ⟨fun h => Except.ok.inj h, fun h => congrArg Except.ok h⟩

theorem bind_eq_ok {x : Except ε α} {f : α → Except ε β} {b : β} :
    (x >>= f) = .ok b ↔ ∃ a, x = .ok a ∧ f a = .ok b := by
  cases x with
  | ok a => simp
  | error e => simp

theorem then_eq_ok {x : Except ε Unit} {f : Unit → Except ε β} {b : β} :
    (x >>= f) = .ok b ↔ x = .ok () ∧ f () = .ok b := by
  rw [bind_eq_ok]
  exact ⟨fun ⟨_, check, rest⟩ => ⟨check, rest⟩, fun ⟨check, rest⟩ => ⟨(), check, rest⟩⟩

theorem exists_unit {p : Unit → Prop} : (∃ u, p u) ↔ p () :=
  ⟨fun ⟨_, h⟩ => h, fun h => ⟨(), h⟩⟩

@[simp] theorem ensure_eq_ok {c : Prop} [Decidable c] {e : ε} {u : Unit} :
    ensure c e = .ok u ↔ c := by
  unfold ensure
  split_ifs with h <;> simp [h]

theorem ensure_of {c : Prop} [Decidable c] (h : c) (e : ε) : ensure c e = .ok () := if_pos h

@[simp] theorem okOr_eq_ok {o : Option α} {e : ε} {a : α} : okOr o e = .ok a ↔ o = some a := by
  cases o <;> simp [okOr]

@[simp] theorem okOr_some (a : α) (e : ε) : okOr (some a) e = .ok a := rfl

@[simp] theorem checkSome_eq_ok {o : Option α} {check : α → Except ε Unit} {u : Unit} :
    checkSome o check = .ok u ↔ ∀ a, o = some a → check a = .ok () := by
  cases o <;> simp [checkSome]

theorem checkSome_congr {o : Option α} {check check' : α → Except ε Unit}
    (same : ∀ a, o = some a → check a = check' a) : checkSome o check = checkSome o check' := by
  cases o with
  | none => rfl
  | some a => exact same a rfl

@[simp] theorem checkIf_eq_ok {c : Prop} [Decidable c] {check : Except ε Unit} {u : Unit} :
    checkIf c check = .ok u ↔ (c → check = .ok ()) := by
  unfold checkIf
  split_ifs with h <;> simp [h]

@[simp] theorem within_eq_ok {wrap : ε → γ} {x : Except ε α} {a : α} :
    within wrap x = .ok a ↔ x = .ok a := by
  cases x <;> simp [within, Except.mapError]

/-- All errors of the computation are of one kind. -/
def FailsWith (P : ε → Prop) (x : Except ε α) : Prop := ∀ e, x = .error e → P e

section FailsWith

variable {P : ε → Prop} {x : Except ε α}

theorem failsWith_bind {f : α → Except ε β} (first : FailsWith P x)
    (rest : ∀ a, FailsWith P (f a)) : FailsWith P (x >>= f) := by
  intro e failed
  cases x with
  | error e' => exact first e (Except.error.inj failed ▸ rfl)
  | ok a => exact rest a e failed

theorem failsWith_pure (a : α) : FailsWith P (pure a : Except ε α) := fun _ failed => nomatch failed

theorem failsWith_ensure {c : Prop} [Decidable c] {e : ε} (is : P e) : FailsWith P (ensure c e) := by
  intro e' failed
  unfold ensure at failed
  split_ifs at failed
  exact Except.error.inj failed ▸ is

theorem failsWith_okOr {o : Option α} {e : ε} (is : P e) : FailsWith P (okOr o e) := by
  intro e' failed
  cases o with
  | none => exact Except.error.inj failed ▸ is
  | some a => cases failed

theorem failsWith_within {wrap : γ → ε} {y : Except γ α} (is : ∀ e, P (wrap e)) :
    FailsWith P (within wrap y) := by
  intro e failed
  cases y with
  | error e' => exact Except.error.inj failed ▸ is e'
  | ok a => cases failed

end FailsWith

/-- The computation succeeds with a value that passes the test. -/
def yields (x : Except ε α) (test : α → Bool) : Bool :=
  match x with
  | .ok a => test a
  | .error _ => false

theorem yields_iff {x : Except ε α} {test : α → Bool} :
    yields x test = true ↔ ∃ a, x = .ok a ∧ test a = true := by
  cases x <;> simp [yields]

theorem forM_eq_ok {l : List α} {f : α → Except ε Unit} {u : Unit} :
    l.forM f = .ok u ↔ ∀ a ∈ l, f a = .ok () := by
  induction l with
  | nil => simp [List.forM_nil, pure, Except.pure]
  | cons a l ih =>
    change (f a >>= fun _ => l.forM f) = .ok u ↔ _
    rw [bind_eq_ok, List.forall_mem_cons, ← ih]
    exact ⟨fun ⟨_, ha, hl⟩ => ⟨ha, hl⟩, fun ⟨ha, hl⟩ => ⟨(), ha, hl⟩⟩

/-- The loop rule: what every successful iteration preserves holds of the final accumulator. -/
theorem foldlM_invariant {f : β → α → Except ε β} (P : β → Prop) {l : List α} {b b' : β}
    (step : ∀ c a c', a ∈ l → P c → f c a = .ok c' → P c') (init : P b)
    (run : l.foldlM f b = .ok b') : P b' := by
  induction l generalizing b with
  | nil =>
    rw [List.foldlM_nil, pure_eq_ok] at run
    exact run ▸ init
  | cons a l ih =>
    rw [List.foldlM_cons, bind_eq_ok] at run
    obtain ⟨c, hc, run⟩ := run
    exact ih (fun d x d' hx => step d x d' (List.mem_cons_of_mem _ hx))
      (step b a c List.mem_cons_self init hc) run

/-- A loop none of whose iterations fails. -/
theorem foldlM_eq_foldl {f : β → α → Except ε β} (step : β → α → β) {l : List α}
    (succeeds : ∀ b, ∀ a ∈ l, f b a = .ok (step b a)) (b : β) :
    l.foldlM f b = .ok (l.foldl step b) := by
  induction l generalizing b with
  | nil => rfl
  | cons a l ih =>
    rw [List.foldlM_cons, succeeds b a List.mem_cons_self, ok_bind, List.foldl_cons]
    exact ih (fun b a mem => succeeds b a (List.mem_cons_of_mem _ mem)) (step b a)

/-- A loop that first checks every element on its own. -/
theorem foldlM_checked {check : α → Except ε Unit} {f : β → α → Except ε β} {l : List α} {b b' : β} :
    (l.foldlM (fun b a => do check a; f b a) b) = .ok b' ↔
      (∀ a ∈ l, check a = .ok ()) ∧ l.foldlM f b = .ok b' := by
  induction l generalizing b with
  | nil => simp
  | cons a l ih =>
    simp only [List.foldlM_cons, List.forall_mem_cons, bind_eq_ok, exists_unit]
    constructor
    · rintro ⟨c, ⟨checked, head⟩, rest⟩
      obtain ⟨all, run⟩ := ih.1 rest
      exact ⟨⟨checked, all⟩, c, head, run⟩
    · rintro ⟨⟨checked, all⟩, c, head, run⟩
      exact ⟨c, ⟨checked, head⟩, ih.2 ⟨all, run⟩⟩

/-- A loop that checks every element and computes along the way: the checks do not depend on the
accumulator. -/
theorem foldlM_check {check : α → Except ε Unit} {add : β → α → β} {l : List α} {b b' : β} :
    (l.foldlM (fun b a => do check a; return add b a) b) = .ok b' ↔
      (∀ a ∈ l, check a = .ok ()) ∧ b' = l.foldl add b := by
  have run : l.foldlM (fun b a => (pure (add b a) : Except ε β)) b = .ok (l.foldl add b) :=
    foldlM_eq_foldl add (fun _ _ _ => rfl) b
  rw [foldlM_checked, run, Except.ok.injEq]
  exact and_congr_right' eq_comm

/-- The rule for a loop that collects what it has seen: with an accumulator that `add` extends and
against which `free` is tested, the loop succeeds iff every element passes its own check `P`, is
free at the start, and is free of every earlier element. -/
theorem foldlM_isOk_iff {f : β → α → Except ε β} {P : α → Prop} {free : β → α → Prop}
    {add : β → α → β} {R : α → α → Prop}
    (step : ∀ b a b', f b a = .ok b' ↔ P a ∧ free b a ∧ b' = add b a)
    (free_add : ∀ b a c, free (add b a) c ↔ free b c ∧ R a c) {l : List α} {b : β} :
    (∃ b', l.foldlM f b = .ok b') ↔ (∀ a ∈ l, P a ∧ free b a) ∧ l.Pairwise R := by
  induction l generalizing b with
  | nil => simp [pure, Except.pure]
  | cons a l ih =>
    simp only [List.foldlM_cons, bind_eq_ok, step, List.forall_mem_cons, List.pairwise_cons]
    constructor
    · rintro ⟨b', c, ⟨ha, freeA, rfl⟩, run⟩
      obtain ⟨rest, pairwise⟩ := ih.1 ⟨b', run⟩
      simp only [free_add] at rest
      exact ⟨⟨⟨ha, freeA⟩, fun x hx => ⟨(rest x hx).1, (rest x hx).2.1⟩⟩,
        fun x hx => (rest x hx).2.2, pairwise⟩
    · rintro ⟨⟨⟨ha, freeA⟩, rest⟩, related, pairwise⟩
      have tail : ∀ x ∈ l, P x ∧ free (add b a) x := fun x hx =>
        ⟨(rest x hx).1, (free_add b a x).2 ⟨(rest x hx).2, related x hx⟩⟩
      obtain ⟨b', run⟩ := ih.2 ⟨tail, pairwise⟩
      exact ⟨b', add b a, ⟨ha, freeA, rfl⟩, run⟩

/-- The rule for a loop that records the key of every element and refuses a key it has recorded:
every element passes its check, and the keys are pairwise different and different from the earlier
ones. -/
theorem foldlM_fresh {κ : Type} {f : β → α → Except ε β} {P : α → Prop} (key : α → κ)
    (keys : β → List κ)
    (step : ∀ b a b', f b a = .ok b' → P a ∧ key a ∉ keys b ∧ keys b' = key a :: keys b)
    {l : List α} {b b' : β} (run : l.foldlM f b = .ok b') (nodup : (keys b).Nodup) :
    (∀ a ∈ l, P a) ∧ keys b' = (l.map key).reverse ++ keys b ∧ (keys b').Nodup := by
  induction l generalizing b with
  | nil =>
    rw [List.foldlM_nil, pure_eq_ok] at run
    simp [← run, nodup]
  | cons a l ih =>
    rw [List.foldlM_cons, bind_eq_ok] at run
    obtain ⟨c, first, rest⟩ := run
    obtain ⟨checked, fresh, recorded⟩ := step b a c first
    obtain ⟨all, collected, distinct⟩ := ih rest (recorded ▸ List.nodup_cons.2 ⟨fresh, nodup⟩)
    refine ⟨List.forall_mem_cons.2 ⟨checked, all⟩, ?_, distinct⟩
    rw [collected, recorded, List.map_cons, List.reverse_cons, List.append_assoc]
    rfl

end Fallible
