import Mathlib.Data.List.Basic
import Mathlib.Logic.Basic

/-!
# Runs of a state machine

A run folds a step function over a list of actions.  A condition on single steps, which may look at
the state the step starts from, holds `Along` a run when every step of the run meets it; what such
steps keep holds at the end of the run (`Along.invariant`).
-/

namespace Steps

variable {σ α : Type} (step : σ → α → σ)

def run (s : σ) (actions : List α) : σ := actions.foldl step s

/-- Every step of a run meets a condition on its action and on the state before it. -/
def Along (P : σ → α → Prop) (s : σ) (actions : List α) : Prop :=
  ∀ before action after, actions = before ++ action :: after → P (run step s before) action

variable {step} {P : σ → α → Prop} {s : σ} {action : α} {actions more : List α}

theorem run_append : run step s (actions ++ more) = run step (run step s actions) more :=
  List.foldl_append

theorem along_nil : Along step P s [] := by
  intro before action after is
  simp at is

theorem along_cons : Along step P s (action :: actions) ↔
    P s action ∧ Along step P (step s action) actions := by
  constructor
  · intro along
    refine ⟨along [] action actions rfl, ?_⟩
    intro before next after is
    exact along (action :: before) next after (congrArg (action :: ·) is)
  · rintro ⟨first, later⟩ before next after is
    cases before with
    | nil =>
      obtain ⟨rfl, -⟩ := List.cons.inj is
      exact first
    | cons head before =>
      obtain ⟨rfl, rest⟩ := List.cons.inj is
      exact later before next after rest

theorem Along.of_append (along : Along step P s (actions ++ more)) : Along step P s actions := by
  rintro before action after rfl
  exact along before action (after ++ more) (by simp)

theorem Along.and {Q : σ → α → Prop} (first : Along step P s actions)
    (second : Along step Q s actions) : Along step (fun s a => P s a ∧ Q s a) s actions :=
  fun before action after is => ⟨first before action after is, second before action after is⟩

instance decidableAlong [∀ s a, Decidable (P s a)] :
    (s : σ) → (actions : List α) → Decidable (Along step P s actions)
  | _, [] => isTrue along_nil
  | s, action :: actions =>
    have := decidableAlong (step s action) actions
    decidable_of_iff _ along_cons.symm

theorem run_invariant (I : σ → Prop) (kept : ∀ s a, I s → I (step s a)) (start : I s) :
    I (run step s actions) := by
  induction actions generalizing s with
  | nil => exact start
  | cons action actions ih => exact ih (kept s action start)

/-- Steps that meet their condition keep an invariant, so the run does. -/
theorem Along.invariant (I : σ → Prop) (kept : ∀ s a, P s a → I s → I (step s a))
    (along : Along step P s actions) (start : I s) : I (run step s actions) := by
  induction actions generalizing s with
  | nil => exact start
  | cons action actions ih =>
    obtain ⟨first, later⟩ := along_cons.1 along
    exact ih later (kept s action first start)

end Steps
