import Mathlib

/-!
# Greedy selection

A selection grows by what a rule proposes for it, until it has reached its size or the rule proposes
nothing.  If the rule draws from a pool, always something new and as long as anything is left, then
the size of the result depends on the pool only.
-/

namespace Greedy

variable {β κ : Type}

/-- Add the proposals of `next`, at most `n` of them. -/
def fill (next : List β → Option β) : Nat → List β → List β
  | 0, selected => selected
  | n + 1, selected =>
    match next selected with
    | none => selected
    | some b => fill next n (selected ++ [b])

/-- The loop that adds proposals while the selection has fewer than `bound` entries.  A round adds
one entry, so the entries that are missing count the rounds. -/
def fillTo (next : List β → Option β) (bound : Nat) (selected : List β) : List β :=
  fill next (bound - selected.length) selected

/-- Every entry added to the start was proposed when it was added. -/
def Grown (next : List β → Option β) (start added : List β) : Prop :=
  ∀ before b after, added = before ++ b :: after → next (start ++ before) = some b

variable {next : List β → Option β}

theorem fill_eq (n : Nat) (start : List β) :
    ∃ added, fill next n start = start ++ added ∧ Grown next start added := by
  induction n generalizing start with
  | zero => exact ⟨[], (List.append_nil start).symm, fun before b after same => by simp at same⟩
  | succ n ih =>
    unfold fill
    cases proposed : next start with
    | none => exact ⟨[], (List.append_nil start).symm, fun before b after same => by simp at same⟩
    | some b =>
      obtain ⟨added, filled, grown⟩ := ih (start ++ [b])
      refine ⟨b :: added, by simpa using filled, fun before c after same => ?_⟩
      cases before with
      | nil =>
        cases same
        simpa using proposed
      | cons _ before =>
        simp only [List.cons_append, List.cons.injEq] at same
        obtain ⟨rfl, same⟩ := same
        simpa using grown before c after same

theorem Grown.forall {start added : List β} {P : β → Prop} (grown : Grown next start added)
    (holds : ∀ s b, next s = some b → P b) : ∀ b ∈ added, P b := by
  intro b mem
  obtain ⟨before, after, rfl⟩ := List.append_of_mem mem
  exact holds _ b (grown before b after rfl)

variable {key : β → κ} {pool : Finset κ}

/-- The rule draws from the pool without replacement. -/
structure Draws (key : β → κ) (pool : Finset κ) (next : List β → Option β) : Prop where
  mem : ∀ selected b, next selected = some b → key b ∈ pool
  fresh : ∀ selected b, next selected = some b → key b ∉ selected.map key
  complete : ∀ selected, next selected = none → ∀ k ∈ pool, k ∈ selected.map key

/-- Entries of the pool, each at most once. -/
structure Drawn (key : β → κ) (pool : Finset κ) (selected : List β) : Prop where
  nodup : (selected.map key).Nodup
  mem : ∀ b ∈ selected, key b ∈ pool

theorem Drawn.length_le {selected : List β} (drawn : Drawn key pool selected) :
    selected.length ≤ pool.card := by
  classical
  rw [← List.length_map (f := key), ← List.toFinset_card_of_nodup drawn.nodup]
  refine Finset.card_le_card fun k within => ?_
  obtain ⟨b, selected, rfl⟩ := List.mem_map.1 (List.mem_toFinset.1 within)
  exact drawn.mem b selected

theorem Drawn.mono {selected : List β} {larger : Finset κ} (drawn : Drawn key pool selected)
    (subset : pool ⊆ larger) : Drawn key larger selected :=
  ⟨drawn.nodup, fun b mem => subset (drawn.mem b mem)⟩

variable {start : List β} (draws : Draws key pool next) (drawn : Drawn key pool start)

include draws drawn

theorem Draws.append {b : β} (proposed : next start = some b) :
    Drawn key pool (start ++ [b]) := by
  refine ⟨?_, fun c mem => ?_⟩
  · rw [List.map_append, List.map_singleton, ← List.concat_eq_append]
    exact drawn.nodup.concat (draws.fresh start b proposed)
  · rcases List.mem_append.1 mem with mem | mem
    · exact drawn.mem c mem
    · exact List.mem_singleton.1 mem ▸ draws.mem start b proposed

theorem Draws.card_le (exhausted : next start = none) : pool.card ≤ start.length := by
  classical
  rw [← List.length_map (f := key), ← List.toFinset_card_of_nodup drawn.nodup]
  exact Finset.card_le_card fun k mem => List.mem_toFinset.2 (draws.complete start exhausted k mem)

theorem Draws.fill (n : Nat) : Drawn key pool (fill next n start) := by
  induction n generalizing start with
  | zero => exact drawn
  | succ n ih =>
    unfold Greedy.fill
    cases proposed : next start with
    | none => exact drawn
    | some b => exact ih (draws.append drawn proposed)

theorem Draws.length_fill (n : Nat) :
    (Greedy.fill next n start).length = min (start.length + n) pool.card := by
  induction n generalizing start with
  | zero =>
    have le := drawn.length_le
    simp only [Greedy.fill]
    omega
  | succ n ih =>
    unfold Greedy.fill
    cases proposed : next start with
    | none =>
      have le := drawn.length_le
      have all := draws.card_le drawn proposed
      dsimp only
      omega
    | some b =>
      dsimp only
      rw [ih (draws.append drawn proposed), List.length_append, List.length_singleton]
      omega

/-- A selection of entries of the pool is filled up to the bound or to the whole pool. -/
theorem Draws.length_fillTo {bound : Nat} (short : start.length ≤ bound) :
    (fillTo next bound start).length = min bound pool.card := by
  unfold fillTo
  rw [draws.length_fill drawn]
  omega

end Greedy
