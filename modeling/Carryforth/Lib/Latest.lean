import Mathlib.Data.List.Basic

/-!
# The latest version wins

A record has one writer, who numbers its versions from one, and copies elsewhere that take any newer
version they meet.  `latest` is what a copy becomes; a log of all versions is `Numbered`, so a
version stands for its record (`Numbered.eq_of_mem`) and what later entries inherit from earlier
ones goes up with the version (`Numbered.rel_of_le`).
-/

namespace Latest

variable {α : Type} (version : α → Nat)

/-- What a copy becomes when it meets a record. -/
def latest (known : Option α) (a : α) : α :=
  match known with
  | some k => if version a ≤ version k then k else a
  | none => a

/-- The entries of a log carry the versions from one on. -/
def Numbered (log : List α) : Prop := ∀ k a, log[k]? = some a → version a = k + 1

variable {version} {known : Option α} {a b : α} {log : List α}

theorem latest_eq : known = some (latest version known a) ∨ latest version known a = a := by
  cases known with
  | none => exact .inr rfl
  | some k =>
    unfold latest
    dsimp only
    split_ifs
    · exact .inl rfl
    · exact .inr rfl

theorem version_le_latest : version a ≤ version (latest version known a) := by
  cases known with
  | none => exact Nat.le_refl _
  | some k =>
    unfold latest
    dsimp only
    split_ifs with old
    · exact old
    · exact Nat.le_refl _

theorem known_le_latest {k : α} : version k ≤ version (latest version (some k) a) := by
  unfold latest
  dsimp only
  split_ifs with old <;> omega

namespace Numbered

theorem singleton (one : version a = 1) : Numbered version [a] := by
  intro k b at_
  cases k with
  | zero => exact Option.some.inj at_ ▸ one
  | succ k => cases at_

theorem concat (numbered : Numbered version log) (next : version a = log.length + 1) :
    Numbered version (log ++ [a]) := by
  intro k b at_
  rcases Nat.lt_or_ge k log.length with inside | outside
  · rw [List.getElem?_append_left inside] at at_
    exact numbered k b at_
  · rw [List.getElem?_append_right outside] at at_
    obtain ⟨here, is⟩ : k - log.length = 0 ∧ a = b := by
      cases rest : k - log.length with
      | zero =>
        rw [rest] at at_
        exact ⟨rfl, Option.some.inj at_⟩
      | succ n =>
        rw [rest] at at_
        cases at_
    rw [← is, next]
    omega

theorem eq_of_mem (numbered : Numbered version log) (memA : a ∈ log) (memB : b ∈ log)
    (same : version a = version b) : a = b := by
  obtain ⟨k, atA⟩ := List.mem_iff_getElem?.1 memA
  obtain ⟨l, atB⟩ := List.mem_iff_getElem?.1 memB
  have versionA := numbered k a atA
  have versionB := numbered l b atB
  have places : k = l := by omega
  rw [places, atB] at atA
  exact (Option.some.inj atA).symm

theorem le_length (numbered : Numbered version log) (mem : a ∈ log) :
    version a ≤ log.length := by
  obtain ⟨k, at_⟩ := List.mem_iff_getElem?.1 mem
  have inside := (List.getElem?_eq_some_iff.1 at_).1
  rw [numbered k a at_]
  omega

/-- What every entry passes on to the later ones holds between any two versions in order. -/
theorem rel_of_le {R : α → α → Prop} (numbered : Numbered version log) (refl : ∀ a, R a a)
    (passed : log.Pairwise R) (memA : a ∈ log) (memB : b ∈ log) (le : version a ≤ version b) :
    R a b := by
  obtain ⟨k, atA⟩ := List.mem_iff_getElem?.1 memA
  obtain ⟨l, atB⟩ := List.mem_iff_getElem?.1 memB
  have versionA := numbered k a atA
  have versionB := numbered l b atB
  obtain ⟨insideA, isA⟩ := List.getElem?_eq_some_iff.1 atA
  obtain ⟨insideB, isB⟩ := List.getElem?_eq_some_iff.1 atB
  rcases Nat.lt_or_ge k l with before | after
  · rw [← isA, ← isB]
    exact List.pairwise_iff_getElem.1 passed k l insideA insideB before
  · have places : k = l := by omega
    subst places
    rw [← isA, ← isB]
    exact refl _

end Numbered

end Latest
