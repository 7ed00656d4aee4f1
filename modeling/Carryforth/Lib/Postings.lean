import Carryforth.Lib.Grouping

/-!
# Inverted indexes

An inverted index lists under each key the members posted there.  Members are posted under several
keys at once and retracted again from the same keys; an index is `Exact` for a given assignment of
keys to members when each member stands under its own keys and nowhere else.  Lists without
repetition are built with `pushUnique`.
-/

namespace Postings

open Std Grouping

section Unique

variable {α β κ : Type} [DecidableEq κ]

/-- Append an element unless the list has it already. -/
def pushUnique (l : List κ) (k : κ) : List κ := if k ∈ l then l else l ++ [k]

@[simp] theorem mem_pushUnique {l : List κ} {j k : κ} : j ∈ pushUnique l k ↔ j ∈ l ∨ j = k := by
  unfold pushUnique
  split_ifs with old
  · exact ⟨.inl, fun h => h.elim id fun same => same ▸ old⟩
  · simp

theorem nodup_pushUnique {l : List κ} (nodup : l.Nodup) (k : κ) : (pushUnique l k).Nodup := by
  unfold pushUnique
  split_ifs with old
  · exact nodup
  · exact List.nodup_append.2 ⟨nodup, List.nodup_singleton k, by
      intro a mem b single
      rw [List.mem_singleton.1 single]
      exact fun same => old (same ▸ mem)⟩

omit [DecidableEq κ] in
/-- A loop each of whose steps adds some elements collects the elements of all its steps. -/
theorem mem_foldl {step : List κ → α → List κ} {Adds : α → κ → Prop}
    (each : ∀ acc a k, k ∈ step acc a ↔ k ∈ acc ∨ Adds a k) (l : List α) (acc : List κ) (k : κ) :
    k ∈ l.foldl step acc ↔ k ∈ acc ∨ ∃ a ∈ l, Adds a k := by
  induction l generalizing acc with
  | nil => simp
  | cons a l ih =>
    rw [List.foldl_cons, ih, each, or_assoc]
    simp

theorem mem_foldl_pushUnique (l : List α) (key : α → κ) (acc : List κ) (k : κ) :
    k ∈ l.foldl (fun acc a => pushUnique acc (key a)) acc ↔ k ∈ acc ∨ ∃ a ∈ l, k = key a := by
  have each : ∀ acc a j, j ∈ pushUnique acc (key a) ↔ j ∈ acc ∨ j = key a :=
    fun _ _ _ => mem_pushUnique
  exact mem_foldl each l acc k

omit [DecidableEq κ] in
theorem nodup_foldl {step : List κ → α → List κ} (each : ∀ acc a, acc.Nodup → (step acc a).Nodup)
    (l : List α) {acc : List κ} (nodup : acc.Nodup) : (l.foldl step acc).Nodup :=
  List.foldlRecOn l step nodup fun acc nodup a _ => each acc a nodup

theorem nodup_foldl_pushUnique (l : List α) (key : α → κ) {acc : List κ} (nodup : acc.Nodup) :
    (l.foldl (fun acc a => pushUnique acc (key a)) acc).Nodup :=
  nodup_foldl (fun _ a nodup => nodup_pushUnique nodup (key a)) l nodup

omit [DecidableEq κ] in
theorem mem_foldlM (step : List κ → α → Option (List κ)) {Adds : α → κ → Prop}
    (each : ∀ acc a out, step acc a = some out → ∀ k, k ∈ out ↔ k ∈ acc ∨ Adds a k)
    {l : List α} {acc out : List κ} (ran : l.foldlM step acc = some out) (k : κ) :
    k ∈ out ↔ k ∈ acc ∨ ∃ a ∈ l, Adds a k := by
  induction l generalizing acc with
  | nil =>
    cases ran
    simp
  | cons a l ih =>
    rw [List.foldlM_cons] at ran
    obtain ⟨next, one, ran⟩ := Option.bind_eq_some_iff.1 ran
    rw [ih ran, each acc a next one, or_assoc]
    simp

omit [DecidableEq κ] in
theorem exists_of_foldlM {step : List κ → α → Option (List κ)} {l : List α} {acc out : List κ}
    (ran : l.foldlM step acc = some out) {a : α} (mem : a ∈ l) :
    ∃ before after, step before a = some after := by
  induction l generalizing acc with
  | nil => cases mem
  | cons b l ih =>
    rw [List.foldlM_cons] at ran
    obtain ⟨next, one, ran⟩ := Option.bind_eq_some_iff.1 ran
    rcases List.mem_cons.1 mem with rfl | later
    · exact ⟨acc, next, one⟩
    · exact ih ran later

end Unique

variable {β κ : Type} [Ord κ] [TransOrd κ] [LawfulEqOrd κ] [DecidableEq κ] [DecidableEq β]

def post (m : Groups κ β) (keys : List κ) (b : β) : Groups κ β :=
  keys.foldl (fun m k => push m k b) m

/-- Retract a member from one key; a key without members is dropped. -/
def retractAt (m : Groups κ β) (k : κ) (b : β) : Groups κ β :=
  match m[k]? with
  | some members => store m k (members.filter (· ≠ b))
  | none => m

def retract (m : Groups κ β) (keys : List κ) (b : β) : Groups κ β :=
  keys.foldl (fun m k => retractAt m k b) m

variable {m : Groups κ β} {keys : List κ} {j k : κ} {a b : β}

omit [DecidableEq β] in
theorem mem_of_push : a ∈ of (push m k b) j ↔ a ∈ of m j ∨ (a = b ∧ j = k) := by
  rw [of_push]
  by_cases same : j = k
  · simp [same]
  · simp [same]

omit [DecidableEq β] in
theorem mem_of_post : a ∈ of (post m keys b) j ↔ a ∈ of m j ∨ (a = b ∧ j ∈ keys) := by
  induction keys generalizing m with
  | nil => simp [post]
  | cons k keys ih =>
    refine ih.trans ?_
    rw [mem_of_push, List.mem_cons]
    tauto

theorem mem_of_retractAt : a ∈ of (retractAt m k b) j ↔ a ∈ of m j ∧ ¬(a = b ∧ j = k) := by
  unfold retractAt
  cases found : m[k]? with
  | none =>
    refine ⟨fun mem => ⟨mem, ?_⟩, And.left⟩
    rintro ⟨-, rfl⟩
    rw [of_eq_nil found] at mem
    cases mem
  | some members =>
    dsimp only
    rw [of_store]
    by_cases same : j = k
    · rw [if_pos same, same, of_eq_of_get found]
      simp
    · simp [same]

theorem mem_of_retract : a ∈ of (retract m keys b) j ↔ a ∈ of m j ∧ ¬(a = b ∧ j ∈ keys) := by
  induction keys generalizing m with
  | nil => simp [retract]
  | cons k keys ih =>
    refine ih.trans ?_
    rw [mem_of_retractAt, List.mem_cons]
    tauto

/-- Each member stands under its own keys and nowhere else. -/
def Exact (m : Groups κ β) (keysOf : β → List κ) : Prop := ∀ k b, b ∈ of m k ↔ k ∈ keysOf b

variable {keysOf : β → List κ}

omit [LawfulEqOrd κ] [DecidableEq κ] [DecidableEq β] in
theorem exact_empty : Exact (∅ : Groups κ β) fun _ => [] := by
  intro k b
  simp

theorem Exact.post (exact : Exact m keysOf) (free : keysOf b = []) :
    Exact (post m keys b) (Function.update keysOf b keys) := by
  intro k a
  rw [mem_of_post, exact k a]
  by_cases same : a = b
  · subst same
    simp [free]
  · simp [same]

/-- A member is retracted by any keys that include its own. -/
theorem Exact.retract (exact : Exact m keysOf) (all : keysOf b ⊆ keys) :
    Exact (retract m keys b) (Function.update keysOf b []) := by
  intro k a
  rw [mem_of_retract, exact k a]
  by_cases same : a = b
  · subst same
    simpa using @all k
  · simp [same]

end Postings
