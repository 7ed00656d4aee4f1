import Carryforth.Lib.CanonicalSort
import Carryforth.Lib.Delimited
import Carryforth.ProjectContext.Model

/-!
# Project Context: edge identity

The identity of an edge is its set of coordinates: canonicalization depends on the set only, and the
bytes that are hashed for a key determine the project and the coordinates.
-/

namespace Carryforth

namespace ProjectContext

open Fallible ProjectView

/-! ## The order of coordinates -/

theorem objectTypeRank_injective : Function.Injective objectTypeRank := by
  intro a b same
  cases a <;> cases b <;> first | rfl | cases same

theorem objectTypeRank_lt (objectType : ProjectViewObjectType) : objectTypeRank objectType < 256 := by
  cases objectType <;> decide

namespace ProjectContextCoordinate

instance : Std.TransOrd ProjectContextCoordinate :=
  inferInstanceAs (Std.TransCmp
    (compareLex (compareOn familyRank) (compareLex (compareOn typeRank) (compareOn id))))

theorem ext_ranks {a b : ProjectContextCoordinate} (family : a.familyRank = b.familyRank)
    (type : a.typeRank = b.typeRank) (same : a.id = b.id) : a = b := by
  cases a <;> cases b <;> cases family
  case projectViewObject.projectViewObject objectType objectId objectType' objectId' =>
    cases objectTypeRank_injective type
    cases same
    rfl
  case document.document => cases same; rfl
  case meeting.meeting => cases same; rfl

instance : Std.LawfulEqOrd ProjectContextCoordinate where
  eq_of_compare {a b} same := by
    obtain ⟨family, rest⟩ := compareLex_eq_eq.1 same
    obtain ⟨type, id⟩ := compareLex_eq_eq.1 rest
    exact ext_ranks (Std.LawfulEqCmp.eq_of_compare family) (Std.LawfulEqCmp.eq_of_compare type)
      (Std.LawfulEqCmp.eq_of_compare id)

end ProjectContextCoordinate

/-! ## Canonical sets -/

section Canonical

variable {l l' r r' : List ProjectContextCoordinate}

theorem canonicalizeCoordinates_eq_ok :
    canonicalizeCoordinates l = .ok r ↔
      minEdgeCoordinates ≤ l.length ∧ (∀ c ∈ l, c.validate = .ok ()) ∧ l.Nodup ∧
        r = l.insertionSort fun a b => (compare a b).isLE = true := by
  simp only [canonicalizeCoordinates, bind_eq_ok, exists_unit, ensure_eq_ok, forM_eq_ok, pure_eq_ok,
    CanonicalSort.isChain_ne_insertionSort (CanonicalSort.separates_of_lawful l),
    eq_comm (b := r)]

theorem canonicalizeCoordinates_of_perm (perm : l.Perm l') :
    canonicalizeCoordinates l = .ok r ↔ canonicalizeCoordinates l' = .ok r := by
  rw [canonicalizeCoordinates_eq_ok, canonicalizeCoordinates_eq_ok, perm.length_eq, perm.nodup_iff,
    CanonicalSort.insertionSort_eq_of_perm (CanonicalSort.separates_of_lawful l) perm]
  simp only [perm.mem_iff]

theorem canonicalizeCoordinates_idempotent (canonical : canonicalizeCoordinates l = .ok r) :
    canonicalizeCoordinates r = .ok r := by
  have sorted := (canonicalizeCoordinates_eq_ok.1 canonical).2.2.2
  rw [canonicalizeCoordinates_of_perm (sorted ▸ List.perm_insertionSort _ l)]
  exact canonical

theorem canonicalizeCoordinates_eq_iff (canonical : canonicalizeCoordinates l = .ok r)
    (canonical' : canonicalizeCoordinates l' = .ok r') : r = r' ↔ ∀ c, c ∈ l ↔ c ∈ l' := by
  obtain ⟨-, -, nodup, rfl⟩ := canonicalizeCoordinates_eq_ok.1 canonical
  obtain ⟨-, -, nodup', rfl⟩ := canonicalizeCoordinates_eq_ok.1 canonical'
  exact CanonicalSort.insertionSort_eq_iff (CanonicalSort.separates_of_lawful l) nodup nodup'

end Canonical

/-! ## Identity bytes -/

theorem selfDelimiting_uuid :
    Delimited.SelfDelimiting (fun _ => True) fun id : Uuid => Bytes.bigEndian 16 id.toNat := by
  refine Delimited.of_length (n := 16) (fun _ _ => Bytes.length_bigEndian 16 _) fun a b same => ?_
  exact BitVec.eq_of_toNat_eq (Bytes.bigEndian_inj a.isLt b.isLt same)

/-- The families have different lengths, but the first byte tells which one follows. -/
theorem selfDelimiting_identityBytes :
    Delimited.SelfDelimiting (fun _ => True) ProjectContextCoordinate.identityBytes := by
  intro a b _ _ s t same
  cases a <;> cases b <;>
    simp only [ProjectContextCoordinate.identityBytes, List.cons_append, List.cons.injEq] at same
  all_goals try exact absurd same.1 (by decide)
  case projectViewObject.projectViewObject type id type' id' =>
    obtain ⟨-, rank, same⟩ := same
    have types := congrArg UInt8.toNat rank
    rw [UInt8.toNat_ofNat', UInt8.toNat_ofNat', Nat.mod_eq_of_lt (objectTypeRank_lt type),
      Nat.mod_eq_of_lt (objectTypeRank_lt type')] at types
    cases objectTypeRank_injective types
    obtain ⟨rfl, rest⟩ := selfDelimiting_uuid trivial trivial same
    exact ⟨rfl, rest⟩
  case document.document =>
    obtain ⟨rfl, rest⟩ := selfDelimiting_uuid trivial trivial same.2
    exact ⟨rfl, rest⟩
  case meeting.meeting =>
    obtain ⟨rfl, rest⟩ := selfDelimiting_uuid trivial trivial same.2
    exact ⟨rfl, rest⟩

theorem edgeKeyBytes_inj {projectId projectId' : Uuid} {l l' : List ProjectContextCoordinate}
    (few : l.length < 2 ^ 32) (few' : l'.length < 2 ^ 32)
    (same : edgeKeyBytes projectId l = edgeKeyBytes projectId' l') :
    projectId = projectId' ∧ l = l' := by
  have counts : Delimited.SelfDelimiting (fun n => n < 2 ^ 32) (Bytes.bigEndian 4) := by
    intro n m small small' s t same
    obtain ⟨first, rest⟩ := List.append_inj same (by simp only [Bytes.length_bigEndian])
    exact ⟨Bytes.bigEndian_inj small small' first, rest⟩
  obtain ⟨project, same⟩ := selfDelimiting_uuid trivial trivial (List.append_cancel_left same)
  have parts := (selfDelimiting_identityBytes.counted counts) ⟨few, fun _ _ => trivial⟩
    ⟨few', fun _ _ => trivial⟩ (congrArg (· ++ []) same)
  exact ⟨project, parts.1⟩

/-- Edge identity is exactly the coordinate set: canonicalization is invariant under permutation,
idempotent, and two results are equal exactly when the coordinates are the same set; and the bytes
that are hashed for an edge key determine the project and the list of coordinates. -/
theorem edgeIdentity :
    (∀ l l' r : List ProjectContextCoordinate, l.Perm l' →
      (canonicalizeCoordinates l = .ok r ↔ canonicalizeCoordinates l' = .ok r)) ∧
    (∀ l r : List ProjectContextCoordinate, canonicalizeCoordinates l = .ok r →
      canonicalizeCoordinates r = .ok r) ∧
    (∀ l l' r r' : List ProjectContextCoordinate, canonicalizeCoordinates l = .ok r →
      canonicalizeCoordinates l' = .ok r' → (r = r' ↔ ∀ c, c ∈ l ↔ c ∈ l')) ∧
    ∀ (projectId projectId' : Uuid) (l l' : List ProjectContextCoordinate),
      l.length < 2 ^ 32 → l'.length < 2 ^ 32 →
      edgeKeyBytes projectId l = edgeKeyBytes projectId' l' → projectId = projectId' ∧ l = l' :=
  ⟨fun _ _ _ => canonicalizeCoordinates_of_perm, fun _ _ => canonicalizeCoordinates_idempotent,
    fun _ _ _ _ => canonicalizeCoordinates_eq_iff, fun _ _ _ _ => edgeKeyBytes_inj⟩

end ProjectContext

end Carryforth
