import Carryforth.ProjectView.V3.Reduce

/-!
# Project View v3: valid states

`Valid` says what `validate` accepts of an initialized state, entry by entry (`validate_eq_ok`): the
loop over the entries counts one Profile exactly when the Community's own identifier is one, and
collects exactly the Role identities.
-/

namespace Carryforth

namespace ProjectView

open Fallible

def ProjectViewEntryV3.isProfile : ProjectViewEntryV3 → Bool
  | .active object => object.objectType = .projectProfile
  | .tombstone _ => false

namespace ProjectViewStateV3

variable [UrlParser] {s : ProjectViewStateV3}

/-- What validation accepts of an initialized state that was updated at `stateUpdatedAt`. -/
structure ValidAt (s : ProjectViewStateV3) (stateUpdatedAt : DateTime) : Prop where
  inRange : s.projectRevision ≤ maxSafeRevision
  positive : s.projectRevision ≠ 0
  updatedAt : s.updatedAt = some stateUpdatedAt
  ordered : ∀ initializedAt, s.initializedAt = some initializedAt → initializedAt ≤ stateUpdatedAt
  entry : ∀ (id : Uuid) e, s.entries[id]? = some e → s.validateEntry stateUpdatedAt (id, e) = .ok ()
  profile : ∃ e, s.entries[s.projectId]? = some e ∧ e.isProfile = true
  levels : ∀ id : Uuid, s.roleLevels.contains id = true ↔
    ∃ e, s.entries[id]? = some e ∧ e.objectType = .role
  targets : s.validateRelationTargetsAndContext = .ok ()

omit [UrlParser] in
theorem foldl_countEntry (l : List (Uuid × ProjectViewEntryV3)) (seen : Nat × List Uuid) :
    (l.foldl countEntry seen).1 = seen.1 + l.countP (fun keyed => keyed.2.isProfile) ∧
      ∀ id, id ∈ (l.foldl countEntry seen).2 ↔
        id ∈ seen.2 ∨ ∃ keyed ∈ l, keyed.2.objectType = .role ∧ keyed.2.id = id := by
  induction l generalizing seen with
  | nil => simp
  | cons keyed l ih =>
    obtain ⟨count, roles⟩ := ih (countEntry seen keyed)
    have step : (countEntry seen keyed).1 = seen.1 + (if keyed.2.isProfile = true then 1 else 0) ∧
        ∀ id, id ∈ (countEntry seen keyed).2 ↔
          id ∈ seen.2 ∨ keyed.2.objectType = .role ∧ keyed.2.id = id := by
      obtain ⟨key, entry⟩ := keyed
      cases entry with
      | active object =>
        by_cases profile : object.objectType = .projectProfile <;>
          by_cases role : object.objectType = .role <;>
          simp [countEntry, ProjectViewEntryV3.isProfile, ProjectViewEntryV3.objectType, profile,
            role, eq_comm, or_comm]
      | tombstone t =>
        by_cases role : t.objectType = .role <;>
          simp [countEntry, ProjectViewEntryV3.isProfile, ProjectViewEntryV3.objectType, role,
            eq_comm, or_comm]
    constructor
    · rw [List.foldl_cons, count, step.1, List.countP_cons, Nat.add_assoc, Nat.add_comm (ite _ _ _)]
    · intro id
      rw [List.foldl_cons, roles, step.2, List.exists_mem_cons_iff, or_assoc]

theorem id_of_validateEntry {stateUpdatedAt : DateTime} {id : Uuid} {e : ProjectViewEntryV3}
    (accepted : s.validateEntry stateUpdatedAt (id, e) = .ok ()) : e.id = id :=
  (ensure_eq_ok.1 (then_eq_ok.1 accepted).1).symm

theorem projectId_of_isProfile {stateUpdatedAt : DateTime} {id : Uuid} {e : ProjectViewEntryV3}
    (accepted : s.validateEntry stateUpdatedAt (id, e) = .ok ()) (profile : e.isProfile = true) :
    id = s.projectId := by
  rw [← id_of_validateEntry accepted]
  cases e with
  | tombstone t => cases profile
  | active object =>
    have isProfile : object.objectType = .projectProfile := of_decide_eq_true profile
    obtain ⟨_, active⟩ := then_eq_ok.1 accepted
    obtain ⟨_, active⟩ := then_eq_ok.1 active
    obtain ⟨_, active⟩ := then_eq_ok.1 active
    obtain ⟨_, active⟩ := then_eq_ok.1 active
    rw [if_pos isProfile, ensure_eq_ok] at active
    exact active

theorem validate_eq_ok (initialized : s.isInitialized = true) :
    s.validate = .ok () ↔ ∃ stateUpdatedAt, s.ValidAt stateUpdatedAt := by
  obtain ⟨initializedAt, started⟩ := Option.isSome_iff_exists.1 initialized
  simp only [validate, started, bind_eq_ok, exists_const, within_eq_ok, validateRevision,
    ensure_eq_ok, okOr_eq_ok, foldlM_check]
  constructor
  · rintro ⟨inRange, positive, stateUpdatedAt, updatedAt, ordered, seen, ⟨checked, rfl⟩, profiles,
      ⟨collected, levelled⟩, targets⟩
    obtain ⟨count, roles⟩ := foldl_countEntry s.entries.toList (0, [])
    have entry : ∀ (id : Uuid) e, s.entries[id]? = some e →
        s.validateEntry stateUpdatedAt (id, e) = .ok () := fun id e found =>
      checked (id, e) (Std.ExtTreeMap.mem_toList_iff_getElem?_eq_some.2 found)
    have role : ∀ id, id ∈ (s.entries.toList.foldl countEntry (0, [])).2 ↔
        ∃ e, s.entries[id]? = some e ∧ e.objectType = .role := by
      intro id
      rw [roles]
      constructor
      · rintro (none | ⟨⟨key, e⟩, mem, role, rfl⟩)
        · cases none
        · have found := Std.ExtTreeMap.mem_toList_iff_getElem?_eq_some.1 mem
          exact ⟨e, (id_of_validateEntry (entry key e found)).symm ▸ found, role⟩
      · rintro ⟨e, found, role⟩
        exact .inr ⟨(id, e), Std.ExtTreeMap.mem_toList_iff_getElem?_eq_some.2 found, role,
          id_of_validateEntry (entry id e found)⟩
    refine ⟨stateUpdatedAt, inRange, positive, updatedAt, ?_, entry, ?_, ?_, targets⟩
    · intro t same
      rw [started, Option.some.injEq] at same
      exact same ▸ ordered
    · rw [count, Nat.zero_add] at profiles
      exact (OrdMap.countP_toList_eq_one
        fun id e found isProfile => projectId_of_isProfile (entry id e found) isProfile).1 profiles
    · intro id
      rw [← role]
      constructor
      · intro level
        have key : id ∈ s.roleLevels.keys := Std.ExtTreeMap.mem_keys.2 level
        exact List.contains_iff_mem.1 (List.all_eq_true.1 levelled id key)
      · exact fun mem => List.all_eq_true.1 collected id mem
  · rintro ⟨stateUpdatedAt, valid⟩
    obtain ⟨count, roles⟩ := foldl_countEntry s.entries.toList (0, [])
    have checked : ∀ keyed ∈ s.entries.toList, s.validateEntry stateUpdatedAt keyed = .ok () :=
      fun keyed mem => valid.entry keyed.1 keyed.2
        (Std.ExtTreeMap.mem_toList_iff_getElem?_eq_some.1 mem)
    refine ⟨valid.inRange, valid.positive, stateUpdatedAt, valid.updatedAt,
      valid.ordered initializedAt started, _, ⟨checked, rfl⟩, ?_, ⟨?_, ?_⟩, valid.targets⟩
    · rw [count, Nat.zero_add]
      exact (OrdMap.countP_toList_eq_one fun id e found isProfile =>
        projectId_of_isProfile (valid.entry id e found) isProfile).2 valid.profile
    · refine List.all_eq_true.2 fun id mem => ?_
      rcases (roles id).1 mem with none | ⟨⟨key, e⟩, mem, role, same⟩
      · cases none
      · have found := Std.ExtTreeMap.mem_toList_iff_getElem?_eq_some.1 mem
        have under := id_of_validateEntry (valid.entry key e found)
        exact (valid.levels id).2 ⟨e, (under.symm.trans same) ▸ found, role⟩
    · refine List.all_eq_true.2 fun id mem => List.contains_iff_mem.2 ((roles id).2 (.inr ?_))
      obtain ⟨e, found, role⟩ := (valid.levels id).1 (Std.ExtTreeMap.mem_keys.1 mem)
      exact ⟨(id, e), Std.ExtTreeMap.mem_toList_iff_getElem?_eq_some.2 found, role,
        id_of_validateEntry (valid.entry id e found)⟩

theorem ValidAt.keyed {stateUpdatedAt : DateTime} (valid : s.ValidAt stateUpdatedAt) :
    s.entries.Keyed ProjectViewEntryV3.id :=
  fun id e found => id_of_validateEntry (valid.entry id e found)

end ProjectViewStateV3

end ProjectView

end Carryforth
