import Carryforth.Lib.Fallible

/-!
# Ordered maps

`OrdMap κ ν` is a finite map sorted by its keys.  Two maps are equal when every lookup agrees, so
everything about a map is said through `m[k]?`.  A map is `Keyed` when each value is stored under
its own key; `collectUnique` builds such a map from a list, `changed` lists the values by which a
map differs from an earlier one, and `overlay` writes such a list back (`overlay_eq`).
-/

abbrev OrdMap (κ ν : Type) [Ord κ] := Std.ExtTreeMap κ ν compare

abbrev OrdSet (κ : Type) [Ord κ] := Std.ExtTreeSet κ compare

namespace OrdMap

open Std

variable {κ ν ε : Type} [Ord κ] [TransOrd κ]

def valueList (m : OrdMap κ ν) : List ν := m.toList.map Prod.snd

theorem contains_iff {m : OrdMap κ ν} {k : κ} : m.contains k = true ↔ ∃ v, m[k]? = some v := by
  rw [ExtTreeMap.contains_eq_isSome_getElem?, Option.isSome_iff_exists]

theorem not_contains_iff {m : OrdMap κ ν} {k : κ} : ¬m.contains k = true ↔ m[k]? = none := by
  rw [ExtTreeMap.contains_eq_isSome_getElem?, Option.not_isSome_iff_eq_none]

theorem size_pos {m : OrdMap κ ν} {k : κ} (there : m.contains k = true) : 0 < m.size :=
  Nat.pos_of_ne_zero fun none => ExtTreeMap.not_mem_empty
    (ExtTreeMap.eq_empty_iff_size_eq_zero.2 none ▸ ExtTreeMap.mem_iff_contains.2 there)

variable [LawfulEqOrd κ]

theorem get_insert [DecidableEq κ] (m : OrdMap κ ν) (k a : κ) (v : ν) :
    (m.insert k v)[a]? = if a = k then some v else m[a]? := by
  simp only [ExtTreeMap.getElem?_insert, Std.compare_eq_iff_eq, eq_comm (a := a)]

theorem get_insert_of_ne [DecidableEq κ] {k a : κ} (different : a ≠ k) (m : OrdMap κ ν) (v : ν) :
    (m.insert k v)[a]? = m[a]? := by
  rw [get_insert, if_neg different]

theorem mem_valueList {m : OrdMap κ ν} {v : ν} : v ∈ m.valueList ↔ ∃ k : κ, m[k]? = some v := by
  simp only [valueList, List.mem_map, Prod.exists, exists_eq_right,
    ExtTreeMap.mem_toList_iff_getElem?_eq_some]

omit [LawfulEqOrd κ] in
theorem valueList_map (f : ν → ν) (m : OrdMap κ ν) :
    valueList (ExtTreeMap.map (fun _ v => f v) m) = m.valueList.map f := by
  rw [valueList, ExtTreeMap.toList_map, List.map_map, valueList, List.map_map]
  rfl

/-- Counting the entries that pass a test which only one key can pass. -/
theorem countP_toList_eq_one {m : OrdMap κ ν} {p : κ × ν → Bool} {k : κ}
    (only : ∀ j v, m[j]? = some v → p (j, v) = true → j = k) :
    m.toList.countP p = 1 ↔ ∃ v, m[k]? = some v ∧ p (k, v) = true := by
  rw [List.countP_eq_length_filter]
  have selected : ∀ x, x ∈ m.toList.filter p ↔ m[x.1]? = some x.2 ∧ p x = true := fun x => by
    rw [List.mem_filter, ExtTreeMap.mem_toList_iff_getElem?_eq_some]
  constructor
  · intro one
    obtain ⟨x, single⟩ := List.length_eq_one_iff.1 one
    obtain ⟨found, passes⟩ := (selected x).1 (single ▸ List.mem_singleton_self x)
    have same := only x.1 x.2 found passes
    exact ⟨x.2, same ▸ found, same ▸ passes⟩
  · rintro ⟨v, found, passes⟩
    have all : ∀ x ∈ m.toList.filter p, x = (k, v) := by
      intro x mem
      obtain ⟨foundX, passesX⟩ := (selected x).1 mem
      have key := only x.1 x.2 foundX passesX
      rw [key, found] at foundX
      exact Prod.ext key (Option.some.inj foundX).symm
    have nodup : (m.toList.filter p).Nodup := by
      have keys : (m.toList.map Prod.fst).Nodup := by
        rw [ExtTreeMap.map_fst_toList_eq_keys]
        exact ExtTreeMap.nodup_keys
      exact keys.of_map.filter p
    have mem : (k, v) ∈ m.toList.filter p := (selected (k, v)).2 ⟨found, passes⟩
    rw [List.eq_replicate_of_mem all, List.nodup_replicate] at nodup
    have positive := List.length_pos_of_mem mem
    omega

theorem ofList_toList [DecidableEq κ] (m : OrdMap κ ν) : ExtTreeMap.ofList m.toList compare = m := by
  have distinct : m.toList.Pairwise (fun a b => ¬compare a.1 b.1 = .eq) :=
    ExtTreeMap.distinct_keys_toList
  refine ExtTreeMap.ext_getElem? fun k => ?_
  cases here : m[k]? with
  | none =>
    refine ExtTreeMap.getElem?_ofList_of_contains_eq_false ?_
    rw [ExtTreeMap.map_fst_toList_eq_keys, ← Bool.not_eq_true, List.contains_iff_mem,
      ExtTreeMap.mem_keys, ExtTreeMap.mem_iff_isSome_getElem?, here]
    exact Bool.false_ne_true
  | some v =>
    exact ExtTreeMap.getElem?_ofList_of_mem (Std.compare_self) distinct
      (ExtTreeMap.mem_toList_iff_getElem?_eq_some.2 here)

/-! ## Counting values -/

theorem get_erase [DecidableEq κ] (m : OrdMap κ ν) (k a : κ) :
    (m.erase k)[a]? = if a = k then none else m[a]? := by
  simp only [ExtTreeMap.getElem?_erase, Std.compare_eq_iff_eq, eq_comm (a := a)]

def countWhere (p : ν → Bool) (m : OrdMap κ ν) : Nat := (m.filter fun _ v => p v).size

theorem filter_insert [DecidableEq κ] (p : ν → Bool) (m : OrdMap κ ν) (k : κ) (v : ν) :
    (m.insert k v).filter (fun _ v => p v) =
      if p v then (m.filter fun _ v => p v).insert k v else (m.filter fun _ v => p v).erase k := by
  refine ExtTreeMap.ext_getElem? fun a => ?_
  rw [ExtTreeMap.getElem?_filter', get_insert]
  split_ifs with same passes passes
  · rw [get_insert, if_pos same, Option.filter_some, if_pos passes]
  · rw [get_erase, if_pos same, Option.filter_some, if_neg passes]
  · rw [get_insert_of_ne same, ExtTreeMap.getElem?_filter']
  · rw [get_erase, if_neg same, ExtTreeMap.getElem?_filter']

theorem countWhere_insert_of_none [DecidableEq κ] (p : ν → Bool) {m : OrdMap κ ν} {k : κ}
    (fresh : m[k]? = none) (v : ν) :
    countWhere p (m.insert k v) = countWhere p m + (p v).toNat := by
  have absent : ¬(m.filter fun _ v => p v).contains k = true := by
    rw [not_contains_iff, ExtTreeMap.getElem?_filter', fresh]
    rfl
  rw [countWhere, filter_insert]
  cases passes : p v with
  | true => simp [ExtTreeMap.size_insert, absent, countWhere]
  | false => simp [ExtTreeMap.size_erase, absent, countWhere]

theorem countWhere_insert_of_some [DecidableEq κ] (p : ν → Bool) {m : OrdMap κ ν} {k : κ} {w : ν}
    (found : m[k]? = some w) (v : ν) :
    countWhere p (m.insert k v) + (p w).toNat = countWhere p m + (p v).toNat := by
  have there : (m.filter fun _ v => p v).contains k = p w := by
    rw [ExtTreeMap.contains_eq_isSome_getElem?, ExtTreeMap.getElem?_filter', found,
      Option.filter_some]
    cases p w <;> rfl
  rw [countWhere, filter_insert]
  cases passes : p v with
  | true =>
    rw [if_pos rfl, ExtTreeMap.size_insert, there, countWhere]
    cases p w <;> simp
  | false =>
    rw [if_neg Bool.false_ne_true, ExtTreeMap.size_erase, there, countWhere]
    cases old : p w with
    | true =>
      have := size_pos (there.trans old)
      simp only [if_true, Bool.toNat_true, Bool.toNat_false]
      omega
    | false => simp

/-! ## Values stored under their own key -/

def Keyed (key : ν → κ) (m : OrdMap κ ν) : Prop := ∀ k v, m[k]? = some v → key v = k

variable {key : ν → κ}

omit [LawfulEqOrd κ] in
theorem keyed_empty : Keyed key (∅ : OrdMap κ ν) := by
  intro k v h
  rw [ExtTreeMap.getElem?_empty] at h
  cases h

theorem Keyed.insert [DecidableEq κ] {m : OrdMap κ ν} (keyed : Keyed key m) {k : κ} {v : ν}
    (hv : key v = k) : Keyed key (m.insert k v) := by
  intro a w h
  rw [get_insert] at h
  split_ifs at h with ha
  · cases h
    rw [hv, ha]
  · exact keyed a w h

theorem Keyed.mem_valueList {m : OrdMap κ ν} (keyed : Keyed key m) {v : ν} :
    v ∈ m.valueList ↔ m[key v]? = some v := by
  rw [OrdMap.mem_valueList]
  constructor
  · rintro ⟨k, h⟩
    rwa [keyed k v h]
  · exact fun h => ⟨_, h⟩

theorem Keyed.map_valueList {m : OrdMap κ ν} (keyed : Keyed key m) :
    m.valueList.map key = m.keys := by
  rw [← ExtTreeMap.map_fst_toList_eq_keys, valueList, List.map_map]
  refine List.map_congr_left fun kv hkv => ?_
  exact keyed kv.1 kv.2 (ExtTreeMap.mem_toList_iff_getElem?_eq_some.1 hkv)

theorem Keyed.nodup_keys {m : OrdMap κ ν} (keyed : Keyed key m) : (m.valueList.map key).Nodup := by
  rw [keyed.map_valueList]
  exact ExtTreeMap.nodup_keys

theorem Keyed.map {m : OrdMap κ ν} (keyed : Keyed key m) {f : κ → ν → ν}
    (kept : ∀ k v, key (f k v) = key v) : Keyed key (ExtTreeMap.map f m) := by
  intro k w h
  rw [ExtTreeMap.getElem?_map, Option.map_eq_some_iff] at h
  obtain ⟨v, found, rfl⟩ := h
  rw [kept, keyed k v found]

/-- A symmetric relation holds between any two values in order iff it does between any two values
under different keys. -/
theorem Keyed.pairwise_valueList {m : OrdMap κ ν} (keyed : Keyed key m) {R : ν → ν → Prop}
    (symm : ∀ v w, R v w → R w v) :
    m.valueList.Pairwise R ↔
      ∀ (j k : κ) (v w : ν), m[j]? = some v → m[k]? = some w → j ≠ k → R v w := by
  constructor
  · intro pairwise j k v w hv hw different
    have : Std.Symm R := ⟨symm⟩
    refine pairwise.forall (OrdMap.mem_valueList.2 ⟨j, hv⟩)
      (OrdMap.mem_valueList.2 ⟨k, hw⟩) fun same => different ?_
    rw [← keyed j v hv, ← keyed k w hw, same]
  · intro related
    refine (keyed.nodup_keys.of_map).pairwise_of_forall_ne fun v hv w hw different => ?_
    rw [keyed.mem_valueList] at hv hw
    refine related _ _ v w hv hw fun same => different ?_
    rw [same, hw] at hv
    exact (Option.some.inj hv).symm

/-! ## Collecting, comparing and overlaying -/

/-- The map of `values` by `key`; a key that occurs twice is the error `e`. -/
def collectUnique [DecidableEq κ] (key : ν → κ) (e : ε) (values : List ν) :
    Except ε (OrdMap κ ν) :=
  values.foldlM (fun m v => do
    Fallible.ensure (¬m.contains (key v) = true) e
    return m.insert (key v) v) ∅

theorem collectUnique_keyed [DecidableEq κ] {e : ε} {values : List ν} {m : OrdMap κ ν}
    (run : collectUnique key e values = .ok m) : Keyed key m := by
  refine Fallible.foldlM_invariant (Keyed key) ?_ keyed_empty run
  intro c v c' _ keyed step
  obtain ⟨_, _, step⟩ := Fallible.bind_eq_ok.1 step
  rw [Fallible.pure_eq_ok] at step
  exact step ▸ keyed.insert rfl

/-- Collecting values with pairwise different new keys writes each of them. -/
theorem foldlM_collect [DecidableEq κ] {e : ν → ε} {values : List ν} {m : OrdMap κ ν}
    (nodup : (values.map key).Nodup) (fresh : ∀ v ∈ values, m[key v]? = none) :
    values.foldlM (fun m v => do
      Fallible.ensure (¬m.contains (key v) = true) (e v)
      return m.insert (key v) v) m = .ok (values.foldl (fun m v => m.insert (key v) v) m) := by
  induction values generalizing m with
  | nil => rfl
  | cons v values ih =>
    rw [List.map_cons, List.nodup_cons] at nodup
    rw [List.foldlM_cons, List.foldl_cons,
      Fallible.ensure_of (not_contains_iff.2 (fresh v List.mem_cons_self))]
    refine ih nodup.2 fun w hw => ?_
    have different : key w ≠ key v := fun h => nodup.1 (h ▸ List.mem_map_of_mem hw)
    rw [get_insert_of_ne different]
    exact fresh w (List.mem_cons_of_mem _ hw)

theorem foldlM_collectPairs [DecidableEq κ] {e : κ × ν → ε} {pairs : List (κ × ν)} {m : OrdMap κ ν}
    (nodup : (pairs.map Prod.fst).Nodup) (fresh : ∀ p ∈ pairs, m[p.1]? = none) :
    ∃ m', pairs.foldlM (fun m p => do
        Fallible.ensure (¬m.contains p.1 = true) (e p)
        return m.insert p.1 p.2) m = .ok m' ∧
      (∀ k, m'.contains k = true ↔ m.contains k = true ∨ k ∈ pairs.map Prod.fst) ∧
      ∀ k v, m'[k]? = some v ↔ m[k]? = some v ∨ (k, v) ∈ pairs := by
  induction pairs generalizing m with
  | nil => exact ⟨m, rfl, by simp, by simp⟩
  | cons p pairs ih =>
    rw [List.map_cons, List.nodup_cons] at nodup
    obtain ⟨m', run, keys, found⟩ := ih (m := m.insert p.1 p.2) nodup.2 fun q mem => by
      have different : q.1 ≠ p.1 := fun same => nodup.1 (same ▸ List.mem_map_of_mem mem)
      rw [get_insert_of_ne different]
      exact fresh q (List.mem_cons_of_mem _ mem)
    refine ⟨m', ?_, fun k => ?_, fun k v => ?_⟩
    · rw [List.foldlM_cons, Fallible.ensure_of (not_contains_iff.2 (fresh p List.mem_cons_self))]
      exact run
    · rw [keys, List.map_cons, List.mem_cons, contains_iff, contains_iff, get_insert]
      split_ifs with same
      · simp [same]
      · simp [same]
    · rw [found, get_insert, List.mem_cons, ← or_assoc]
      split_ifs with same
      · simp [same, fresh p List.mem_cons_self, Prod.ext_iff, eq_comm]
      · simp [same, Prod.ext_iff]

/-- Write each value of a list under its own key. -/
def overlay (key : ν → κ) (m : OrdMap κ ν) (values : List ν) : OrdMap κ ν :=
  values.foldl (fun m v => m.insert (key v) v) m

omit [LawfulEqOrd κ] in
theorem overlay_append_singleton (m : OrdMap κ ν) (values : List ν) (v : ν) :
    overlay key m (values ++ [v]) = (overlay key m values).insert (key v) v := by
  rw [overlay, List.foldl_append]
  rfl

theorem Keyed.overlay [DecidableEq κ] {m : OrdMap κ ν} (keyed : Keyed key m) (values : List ν) :
    Keyed key (overlay key m values) := by
  induction values generalizing m with
  | nil => exact keyed
  | cons v values ih => exact ih (keyed.insert rfl)

theorem get_overlay_of_notMem [DecidableEq κ] {m : OrdMap κ ν} {values : List ν} {k : κ}
    (other : ∀ v ∈ values, key v ≠ k) : (overlay key m values)[k]? = m[k]? := by
  induction values generalizing m with
  | nil => rfl
  | cons v values ih =>
    refine (ih fun w hw => other w (List.mem_cons_of_mem _ hw)).trans ?_
    exact get_insert_of_ne (other v List.mem_cons_self).symm m v

/-- A value is found under its key when no other value of the list has the same key. -/
theorem get_overlay_of_mem [DecidableEq κ] {m : OrdMap κ ν} {values : List ν} {v : ν}
    (mem : v ∈ values) (unique : ∀ w ∈ values, key w = key v → w = v) :
    (overlay key m values)[key v]? = some v := by
  induction values generalizing m with
  | nil => cases mem
  | cons w values ih =>
    by_cases later : v ∈ values
    · exact ih later fun u hu => unique u (List.mem_cons_of_mem _ hu)
    · have first : v = w := (List.mem_cons.1 mem).resolve_right later
      have other : ∀ u ∈ values, key u ≠ key v := fun u hu same =>
        later (unique u (List.mem_cons_of_mem _ hu) same ▸ hu)
      apply (get_overlay_of_notMem other).trans
      rw [first, get_insert, if_pos rfl]

/-- Values with pairwise different keys, written to the empty map, are found under their keys. -/
theorem get_overlay_empty [DecidableEq κ] {values : List ν} (nodup : (values.map key).Nodup) {k : κ}
    {v : ν} : (overlay key ∅ values)[k]? = some v ↔ v ∈ values ∧ key v = k := by
  have unique : ∀ v ∈ values, ∀ w ∈ values, key w = key v → w = v := fun v hv w hw same =>
    List.inj_on_of_nodup_map nodup hw hv same
  constructor
  · intro found
    by_cases mem : ∃ w ∈ values, key w = k
    · obtain ⟨w, hw, rfl⟩ := mem
      rw [get_overlay_of_mem hw (unique w hw), Option.some.injEq] at found
      exact found ▸ ⟨hw, rfl⟩
    · push Not at mem
      rw [get_overlay_of_notMem mem, ExtTreeMap.getElem?_empty] at found
      cases found
  · rintro ⟨mem, rfl⟩
    exact get_overlay_of_mem mem (unique v mem)

/-- Overlaying values of `target` on a map that agrees with it elsewhere gives `target`. -/
theorem overlay_eq [DecidableEq κ] {m target : OrdMap κ ν} {values : List ν}
    (inTarget : ∀ v ∈ values, target[key v]? = some v)
    (elsewhere : ∀ k, (∀ v ∈ values, key v ≠ k) → m[k]? = target[k]?) :
    overlay key m values = target := by
  induction values generalizing m with
  | nil => exact ExtTreeMap.ext_getElem? fun k => elsewhere k (fun v hv => nomatch hv)
  | cons v values ih =>
    refine ih (fun w hw => inTarget w (List.mem_cons_of_mem _ hw)) fun k hk => ?_
    rw [get_insert]
    split_ifs with h
    · rw [h, inTarget v List.mem_cons_self]
    · refine elsewhere k fun w hw => ?_
      rcases List.mem_cons.1 hw with rfl | hw
      · exact fun same => h same.symm
      · exact hk w hw

theorem Keyed.foldlM_collect_of_perm [DecidableEq κ] {m : OrdMap κ ν} (keyed : Keyed key m)
    {values : List ν} (perm : values.Perm m.valueList) (e : ν → ε) :
    values.foldlM (fun (m : OrdMap κ ν) v => do
      Fallible.ensure (¬m.contains (key v) = true) (e v)
      return m.insert (key v) v) ∅ = .ok m := by
  rw [foldlM_collect ((perm.map key).nodup_iff.2 keyed.nodup_keys)
    (fun v _ => ExtTreeMap.getElem?_empty)]
  congr 1
  refine overlay_eq (fun v hv => keyed.mem_valueList.1 (perm.mem_iff.1 hv)) fun k hk => ?_
  rw [ExtTreeMap.getElem?_empty]
  cases h : m[k]? with
  | none => rfl
  | some v => exact absurd (keyed k v h) (hk v (perm.mem_iff.2 (OrdMap.mem_valueList.2 ⟨k, h⟩)))

theorem Keyed.collectUnique_of_perm [DecidableEq κ] {m : OrdMap κ ν} (keyed : Keyed key m)
    {values : List ν} (perm : values.Perm m.valueList) (e : ε) :
    collectUnique key e values = .ok m :=
  keyed.foldlM_collect_of_perm perm fun _ => e

/-- The values of `after` that `before` does not hold under the same key, in key order. -/
def changed [DecidableEq ν] (before after : OrdMap κ ν) : List ν :=
  after.toList.filterMap fun kv => if before[kv.1]? ≠ some kv.2 then some kv.2 else none

theorem mem_changed [DecidableEq ν] {before after : OrdMap κ ν} {v : ν} :
    v ∈ changed before after ↔ ∃ k : κ, after[k]? = some v ∧ before[k]? ≠ some v := by
  simp only [changed, List.mem_filterMap, Prod.exists, ExtTreeMap.mem_toList_iff_getElem?_eq_some,
    Option.ite_none_right_eq_some, Option.some.injEq]
  exact ⟨fun ⟨k, w, hw, hne, h⟩ => ⟨k, h ▸ hw, h ▸ hne⟩, fun ⟨k, hv, hne⟩ => ⟨k, v, hv, hne, rfl⟩⟩

theorem changed_self [DecidableEq ν] (m : OrdMap κ ν) : changed m m = [] := by
  apply List.eq_nil_iff_forall_not_mem.2
  intro v mem
  obtain ⟨k, found, different⟩ := mem_changed.1 mem
  exact different found

theorem overlay_changed [DecidableEq κ] [DecidableEq ν] {m m' : OrdMap κ ν} (keyed : Keyed key m')
    (kept : ∀ k : κ, m'[k]? = none → m[k]? = none) : overlay key m (changed m m') = m' := by
  apply overlay_eq
  · intro v mem
    obtain ⟨k, found, -⟩ := mem_changed.1 mem
    rwa [keyed k v found]
  · intro k other
    cases found : m'[k]? with
    | none => exact kept k found
    | some v =>
      by_contra different
      exact other v (mem_changed.2 ⟨k, found, different⟩) (keyed k v found)

end OrdMap

/-! ## Searching a list of values -/

namespace List

variable {α : Type}

/-- A search for a property that at most one element has finds exactly that element. -/
theorem find?_eq_some_iff_of_unique {l : List α} {p : α → Bool}
    (unique : ∀ a ∈ l, ∀ b ∈ l, p a = true → p b = true → a = b) {a : α} :
    l.find? p = some a ↔ a ∈ l ∧ p a = true := by
  constructor
  · exact fun h => ⟨mem_of_find?_eq_some h, find?_some h⟩
  · rintro ⟨ha, hp⟩
    obtain ⟨b, hb⟩ := Option.isSome_iff_exists.1 (find?_isSome.2 ⟨a, ha, hp⟩)
    rw [hb, unique a ha b (mem_of_find?_eq_some hb) hp (find?_some hb)]

/-- The last of the greatest elements of a list. -/
def maxBy (cmp : α → α → Ordering) (l : List α) : Option α :=
  l.foldl (fun best a =>
    match best with
    | none => some a
    | some b => if cmp b a = .gt then some b else some a) none

theorem maxBy_append_singleton (cmp : α → α → Ordering) (l : List α) (a : α) :
    (l ++ [a]).maxBy cmp =
      match l.maxBy cmp with
      | none => some a
      | some b => if cmp b a = .gt then some b else some a := by
  rw [maxBy, foldl_append]
  rfl

theorem maxBy_eq_none_iff {cmp : α → α → Ordering} {l : List α} : l.maxBy cmp = none ↔ l = [] := by
  induction l using List.reverseRecOn with
  | nil => simp [maxBy]
  | append_singleton l a ih =>
    rw [maxBy_append_singleton]
    cases l.maxBy cmp with
    | none => simp
    | some b => by_cases h : cmp b a = .gt <;> simp [h]

/-- The element `maxBy` selects is in the list and no element is above it. -/
theorem maxBy_spec {cmp : α → α → Ordering} [Std.TransCmp cmp] {l : List α} {m : α}
    (h : l.maxBy cmp = some m) : m ∈ l ∧ ∀ a ∈ l, (cmp a m).isLE = true := by
  induction l using List.reverseRecOn generalizing m with
  | nil => simp [maxBy] at h
  | append_singleton l a ih =>
    rw [maxBy_append_singleton] at h
    have self : (cmp a a).isLE = true := Std.ReflCmp.isLE_rfl
    cases best : l.maxBy cmp with
    | none =>
      rw [best] at h
      cases maxBy_eq_none_iff.1 best
      cases h
      simpa using self
    | some b =>
      rw [best] at h
      dsimp only at h
      obtain ⟨hb, above⟩ := ih best
      split_ifs at h with gt
      · cases h
        refine ⟨mem_append_left _ hb, fun c hc => ?_⟩
        rcases mem_append.1 hc with hc | hc
        · exact above c hc
        · rw [mem_singleton.1 hc]
          rw [Std.OrientedCmp.lt_of_gt gt]
          rfl
      · cases h
        refine ⟨by simp, fun c hc => ?_⟩
        rcases mem_append.1 hc with hc | hc
        · refine Std.TransCmp.isLE_trans (above c hc) ?_
          rwa [← Ordering.ne_gt_iff_isLE]
        · rw [mem_singleton.1 hc]
          exact self

end List
