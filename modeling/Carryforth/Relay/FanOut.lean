import Carryforth.Relay.Subscription

/-!
# Indexed fan-out

What the registry is for is a table of subscriptions: registration writes an entry and removal
clears some.  The registry refines this table (`run_refines`), and its indexes list each entry under
exactly the keys of its filters.  A matching event has one of these keys, so the fan-out through the
indexes is the scan of the table (`run_fanOutScoped`).
-/

namespace Carryforth

namespace Relay

open Nostr Grouping Postings Std

/-! ## Keys and matching events -/

section Keys

variable {filters : List Filter} {f : Filter} {event : StoredEvent} {communityId : CommunityId}

theorem mem_addKinds {acc out : List Nat} (added : addKinds acc f = some out) (kind : Nat) :
    kind ∈ out ↔ kind ∈ acc ∨ ∃ own, f.kinds = some own ∧ kind ∈ own := by
  obtain ⟨own, has, same⟩ := Option.bind_eq_some_iff.1 added
  cases same
  have all := mem_foldl_pushUnique (ExtTreeSet.toList own) id acc kind
  simpa [has] using all

theorem mem_extractKindsFromFilters {kinds : List Nat}
    (extracted : extractKindsFromFilters filters = some kinds) (mem : f ∈ filters)
    (matched : filterMatchOne f event = true) : event.event.kind ∈ kinds := by
  refine (mem_foldlM addKinds (fun _ _ _ => mem_addKinds) extracted _).2 (.inr ⟨f, mem, ?_⟩)
  obtain ⟨before, after, added⟩ := exists_of_foldlM extracted mem
  obtain ⟨own, has, -⟩ := Option.bind_eq_some_iff.1 added
  exact ⟨own, has, kind_of_filterMatchOne matched has⟩

/-- The keys one filter contributes to the index of kinds and recipients. -/
def AddsPKind (communityId : CommunityId) (f : Filter) (key : GlobalPKindIndexKey) : Prop :=
  key.communityId = communityId ∧ ∃ kinds pValues, f.kinds = some kinds ∧
    f.genericTags[pTag]? = some pValues ∧ key.kind ∈ kinds ∧ key.p ∈ pValues

theorem mem_addGlobalPKindIndexKeys {acc out : List GlobalPKindIndexKey}
    (added : addGlobalPKindIndexKeys communityId acc f = some out) (key : GlobalPKindIndexKey) :
    key ∈ out ↔ key ∈ acc ∨ AddsPKind communityId f key := by
  obtain ⟨kinds, has, added⟩ := Option.bind_eq_some_iff.1 added
  split_ifs at added with none
  · cases added
    simp [AddsPKind, has, ExtTreeSet.isEmpty_iff.1 none]
  · obtain ⟨pValues, tagged, added⟩ := Option.bind_eq_some_iff.1 added
    split_ifs at added with free
    cases added
    rw [mem_foldl fun acc kind k => mem_foldl_pushUnique (ExtTreeSet.toList pValues)
      (GlobalPKindIndexKey.mk communityId kind) acc k]
    refine or_congr_right ⟨?_, ?_⟩
    · rintro ⟨kind, memKind, p, memP, rfl⟩
      exact ⟨rfl, kinds, pValues, has, tagged, ExtTreeSet.mem_toList.1 memKind,
        ExtTreeSet.mem_toList.1 memP⟩
    · rintro ⟨rfl, own, values, hasOwn, hasValues, memKind, memP⟩
      rw [has] at hasOwn
      rw [tagged] at hasValues
      cases hasOwn
      cases hasValues
      exact ⟨key.kind, ExtTreeSet.mem_toList.2 memKind, key.p, ExtTreeSet.mem_toList.2 memP, rfl⟩

theorem mem_eventPTagValues {p : String} :
    p ∈ eventPTagValues event ↔ ∃ tag ∈ event.event.tags, tag.kind = "p" ∧ tag.content = some p := by
  have each : ∀ (acc : List String) (tag : Tag) (p : String), p ∈ addPTagValue acc tag ↔
      p ∈ acc ∨ (tag.kind = "p" ∧ tag.content = some p) := by
    intro acc tag p
    unfold addPTagValue
    by_cases named : tag.kind = "p"
    · cases has : tag.content with
      | none => simp [named]
      | some value => simp [named, eq_comm]
    · simp [named]
  rw [eventPTagValues, mem_foldl each]
  simp

theorem exists_p_of_filterMatchOne (matched : filterMatchOne f event = true)
    {pValues : OrdSet String} (tagged : f.genericTags[pTag]? = some pValues) :
    ∃ p ∈ eventPTagValues event, p ∈ pValues := by
  have selected := hasTagValue_of_tagMatches (tag_of_filterMatchOne matched tagged) (by decide)
  obtain ⟨value, mem, has⟩ := List.any_eq_true.1 selected
  obtain ⟨content, listed, is⟩ := List.any_eq_true.1 has
  obtain ⟨tag, named, found⟩ := List.mem_filterMap.1 listed
  obtain ⟨tagged, name⟩ := List.mem_filter.1 named
  obtain rfl := of_decide_eq_true is
  exact ⟨content, mem_eventPTagValues.2 ⟨tag, tagged, of_decide_eq_true name, found⟩,
    ExtTreeSet.mem_toList.1 mem⟩

theorem exists_mem_extractGlobalPKindIndexKeys {keys : List GlobalPKindIndexKey}
    (extracted : extractGlobalPKindIndexKeys communityId filters = some keys) (mem : f ∈ filters)
    (matched : filterMatchOne f event = true) :
    ∃ p ∈ eventPTagValues event, ⟨communityId, event.event.kind, p⟩ ∈ keys := by
  obtain ⟨before, after, added⟩ := exists_of_foldlM extracted mem
  obtain ⟨kinds, has, added⟩ := Option.bind_eq_some_iff.1 added
  have kind := kind_of_filterMatchOne matched has
  split_ifs at added with none
  · rw [ExtTreeSet.isEmpty_iff.1 none] at kind
    exact absurd kind ExtTreeSet.not_mem_empty
  · obtain ⟨pValues, tagged, -⟩ := Option.bind_eq_some_iff.1 added
    obtain ⟨p, tag, value⟩ := exists_p_of_filterMatchOne matched tagged
    refine ⟨p, tag, (mem_foldlM (addGlobalPKindIndexKeys communityId)
    (fun _ _ _ => mem_addGlobalPKindIndexKeys) extracted _).2 ?_⟩
    exact .inr ⟨f, mem, rfl, kinds, pValues, has, tagged, kind, value⟩

theorem communityId_of_mem_extract {keys : List GlobalPKindIndexKey}
    (extracted : extractGlobalPKindIndexKeys communityId filters = some keys)
    {key : GlobalPKindIndexKey} (mem : key ∈ keys) : key.communityId = communityId := by
  rcases (mem_foldlM (addGlobalPKindIndexKeys communityId)
    (fun _ _ _ => mem_addGlobalPKindIndexKeys) extracted key).1 mem with
    none | ⟨f, -, own, -⟩
  · cases none
  · exact own

end Keys

/-! ## The keys of an entry -/

namespace SubEntry

variable (e : SubEntry)

def channelKindKeys : List (CommunityId × IndexKey) :=
  match e.channelId, extractKindsFromFilters e.filters with
  | some channelId, some kinds => kinds.map fun kind => (e.communityId, ⟨channelId, kind⟩)
  | _, _ => []

def channelWildcardKeys : List (CommunityId × Uuid) :=
  match e.channelId, extractKindsFromFilters e.filters with
  | some channelId, none => [(e.communityId, channelId)]
  | _, _ => []

def globalPKindKeys : List GlobalPKindIndexKey :=
  match e.channelId, extractGlobalPKindIndexKeys e.communityId e.filters with
  | none, some keys => keys
  | _, _ => []

def globalKindKeys : List (CommunityId × Nat) :=
  match e.channelId, extractGlobalPKindIndexKeys e.communityId e.filters,
    extractKindsFromFilters e.filters with
  | none, none, some kinds => kinds.map fun kind => (e.communityId, kind)
  | _, _, _ => []

def globalWildcardKeys : List CommunityId :=
  match e.channelId, extractGlobalPKindIndexKeys e.communityId e.filters,
    extractKindsFromFilters e.filters with
  | none, none, none => [e.communityId]
  | _, _, _ => []

variable {e} {event : StoredEvent} {c : CommunityId}

theorem scope_of_mem_channelKindKeys {key : CommunityId × IndexKey}
    (mem : key ∈ e.channelKindKeys) :
    e.communityId = key.1 ∧ e.channelId = some key.2.channelId := by
  unfold channelKindKeys at mem
  split at mem
  · rename_i channelId kinds scope _
    obtain ⟨kind, -, rfl⟩ := List.mem_map.1 mem
    exact ⟨rfl, scope⟩
  · cases mem

theorem scope_of_mem_channelWildcardKeys {key : CommunityId × Uuid}
    (mem : key ∈ e.channelWildcardKeys) : e.communityId = key.1 ∧ e.channelId = some key.2 := by
  unfold channelWildcardKeys at mem
  split at mem
  · rename_i channelId scope _
    cases List.mem_singleton.1 mem
    exact ⟨rfl, scope⟩
  · cases mem

theorem scope_of_mem_globalPKindKeys {key : GlobalPKindIndexKey} (mem : key ∈ e.globalPKindKeys) :
    e.communityId = key.communityId ∧ e.channelId = none := by
  unfold globalPKindKeys at mem
  split at mem
  · rename_i keys scope extracted
    exact ⟨(communityId_of_mem_extract extracted mem).symm, scope⟩
  · cases mem

theorem scope_of_mem_globalKindKeys {key : CommunityId × Nat} (mem : key ∈ e.globalKindKeys) :
    e.communityId = key.1 ∧ e.channelId = none := by
  unfold globalKindKeys at mem
  split at mem
  · rename_i kinds scope _ _
    obtain ⟨kind, -, rfl⟩ := List.mem_map.1 mem
    exact ⟨rfl, scope⟩
  · cases mem

theorem scope_of_mem_globalWildcardKeys {key : CommunityId} (mem : key ∈ e.globalWildcardKeys) :
    e.communityId = key ∧ e.channelId = none := by
  unfold globalWildcardKeys at mem
  split at mem
  · rename_i scope _ _
    exact ⟨(List.mem_singleton.1 mem).symm, scope⟩
  · cases mem

/-- A matching event of the entry's channel has a key of the entry. -/
theorem covered_of_channel (selected : subscriptionMatches e.filters event = true)
    {channelId : Uuid} (scope : e.channelId = some channelId) :
    (e.communityId, ⟨channelId, event.event.kind⟩) ∈ e.channelKindKeys ∨
      (e.communityId, channelId) ∈ e.channelWildcardKeys := by
  obtain ⟨f, mem, matched⟩ := exists_of_subscriptionMatches selected
  unfold channelKindKeys channelWildcardKeys
  rw [scope]
  cases extracted : extractKindsFromFilters e.filters with
  | none => exact .inr List.mem_cons_self
  | some kinds =>
    exact .inl (List.mem_map.2 ⟨_, mem_extractKindsFromFilters extracted mem matched, rfl⟩)

theorem covered_of_global (selected : subscriptionMatches e.filters event = true)
    (scope : e.channelId = none) :
    (∃ p ∈ eventPTagValues event, ⟨e.communityId, event.event.kind, p⟩ ∈ e.globalPKindKeys) ∨
      (e.communityId, event.event.kind) ∈ e.globalKindKeys ∨
      e.communityId ∈ e.globalWildcardKeys := by
  obtain ⟨f, mem, matched⟩ := exists_of_subscriptionMatches selected
  unfold globalPKindKeys globalKindKeys globalWildcardKeys
  rw [scope]
  cases extracted : extractGlobalPKindIndexKeys e.communityId e.filters with
  | some keys => exact .inl (exists_mem_extractGlobalPKindIndexKeys extracted mem matched)
  | none =>
    cases all : extractKindsFromFilters e.filters with
    | none => exact .inr (.inr List.mem_cons_self)
    | some kinds =>
      refine .inr (.inl (List.mem_map.2 ⟨_, mem_extractKindsFromFilters all mem matched, rfl⟩))

end SubEntry

/-! ## The table of subscriptions -/

/-- What the registry is for: the entry of each subscription. -/
abbrev Table := ConnId × SubId → Option SubEntry

namespace Table

def empty : Table := fun _ => none

def clear (t : Table) (p : ConnId × SubId → Prop) [DecidablePred p] : Table :=
  fun sub => if p sub then none else t sub

def step (t : Table) : SubscriptionRegistry.Action → Table
  | .registerScoped communityId connId subId filters channelId =>
    Function.update t (connId, subId) (some ⟨filters, communityId, channelId⟩)
  | .removeSubscription connId subId => t.clear (· = (connId, subId))
  | .removeConnection connId => t.clear (·.1 = connId)
  | .removeChannelSubscriptionsScoped communityId connId channelId =>
    t.clear fun sub => sub.1 = connId ∧
      (t sub).any fun e => e.communityId = communityId ∧ e.channelId = some channelId

section Clear

variable {t : Table} {p q both : ConnId × SubId → Prop} [DecidablePred p] [DecidablePred q]
  [DecidablePred both]

theorem clear_congr (same : ∀ sub e, t sub = some e → (p sub ↔ q sub)) : t.clear p = t.clear q := by
  funext sub
  unfold clear
  cases found : t sub with
  | none => simp
  | some e => simp [same sub e found]

theorem clear_eq_self (free : ∀ sub, p sub → t sub = none) : t.clear p = t := by
  funext sub
  unfold clear
  split_ifs with here
  · exact (free sub here).symm
  · rfl

theorem clear_clear (either : ∀ sub, both sub ↔ p sub ∨ q sub) :
    (t.clear p).clear q = t.clear both := by
  funext sub
  unfold clear
  by_cases first : p sub
  · simp [either, first]
  · simp [either, first]

end Clear

def keys {κ : Type} (t : Table) (keysOf : SubEntry → List κ) (sub : ConnId × SubId) : List κ :=
  ((t sub).map keysOf).getD []

variable {κ : Type} {t : Table} {sub : ConnId × SubId} {keysOf : SubEntry → List κ}

theorem mem_keys {k : κ} : k ∈ t.keys keysOf sub ↔ ∃ e, t sub = some e ∧ k ∈ keysOf e := by
  unfold keys
  cases t sub with
  | none => simp
  | some e => simp

theorem keys_update (e : SubEntry) :
    keys (Function.update t sub (some e)) keysOf = Function.update (t.keys keysOf) sub (keysOf e) := by
  funext other
  by_cases same : other = sub
  · subst same
    simp [keys]
  · simp [keys, same]

theorem keys_clear :
    keys (t.clear (· = sub)) keysOf = Function.update (t.keys keysOf) sub [] := by
  funext other
  by_cases same : other = sub
  · subst same
    simp [keys, clear]
  · simp [keys, clear, same]

end Table

namespace SubscriptionRegistry

variable {r : SubscriptionRegistry} {t : Table} {sub : ConnId × SubId} {e : SubEntry}

/-- Each index lists the entries of a table under their keys. -/
structure IndexedBy (r : SubscriptionRegistry) (t : Table) : Prop where
  channelKind : Exact r.channelKindIndex (t.keys SubEntry.channelKindKeys)
  channelWildcard : Exact r.channelWildcardIndex (t.keys SubEntry.channelWildcardKeys)
  globalKind : Exact r.globalKindIndex (t.keys SubEntry.globalKindKeys)
  globalPKind : Exact r.globalPKindIndex (t.keys SubEntry.globalPKindKeys)
  globalWildcard : Exact r.globalWildcardIndex (t.keys SubEntry.globalWildcardKeys)

/-- A subscription is posted under the keys of its entry, whichever index they belong to. -/
theorem addToIndex_eq : r.addToIndex sub e =
    { r with
      channelKindIndex := post r.channelKindIndex e.channelKindKeys sub
      channelWildcardIndex := post r.channelWildcardIndex e.channelWildcardKeys sub
      globalKindIndex := post r.globalKindIndex e.globalKindKeys sub
      globalPKindIndex := post r.globalPKindIndex e.globalPKindKeys sub
      globalWildcardIndex := post r.globalWildcardIndex e.globalWildcardKeys sub } := by
  unfold addToIndex SubEntry.channelKindKeys SubEntry.channelWildcardKeys SubEntry.globalKindKeys
    SubEntry.globalPKindKeys SubEntry.globalWildcardKeys post
  cases e.channelId with
  | some channelId =>
    cases extractKindsFromFilters e.filters with
    | none => rfl
    | some kinds =>
      cases kinds with
      | nil => rfl
      | cons kind kinds => simp [List.foldl_map]
  | none =>
    cases extractGlobalPKindIndexKeys e.communityId e.filters with
    | some keys => rfl
    | none =>
      cases extractKindsFromFilters e.filters with
      | none => rfl
      | some kinds =>
        cases kinds with
        | nil => rfl
        | cons kind kinds => simp [List.foldl_map]

/-- A subscription is retracted from the keys it was posted under. -/
theorem removeFromIndex_eq : r.removeFromIndex sub e =
    { r with
      channelKindIndex := retract r.channelKindIndex e.channelKindKeys sub
      channelWildcardIndex := retract r.channelWildcardIndex e.channelWildcardKeys sub
      globalKindIndex := retract r.globalKindIndex e.globalKindKeys sub
      globalPKindIndex := retract r.globalPKindIndex e.globalPKindKeys sub
      globalWildcardIndex := retract r.globalWildcardIndex e.globalWildcardKeys sub } := by
  unfold removeFromIndex SubEntry.channelKindKeys SubEntry.channelWildcardKeys
    SubEntry.globalKindKeys SubEntry.globalPKindKeys SubEntry.globalWildcardKeys retract
  cases e.channelId with
  | some channelId =>
    cases extractKindsFromFilters e.filters with
    | none => rfl
    | some kinds =>
      cases kinds with
      | nil => rfl
      | cons kind kinds => simp [List.foldl_map]
  | none =>
    cases extractGlobalPKindIndexKeys e.communityId e.filters with
    | some keys => rfl
    | none =>
      cases extractKindsFromFilters e.filters with
      | none => rfl
      | some kinds =>
        cases kinds with
        | nil => rfl
        | cons kind kinds => simp [List.foldl_map]

@[simp] theorem stored_addToIndex : (r.addToIndex sub e).stored = r.stored := by
  rw [addToIndex_eq]
  rfl

@[simp] theorem subs_removeFromIndex : (r.removeFromIndex sub e).subs = r.subs := by
  rw [removeFromIndex_eq]

/-- The indexes do not depend on the stored entries. -/
theorem IndexedBy.withSubs (indexed : r.IndexedBy t) (subs : OrdMap ConnId (OrdMap SubId SubEntry)) :
    { r with subs := subs }.IndexedBy t :=
  ⟨indexed.channelKind, indexed.channelWildcard, indexed.globalKind, indexed.globalPKind,
    indexed.globalWildcard⟩

theorem IndexedBy.addToIndex (indexed : r.IndexedBy t) (free : t sub = none) (e : SubEntry) :
    (r.addToIndex sub e).IndexedBy (Function.update t sub (some e)) := by
  have none : ∀ {κ : Type} (keysOf : SubEntry → List κ), t.keys keysOf sub = [] := by
    intro κ keysOf
    rw [Table.keys, free]
    rfl
  rw [addToIndex_eq]
  constructor
  · rw [Table.keys_update]
    exact indexed.channelKind.post (none _)
  · rw [Table.keys_update]
    exact indexed.channelWildcard.post (none _)
  · rw [Table.keys_update]
    exact indexed.globalKind.post (none _)
  · rw [Table.keys_update]
    exact indexed.globalPKind.post (none _)
  · rw [Table.keys_update]
    exact indexed.globalWildcard.post (none _)

theorem IndexedBy.removeFromIndex (indexed : r.IndexedBy t) (own : ∀ old ∈ t sub, old = e) :
    (r.removeFromIndex sub e).IndexedBy (t.clear (· = sub)) := by
  have all : ∀ {κ : Type} (keysOf : SubEntry → List κ), t.keys keysOf sub ⊆ keysOf e := by
    intro κ keysOf k mem
    obtain ⟨old, found, key⟩ := Table.mem_keys.1 mem
    exact own old found ▸ key
  rw [removeFromIndex_eq]
  constructor
  · rw [Table.keys_clear]
    exact indexed.channelKind.retract (all _)
  · rw [Table.keys_clear]
    exact indexed.channelWildcard.retract (all _)
  · rw [Table.keys_clear]
    exact indexed.globalKind.retract (all _)
  · rw [Table.keys_clear]
    exact indexed.globalPKind.retract (all _)
  · rw [Table.keys_clear]
    exact indexed.globalWildcard.retract (all _)

/-! ## The registry refines the table -/

/-- The registry stores and indexes the entries of a table. -/
structure Refines (r : SubscriptionRegistry) (t : Table) : Prop where
  stored : r.stored = t
  indexed : r.IndexedBy t

theorem new_refines : new.Refines Table.empty where
  stored := by
    funext sub
    simp [SubscriptionRegistry.stored, new, Table.empty]
  indexed := ⟨exact_empty, exact_empty, exact_empty, exact_empty, exact_empty⟩

theorem stored_eq (r : SubscriptionRegistry) (connId : ConnId) (subId : SubId) :
    r.stored (connId, subId) = r.subs[connId]?.bind fun connSubs => connSubs[subId]? := rfl

theorem stored_insert (r : SubscriptionRegistry) (connId : ConnId) (entries : OrdMap SubId SubEntry)
    (sub : ConnId × SubId) :
    stored { r with subs := r.subs.insert connId entries } sub =
      if sub.1 = connId then entries[sub.2]? else r.stored sub := by
  unfold stored
  rw [OrdMap.get_insert]
  split_ifs
  · rfl
  · rfl

theorem Refines.removeSubscription (refines : r.Refines t) (connId : ConnId) (subId : SubId) :
    (r.removeSubscription connId subId).1.Refines (t.clear (· = (connId, subId))) := by
  unfold SubscriptionRegistry.removeSubscription
  have found : t (connId, subId) = r.stored (connId, subId) := by rw [refines.stored]
  rw [stored_eq] at found
  cases conn : r.subs[connId]? with
  | none =>
    rw [conn] at found
    rwa [Table.clear_eq_self fun sub here => here ▸ found]
  | some connSubs =>
    rw [conn, Option.bind_some] at found
    cases entry : connSubs[subId]? with
    | none =>
      rw [entry] at found
      simp only [entry]
      rwa [Table.clear_eq_self fun sub here => here ▸ found]
    | some e =>
      simp only [entry]
      refine ⟨?_, (refines.indexed.withSubs _).removeFromIndex fun old is => ?_⟩
      · funext sub
        obtain ⟨c, s⟩ := sub
        have before : t (c, s) = r.stored (c, s) := by rw [refines.stored]
        rw [stored_eq, subs_removeFromIndex, Table.clear, before]
        refine (stored_insert r connId _ (c, s)).trans ?_
        rw [OrdMap.get_erase, stored_eq]
        by_cases sameConn : c = connId
        · subst sameConn
          simp [conn]
        · simp [sameConn]
      · rw [found, entry] at is
        exact (Option.some.inj is).symm

theorem Refines.registerScoped (refines : r.Refines t) (communityId : CommunityId)
    (connId : ConnId) (subId : SubId) (filters : List Filter) (channelId : Option Uuid) :
    (r.registerScoped communityId connId subId filters channelId).1.Refines
      (Function.update t (connId, subId) (some ⟨filters, communityId, channelId⟩)) := by
  unfold SubscriptionRegistry.registerScoped
  have removed := refines.removeSubscription connId subId
  generalize r.removeSubscription connId subId = state at removed ⊢
  obtain ⟨r', scope⟩ := state
  dsimp only at removed ⊢
  have free : t.clear (· = (connId, subId)) (connId, subId) = none := if_pos rfl
  have same : Function.update t (connId, subId) (some ⟨filters, communityId, channelId⟩) =
      Function.update (t.clear (· = (connId, subId))) (connId, subId)
        (some ⟨filters, communityId, channelId⟩) := by
    funext sub
    by_cases here : sub = (connId, subId)
    · simp [here]
    · simp [here, Table.clear]
  rw [same]
  refine ⟨?_, (removed.indexed.withSubs _).addToIndex free _⟩
  rw [stored_addToIndex]
  funext sub
  rw [stored_insert, OrdMap.get_insert, ← removed.stored]
  obtain ⟨c, s⟩ := sub
  by_cases sameConn : c = connId
  · subst sameConn
    by_cases sameSub : s = subId
    · simp [sameSub]
    · cases conn : r'.subs[c]? with
      | none => simp [sameSub, stored_eq, conn]
      | some connSubs => simp [sameSub, stored_eq, conn]
  · simp [sameConn]

/-- Retracting the subscriptions of a connection one after another clears their entries. -/
theorem IndexedBy.foldl_removeFromIndex {connId : ConnId} {entries : List (SubId × SubEntry)}
    {removed : List RemovedSubscription} (indexed : r.IndexedBy t)
    (own : ∀ entry ∈ entries, ∀ old ∈ t (connId, entry.1), old = entry.2) :
    (entries.foldl (fun state entry =>
        (state.1.removeFromIndex (connId, entry.1) entry.2,
          state.2 ++ [⟨entry.2.communityId, entry.2.channelId⟩])) (r, removed)).1.IndexedBy
      (t.clear fun sub => sub.1 = connId ∧ sub.2 ∈ entries.map Prod.fst) := by
  induction entries generalizing r t removed with
  | nil =>
    rw [Table.clear_eq_self fun sub here => nomatch here.2]
    exact indexed
  | cons entry entries ih =>
    have step := indexed.removeFromIndex (own entry List.mem_cons_self)
    have others : ∀ next ∈ entries, ∀ old ∈ t.clear (· = (connId, entry.1)) (connId, next.1),
        old = next.2 := by
      intro next mem old is
      unfold Table.clear at is
      split_ifs at is
      · cases is
      · exact own next (List.mem_cons_of_mem _ mem) old is
    have rest := @ih _ _ (removed ++ [⟨entry.2.communityId, entry.2.channelId⟩]) step others
    have both : (t.clear (· = (connId, entry.1))).clear
          (fun sub => sub.1 = connId ∧ sub.2 ∈ entries.map Prod.fst) =
        t.clear fun sub => sub.1 = connId ∧ sub.2 ∈ (entry :: entries).map Prod.fst := by
      refine Table.clear_clear fun sub => ?_
      rw [Prod.ext_iff, List.map_cons, List.mem_cons]
      tauto
    rwa [both] at rest

theorem subs_foldl_removeFromIndex {connId : ConnId} (entries : List (SubId × SubEntry))
    (r : SubscriptionRegistry) (removed : List RemovedSubscription) :
    (entries.foldl (fun state entry =>
        (state.1.removeFromIndex (connId, entry.1) entry.2,
          state.2 ++ [⟨entry.2.communityId, entry.2.channelId⟩])) (r, removed)).1.subs =
      r.subs := by
  induction entries generalizing r removed with
  | nil => rfl
  | cons entry entries ih => rw [List.foldl_cons, ih, subs_removeFromIndex]

theorem Refines.removeConnection (refines : r.Refines t) (connId : ConnId) :
    (r.removeConnection connId).1.Refines (t.clear (·.1 = connId)) := by
  unfold SubscriptionRegistry.removeConnection
  have lookup : ∀ c s, t (c, s) = r.subs[c]?.bind fun connSubs => connSubs[s]? := by
    intro c s
    rw [← refines.stored, stored_eq]
  cases conn : r.subs[connId]? with
  | none =>
    rwa [Table.clear_eq_self]
    rintro ⟨c, s⟩ rfl
    rw [lookup, conn]
    rfl
  | some connSubs =>
    dsimp only
    have entries : ∀ subId, t (connId, subId) = connSubs[subId]? := by
      intro subId
      rw [lookup, conn]
      rfl
    refine ⟨?_, ?_⟩
    · funext sub
      obtain ⟨c, s⟩ := sub
      rw [stored_eq, subs_foldl_removeFromIndex, OrdMap.get_erase, Table.clear, lookup]
      split_ifs
      · rfl
      · rfl
    · have cleared := @IndexedBy.foldl_removeFromIndex _ _ connId connSubs.toList []
        (refines.indexed.withSubs (r.subs.erase connId)) (by
          intro entry mem old is
          rw [entries, ExtTreeMap.mem_toList_iff_getElem?_eq_some.1 mem] at is
          exact (Option.some.inj is).symm)
      refine cast (congrArg _ (Table.clear_congr ?_)) cleared
      rintro ⟨c, s⟩ e found
      refine ⟨And.left, fun own => ⟨own, List.mem_map.2 ⟨(s, e), ?_, rfl⟩⟩⟩
      cases own
      rw [entries] at found
      exact ExtTreeMap.mem_toList_iff_getElem?_eq_some.2 found

/-- Removing listed subscriptions of a connection one after another clears their entries. -/
theorem Refines.foldl_removeSubscription {connId : ConnId} {subIds : List SubId}
    {removed : List (SubId × RemovedSubscription)} (refines : r.Refines t) :
    (subIds.foldl (fun state subId =>
      match state.1.removeSubscription connId subId with
      | (r, some scope) => (r, state.2 ++ [(subId, scope)])
      | (r, none) => (r, state.2)) (r, removed)).1.Refines
      (t.clear fun sub => sub.1 = connId ∧ sub.2 ∈ subIds) := by
  induction subIds generalizing r t removed with
  | nil =>
    rw [Table.clear_eq_self fun sub here => nomatch here.2]
    exact refines
  | cons subId subIds ih =>
    have step := refines.removeSubscription connId subId
    have both : (t.clear (· = (connId, subId))).clear
          (fun sub => sub.1 = connId ∧ sub.2 ∈ subIds) =
        t.clear fun sub => sub.1 = connId ∧ sub.2 ∈ subId :: subIds := by
      refine Table.clear_clear fun sub => ?_
      rw [Prod.ext_iff, List.mem_cons]
      tauto
    rw [List.foldl_cons, ← both]
    generalize r.removeSubscription connId subId = state at step ⊢
    obtain ⟨r', _ | scope⟩ := state
    · exact ih step
    · exact ih step

theorem Refines.removeChannelSubscriptionsScoped (refines : r.Refines t)
    (communityId : CommunityId) (connId : ConnId) (channelId : Uuid) :
    (r.removeChannelSubscriptionsScoped communityId connId channelId).1.Refines
      (t.clear fun sub => sub.1 = connId ∧
        (t sub).any fun e => e.communityId = communityId ∧ e.channelId = some channelId) := by
  unfold SubscriptionRegistry.removeChannelSubscriptionsScoped
  refine cast (congrArg _ (Table.clear_congr ?_)) refines.foldl_removeSubscription
  rintro ⟨c, s⟩ e found
  refine and_congr_right ?_
  rintro rfl
  have here : r.subs[c]?.bind (fun connSubs => connSubs[s]?) = some e := by
    rw [← stored_eq, refines.stored, found]
  obtain ⟨connSubs, conn, entry⟩ := Option.bind_eq_some_iff.1 here
  rw [conn, found]
  simp only [List.mem_filterMap, Option.any_some, Prod.exists, decide_eq_true_eq,
    ExtTreeMap.mem_toList_iff_getElem?_eq_some, Option.ite_none_right_eq_some, Option.some.injEq]
  constructor
  · rintro ⟨_, other, there, scope, rfl⟩
    rw [entry] at there
    cases there
    exact scope
  · exact fun scope => ⟨s, e, entry, scope, rfl⟩

theorem Refines.step (refines : r.Refines t) (action : Action) :
    (r.step action).Refines (t.step action) := by
  cases action with
  | registerScoped communityId connId subId filters channelId =>
    exact refines.registerScoped communityId connId subId filters channelId
  | removeSubscription connId subId => exact refines.removeSubscription connId subId
  | removeConnection connId => exact refines.removeConnection connId
  | removeChannelSubscriptionsScoped communityId connId channelId =>
    exact refines.removeChannelSubscriptionsScoped communityId connId channelId

/-- In every run the registry stores and indexes the entries of the table. -/
theorem run_refines (actions : List Action) :
    (run actions).Refines (Steps.run Table.step Table.empty actions) := by
  have both : ∀ (actions : List Action) (r : SubscriptionRegistry) (t : Table), r.Refines t →
      (Steps.run SubscriptionRegistry.step r actions).Refines (Steps.run Table.step t actions) := by
    intro actions
    induction actions with
    | nil => exact fun r t refines => refines
    | cons action actions ih => exact fun r t refines => ih _ _ (refines.step action)
  exact both actions new Table.empty new_refines

/-! ## Fan-out is a scan -/

def Selects (r : SubscriptionRegistry) (event : StoredEvent) (sub : ConnId × SubId) : Prop :=
  ∃ e, r.stored sub = some e ∧ subscriptionMatches e.filters event = true

variable {event : StoredEvent} {results : List (ConnId × SubId)}

theorem mem_pushMatch {other : ConnId × SubId} : other ∈ r.pushMatch event results sub ↔
    other ∈ results ∨ (other = sub ∧ r.Selects event sub) := by
  unfold pushMatch Selects
  cases found : r.stored sub with
  | none => simp
  | some e =>
    by_cases selected : subscriptionMatches e.filters event = true
    · simp [selected]
    · simp [selected]

theorem mem_foldl_pushMatch {candidates : List (ConnId × SubId)} {other : ConnId × SubId} :
    other ∈ candidates.foldl (r.pushMatch event) results ↔
      other ∈ results ∨ (other ∈ candidates ∧ r.Selects event other) := by
  have each : ∀ results sub other, other ∈ r.pushMatch event results sub ↔
      other ∈ results ∨ (other = sub ∧ r.Selects event sub) := fun _ _ _ => mem_pushMatch
  rw [mem_foldl each]
  refine or_congr_right ⟨?_, ?_⟩
  · rintro ⟨a, mem, rfl, selects⟩
    exact ⟨mem, selects⟩
  · rintro ⟨mem, selects⟩
    exact ⟨other, mem, rfl, selects⟩

theorem nodup_foldl_pushMatch (candidates : List (ConnId × SubId)) (nodup : results.Nodup) :
    (candidates.foldl (r.pushMatch event) results).Nodup := by
  refine nodup_foldl (fun results sub nodup => ?_) candidates nodup
  unfold pushMatch
  split
  · split_ifs
    · exact nodup_pushUnique nodup sub
    · exact nodup
  · exact nodup

theorem nodup_fanOutScoped (r : SubscriptionRegistry) (c : CommunityId) (event : StoredEvent) :
    (r.fanOutScoped c event).Nodup := by
  unfold fanOutScoped
  cases event.channelId with
  | some channelId =>
    exact nodup_foldl_pushMatch _ (nodup_foldl_pushMatch _ List.nodup_nil)
  | none =>
    refine nodup_foldl_pushMatch _ (nodup_foldl_pushMatch _ ?_)
    exact nodup_foldl (fun results p nodup => nodup_foldl_pushMatch _ nodup) _ List.nodup_nil

/-- Of indexed subscriptions, the fan-out takes those of the scope that select the event. -/
theorem Refines.mem_fanOutScoped (refines : r.Refines t) {c : CommunityId} :
    sub ∈ r.fanOutScoped c event ↔ ∃ e, t sub = some e ∧ e.communityId = c ∧
      e.channelId = event.channelId ∧ subscriptionMatches e.filters event = true := by
  have indexed := refines.indexed
  unfold fanOutScoped
  cases scope : event.channelId with
  | some channelId =>
    simp only [mem_foldl_pushMatch, indexed.channelKind _ _, indexed.channelWildcard _ _,
      Table.mem_keys, Selects, refines.stored, List.not_mem_nil, false_or]
    constructor
    · rintro (⟨⟨e, found, key⟩, _, same, selected⟩ | ⟨⟨e, found, key⟩, _, same, selected⟩)
      · rw [found] at same
        cases same
        obtain ⟨own, channel⟩ := SubEntry.scope_of_mem_channelKindKeys key
        exact ⟨e, found, own, channel, selected⟩
      · rw [found] at same
        cases same
        obtain ⟨own, channel⟩ := SubEntry.scope_of_mem_channelWildcardKeys key
        exact ⟨e, found, own, channel, selected⟩
    · rintro ⟨e, found, rfl, channel, selected⟩
      rcases SubEntry.covered_of_channel selected channel with key | key
      · exact .inl ⟨⟨e, found, key⟩, e, found, selected⟩
      · exact .inr ⟨⟨e, found, key⟩, e, found, selected⟩
  | none =>
    have rounds : ∀ (results : List (ConnId × SubId)) (p : String) (other : ConnId × SubId),
        other ∈ (of r.globalPKindIndex ⟨c, event.event.kind, p⟩).foldl (r.pushMatch event) results ↔
          other ∈ results ∨ (other ∈ of r.globalPKindIndex ⟨c, event.event.kind, p⟩ ∧
            r.Selects event other) := fun _ _ _ => mem_foldl_pushMatch
    simp only [mem_foldl_pushMatch, mem_foldl rounds, indexed.globalKind _ _,
      indexed.globalPKind _ _, indexed.globalWildcard _ _, Table.mem_keys, Selects, refines.stored,
      List.not_mem_nil, false_or]
    constructor
    · rintro ((⟨p, -, ⟨e, found, key⟩, _, same, selected⟩ | ⟨⟨e, found, key⟩, _, same, selected⟩) |
        ⟨⟨e, found, key⟩, _, same, selected⟩)
      · rw [found] at same
        cases same
        obtain ⟨own, global⟩ := SubEntry.scope_of_mem_globalPKindKeys key
        exact ⟨e, found, own, global, selected⟩
      · rw [found] at same
        cases same
        obtain ⟨own, global⟩ := SubEntry.scope_of_mem_globalKindKeys key
        exact ⟨e, found, own, global, selected⟩
      · rw [found] at same
        cases same
        obtain ⟨own, global⟩ := SubEntry.scope_of_mem_globalWildcardKeys key
        exact ⟨e, found, own, global, selected⟩
    · rintro ⟨e, found, rfl, global, selected⟩
      rcases SubEntry.covered_of_global selected global with ⟨p, value, key⟩ | key | key
      · exact .inl (.inl ⟨p, value, ⟨e, found, key⟩, e, found, selected⟩)
      · exact .inl (.inr ⟨⟨e, found, key⟩, e, found, selected⟩)
      · exact .inr ⟨⟨e, found, key⟩, e, found, selected⟩

/-- The subscriptions an index lists are stored, with the community and scope of their key. -/
def ListsOnly {κ : Type} [Ord κ] [TransOrd κ] (r : SubscriptionRegistry)
    (index : Groups κ (ConnId × SubId)) (scope : κ → CommunityId × Option Uuid) : Prop :=
  ∀ (key : κ) members, index[key]? = some members → ∀ sub ∈ members,
    ∃ e, r.stored sub = some e ∧ (e.communityId, e.channelId) = scope key

theorem listsOnly_of_exact {κ : Type} [Ord κ] [TransOrd κ] {index : Groups κ (ConnId × SubId)}
    {scope : κ → CommunityId × Option Uuid} {keysOf : SubEntry → List κ}
    (exact : Exact index (t.keys keysOf)) (stored : r.stored = t)
    (scopes : ∀ {e : SubEntry} {key}, key ∈ keysOf e → (e.communityId, e.channelId) = scope key) :
    r.ListsOnly index scope := by
  intro key members found sub mem
  rw [← of_eq_of_get found] at mem
  obtain ⟨e, here, own⟩ := Table.mem_keys.1 ((exact key sub).1 mem)
  exact ⟨e, stored ▸ here, scopes own⟩

/-- In every run, the fan-out of an event to a community takes each subscription of the community
and of the event's scope whose filters select it, once, and no other; and the five indexes list only
stored subscriptions of the right community and scope. -/
theorem run_fanOutScoped (actions : List Action) :
    (∀ (c : CommunityId) (event : StoredEvent),
      ((run actions).fanOutScoped c event).Nodup ∧
      ∀ sub, sub ∈ (run actions).fanOutScoped c event ↔
        ∃ e, (run actions).stored sub = some e ∧ e.communityId = c ∧
          e.channelId = event.channelId ∧ subscriptionMatches e.filters event = true) ∧
    (run actions).ListsOnly (run actions).channelKindIndex
      (fun key => (key.1, some key.2.channelId)) ∧
    (run actions).ListsOnly (run actions).channelWildcardIndex (fun key => (key.1, some key.2)) ∧
    (run actions).ListsOnly (run actions).globalKindIndex (fun key => (key.1, none)) ∧
    (run actions).ListsOnly (run actions).globalPKindIndex (fun key => (key.communityId, none)) ∧
    (run actions).ListsOnly (run actions).globalWildcardIndex (fun key => (key, none)) := by
  have refines := run_refines actions
  have stored := refines.stored
  have indexed := refines.indexed
  refine ⟨fun c event => ⟨nodup_fanOutScoped _ c event, fun sub => ?_⟩, ?_, ?_, ?_, ?_, ?_⟩
  · rw [refines.mem_fanOutScoped, stored]
  · exact listsOnly_of_exact indexed.channelKind stored fun key =>
      Prod.ext_iff.2 (SubEntry.scope_of_mem_channelKindKeys key)
  · exact listsOnly_of_exact indexed.channelWildcard stored fun key =>
      Prod.ext_iff.2 (SubEntry.scope_of_mem_channelWildcardKeys key)
  · exact listsOnly_of_exact indexed.globalKind stored fun key =>
      Prod.ext_iff.2 (SubEntry.scope_of_mem_globalKindKeys key)
  · exact listsOnly_of_exact indexed.globalPKind stored fun key =>
      Prod.ext_iff.2 (SubEntry.scope_of_mem_globalPKindKeys key)
  · exact listsOnly_of_exact indexed.globalWildcard stored fun key =>
      Prod.ext_iff.2 (SubEntry.scope_of_mem_globalWildcardKeys key)

/-- A connection that was removed gets no event as long as it does not register again. -/
theorem run_removeConnection (before later : List Action) (connId : ConnId)
    (silent : ∀ c subId filters channelId,
      .registerScoped c connId subId filters channelId ∉ later)
    (c : CommunityId) (event : StoredEvent) (subId : SubId) :
    (connId, subId) ∉
      (run (before ++ .removeConnection connId :: later)).fanOutScoped c event := by
  have none : ∀ subId, Steps.run Table.step Table.empty (before ++ .removeConnection connId :: later)
      (connId, subId) = none := by
    rw [Steps.run_append]
    refine List.foldlRecOn later Table.step
      (motive := fun t : Table => ∀ subId, t (connId, subId) = none) (fun _ => if_pos rfl) ?_
    intro t gone action mem subId
    cases action with
    | registerScoped c other s filters channelId =>
      refine (Function.update_of_ne (fun same => ?_) ..).trans (gone subId)
      cases same
      exact silent _ _ _ _ mem
    | _ => exact (ite_eq_left_iff.2 fun _ => gone subId)
  intro mem
  obtain ⟨e, found, -⟩ := (run_refines _).mem_fanOutScoped.1 mem
  cases (none subId).symm.trans found

/-- Selects every event. -/
def everything : Filter := ⟨none, none, none, none, none, ∅⟩

/-- Another connection registers under the name of one that was removed. -/
def reused : SubscriptionRegistry :=
  run ([.registerScoped 1 2 "a" [everything] none] ++ .removeConnection 2 ::
    [.registerScoped 1 3 "a" [everything] none, .registerScoped 1 3 "b" [everything] none,
      .removeSubscription 3 "b"])

theorem run_removeConnection_everything :
    (3, "a") ∈ reused.fanOutScoped 1 ⟨⟨0, 0, 0, 0, [], "", 0⟩, none⟩ ∧
      (2, "a") ∉ reused.fanOutScoped 1 ⟨⟨0, 0, 0, 0, [], "", 0⟩, none⟩ :=
  ⟨by decide +kernel, run_removeConnection _ _ 2 (by simp) _ _ _⟩

end SubscriptionRegistry

end Relay

end Carryforth
