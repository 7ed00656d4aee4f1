import Carryforth.Relay.FanOut

/-!
# Eviction from a channel

When a channel is archived, its subscribers are looked up in the indexes and the subscriptions of
each of them are removed.  A subscription whose filters take no kind at all is stored without being
posted in any index, so the eviction reaches a connection exactly if one of its subscriptions of the
channel takes some kind (`run_evictsChannel_iff`).
-/

namespace Carryforth

namespace Relay

open Nostr Grouping Postings Std

/-! ## Subscriptions that are posted -/

namespace SubEntry

def InChannel (e : SubEntry) (c : CommunityId) (channelId : Uuid) : Prop :=
  e.communityId = c ∧ e.channelId = some channelId

/-- Some filter does not exclude every kind. -/
def TakesKind (e : SubEntry) : Prop := ∃ f ∈ e.filters, f.kinds ≠ some ∅

def scope (e : SubEntry) : RemovedSubscription := ⟨e.communityId, e.channelId⟩

variable {e : SubEntry} {c : CommunityId} {channelId : Uuid}

theorem extractKindsFromFilters_eq_nil_iff :
    extractKindsFromFilters e.filters = some [] ↔ ¬e.TakesKind := by
  unfold TakesKind
  push Not
  constructor
  · intro extracted f mem
    obtain ⟨before, after, added⟩ := exists_of_foldlM extracted mem
    obtain ⟨own, has, -⟩ := Option.bind_eq_some_iff.1 added
    rw [has, Option.some.injEq]
    refine ExtTreeSet.ext_mem fun kind => ⟨fun listed => ?_, fun none => ?_⟩
    · exact absurd ((mem_foldlM addKinds (fun _ _ _ => mem_addKinds) extracted kind).2
        (.inr ⟨f, mem, own, has, listed⟩)) List.not_mem_nil
    · exact absurd none ExtTreeSet.not_mem_empty
  · intro empty
    have each : ∀ filters : List Filter, (∀ f ∈ filters, f.kinds = some ∅) →
        filters.foldlM addKinds [] = some [] := by
      intro filters
      induction filters with
      | nil => exact fun _ => rfl
      | cons f filters ih =>
        intro empty
        rw [List.foldlM_cons, addKinds, empty f List.mem_cons_self]
        exact ih fun g mem => empty g (List.mem_cons_of_mem _ mem)
    exact each e.filters empty

/-- An entry of a channel that takes some kind is posted under a key of the channel. -/
theorem posted_iff : ((∃ key ∈ e.channelKindKeys, key.1 = c ∧ key.2.channelId = channelId) ∨
      (c, channelId) ∈ e.channelWildcardKeys) ↔ e.InChannel c channelId ∧ e.TakesKind := by
  constructor
  · rintro (⟨key, mem, rfl, rfl⟩ | mem)
    · refine ⟨scope_of_mem_channelKindKeys mem, not_not.1 fun idle => ?_⟩
      rw [← extractKindsFromFilters_eq_nil_iff] at idle
      rw [channelKindKeys, idle] at mem
      split at mem
      · rename_i kinds _ is
        cases is
        cases mem
      · cases mem
    · refine ⟨scope_of_mem_channelWildcardKeys mem, not_not.1 fun idle => ?_⟩
      rw [← extractKindsFromFilters_eq_nil_iff] at idle
      rw [channelWildcardKeys, idle] at mem
      split at mem
      · rename_i is
        cases is
      · cases mem
  · rintro ⟨⟨rfl, channel⟩, takes⟩
    unfold channelKindKeys channelWildcardKeys
    rw [channel]
    cases extracted : extractKindsFromFilters e.filters with
    | none => exact .inr List.mem_cons_self
    | some kinds =>
      cases kinds with
      | nil => exact absurd takes (extractKindsFromFilters_eq_nil_iff.1 extracted)
      | cons kind kinds => exact .inl ⟨_, List.mem_cons_self, rfl, rfl⟩

end SubEntry

namespace SubscriptionRegistry

variable {r : SubscriptionRegistry} {t : Table} {c : CommunityId} {channelId : Uuid}
  {connId : ConnId}

/-! ## The subscribers of a channel -/

/-- The lookup finds the connections that hold a posted subscription of the channel. -/
theorem Refines.mem_channelSubscriberConnsScoped (refines : r.Refines t) :
    connId ∈ r.channelSubscriberConnsScoped c channelId ↔
      ∃ subId e, t (connId, subId) = some e ∧ e.InChannel c channelId ∧ e.TakesKind := by
  have each : ∀ (conns : List ConnId) (entry : (CommunityId × IndexKey) × List (ConnId × SubId))
      (connId : ConnId), connId ∈ (if entry.1.1 = c ∧ entry.1.2.channelId = channelId then
          entry.2.foldl (fun conns sub => pushUnique conns sub.1) conns else conns) ↔
        connId ∈ conns ∨ ((entry.1.1 = c ∧ entry.1.2.channelId = channelId) ∧
          ∃ sub ∈ entry.2, connId = sub.1) := by
    intro conns entry connId
    split_ifs with here
    · rw [mem_foldl_pushUnique]
      simp [here]
    · simp [here]
  have kinds : ∀ connId, connId ∈ r.channelKindIndex.toList.foldl (fun conns entry =>
      if entry.1.1 = c ∧ entry.1.2.channelId = channelId then
        entry.2.foldl (fun conns sub => pushUnique conns sub.1) conns
      else conns) [] ↔ ∃ subId e, t (connId, subId) = some e ∧
        ∃ key ∈ e.channelKindKeys, key.1 = c ∧ key.2.channelId = channelId := by
    intro connId
    rw [mem_foldl each]
    constructor
    · rintro (none | ⟨⟨key, members⟩, listed, own, ⟨_, subId⟩, mem, rfl⟩)
      · cases none
      · rw [ExtTreeMap.mem_toList_iff_getElem?_eq_some] at listed
        rw [← of_eq_of_get listed] at mem
        obtain ⟨e, found, posted⟩ := Table.mem_keys.1 ((refines.indexed.channelKind key _).1 mem)
        exact ⟨subId, e, found, key, posted, own⟩
    · rintro ⟨subId, e, found, key, posted, own⟩
      have mem := (refines.indexed.channelKind key _).2 (Table.mem_keys.2 ⟨e, found, posted⟩)
      cases listed : r.channelKindIndex[key]? with
      | none =>
        rw [of_eq_nil listed] at mem
        cases mem
      | some members =>
        rw [of_eq_of_get listed] at mem
        exact .inr ⟨(key, members), ExtTreeMap.mem_toList_iff_getElem?_eq_some.2 listed, own, _, mem,
          rfl⟩
  have wildcards : connId ∈ r.channelSubscriberConnsScoped c channelId ↔
      (∃ subId e, t (connId, subId) = some e ∧
        ∃ key ∈ e.channelKindKeys, key.1 = c ∧ key.2.channelId = channelId) ∨
      ∃ subId e, t (connId, subId) = some e ∧ (c, channelId) ∈ e.channelWildcardKeys := by
    have posted : ∀ subId, (connId, subId) ∈ of r.channelWildcardIndex (c, channelId) ↔
        ∃ e, t (connId, subId) = some e ∧ (c, channelId) ∈ e.channelWildcardKeys :=
      fun subId => (refines.indexed.channelWildcard _ _).trans Table.mem_keys
    simp only [← posted]
    unfold channelSubscriberConnsScoped
    cases listed : r.channelWildcardIndex[(c, channelId)]? with
    | none =>
      rw [of_eq_nil listed]
      simp only [kinds, List.not_mem_nil, exists_false, or_false]
    | some members =>
      rw [of_eq_of_get listed]
      simp only [mem_foldl_pushUnique, kinds]
      refine or_congr_right ⟨?_, ?_⟩
      · rintro ⟨⟨_, subId⟩, mem, rfl⟩
        exact ⟨subId, mem⟩
      · rintro ⟨subId, mem⟩
        exact ⟨_, mem, rfl⟩
  simp only [wildcards, ← SubEntry.posted_iff]
  constructor
  · rintro (⟨subId, e, found, key⟩ | ⟨subId, e, found, key⟩)
    · exact ⟨subId, e, found, .inl key⟩
    · exact ⟨subId, e, found, .inr key⟩
  · rintro ⟨subId, e, found, key | key⟩
    · exact .inl ⟨subId, e, found, key⟩
    · exact .inr ⟨subId, e, found, key⟩

theorem nodup_channelSubscriberConnsScoped (r : SubscriptionRegistry) (c : CommunityId)
    (channelId : Uuid) : (r.channelSubscriberConnsScoped c channelId).Nodup := by
  have kinds : (r.channelKindIndex.toList.foldl (fun conns entry =>
      if entry.1.1 = c ∧ entry.1.2.channelId = channelId then
        entry.2.foldl (fun conns sub => pushUnique conns sub.1) conns
      else conns) []).Nodup := by
    refine nodup_foldl (fun conns entry nodup => ?_) _ List.nodup_nil
    split_ifs
    · exact nodup_foldl_pushUnique _ _ nodup
    · exact nodup
  unfold channelSubscriberConnsScoped
  split
  · exact nodup_foldl_pushUnique _ _ kinds
  · exact kinds

/-! ## What is removed and reported -/

theorem removeSubscription_snd (r : SubscriptionRegistry) (connId : ConnId) (subId : SubId) :
    (r.removeSubscription connId subId).2 = (r.stored (connId, subId)).map SubEntry.scope := by
  unfold removeSubscription
  rw [stored_eq]
  cases r.subs[connId]? with
  | none => rfl
  | some connSubs =>
    rw [Option.bind_some]
    cases entry : connSubs[subId]? with
    | none => simp only [entry, Option.map_none]
    | some e => simp only [entry, Option.map_some, SubEntry.scope]

theorem Refines.foldl_removeSubscription_snd {subIds : List SubId} (distinct : subIds.Nodup)
    {removed : List (SubId × RemovedSubscription)} (refines : r.Refines t) :
    (subIds.foldl (fun state subId =>
      match state.1.removeSubscription connId subId with
      | (r, some scope) => (r, state.2 ++ [(subId, scope)])
      | (r, none) => (r, state.2)) (r, removed)).2 =
      removed ++ subIds.filterMap fun subId =>
        (t (connId, subId)).map fun e => (subId, e.scope) := by
  induction subIds generalizing r t removed with
  | nil => simp
  | cons subId subIds ih =>
    obtain ⟨fresh, distinct⟩ := List.nodup_cons.1 distinct
    have step := refines.removeSubscription connId subId
    have scope := removeSubscription_snd r connId subId
    rw [refines.stored] at scope
    -- the entries of the later subscriptions are untouched
    have later : ∀ other ∈ subIds, t.clear (· = (connId, subId)) (connId, other) =
        t (connId, other) := by
      intro other mem
      refine if_neg fun same => fresh ?_
      cases same
      exact mem
    have rest : subIds.filterMap (fun other =>
          (t.clear (· = (connId, subId)) (connId, other)).map fun e => (other, e.scope)) =
        subIds.filterMap fun other => (t (connId, other)).map fun e => (other, e.scope) :=
      List.filterMap_congr fun other mem => by rw [later other mem]
    rw [List.foldl_cons]
    generalize r.removeSubscription connId subId = state at step scope ⊢
    obtain ⟨r', result⟩ := state
    dsimp only at step scope
    subst scope
    cases found : t (connId, subId) with
    | none =>
      refine (ih distinct step).trans ?_
      rw [rest, List.filterMap_cons_none (by rw [found, Option.map_none])]
    | some e =>
      refine (ih distinct step).trans ?_
      rw [rest, List.filterMap_cons_some (by rw [found, Option.map_some]), List.append_assoc,
        List.singleton_append]

/-- A report names each entry of a table that meets a condition, once and with its scope. -/
structure Reports (t : Table) (p : ConnId × SubId → Prop)
    (report : List ((ConnId × SubId) × RemovedSubscription)) : Prop where
  once : (report.map Prod.fst).Nodup
  mem_iff : ∀ sub scope, (sub, scope) ∈ report ↔ p sub ∧ ∃ e, t sub = some e ∧ e.scope = scope

/-- The entry stored for a subscription belongs to a channel. -/
def InChannel (t : Table) (c : CommunityId) (channelId : Uuid) (sub : ConnId × SubId) : Prop :=
  (t sub).any fun e => e.communityId = c ∧ e.channelId = some channelId

instance (t : Table) (c : CommunityId) (channelId : Uuid) :
    DecidablePred (InChannel t c channelId) :=
  fun _ => inferInstanceAs (Decidable (_ = true))

theorem inChannel_iff {sub : ConnId × SubId} :
    InChannel t c channelId sub ↔ ∃ e, t sub = some e ∧ e.InChannel c channelId := by
  simp [InChannel, SubEntry.InChannel, Option.any_eq_true]

/-- The subscriptions that `removeChannelSubscriptionsScoped` goes through. -/
def channelSubIds (r : SubscriptionRegistry) (c : CommunityId) (connId : ConnId)
    (channelId : Uuid) : List SubId :=
  match r.subs[connId]? with
  | some connSubs => connSubs.toList.filterMap fun entry =>
      if entry.2.communityId = c ∧ entry.2.channelId = some channelId then some entry.1
      else none
  | none => []

theorem nodup_channelSubIds (r : SubscriptionRegistry) (c : CommunityId) (connId : ConnId)
    (channelId : Uuid) : (r.channelSubIds c connId channelId).Nodup := by
  have all : ∀ entries : List (SubId × SubEntry), (entries.filterMap fun entry =>
      if entry.2.communityId = c ∧ entry.2.channelId = some channelId then some entry.1
      else none).Sublist (entries.map Prod.fst) := by
    intro entries
    induction entries with
    | nil => exact List.Sublist.refl _
    | cons entry entries ih =>
      rw [List.filterMap_cons, List.map_cons]
      split
      · exact ih.cons _
      · rename_i own is
        rw [Option.ite_none_right_eq_some] at is
        cases is.2
        exact ih.cons_cons _
  unfold channelSubIds
  split
  · rename_i connSubs _
    have keys := all connSubs.toList
    rw [ExtTreeMap.map_fst_toList_eq_keys] at keys
    exact ExtTreeMap.nodup_keys.sublist keys
  · exact List.nodup_nil

theorem mem_channelSubIds {subId : SubId} : subId ∈ r.channelSubIds c connId channelId ↔
    InChannel r.stored c channelId (connId, subId) := by
  unfold channelSubIds
  rw [inChannel_iff, stored_eq]
  cases r.subs[connId]? with
  | none => simp
  | some connSubs =>
    simp only [List.mem_filterMap, Option.ite_none_right_eq_some, Option.some.injEq, Prod.exists,
      ExtTreeMap.mem_toList_iff_getElem?_eq_some, SubEntry.InChannel, Option.bind_some]
    constructor
    · rintro ⟨_, e, found, own, rfl⟩
      exact ⟨e, found, own⟩
    · rintro ⟨e, found, own⟩
      exact ⟨subId, e, found, own, rfl⟩

theorem removeChannelSubscriptionsScoped_snd (refines : r.Refines t) :
    (r.removeChannelSubscriptionsScoped c connId channelId).2 =
      (r.channelSubIds c connId channelId).filterMap fun subId =>
        (t (connId, subId)).map fun e => (subId, e.scope) :=
  refines.foldl_removeSubscription_snd (nodup_channelSubIds r c connId channelId)

theorem Refines.reports_removeChannelSubscriptionsScoped (refines : r.Refines t) (c : CommunityId)
    (connId : ConnId) (channelId : Uuid) :
    Reports t (fun sub => sub.1 = connId ∧ InChannel t c channelId sub)
      ((r.removeChannelSubscriptionsScoped c connId channelId).2.map fun entry =>
        ((connId, entry.1), entry.2)) := by
  rw [removeChannelSubscriptionsScoped_snd refines]
  have mem : ∀ subId, subId ∈ r.channelSubIds c connId channelId ↔
      InChannel t c channelId (connId, subId) := by
    intro subId
    rw [mem_channelSubIds, refines.stored]
  constructor
  · rw [List.map_map, List.map_filterMap]
    refine (nodup_channelSubIds r c connId channelId).filterMap fun subId other sub is is' => ?_
    simp only [Option.map_map, Option.mem_def, Option.map_eq_some_iff, Function.comp_apply] at is is'
    obtain ⟨-, -, rfl⟩ := is
    obtain ⟨-, -, same⟩ := is'
    exact (Prod.ext_iff.1 same).2.symm
  · rintro ⟨other, subId⟩ scope
    simp only [List.mem_map, List.mem_filterMap, mem, Option.map_eq_some_iff]
    constructor
    · rintro ⟨_, ⟨listed, own, e, found, rfl⟩, same⟩
      cases same
      exact ⟨⟨rfl, own⟩, e, found, rfl⟩
    · rintro ⟨⟨rfl, own⟩, e, found, rfl⟩
      exact ⟨_, ⟨subId, own, e, found, rfl⟩, rfl⟩

/-! ## Eviction -/

/-- The subscriptions of some connections to a channel are removed, one connection after another. -/
def evictConns (r : SubscriptionRegistry) (c : CommunityId) (channelId : Uuid) :
    List ConnId → SubscriptionRegistry × List ((ConnId × SubId) × RemovedSubscription)
  | [] => (r, [])
  | connId :: conns =>
    let (r, removed) := r.removeChannelSubscriptionsScoped c connId channelId
    let (r, later) := r.evictConns c channelId conns
    (r, removed.map (fun entry => ((connId, entry.1), entry.2)) ++ later)

theorem Refines.evictConns (refines : r.Refines t) {conns : List ConnId} (distinct : conns.Nodup)
    (c : CommunityId) (channelId : Uuid) :
    (r.evictConns c channelId conns).1.Refines
      (t.clear fun sub => sub.1 ∈ conns ∧ InChannel t c channelId sub) ∧
    Reports t (fun sub => sub.1 ∈ conns ∧ InChannel t c channelId sub)
      (r.evictConns c channelId conns).2 := by
  induction conns generalizing r t with
  | nil =>
    refine ⟨?_, List.nodup_nil, fun sub scope => ?_⟩
    · rw [Table.clear_eq_self fun sub here => nomatch here.1]
      exact refines
    · simp [SubscriptionRegistry.evictConns]
  | cons connId conns ih =>
    obtain ⟨fresh, distinct⟩ := List.nodup_cons.1 distinct
    have step : (r.removeChannelSubscriptionsScoped c connId channelId).1.Refines
        (t.clear fun sub => sub.1 = connId ∧ InChannel t c channelId sub) :=
      refines.removeChannelSubscriptionsScoped c connId channelId
    have first := refines.reports_removeChannelSubscriptionsScoped c connId channelId
    obtain ⟨after, later⟩ := ih step distinct
    have kept : ∀ sub, sub.1 ∈ conns → t.clear (fun sub => sub.1 = connId ∧
        InChannel t c channelId sub) sub = t sub := by
      intro sub mem
      refine if_neg ?_
      rintro ⟨rfl, -⟩
      exact fresh mem
    have both : ∀ sub, (sub.1 ∈ connId :: conns ∧ InChannel t c channelId sub) ↔
        (sub.1 = connId ∧ InChannel t c channelId sub) ∨ (sub.1 ∈ conns ∧ InChannel (t.clear
          fun sub => sub.1 = connId ∧ InChannel t c channelId sub) c channelId sub) := by
      intro sub
      rw [List.mem_cons, or_and_right]
      refine or_congr_right (and_congr_right fun mem => ?_)
      rw [InChannel, InChannel, kept sub mem]
    refine ⟨?_, ?_, fun sub scope => ?_⟩
    · rw [← Table.clear_clear both]
      exact after
    · unfold SubscriptionRegistry.evictConns
      rw [List.map_append, List.nodup_append]
      refine ⟨first.once, later.once, ?_⟩
      rintro sub mem _ mem' rfl
      obtain ⟨⟨_, scope⟩, listed, rfl⟩ := List.mem_map.1 mem
      obtain ⟨⟨_, scope'⟩, listed', same⟩ := List.mem_map.1 mem'
      dsimp only at same
      subst same
      have here := ((first.mem_iff _ _).1 listed).1.1
      exact fresh (here ▸ ((later.mem_iff _ _).1 listed').1.1)
    · unfold SubscriptionRegistry.evictConns
      rw [List.mem_append, first.mem_iff, later.mem_iff, both, or_and_right]
      refine or_congr_right (and_congr_right fun own => ?_)
      rw [kept sub own.1]

/-- An outcome of evicting a channel: its subscriptions are gone, the others are as before, and each
one that is gone was reported once, with its scope. -/
structure Evicted (before : SubscriptionRegistry) (c : CommunityId) (channelId : Uuid)
    (outcome : SubscriptionRegistry × List ((ConnId × SubId) × RemovedSubscription)) : Prop where
  leavesNone : ∀ sub e, outcome.1.stored sub = some e → ¬e.InChannel c channelId
  keepsOthers : ∀ sub e, ¬e.InChannel c channelId →
    (outcome.1.stored sub = some e ↔ before.stored sub = some e)
  once : (outcome.2.map Prod.fst).Nodup
  reported : ∀ sub scope, (sub, scope) ∈ outcome.2 ↔
    ∃ e, before.stored sub = some e ∧ outcome.1.stored sub = none ∧ e.scope = scope

/-- The lookup of a channel finds the connections that hold a subscription of it, and evicting them
in any order evicts the channel. -/
structure EvictsChannel (r : SubscriptionRegistry) (c : CommunityId) (channelId : Uuid) : Prop where
  subscribers : ∀ connId, connId ∈ r.channelSubscriberConnsScoped c channelId ↔
    ∃ subId e, r.stored (connId, subId) = some e ∧ e.InChannel c channelId
  distinct : (r.channelSubscriberConnsScoped c channelId).Nodup
  evicted : ∀ conns, conns.Perm (r.channelSubscriberConnsScoped c channelId) →
    r.Evicted c channelId (r.evictConns c channelId conns)

theorem Refines.evicted (refines : r.Refines t) {conns : List ConnId} (distinct : conns.Nodup)
    (holders : ∀ connId subId e, t (connId, subId) = some e → e.InChannel c channelId →
      connId ∈ conns) : r.Evicted c channelId (r.evictConns c channelId conns) := by
  obtain ⟨after, reports⟩ := refines.evictConns distinct c channelId
  have all : ∀ sub, (sub.1 ∈ conns ∧ InChannel t c channelId sub) ↔ InChannel t c channelId sub := by
    refine fun sub => and_iff_right_of_imp fun own => ?_
    obtain ⟨e, found, own⟩ := inChannel_iff.1 own
    exact holders sub.1 sub.2 e found own
  have stored : ∀ sub, (r.evictConns c channelId conns).1.stored sub =
      if InChannel t c channelId sub then none else t sub := by
    intro sub
    rw [after.stored, Table.clear]
    exact if_congr (all sub) rfl rfl
  constructor
  · intro sub e found own
    rw [stored, ite_eq_iff] at found
    rcases found with ⟨-, none⟩ | ⟨other, found⟩
    · cases none
    · exact other (inChannel_iff.2 ⟨e, found, own⟩)
  · intro sub e other
    rw [stored, refines.stored]
    split_ifs with own
    · obtain ⟨e', found, own⟩ := inChannel_iff.1 own
      rw [found]
      refine ⟨?_, fun same => absurd (Option.some.inj same ▸ own) other⟩
      intro none
      cases none
    · exact Iff.rfl
  · exact reports.once
  · intro sub scope
    rw [reports.mem_iff, all, refines.stored, stored]
    constructor
    · rintro ⟨own, e, found, is⟩
      exact ⟨e, found, if_pos own, is⟩
    · rintro ⟨e, found, gone, is⟩
      refine ⟨not_not.1 fun other => ?_, e, found, is⟩
      rw [if_neg other, found] at gone
      cases gone

/-- In every run, evicting a channel reaches all its subscriptions exactly if each connection that
holds one of them holds one that takes some kind. -/
theorem run_evictsChannel_iff (actions : List Action) (c : CommunityId) (channelId : Uuid) :
    (run actions).EvictsChannel c channelId ↔
      ∀ connId subId e, (run actions).stored (connId, subId) = some e → e.InChannel c channelId →
        ∃ subId e, (run actions).stored (connId, subId) = some e ∧ e.InChannel c channelId ∧
          e.TakesKind := by
  have refines := run_refines actions
  constructor
  · intro evicts connId subId e found own
    have listed := (evicts.subscribers connId).2 ⟨subId, e, found, own⟩
    rw [refines.mem_channelSubscriberConnsScoped] at listed
    rwa [refines.stored]
  · intro posted
    rw [refines.stored] at posted
    have subscribers : ∀ connId, connId ∈ (run actions).channelSubscriberConnsScoped c channelId ↔
        ∃ subId e, Steps.run Table.step Table.empty actions (connId, subId) = some e ∧
          e.InChannel c channelId := by
      intro connId
      rw [refines.mem_channelSubscriberConnsScoped]
      constructor
      · rintro ⟨subId, e, found, own, -⟩
        exact ⟨subId, e, found, own⟩
      · rintro ⟨subId, e, found, own⟩
        exact posted connId subId e found own
    have distinct := nodup_channelSubscriberConnsScoped (run actions) c channelId
    refine ⟨?_, distinct, fun conns order => ?_⟩
    · rw [refines.stored]
      exact subscribers
    · refine refines.evicted (order.nodup_iff.2 distinct) fun connId subId e found own => ?_
      exact order.mem_iff.2 ((subscribers connId).2 ⟨subId, e, found, own⟩)

def noKinds : Filter :=
  { ids := none, authors := none, kinds := some ∅, since := none, «until» := none, genericTags := ∅ }

/-- A subscription of a channel that takes no kind is not found by the lookup, and the eviction of
the channel leaves it in place. -/
theorem evictConns_leaves_noKinds :
    let r := run [.registerScoped 1 2 "idle" [noKinds] (some 3)]
    r.channelSubscriberConnsScoped 1 3 = [] ∧
    (r.stored (2, "idle")).map SubEntry.scope = some ⟨1, some 3⟩ ∧
    ((r.evictConns 1 3 (r.channelSubscriberConnsScoped 1 3)).1.stored (2, "idle")).map
      SubEntry.scope = some ⟨1, some 3⟩ ∧
    ¬r.EvictsChannel 1 3 := by
  intro r
  have lookup : r.channelSubscriberConnsScoped 1 3 = [] := by decide +kernel
  have held : (r.stored (2, "idle")).map SubEntry.scope = some ⟨1, some 3⟩ := by decide +kernel
  refine ⟨lookup, held, by rw [lookup]; exact held, fun evicts => ?_⟩
  obtain ⟨e, found, is⟩ := Option.map_eq_some_iff.1 held
  have own : e.InChannel 1 3 := by
    cases e
    cases is
    exact ⟨rfl, rfl⟩
  have listed := (evicts.subscribers 2).2 ⟨"idle", e, found, own⟩
  rw [lookup] at listed
  cases listed

end SubscriptionRegistry

end Relay

end Carryforth
