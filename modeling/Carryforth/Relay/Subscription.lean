import Carryforth.Lib.Postings
import Carryforth.Lib.Steps
import Carryforth.Relay.Filter

/-!
# The subscription registry

The relay keeps the subscriptions of each connection and five indexes that lead from an event to
the subscriptions it may concern.  The shape of its filters decides under which keys of which index
a subscription is posted; it is retracted from the same keys when it is removed or replaced.  The
lists the source keeps beside a set of seen elements are built with `pushUnique`.
-/

namespace Carryforth

namespace Relay

open Nostr Grouping Postings

abbrev ConnId := Uuid

abbrev SubId := String

abbrev CommunityId := Uuid

/-- The filters of a subscription, with its community and channel scope. -/
structure SubEntry where
  filters : List Filter
  communityId : CommunityId
  channelId : Option Uuid

structure IndexKey where
  channelId : Uuid
  kind : Nat
deriving DecidableEq, Repr

structure GlobalPKindIndexKey where
  communityId : CommunityId
  kind : Nat
  p : String
deriving DecidableEq, Repr

namespace IndexKey

def toProd (key : IndexKey) : Uuid × Nat := (key.channelId, key.kind)

theorem toProd_injective : Function.Injective toProd := by
  rintro ⟨c, k⟩ ⟨d, l⟩ same
  cases same
  rfl

instance : Ord IndexKey := ⟨compareOn toProd⟩

instance : Std.TransOrd IndexKey := inferInstanceAs (Std.TransCmp (compareOn toProd))

instance : Std.LawfulEqOrd IndexKey := lawfulEqCmp_compareOn toProd_injective

end IndexKey

namespace GlobalPKindIndexKey

def toProd (key : GlobalPKindIndexKey) : CommunityId × Nat × String :=
  (key.communityId, key.kind, key.p)

theorem toProd_injective : Function.Injective toProd := by
  rintro ⟨c, k, p⟩ ⟨d, l, q⟩ same
  cases same
  rfl

instance : Ord GlobalPKindIndexKey := ⟨compareOn toProd⟩

instance : Std.TransOrd GlobalPKindIndexKey := inferInstanceAs (Std.TransCmp (compareOn toProd))

instance : Std.LawfulEqOrd GlobalPKindIndexKey := lawfulEqCmp_compareOn toProd_injective

end GlobalPKindIndexKey

structure RemovedSubscription where
  communityId : CommunityId
  channelId : Option Uuid
deriving DecidableEq, Repr

structure SubscriptionRegistry where
  subs : OrdMap ConnId (OrdMap SubId SubEntry)
  channelKindIndex : Groups (CommunityId × IndexKey) (ConnId × SubId)
  channelWildcardIndex : Groups (CommunityId × Uuid) (ConnId × SubId)
  globalKindIndex : Groups (CommunityId × Nat) (ConnId × SubId)
  globalPKindIndex : Groups GlobalPKindIndexKey (ConnId × SubId)
  globalWildcardIndex : Groups CommunityId (ConnId × SubId)

/-! ## The keys of a subscription -/

def pTag : SingleLetterTag := .lowercase ⟨15, by decide⟩

/-- One round of `extractKindsFromFilters`. -/
def addKinds (kinds : List Nat) (f : Filter) : Option (List Nat) := do
  let filterKinds ← f.kinds
  return filterKinds.toList.foldl pushUnique kinds

/-- The kinds of all filters, or none if a filter takes every kind. -/
def extractKindsFromFilters (filters : List Filter) : Option (List Nat) :=
  filters.foldlM addKinds []

/-- One round of `extractGlobalPKindIndexKeys`. -/
def addGlobalPKindIndexKeys (communityId : CommunityId) (keys : List GlobalPKindIndexKey)
    (f : Filter) : Option (List GlobalPKindIndexKey) := do
  let kinds ← f.kinds
  if kinds.isEmpty then return keys
  let pValues ← f.genericTags[pTag]?
  if pValues.isEmpty then none
  else return kinds.toList.foldl (fun keys kind =>
    pValues.toList.foldl (fun keys p => pushUnique keys ⟨communityId, kind, p⟩) keys) keys

/-- The pairs of a kind and a recipient, or none if a filter that takes some kind does not restrict
the recipients. -/
def extractGlobalPKindIndexKeys (communityId : CommunityId) (filters : List Filter) :
    Option (List GlobalPKindIndexKey) :=
  filters.foldlM (addGlobalPKindIndexKeys communityId) []

/-- One round of `eventPTagValues`. -/
def addPTagValue (values : List String) (tag : Tag) : List String :=
  if tag.kind ≠ "p" then values
  else
    match tag.content with
    | some value => pushUnique values value
    | none => values

def eventPTagValues (event : StoredEvent) : List String := event.event.tags.foldl addPTagValue []

namespace SubscriptionRegistry

def new : SubscriptionRegistry := ⟨∅, ∅, ∅, ∅, ∅, ∅⟩

def stored (r : SubscriptionRegistry) (sub : ConnId × SubId) : Option SubEntry :=
  r.subs[sub.1]?.bind fun connSubs => connSubs[sub.2]?

/-! ## Registration and removal -/

/-- The part of `registerScoped` that posts a subscription in the indexes. -/
def addToIndex (r : SubscriptionRegistry) (sub : ConnId × SubId) (e : SubEntry) :
    SubscriptionRegistry :=
  match e.channelId with
  | some channelId =>
    match extractKindsFromFilters e.filters with
    | none =>
      { r with channelWildcardIndex := push r.channelWildcardIndex (e.communityId, channelId) sub }
    | some kinds =>
      if kinds.isEmpty then r
      else
        { r with
          channelKindIndex := kinds.foldl (fun index kind =>
            push index (e.communityId, ⟨channelId, kind⟩) sub) r.channelKindIndex }
  | none =>
    match extractGlobalPKindIndexKeys e.communityId e.filters with
    | some keys =>
      { r with
        globalPKindIndex := keys.foldl (fun index key => push index key sub) r.globalPKindIndex }
    | none =>
      match extractKindsFromFilters e.filters with
      | none =>
        { r with globalWildcardIndex := push r.globalWildcardIndex e.communityId sub }
      | some kinds =>
        if kinds.isEmpty then r
        else
          { r with
            globalKindIndex := kinds.foldl (fun index kind =>
              push index (e.communityId, kind) sub) r.globalKindIndex }

def removeFromIndex (r : SubscriptionRegistry) (sub : ConnId × SubId) (e : SubEntry) :
    SubscriptionRegistry :=
  match e.channelId with
  | some channelId =>
    match extractKindsFromFilters e.filters with
    | none =>
      { r with
        channelWildcardIndex := retractAt r.channelWildcardIndex (e.communityId, channelId) sub }
    | some kinds =>
      if kinds.isEmpty then r
      else
        { r with
          channelKindIndex := kinds.foldl (fun index kind =>
            retractAt index (e.communityId, ⟨channelId, kind⟩) sub) r.channelKindIndex }
  | none =>
    match extractGlobalPKindIndexKeys e.communityId e.filters with
    | some keys =>
      { r with
        globalPKindIndex := keys.foldl (fun index key => retractAt index key sub)
          r.globalPKindIndex }
    | none =>
      match extractKindsFromFilters e.filters with
      | none =>
        { r with globalWildcardIndex := retractAt r.globalWildcardIndex e.communityId sub }
      | some kinds =>
        if kinds.isEmpty then r
        else
          { r with
            globalKindIndex := kinds.foldl (fun index kind =>
              retractAt index (e.communityId, kind) sub) r.globalKindIndex }

def removeSubscription (r : SubscriptionRegistry) (connId : ConnId) (subId : SubId) :
    SubscriptionRegistry × Option RemovedSubscription :=
  match r.subs[connId]? with
  | some connSubs =>
    match connSubs[subId]? with
    | some e =>
      ({ r with subs := r.subs.insert connId (connSubs.erase subId) }.removeFromIndex
        (connId, subId) e, some ⟨e.communityId, e.channelId⟩)
    | none => (r, none)
  | none => (r, none)

def registerScoped (r : SubscriptionRegistry) (communityId : CommunityId) (connId : ConnId)
    (subId : SubId) (filters : List Filter) (channelId : Option Uuid) :
    SubscriptionRegistry × Option RemovedSubscription :=
  let (r, removed) := r.removeSubscription connId subId
  let e : SubEntry := ⟨filters, communityId, channelId⟩
  let r := { r with
    subs := r.subs.insert connId ((r.subs[connId]?.getD ∅).insert subId e) }
  (r.addToIndex (connId, subId) e, removed)

def removeConnection (r : SubscriptionRegistry) (connId : ConnId) :
    SubscriptionRegistry × List RemovedSubscription :=
  match r.subs[connId]? with
  | some connSubs =>
    connSubs.toList.foldl (fun state entry =>
        (state.1.removeFromIndex (connId, entry.1) entry.2,
          state.2 ++ [⟨entry.2.communityId, entry.2.channelId⟩]))
      ({ r with subs := r.subs.erase connId }, [])
  | none => (r, [])

def removeChannelSubscriptionsScoped (r : SubscriptionRegistry) (communityId : CommunityId)
    (connId : ConnId) (channelId : Uuid) :
    SubscriptionRegistry × List (SubId × RemovedSubscription) :=
  let subIds : List SubId :=
    match r.subs[connId]? with
    | some connSubs => connSubs.toList.filterMap fun entry =>
        if entry.2.communityId = communityId ∧ entry.2.channelId = some channelId then some entry.1
        else none
    | none => []
  subIds.foldl (fun state subId =>
    match state.1.removeSubscription connId subId with
    | (r, some removed) => (r, state.2 ++ [(subId, removed)])
    | (r, none) => (r, state.2)) (r, [])

/-- The connections that the indexes of channels list for a channel, in some order. -/
def channelSubscriberConnsScoped (r : SubscriptionRegistry) (communityId : CommunityId)
    (channelId : Uuid) : List ConnId :=
  let conns := r.channelKindIndex.toList.foldl (fun conns entry =>
    if entry.1.1 = communityId ∧ entry.1.2.channelId = channelId then
      entry.2.foldl (fun conns sub => pushUnique conns sub.1) conns
    else conns) []
  match r.channelWildcardIndex[(communityId, channelId)]? with
  | some entry => entry.foldl (fun conns sub => pushUnique conns sub.1) conns
  | none => conns

/-! ## Fan-out -/

def pushMatch (r : SubscriptionRegistry) (event : StoredEvent) (results : List (ConnId × SubId))
    (sub : ConnId × SubId) : List (ConnId × SubId) :=
  match r.stored sub with
  | some e => if subscriptionMatches e.filters event then pushUnique results sub else results
  | none => results

/-- The subscriptions of a community that an event is sent to. -/
def fanOutScoped (r : SubscriptionRegistry) (communityId : CommunityId) (event : StoredEvent) :
    List (ConnId × SubId) :=
  let kind := event.event.kind
  match event.channelId with
  | some channelId =>
    let results := (of r.channelKindIndex (communityId, ⟨channelId, kind⟩)).foldl
      (r.pushMatch event) []
    (of r.channelWildcardIndex (communityId, channelId)).foldl (r.pushMatch event) results
  | none =>
    let results := (eventPTagValues event).foldl (fun results p =>
      (of r.globalPKindIndex ⟨communityId, kind, p⟩).foldl (r.pushMatch event) results) []
    let results := (of r.globalKindIndex (communityId, kind)).foldl (r.pushMatch event) results
    (of r.globalWildcardIndex communityId).foldl (r.pushMatch event) results

/-! ## Runs -/

inductive Action
  | registerScoped (communityId : CommunityId) (connId : ConnId) (subId : SubId)
      (filters : List Filter) (channelId : Option Uuid)
  | removeSubscription (connId : ConnId) (subId : SubId)
  | removeConnection (connId : ConnId)
  | removeChannelSubscriptionsScoped (communityId : CommunityId) (connId : ConnId)
      (channelId : Uuid)

def step (r : SubscriptionRegistry) : Action → SubscriptionRegistry
  | .registerScoped communityId connId subId filters channelId =>
    (r.registerScoped communityId connId subId filters channelId).1
  | .removeSubscription connId subId => (r.removeSubscription connId subId).1
  | .removeConnection connId => (r.removeConnection connId).1
  | .removeChannelSubscriptionsScoped communityId connId channelId =>
    (r.removeChannelSubscriptionsScoped communityId connId channelId).1

def run (actions : List Action) : SubscriptionRegistry := Steps.run step new actions

end SubscriptionRegistry

end Relay

end Carryforth
