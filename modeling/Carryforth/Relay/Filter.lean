import Carryforth.Lib.Keys
import Carryforth.Nostr

/-!
# Subscription filters

Filters select stored events.  The fields of a filter all have to match, and several filters match
when one of them does.  A filter for channel tags also matches an event without such a tag by the
channel it is stored in.
-/

namespace Carryforth

/-- The hexadecimal spelling of an event identifier. -/
def EventId.toHex (id : EventId) : String := String.ofList (Text.hexDigits 64 id.toNat)

namespace Nostr

structure SingleLetterTag where
  character : Fin 26
  uppercase : Bool
deriving DecidableEq, Repr

namespace SingleLetterTag

def toText (tag : SingleLetterTag) : String :=
  String.singleton (Char.ofNat ((if tag.uppercase then 65 else 97) + tag.character))

def lowercase (character : Fin 26) : SingleLetterTag := ⟨character, false⟩

def toProd (tag : SingleLetterTag) : Fin 26 × Bool := (tag.character, tag.uppercase)

theorem toProd_injective : Function.Injective toProd := by
  rintro ⟨c, u⟩ ⟨d, v⟩ same
  cases same
  rfl

instance : Ord SingleLetterTag := ⟨compareOn toProd⟩

instance : Std.TransOrd SingleLetterTag := inferInstanceAs (Std.TransCmp (compareOn toProd))

instance : Std.LawfulEqOrd SingleLetterTag := lawfulEqCmp_compareOn toProd_injective

end SingleLetterTag

namespace Tag

def kind (tag : Tag) : String := tag.headD ""

def content (tag : Tag) : Option String := tag[1]?

end Tag

structure Filter where
  ids : Option (OrdSet EventId)
  authors : Option (OrdSet PublicKey)
  kinds : Option (OrdSet Nat)
  since : Option Nat
  «until» : Option Nat
  genericTags : OrdMap SingleLetterTag (OrdSet String)

end Nostr

open Nostr

structure StoredEvent where
  event : Event
  channelId : Option Uuid

def hasTagValue (event : Event) (name : String) (values : OrdSet String) : Bool :=
  values.toList.any fun value =>
    ((event.tags.filter fun tag => tag.kind = name).filterMap Tag.content).any (· = value)

def tagMatches (ev : StoredEvent) (key : SingleLetterTag) (values : OrdSet String) : Bool :=
  let name := key.toText
  let hasMatch := hasTagValue ev.event name values
  if ¬hasMatch ∧ name = "h" then
    -- reactions and deletions take their channel from their target and carry no tag for it
    if ev.event.tags.any fun tag => tag.kind = "h" then false
    else
      match ev.channelId with
      | some channelId => values.toList.any (· = channelId.toText)
      | none => false
  else hasMatch

def filterMatchOne (f : Filter) (ev : StoredEvent) : Bool :=
  f.kinds.all (·.contains ev.event.kind) &&
  f.authors.all (·.contains ev.event.pubkey) &&
  f.since.all (fun since => ¬ev.event.createdAt < since) &&
  f.until.all (fun «until» => ¬«until» < ev.event.createdAt) &&
  f.ids.all (fun ids => ids.toList.any fun id =>
    id.toHex.toList.isPrefixOf ev.event.id.toHex.toList) &&
  f.genericTags.toList.all fun tag => tagMatches ev tag.1 tag.2

def filtersMatch (filters : List Filter) (ev : StoredEvent) : Bool :=
  filters.any fun f => filterMatchOne f ev

/-! ## Project View projections -/

def kindProjectViewObject : Nat := 40903

def kindProjectViewMeta : Nat := 40904

def isProjectViewProjectionKind (kind : Nat) : Bool :=
  kind = kindProjectViewObject ∨ kind = kindProjectViewMeta

def projectViewV3ObjectTag : String := "buzz-project-view-v3-object"

def projectViewV3EntityTag : String := "buzz-project-view-v3-entity"

def projectViewV3MetaTag : String := "buzz-project-view-meta"

/-- The filter selects Project View projections of the third schema only. -/
def filterAllowsV3Projections (f : Filter) : Bool :=
  match f.kinds with
  | none => false
  | some kinds =>
    let requestsObject := kinds.toList.any (· = kindProjectViewObject)
    let requestsMeta := kinds.toList.any (· = kindProjectViewMeta)
    if ¬requestsObject ∧ ¬requestsMeta then false
    else
      match f.genericTags[SingleLetterTag.lowercase 19]? with
      | none => false
      | some values =>
        if values.isEmpty ∨ values.toList.any (fun value => value ≠ projectViewV3ObjectTag ∧
            value ≠ projectViewV3EntityTag ∧ value ≠ projectViewV3MetaTag) then false
        else
          (!requestsObject || values.contains projectViewV3ObjectTag ||
            values.contains projectViewV3EntityTag) &&
          (!requestsMeta || values.contains projectViewV3MetaTag)

/-- The filters of a subscription select the event.  For a Project View projection a single filter
has to match and to select only the third schema. -/
def subscriptionMatches (filters : List Filter) (ev : StoredEvent) : Bool :=
  if isProjectViewProjectionKind ev.event.kind then
    filters.any fun f => filterAllowsV3Projections f && filtersMatch [f] ev
  else filtersMatch filters ev

theorem exists_of_subscriptionMatches {filters : List Filter} {ev : StoredEvent}
    (selected : subscriptionMatches filters ev = true) :
    ∃ f ∈ filters, filterMatchOne f ev = true := by
  unfold subscriptionMatches at selected
  split_ifs at selected
  · obtain ⟨f, mem, both⟩ := List.any_eq_true.1 selected
    exact ⟨f, mem, by simpa [filtersMatch] using (Bool.and_eq_true_iff.1 both).2⟩
  · exact List.any_eq_true.1 selected

section Matching

variable {f : Filter} {ev : StoredEvent}

theorem kind_of_filterMatchOne (matched : filterMatchOne f ev = true) {kinds : OrdSet Nat}
    (has : f.kinds = some kinds) : ev.event.kind ∈ kinds := by
  simp only [filterMatchOne, Bool.and_eq_true, has, Option.all_some] at matched
  exact Std.ExtTreeSet.mem_iff_contains.2 matched.1.1.1.1.1

theorem tag_of_filterMatchOne (matched : filterMatchOne f ev = true) {key : SingleLetterTag}
    {values : OrdSet String} (has : f.genericTags[key]? = some values) :
    tagMatches ev key values = true := by
  simp only [filterMatchOne, Bool.and_eq_true] at matched
  exact List.all_eq_true.1 matched.2 (key, values)
    (Std.ExtTreeMap.mem_toList_iff_getElem?_eq_some.2 has)

theorem hasTagValue_of_tagMatches {key : SingleLetterTag} {values : OrdSet String}
    (matched : tagMatches ev key values = true) (other : key.toText ≠ "h") :
    hasTagValue ev.event key.toText values = true := by
  rwa [tagMatches, if_neg fun both => other both.2] at matched

end Matching

end Carryforth
