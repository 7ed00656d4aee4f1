import Carryforth.Git.Manifest
import Carryforth.Git.Permissions
import Carryforth.Lib.Delimited
import Carryforth.Types

/-!
# The policy endpoint

The pre-receive hook of a workspace asks the relay whether a push may go through, and signs what it
asks.  The signed bytes are the fields of the request one after the other, with lengths in front of
those whose length is not fixed and the updates sorted by ref name.  For requests that pass the
structural checks these bytes determine every field, and the updates up to the order of updates of
different refs, on which the decision does not depend (`signature_covers`).
-/

namespace Carryforth

open Fallible Delimited

namespace Git

/-! ## Requests -/

structure HookRefUpdate where
  oldOid : String
  newOid : String
  refName : String
  isAncestor : Bool
deriving DecidableEq, Repr

structure HookCallbackRequest where
  repoId : String
  repoOwner : String
  communityId : String
  pusherPubkey : String
  refUpdates : List HookRefUpdate
  timestamp : Nat
  signature : String
deriving DecidableEq, Repr

def maxRefUpdates : Nat := 500

def isPubkeyHex (s : String) : Bool :=
  Text.byteLength s = 64 && s.toList.all fun c => Text.isAsciiHexdigit c && !c.isUpper

def isOidHex (s : String) : Bool := Text.byteLength s = 40 && s.toList.all Text.isAsciiHexdigit

def isHookRefName (s : String) : Bool :=
  !(s = "" || 256 < Text.byteLength s || !"refs/".toList.isPrefixOf s.toList ||
    decide (['.', '.'] <:+: s.toList) ||
    (Text.utf8 s).any fun b => decide (b ≤ 0x20) || decide (b = 0x7f))

def HookRefUpdate.check (r : HookRefUpdate) : Except String Unit := do
  ensure (isOidHex r.oldOid = true) "invalid old_oid"
  ensure (isOidHex r.newOid = true) "invalid new_oid"
  ensure (isHookRefName r.refName = true) "invalid ref_name"

/-- The reader of identifiers.  It takes only texts of hexadecimal digits and the other signs of the
spellings with hyphens, in braces and as a URN. -/
class UuidParser where
  parseStr : String → Option Uuid
  signs : ∀ {s id}, parseStr s = some id →
    ∀ c ∈ s.toList, Text.isAsciiHexdigit c = true ∨ c ∈ "-\x7b\x7durn:id".toList

/-- The structural checks; they give the Community. -/
def HookCallbackRequest.check [UuidParser] (req : HookCallbackRequest) : Except String Uuid := do
  ensure (req.repoId ≠ "" ∧ Text.byteLength req.repoId ≤ 64) "invalid repo_id"
  ensure (isPubkeyHex req.repoOwner = true) "invalid repo_owner"
  ensure (isPubkeyHex req.pusherPubkey = true) "invalid pusher_pubkey"
  let community ← okOr (UuidParser.parseStr req.communityId) "invalid community_id"
  ensure (req.refUpdates ≠ [] ∧ req.refUpdates.length ≤ maxRefUpdates) "invalid ref_updates count"
  req.refUpdates.forM HookRefUpdate.check
  return community

/-! ## The signed bytes -/

def lengthAndText (s : String) : List UInt8 :=
  (Text.decimal (Text.utf8 s).length ++ [58]) ++ Text.utf8 s

def HookRefUpdate.signed (r : HookRefUpdate) : List UInt8 :=
  Text.utf8 r.oldOid ++ (Text.utf8 r.newOid ++ (lengthAndText r.refName ++
    [if r.isAncestor then 49 else 48]))

/-- The updates in the order in which they are signed. -/
def HookCallbackRequest.refsSorted (req : HookCallbackRequest) : List HookRefUpdate :=
  req.refUpdates.mergeSort fun a b => decide (a.refName ≤ b.refName)

def HookCallbackRequest.signedBytes (req : HookCallbackRequest) : List UInt8 :=
  (lengthAndText req.repoId ++ [124]) ++ ((Text.utf8 req.repoOwner ++ [124]) ++
    ((Text.utf8 req.communityId ++ [124]) ++ ((Text.utf8 req.pusherPubkey ++ [124]) ++
      ((req.refsSorted.flatMap HookRefUpdate.signed ++ [124]) ++ Text.decimal req.timestamp))))

/-! ## The decision -/

/-- The keyed hash of the signatures. -/
class HmacSha256 where
  mac : (key message : List UInt8) → List UInt8

def maxCallbackAgeSecs : Nat := 30

def computeHmac [HmacSha256] (secret : List UInt8) (req : HookCallbackRequest) : List UInt8 :=
  HmacSha256.mac secret req.signedBytes

def verifyHmac [HmacSha256] (secret : List UInt8) (req : HookCallbackRequest) : Bool :=
  match Text.decodeHex req.signature.toList with
  | some provided => decide (computeHmac secret req = provided)
  | none => false

/-- What the endpoint consults: the secret, the clock in seconds, and the database, which knows the
role of the pusher and the rules of the repository or why there are none. -/
structure PolicyState where
  secret : List UInt8
  now : Nat
  resolve : (community : Uuid) → (repoOwner repoId pusherPubkey : String) →
    Except String (MemberRole × List ProtectionRule)

inductive HookVerdict
  | refused (text : String)
  | denied (denials : List Denial)
  | allowed
deriving DecidableEq, Repr

/-- Bots push as members. -/
def gitRole : MemberRole → MemberRole
  | .bot => .member
  | role => role

def HookRefUpdate.update (r : HookRefUpdate) : RefUpdate :=
  { refName := r.refName
    kind := .classify r.oldOid r.newOid r.isAncestor
    oldOid := r.oldOid
    newOid := r.newOid }

/-- The role and the rules for a request that is well formed, signed and fresh. -/
def PolicyState.authorize [UuidParser] [HmacSha256] (state : PolicyState) (req : HookCallbackRequest) :
    Except String (MemberRole × List ProtectionRule) := do
  let community ← req.check
  ensure (verifyHmac state.secret req = true) "signature verification failed"
  ensure (state.now - req.timestamp ≤ maxCallbackAgeSecs) "callback expired"
  ensure (req.timestamp - state.now ≤ 5) "callback timestamp invalid"
  state.resolve community req.repoOwner req.repoId req.pusherPubkey

def hookPolicyCheck [UuidParser] [HmacSha256] (state : PolicyState) (req : HookCallbackRequest) :
    HookVerdict :=
  match state.authorize req with
  | .error text => .refused text
  | .ok (role, rules) =>
    match evaluatePush (req.refUpdates.map HookRefUpdate.update) (gitRole role) rules with
    | .ok () => .allowed
    | .error denials => .denied denials

/-! ## What the signed bytes determine -/

/-- The characters of an identifier are of one byte, and none is the separator. -/
theorem plain_of_parseStr [UuidParser] {s : String} {id : Uuid}
    (parsed : UuidParser.parseStr s = some id) : ∀ c ∈ s.toList, c.toNat ≤ 125 ∧ c.toNat ≠ 124 := by
  intro c mem
  rcases UuidParser.signs parsed c mem with digit | sign
  · have range := Text.toNat_of_hexdigit digit
    omega
  · have plain : "-\x7b\x7durn:id".toList.all
        (fun c => decide (c.toNat ≤ 125 ∧ c.toNat ≠ 124)) = true := by decide
    exact of_decide_eq_true (List.all_eq_true.1 plain c sign)

theorem utf8_of_isOidHex {s : String} (oid : isOidHex s = true) :
    (Text.utf8 s).length = 40 ∧ ∃ b bs, Text.utf8 s = b :: bs ∧ b ≠ 124 := by
  simp only [isOidHex, Bool.and_eq_true, decide_eq_true_eq, List.all_eq_true] at oid
  obtain ⟨length, digits⟩ := oid
  rw [← Text.length_utf8] at length
  refine ⟨length, ?_⟩
  have bytes := Text.utf8_eq_map fun c mem =>
    (Text.toNat_of_hexdigit (digits c mem)).2.trans (by decide)
  cases text : s.toList with
  | nil =>
    rw [bytes, text] at length
    cases length
  | cons c cs =>
    have range := Text.toNat_of_hexdigit (digits c (text ▸ List.mem_cons_self))
    rw [text, List.map_cons] at bytes
    refine ⟨_, _, bytes, fun same => ?_⟩
    have value := congrArg UInt8.toNat same
    rw [UInt8.toNat_ofNat_of_lt' (Nat.lt_of_le_of_lt range.2 (by decide))] at value
    have bar : (124 : UInt8).toNat = 124 := rfl
    omega

theorem selfDelimiting_lengthAndText : SelfDelimiting (fun _ => True) lengthAndText :=
  lengthPrefixed (terminated (fun _ _ mem => absurd (Text.mem_decimal mem).2 (by decide))
    Text.decimal_injective) Text.utf8_injective

def HookRefUpdate.Checked (r : HookRefUpdate) : Prop :=
  isOidHex r.oldOid = true ∧ isOidHex r.newOid = true

theorem selfDelimiting_signed : SelfDelimiting HookRefUpdate.Checked HookRefUpdate.signed := by
  have oid : SelfDelimiting (fun s => isOidHex s = true) Text.utf8 :=
    of_length (fun s checked => (utf8_of_isOidHex checked).1) Text.utf8_injective
  have flag : SelfDelimiting (fun _ => True) fun b : Bool => [if b then (49 : UInt8) else 48] :=
    of_length (fun _ _ => rfl) (by decide)
  have parts := oid.pair (oid.pair (selfDelimiting_lengthAndText.pair flag))
  exact parts.comap (f := fun r : HookRefUpdate => (r.oldOid, r.newOid, r.refName, r.isAncestor))
    (fun a b same => by cases a; cases b; simpa using same)
    fun r checked => ⟨checked.1, checked.2, trivial, trivial⟩

theorem selfDelimiting_fields [UuidParser] :
    SelfDelimiting (fun v : String × String × String × String × List HookRefUpdate =>
      True ∧ isPubkeyHex v.2.1 = true ∧ (∃ id, UuidParser.parseStr v.2.2.1 = some id) ∧
        isPubkeyHex v.2.2.2.1 = true ∧ ∀ r ∈ v.2.2.2.2, r.Checked)
      fun v => (lengthAndText v.1 ++ [124]) ++ ((Text.utf8 v.2.1 ++ [124]) ++
        ((Text.utf8 v.2.2.1 ++ [124]) ++ ((Text.utf8 v.2.2.2.1 ++ [124]) ++
          (v.2.2.2.2.flatMap HookRefUpdate.signed ++ [124])))) := by
  have pubkey : SelfDelimiting (fun s => isPubkeyHex s = true) Text.utf8 :=
    of_length (fun s checked => by
      simp only [isPubkeyHex, Bool.and_eq_true, decide_eq_true_eq] at checked
      exact checked.1) Text.utf8_injective
  have community : SelfDelimiting (fun s => ∃ id, UuidParser.parseStr s = some id)
      fun s => Text.utf8 s ++ [124] := by
    refine terminated (fun s ⟨id, parsed⟩ mem => ?_) Text.utf8_injective
    have plain := plain_of_parseStr parsed
    rw [Text.utf8_eq_map fun c mem => (plain c mem).1.trans (by decide)] at mem
    obtain ⟨c, listed, same⟩ := List.mem_map.1 mem
    have value := congrArg UInt8.toNat same
    rw [UInt8.toNat_ofNat_of_lt' (Nat.lt_of_le_of_lt (plain c listed).1 (by decide))] at value
    exact (plain c listed).2 value
  have refs : SelfDelimiting (fun l : List HookRefUpdate => ∀ r ∈ l, r.Checked)
      fun l => l.flatMap HookRefUpdate.signed ++ [124] :=
    selfDelimiting_signed.many fun r checked => by
      obtain ⟨-, b, bs, first, other⟩ := utf8_of_isOidHex checked.1
      exact ⟨b, _, by rw [HookRefUpdate.signed, first]; rfl, other⟩
  exact (selfDelimiting_lengthAndText.followed [124]).pair ((pubkey.followed [124]).pair
    (community.pair ((pubkey.followed [124]).pair refs)))

/-! ## Sorting -/

theorem filter_refsSorted (req : HookCallbackRequest) (name : String) :
    req.refsSorted.filter (fun r => decide (r.refName = name)) =
      req.refUpdates.filter fun r => decide (r.refName = name) := by
  have kept : (req.refUpdates.filter fun r => decide (r.refName = name)).Sublist req.refsSorted := by
    refine List.sublist_mergeSort (fun a b c ab bc => ?_) (fun a b => ?_) ?_ List.filter_sublist
    · exact decide_eq_true ((of_decide_eq_true ab).trans (of_decide_eq_true bc))
    · simpa using le_total a.refName b.refName
    · refine List.pairwise_of_forall_mem_list fun a memA b memB => decide_eq_true ?_
      rw [of_decide_eq_true (List.mem_filter.1 memA).2, of_decide_eq_true (List.mem_filter.1 memB).2]
  have filtered := kept.filter fun r => decide (r.refName = name)
  rw [List.filter_filter] at filtered
  simp only [Bool.and_self] at filtered
  refine (filtered.eq_of_length ?_).symm
  exact ((List.mergeSort_perm req.refUpdates _).filter _).length_eq.symm

theorem mem_refsSorted {req : HookCallbackRequest} {r : HookRefUpdate} :
    r ∈ req.refsSorted ↔ r ∈ req.refUpdates := List.mem_mergeSort

/-! ## The signature covers the decision -/

theorem check_eq_ok [UuidParser] {req : HookCallbackRequest} {community : Uuid}
    (checked : req.check = .ok community) :
    isPubkeyHex req.repoOwner = true ∧ isPubkeyHex req.pusherPubkey = true ∧
      UuidParser.parseStr req.communityId = some community ∧ ∀ r ∈ req.refUpdates, r.Checked := by
  simp only [HookCallbackRequest.check, HookRefUpdate.check, bind_eq_ok, exists_unit, ensure_eq_ok,
    okOr_eq_ok, forM_eq_ok, pure_eq_ok] at checked
  obtain ⟨-, owner, pusher, _, parsed, -, updates, rfl⟩ := checked
  exact ⟨owner, pusher, parsed, fun r mem => ⟨(updates r mem).1, (updates r mem).2.1⟩⟩

/-- Two requests that pass the structural checks and are signed with the same bytes agree in all
fields, and in their updates up to the order of updates of different refs; so they get the same
decision, for every role and rules and from every state of the endpoint that accepts their
signatures. -/
theorem signature_covers [UuidParser] [HmacSha256] {a b : HookCallbackRequest}
    {communityA communityB : Uuid}
    (checkedA : a.check = .ok communityA) (checkedB : b.check = .ok communityB)
    (same : a.signedBytes = b.signedBytes) :
    a.repoId = b.repoId ∧ a.repoOwner = b.repoOwner ∧ a.communityId = b.communityId ∧
      a.pusherPubkey = b.pusherPubkey ∧ a.timestamp = b.timestamp ∧
      (∀ name, a.refUpdates.filter (fun r => decide (r.refName = name)) =
        b.refUpdates.filter fun r => decide (r.refName = name)) ∧
      (∀ role rules, evaluatePush (a.refUpdates.map HookRefUpdate.update) role rules = .ok () ↔
        evaluatePush (b.refUpdates.map HookRefUpdate.update) role rules = .ok ()) ∧
      ∀ state : PolicyState, verifyHmac state.secret a = verifyHmac state.secret b →
        (hookPolicyCheck state a = .allowed ↔ hookPolicyCheck state b = .allowed) := by
  obtain ⟨ownerA, pusherA, parsedA, updatesA⟩ := check_eq_ok checkedA
  obtain ⟨ownerB, pusherB, parsedB, updatesB⟩ := check_eq_ok checkedB
  have fields := selfDelimiting_fields
    (a := (a.repoId, a.repoOwner, a.communityId, a.pusherPubkey, a.refsSorted))
    (b := (b.repoId, b.repoOwner, b.communityId, b.pusherPubkey, b.refsSorted))
    ⟨trivial, ownerA, ⟨_, parsedA⟩, pusherA, fun r mem => updatesA r (mem_refsSorted.1 mem)⟩
    ⟨trivial, ownerB, ⟨_, parsedB⟩, pusherB, fun r mem => updatesB r (mem_refsSorted.1 mem)⟩
    (s := Text.decimal a.timestamp) (t := Text.decimal b.timestamp)
    (by simpa only [HookCallbackRequest.signedBytes, List.append_assoc] using same)
  simp only [Prod.mk.injEq] at fields
  obtain ⟨⟨repoId, repoOwner, communityId, pusherPubkey, sorted⟩, timestamp⟩ := fields
  have mem : ∀ r, r ∈ a.refUpdates ↔ r ∈ b.refUpdates := fun r => by
    rw [← mem_refsSorted, sorted, mem_refsSorted]
  have decision : ∀ role rules,
      evaluatePush (a.refUpdates.map HookRefUpdate.update) role rules = .ok () ↔
        evaluatePush (b.refUpdates.map HookRefUpdate.update) role rules = .ok () := by
    intro role rules
    simp only [evaluatePush_eq_ok, List.forall_mem_map, mem]
  refine ⟨repoId, repoOwner, communityId, pusherPubkey, Text.decimal_injective timestamp,
    fun name => by rw [← filter_refsSorted, sorted, filter_refsSorted], decision, ?_⟩
  intro state verified
  have authorized : state.authorize a = state.authorize b := by
    rw [communityId, parsedB] at parsedA
    rw [PolicyState.authorize, PolicyState.authorize, checkedA, checkedB, verified, repoId, repoOwner,
      pusherPubkey, Text.decimal_injective timestamp, Option.some.inj parsedA]
  rw [hookPolicyCheck, hookPolicyCheck, authorized]
  cases state.authorize b with
  | error text => rfl
  | ok found =>
    obtain ⟨role, rules⟩ := found
    have both := decision (gitRole role) rules
    dsimp only
    cases first : evaluatePush (a.refUpdates.map HookRefUpdate.update) (gitRole role) rules <;>
      cases second : evaluatePush (b.refUpdates.map HookRefUpdate.update) (gitRole role) rules <;>
      simp_all

/-- The reader of the spelling without hyphens. -/
@[reducible] def simpleUuids : UuidParser where
  parseStr s :=
    if s.toList.length = 32 ∧ s.toList.all Text.isAsciiHexdigit then
      some (BitVec.ofNat 128 (s.toList.foldl (fun n c => 16 * n + Text.digitValue c) 0))
    else none
  signs := by
    intro s id parsed c mem
    rw [Option.ite_none_right_eq_some] at parsed
    exact .inl (List.all_eq_true.1 parsed.1.2 c mem)

def twoBranches : HookCallbackRequest where
  repoId := "r"
  repoOwner := String.ofList (List.replicate 64 'a')
  communityId := String.ofList (List.replicate 32 '1')
  pusherPubkey := String.ofList (List.replicate 64 'b')
  refUpdates :=
    [{ oldOid := zeroOid, newOid := String.ofList (List.replicate 40 '1'), refName := "refs/heads/a",
       isAncestor := false },
     { oldOid := String.ofList (List.replicate 40 '1'), newOid := zeroOid, refName := "refs/heads/b",
       isAncestor := false }]
  timestamp := 7
  signature := ""

/-- The same push with its branches in the other order. -/
def twoBranchesReversed : HookCallbackRequest :=
  { twoBranches with refUpdates := twoBranches.refUpdates.reverse }

theorem signature_covers_twoBranches : twoBranches.refUpdates ≠ twoBranchesReversed.refUpdates ∧
    ∀ role rules, evaluatePush (twoBranches.refUpdates.map HookRefUpdate.update) role rules = .ok () ↔
      evaluatePush (twoBranchesReversed.refUpdates.map HookRefUpdate.update) role rules = .ok () := by
  have checked : @HookCallbackRequest.check simpleUuids twoBranches =
      .ok 0x11111111111111111111111111111111 := by decide +kernel
  have checkedReversed : @HookCallbackRequest.check simpleUuids twoBranchesReversed =
      .ok 0x11111111111111111111111111111111 := by decide +kernel
  have sorted : twoBranchesReversed.refsSorted = twoBranches.refsSorted := by
    have order : ("refs/heads/a" ≤ "refs/heads/b") ∧ ¬"refs/heads/b" ≤ "refs/heads/a" := by
      decide +kernel
    simp [HookCallbackRequest.refsSorted, twoBranchesReversed, twoBranches, List.mergeSort,
      List.MergeSort.Internal.splitInTwo, order.1, order.2]
  have same : twoBranches.signedBytes = twoBranchesReversed.signedBytes := by
    rw [HookCallbackRequest.signedBytes, HookCallbackRequest.signedBytes, sorted]
    rfl
  exact ⟨by decide, (@signature_covers simpleUuids ⟨fun _ _ => []⟩ _ _ _ _ checked checkedReversed
    same).2.2.2.2.2.2.1⟩

end Git

end Carryforth
