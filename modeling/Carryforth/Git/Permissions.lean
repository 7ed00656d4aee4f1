import Carryforth.Lib.Fallible
import Carryforth.Lib.Text

/-!
# Push permissions

The role of a member in a repository's channel is compared with what a ref update requires: the
built-in default for its ref and kind, made stricter by every protection rule whose pattern matches
the ref.  A push is allowed if each of its updates is.  The evaluator collects the matching rules
first; what it decides is that each of them permits the update, whatever their order
(`evaluateRefUpdate_eq_ok`), so rules can only restrict (`evaluatePush_restricts`).
-/

namespace Carryforth

namespace Git

open Fallible

/-! ## Roles -/

inductive MemberRole
  | owner
  | admin
  | member
  | guest
  | bot
deriving DecidableEq, Repr

namespace MemberRole

def asStr : MemberRole → String
  | .owner => "owner"
  | .admin => "admin"
  | .member => "member"
  | .guest => "guest"
  | .bot => "bot"

def permissionLevel : MemberRole → Nat
  | .owner => 4
  | .admin => 3
  | .member => 2
  | .guest => 1
  | .bot => 0

def hasAtLeast (role required : MemberRole) : Bool :=
  required.permissionLevel ≤ role.permissionLevel

/-- The role of higher permission, the first one if they are equal. -/
def stricter (existing role : MemberRole) : MemberRole :=
  if existing.permissionLevel < role.permissionLevel then role else existing

end MemberRole

/-! ## Updates -/

/-- The name of no object, with which a ref is created or deleted. -/
def zeroOid : String := String.ofList (List.replicate 40 '0')

inductive UpdateKind
  | create
  | fastForward
  | nonFastForward
  | delete
deriving DecidableEq, Repr

/-- The kind of an update, from its object names and the ancestry of the old one. -/
def UpdateKind.classify (oldOid newOid : String) (isAncestor : Bool) : UpdateKind :=
  if oldOid = zeroOid then .create
  else if newOid = zeroOid then .delete
  else if isAncestor then .fastForward
  else .nonFastForward

structure RefUpdate where
  refName : String
  kind : UpdateKind
  oldOid : String
  newOid : String
deriving DecidableEq, Repr

/-! ## Rules -/

inductive PatternSegment
  | literal (text : String)
  | wildcard
  | recursiveWildcard
deriving DecidableEq, Repr

/-- A pattern of ref names; only its last segment may stand for several. -/
structure RefPattern where
  segments : List PatternSegment
  recursiveLast : PatternSegment.recursiveWildcard ∉ segments.dropLast
deriving DecidableEq

/-- Whether a segment stands for a part of a name; the recursive one is not asked. -/
def PatternSegment.matchesPart : PatternSegment → String → Bool
  | .literal text, part => text = part
  | .wildcard, _ => true
  | .recursiveWildcard, _ => false

def refSegments (refName : String) : List String :=
  (refName.toList.splitOn '/').map String.ofList

def RefPattern.matchesRef (pattern : RefPattern) (refName : String) : Bool :=
  let parts := refSegments refName
  if pattern.segments.getLast? = some .recursiveWildcard then
    let first := pattern.segments.dropLast
    decide (first.length < parts.length) &&
      (first.zip (parts.take first.length)).all fun s => s.1.matchesPart s.2
  else
    decide (parts.length = pattern.segments.length) &&
      (pattern.segments.zip parts).all fun s => s.1.matchesPart s.2

structure ProtectionRule where
  pattern : RefPattern
  pushRole : Option MemberRole
  noForcePush : Bool
  noDelete : Bool
  requirePatch : Bool
deriving DecidableEq

/-- The least role for an update that no rule concerns. -/
def defaultMinRole (refName : String) (kind : UpdateKind) : MemberRole :=
  let isBranch := "refs/heads/".toList.isPrefixOf refName.toList
  let isTag := "refs/tags/".toList.isPrefixOf refName.toList
  match kind with
  | .create => if isBranch || isTag then .member else .admin
  | .fastForward => if isBranch then .member else .admin
  | .nonFastForward => .admin
  | .delete => .admin

/-- The rules that match a ref, taken together. -/
@[ext]
structure EffectiveRules where
  pushRole : Option MemberRole
  noForcePush : Bool
  noDelete : Bool
  requirePatch : Bool
  hasExplicitMatch : Bool
deriving DecidableEq

def EffectiveRules.none : EffectiveRules :=
  { pushRole := Option.none, noForcePush := false, noDelete := false, requirePatch := false,
    hasExplicitMatch := false }

def EffectiveRules.add (refName : String) (effective : EffectiveRules) (rule : ProtectionRule) :
    EffectiveRules :=
  if rule.pattern.matchesRef refName then
    { pushRole :=
        match rule.pushRole with
        | some role => some ((effective.pushRole.map (·.stricter role)).getD role)
        | Option.none => effective.pushRole
      noForcePush := effective.noForcePush || rule.noForcePush
      noDelete := effective.noDelete || rule.noDelete
      requirePatch := effective.requirePatch || rule.requirePatch
      hasExplicitMatch := true }
  else effective

def EffectiveRules.forRef (refName : String) (rules : List ProtectionRule) : EffectiveRules :=
  rules.foldl (.add refName) .none

/-! ## Evaluation -/

structure Denial where
  refName : String
  reason : String
deriving DecidableEq, Repr

/-- The role that an update requires under explicit rules: never less than the default. -/
def requiredRole (update : RefUpdate) (explicit : Option MemberRole) : MemberRole :=
  let default := defaultMinRole update.refName update.kind
  match explicit with
  | some explicit =>
    if default.permissionLevel ≤ explicit.permissionLevel then explicit else default
  | none => default

def evaluateRefUpdate (update : RefUpdate) (role : MemberRole) (rules : List ProtectionRule) :
    Except Denial Unit :=
  let effective := EffectiveRules.forRef update.refName rules
  let deny := fun reason : String => ({ refName := update.refName, reason } : Denial)
  if effective.hasExplicitMatch = false then
    let minRole := defaultMinRole update.refName update.kind
    ensure (role.hasAtLeast minRole = true)
      (deny (s!"requires {minRole.asStr} role (you have {role.asStr}), using built-in defaults"))
  else do
    ensure (effective.requirePatch = false)
      (deny "direct push denied: require-patch is set, submit a NIP-34 patch")
    let minRole := requiredRole update effective.pushRole
    ensure (role.hasAtLeast minRole = true)
      (deny (s!"requires {minRole.asStr} role (you have {role.asStr})"))
    ensure (¬(effective.noForcePush = true ∧ update.kind = .nonFastForward))
      (deny "non-fast-forward update denied: no-force-push is set")
    ensure (¬(effective.noDelete = true ∧ update.kind = .delete))
      (deny "ref deletion denied: no-delete is set")

/-- All updates of a push, with every reason to deny it. -/
def evaluatePush (updates : List RefUpdate) (role : MemberRole) (rules : List ProtectionRule) :
    Except (List Denial) Unit :=
  let denials := updates.filterMap fun update =>
    match evaluateRefUpdate update role rules with
    | .error denial => some denial
    | .ok () => none
  ensure (denials = []) denials

theorem evaluatePush_eq_ok {updates : List RefUpdate} {role : MemberRole}
    {rules : List ProtectionRule} :
    evaluatePush updates role rules = .ok () ↔
      ∀ update ∈ updates, evaluateRefUpdate update role rules = .ok () := by
  rw [evaluatePush, ensure_eq_ok, List.filterMap_eq_nil_iff]
  refine forall₂_congr fun update _ => ?_
  cases evaluateRefUpdate update role rules with
  | error denial => simp
  | ok u => simp

/-! ## Rules only restrict -/

namespace MemberRole

theorem permissionLevel_injective : Function.Injective permissionLevel := by
  intro role other same
  cases role <;> cases other <;> first | rfl | cases same

theorem hasAtLeast_iff {role required : MemberRole} :
    role.hasAtLeast required = true ↔ required.permissionLevel ≤ role.permissionLevel :=
  decide_eq_true_iff

end MemberRole

namespace EffectiveRules

variable (refName : String) (rules : List ProtectionRule)

def matching : List ProtectionRule := rules.filter (·.pattern.matchesRef refName)

theorem mem_matching {rule : ProtectionRule} : rule ∈ matching refName rules ↔
    rule ∈ rules ∧ rule.pattern.matchesRef refName = true :=
  List.mem_filter

theorem matching_cons (rule : ProtectionRule) : matching refName (rule :: rules) =
    if rule.pattern.matchesRef refName then rule :: matching refName rules
    else matching refName rules :=
  List.filter_cons

/-- A flag that each matching rule may set is set if one of them sets it. -/
theorem forRef_flag {flag : EffectiveRules → Bool} {sets : ProtectionRule → Bool}
    (start : flag .none = false)
    (each : ∀ effective rule, flag (effective.add refName rule) =
      (flag effective || (rule.pattern.matchesRef refName && sets rule))) :
    flag (forRef refName rules) = (matching refName rules).any sets := by
  have loop : ∀ effective, flag (rules.foldl (.add refName) effective) =
      (flag effective || (matching refName rules).any sets) := by
    induction rules with
    | nil => simp [matching]
    | cons rule rules ih =>
      intro effective
      rw [List.foldl_cons, ih, each, matching_cons]
      cases rule.pattern.matchesRef refName with
      | true => simp [Bool.or_assoc]
      | false => simp
  rw [forRef, loop, start, Bool.false_or]

theorem hasExplicitMatch_forRef :
    (forRef refName rules).hasExplicitMatch = (matching refName rules).any fun _ => true := by
  refine forRef_flag refName rules rfl fun effective rule => ?_
  unfold add
  cases rule.pattern.matchesRef refName <;> simp

theorem noForcePush_forRef :
    (forRef refName rules).noForcePush = (matching refName rules).any (·.noForcePush) := by
  refine forRef_flag refName rules rfl fun effective rule => ?_
  unfold add
  cases rule.pattern.matchesRef refName <;> simp

theorem noDelete_forRef :
    (forRef refName rules).noDelete = (matching refName rules).any (·.noDelete) := by
  refine forRef_flag refName rules rfl fun effective rule => ?_
  unfold add
  cases rule.pattern.matchesRef refName <;> simp

theorem requirePatch_forRef :
    (forRef refName rules).requirePatch = (matching refName rules).any (·.requirePatch) := by
  refine forRef_flag refName rules rfl fun effective rule => ?_
  unfold add
  cases rule.pattern.matchesRef refName <;> simp

theorem pushRole_forRef : (forRef refName rules).pushRole =
    ((matching refName rules).filterMap (·.pushRole)).argmax MemberRole.permissionLevel := by
  have loop : ∀ effective : EffectiveRules,
      (rules.foldl (EffectiveRules.add refName) effective).pushRole =
        ((matching refName rules).filterMap (·.pushRole)).foldl
          (List.argAux fun role existing => existing.permissionLevel < role.permissionLevel)
          effective.pushRole := by
    induction rules with
    | nil => exact fun effective => rfl
    | cons rule rules ih =>
      intro effective
      rw [List.foldl_cons, ih, matching_cons]
      cases matched : rule.pattern.matchesRef refName with
      | false => simp [add, matched]
      | true =>
        cases own : rule.pushRole with
        | none => simp [add, matched, own]
        | some role =>
          rw [if_pos rfl, List.filterMap_cons_some own, List.foldl_cons, add, matched, if_pos rfl, own]
          cases effective.pushRole with
          | none => rfl
          | some existing =>
            simp only [Option.map_some, Option.getD_some, List.argAux, MemberRole.stricter]
            split_ifs <;> rfl
  exact loop .none

end EffectiveRules

/-- The rule does not stand in the way of an update by a member with this role. -/
structure ProtectionRule.Permits (rule : ProtectionRule) (update : RefUpdate) (role : MemberRole) :
    Prop where
  direct : rule.requirePatch = false
  pushRole : ∀ least ∈ rule.pushRole, least.permissionLevel ≤ role.permissionLevel
  force : ¬(rule.noForcePush = true ∧ update.kind = .nonFastForward)
  delete : ¬(rule.noDelete = true ∧ update.kind = .delete)

section Restrict

variable {update : RefUpdate} {updates : List RefUpdate} {role : MemberRole}
  {rules : List ProtectionRule}

theorem permissionLevel_requiredRole {explicit : Option MemberRole} {level : Nat} :
    (requiredRole update explicit).permissionLevel ≤ level ↔
      (defaultMinRole update.refName update.kind).permissionLevel ≤ level ∧
        ∀ least ∈ explicit, least.permissionLevel ≤ level := by
  unfold requiredRole
  cases explicit with
  | none => simp
  | some least =>
    dsimp only
    split_ifs with above
    · simp only [Option.mem_def, Option.some.injEq, forall_eq']
      exact ⟨fun fits => ⟨above.trans fits, fits⟩, And.right⟩
    · simp only [Option.mem_def, Option.some.injEq, forall_eq']
      exact ⟨fun fits => ⟨fits, (Nat.le_of_not_le above).trans fits⟩, And.left⟩

/-- A role suffices for the strictest matching rule if it suffices for each of them. -/
theorem pushRole_forRef_le {refName : String} {level : Nat} :
    (∀ least ∈ (EffectiveRules.forRef refName rules).pushRole, least.permissionLevel ≤ level) ↔
      ∀ rule ∈ EffectiveRules.matching refName rules, ∀ least ∈ rule.pushRole,
        least.permissionLevel ≤ level := by
  rw [EffectiveRules.pushRole_forRef]
  constructor
  · intro strictest rule mem least own
    have listed := List.mem_filterMap.2 ⟨rule, mem, own⟩
    cases found : ((EffectiveRules.matching refName rules).filterMap (·.pushRole)).argmax
        MemberRole.permissionLevel with
    | none =>
      rw [List.argmax_eq_none.1 found] at listed
      cases listed
    | some top => exact (List.le_of_mem_argmax listed found).trans (strictest top found)
  · intro each least found
    obtain ⟨rule, mem, own⟩ := List.mem_filterMap.1 (List.argmax_mem found)
    exact each rule mem least own

/-- An update is allowed if the role reaches the built-in default and each matching rule permits
it. -/
theorem evaluateRefUpdate_eq_ok : evaluateRefUpdate update role rules = .ok () ↔
    (defaultMinRole update.refName update.kind).permissionLevel ≤ role.permissionLevel ∧
      ∀ rule ∈ EffectiveRules.matching update.refName rules, rule.Permits update role := by
  unfold evaluateRefUpdate
  dsimp only
  split_ifs with explicit
  · rw [ensure_eq_ok, MemberRole.hasAtLeast_iff, and_iff_left]
    rw [EffectiveRules.hasExplicitMatch_forRef, List.any_eq_false] at explicit
    exact fun rule mem => absurd rfl (explicit rule mem)
  · simp only [then_eq_ok, ensure_eq_ok, MemberRole.hasAtLeast_iff, permissionLevel_requiredRole,
      pushRole_forRef_le, EffectiveRules.requirePatch_forRef, EffectiveRules.noForcePush_forRef,
      EffectiveRules.noDelete_forRef, List.any_eq_false, List.any_eq_true]
    constructor
    · rintro ⟨direct, ⟨default, least⟩, force, delete⟩
      refine ⟨default, fun rule mem => ⟨?_, least rule mem, fun forced => ?_, fun deletes => ?_⟩⟩
      · exact Bool.eq_false_of_not_eq_true (direct rule mem)
      · exact force ⟨⟨rule, mem, forced.1⟩, forced.2⟩
      · exact delete ⟨⟨rule, mem, deletes.1⟩, deletes.2⟩
    · rintro ⟨default, permits⟩
      refine ⟨fun rule mem => ?_, ⟨default, fun rule mem => (permits rule mem).pushRole⟩, ?_, ?_⟩
      · exact Bool.eq_false_iff.1 (permits rule mem).direct
      · rintro ⟨⟨rule, mem, flag⟩, kind⟩
        exact (permits rule mem).force ⟨flag, kind⟩
      · rintro ⟨⟨rule, mem, flag⟩, kind⟩
        exact (permits rule mem).delete ⟨flag, kind⟩

/-- The effective rules depend only on which rules there are. -/
theorem forRef_congr {other : List ProtectionRule} (same : ∀ rule, rule ∈ other ↔ rule ∈ rules)
    (refName : String) :
    EffectiveRules.forRef refName other = EffectiveRules.forRef refName rules := by
  have matched : ∀ rule, rule ∈ EffectiveRules.matching refName other ↔
      rule ∈ EffectiveRules.matching refName rules := by
    intro rule
    rw [EffectiveRules.mem_matching, EffectiveRules.mem_matching, same]
  have flags : ∀ sets : ProtectionRule → Bool, (EffectiveRules.matching refName other).any sets =
      (EffectiveRules.matching refName rules).any sets := by
    intro sets
    rw [Bool.eq_iff_iff, List.any_eq_true, List.any_eq_true]
    simp only [matched]
  ext1
  · -- the strictest role is the only one of its level
    have strictest : ∀ {l : List MemberRole} {top : MemberRole},
        top ∈ l.argmax MemberRole.permissionLevel ↔
          top ∈ l ∧ ∀ role ∈ l, role.permissionLevel ≤ top.permissionLevel := by
      intro l top
      rw [List.mem_argmax_iff, ← and_assoc, and_iff_left_of_imp]
      rintro ⟨-, above⟩ role mem level
      rw [MemberRole.permissionLevel_injective (le_antisymm (above role mem) level)]
    rw [EffectiveRules.pushRole_forRef, EffectiveRules.pushRole_forRef]
    refine Option.ext fun top => ?_
    rw [← Option.mem_def, ← Option.mem_def, strictest, strictest]
    simp only [List.mem_filterMap, matched]
  · rw [EffectiveRules.noForcePush_forRef, EffectiveRules.noForcePush_forRef, flags]
  · rw [EffectiveRules.noDelete_forRef, EffectiveRules.noDelete_forRef, flags]
  · rw [EffectiveRules.requirePatch_forRef, EffectiveRules.requirePatch_forRef, flags]
  · rw [EffectiveRules.hasExplicitMatch_forRef, EffectiveRules.hasExplicitMatch_forRef, flags]

end Restrict

/-- Protection rules only restrict.  A push that is allowed under some rules is allowed under fewer
of them and for a higher role; the decision depends neither on the order of the rules nor on
repetitions; a push is allowed if each update alone is; and every update of an allowed push meets the
built-in default and each rule that matches its ref. -/
theorem evaluatePush_restricts (updates : List RefUpdate) (role : MemberRole)
    (rules : List ProtectionRule) :
    (∀ fewer ⊆ rules, evaluatePush updates role rules = .ok () →
      evaluatePush updates role fewer = .ok ()) ∧
    (∀ higher : MemberRole, role.permissionLevel ≤ higher.permissionLevel →
      evaluatePush updates role rules = .ok () → evaluatePush updates higher rules = .ok ()) ∧
    (∀ other, (∀ rule, rule ∈ other ↔ rule ∈ rules) →
      evaluatePush updates role other = evaluatePush updates role rules) ∧
    (evaluatePush updates role rules = .ok () ↔
      ∀ update ∈ updates, evaluatePush [update] role rules = .ok ()) ∧
    (evaluatePush updates role rules = .ok () → ∀ update ∈ updates,
      (defaultMinRole update.refName update.kind).permissionLevel ≤ role.permissionLevel ∧
      ∀ rule ∈ rules, rule.pattern.matchesRef update.refName = true →
        rule.requirePatch = false ∧
        ¬(rule.noForcePush = true ∧ update.kind = .nonFastForward) ∧
        ¬(rule.noDelete = true ∧ update.kind = .delete)) := by
  refine ⟨fun fewer sub allowed => ?_, fun higher level allowed => ?_, fun other same => ?_, ?_,
    fun allowed update mem => ?_⟩
  · refine evaluatePush_eq_ok.2 fun update mem => evaluateRefUpdate_eq_ok.2 ?_
    obtain ⟨default, permits⟩ :=
      evaluateRefUpdate_eq_ok.1 (evaluatePush_eq_ok.1 allowed update mem)
    refine ⟨default, fun rule matched => permits rule ?_⟩
    rw [EffectiveRules.mem_matching] at matched ⊢
    exact ⟨sub matched.1, matched.2⟩
  · refine evaluatePush_eq_ok.2 fun update mem => evaluateRefUpdate_eq_ok.2 ?_
    obtain ⟨default, permits⟩ :=
      evaluateRefUpdate_eq_ok.1 (evaluatePush_eq_ok.1 allowed update mem)
    refine ⟨default.trans level, fun rule matched => ?_⟩
    obtain ⟨direct, pushRole, force, delete⟩ := permits rule matched
    exact ⟨direct, fun least own => (pushRole least own).trans level, force, delete⟩
  · have each : ∀ update, evaluateRefUpdate update role other =
        evaluateRefUpdate update role rules := by
      intro update
      rw [evaluateRefUpdate, forRef_congr same, ← evaluateRefUpdate]
    simp only [evaluatePush, each]
  · simp only [evaluatePush_eq_ok, List.mem_singleton, forall_eq]
  · obtain ⟨default, permits⟩ :=
      evaluateRefUpdate_eq_ok.1 (evaluatePush_eq_ok.1 allowed update mem)
    refine ⟨default, fun rule there matched => ?_⟩
    obtain ⟨direct, -, force, delete⟩ :=
      permits rule ((EffectiveRules.mem_matching _ _).2 ⟨there, matched⟩)
    exact ⟨direct, force, delete⟩

end Git

end Carryforth
