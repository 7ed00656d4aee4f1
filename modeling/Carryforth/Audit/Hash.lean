import Carryforth.Lib.Bytes
import Carryforth.Lib.CanonicalJson
import Carryforth.Types

/-!
# Audit hashes

An audit entry is hashed with its place in the chain of its community.  The fields are written one
after another; the actor and the object have a byte in front that says whether they are there, but
no length.  Up to the action the fields are told apart by what they are written with, and the
previous hash by its length at the end.  The actor, the object and the detail between them are told
apart exactly when the actors and the objects have the same lengths (`agree_iff_sameLengths`).
-/

namespace Carryforth

namespace Audit

inductive AuditAction
  | eventCreated
  | eventDeleted
  | channelCreated
  | channelUpdated
  | channelDeleted
  | memberAdded
  | memberRemoved
  | authSuccess
  | authFailure
  | rateLimitExceeded
  | mediaUploaded
  | projectViewCutover
  | projectViewMaintenance
  | projectViewProvisioning
  | projectViewSecurityInvalidation
  | projectContextControl
  | projectContextEdgeControl
  | projectDocumentControl
  | runtimeSupervisorRegistered
  | runtimeSupervisorRevoked
  | runtimeAssignmentUnrecoverable
deriving DecidableEq, Repr

namespace AuditAction

def asStr : AuditAction → String
  | .eventCreated => "event_created"
  | .eventDeleted => "event_deleted"
  | .channelCreated => "channel_created"
  | .channelUpdated => "channel_updated"
  | .channelDeleted => "channel_deleted"
  | .memberAdded => "member_added"
  | .memberRemoved => "member_removed"
  | .authSuccess => "auth_success"
  | .authFailure => "auth_failure"
  | .rateLimitExceeded => "rate_limit_exceeded"
  | .mediaUploaded => "media_uploaded"
  | .projectViewCutover => "project_view_cutover"
  | .projectViewMaintenance => "project_view_maintenance"
  | .projectViewProvisioning => "project_view_provisioning"
  | .projectViewSecurityInvalidation => "project_view_security_invalidation"
  | .projectContextControl => "project_context_control"
  | .projectContextEdgeControl => "project_context_edge_control"
  | .projectDocumentControl => "project_document_control"
  | .runtimeSupervisorRegistered => "runtime_supervisor_registered"
  | .runtimeSupervisorRevoked => "runtime_supervisor_revoked"
  | .runtimeAssignmentUnrecoverable => "runtime_assignment_unrecoverable"

def all : List AuditAction :=
  [.eventCreated, .eventDeleted, .channelCreated, .channelUpdated, .channelDeleted, .memberAdded,
    .memberRemoved, .authSuccess, .authFailure, .rateLimitExceeded, .mediaUploaded,
    .projectViewCutover, .projectViewMaintenance, .projectViewProvisioning,
    .projectViewSecurityInvalidation, .projectContextControl, .projectContextEdgeControl,
    .projectDocumentControl, .runtimeSupervisorRegistered, .runtimeSupervisorRevoked,
    .runtimeAssignmentUnrecoverable]

def fromStr (s : String) : Except String AuditAction :=
  Fallible.okOr (all.find? fun a => a.asStr = s) ("unknown audit action: " ++ s.quote)

theorem fromStr_asStr (a : AuditAction) : fromStr a.asStr = .ok a := by
  cases a <;> decide +kernel

theorem asStr_injective : Function.Injective asStr := by
  intro a b same
  have back := fromStr_asStr a
  rw [same, fromStr_asStr] at back
  exact (Except.ok.inj back).symm

/-- The text of an action begins with a letter and has only letters and underscores. -/
theorem letters_asStr (a : AuditAction) :
    a.asStr.toList.all (fun c => c = '_' || c.isLower) = true ∧
      a.asStr.toList.head?.any Char.isLower = true := by
  cases a <;> decide +kernel

theorem toNat_of_isLower {c : Char} (lower : c.isLower = true) : 97 ≤ c.toNat ∧ c.toNat ≤ 122 := by
  simp only [Char.isLower, Bool.and_eq_true, decide_eq_true_eq] at lower
  exact lower

theorem toNat_of_mem_asStr {a : AuditAction} {c : Char} (mem : c ∈ a.asStr.toList) :
    95 ≤ c.toNat ∧ c.toNat ≤ 122 := by
  have letter := List.all_eq_true.1 (letters_asStr a).1 c mem
  rw [Bool.or_eq_true, decide_eq_true_eq] at letter
  rcases letter with rfl | lower
  · decide
  · have bounds := toNat_of_isLower lower
    omega

theorem utf8_asStr (a : AuditAction) :
    Text.utf8 a.asStr = a.asStr.toList.map fun c => UInt8.ofNat c.toNat := by
  have ascii : ∀ c ∈ a.asStr.toList, c.toNat ≤ 127 := by
    intro c mem
    have letter := toNat_of_mem_asStr mem
    omega
  have text := Text.utf8_ofList ascii
  rwa [String.ofList_toList] at text

theorem not_lt_of_mem_utf8 (a : AuditAction) : ∀ b ∈ Text.utf8 a.asStr, ¬b < 2 := by
  intro b mem
  rw [utf8_asStr] at mem
  obtain ⟨c, char, rfl⟩ := List.mem_map.1 mem
  have letter := toNat_of_mem_asStr char
  rw [UInt8.lt_iff_toNat_lt, UInt8.toNat_ofNat', Nat.mod_eq_of_lt (by omega)]
  simp only [UInt8.reduceToNat]
  omega

theorem exists_cons_utf8 (a : AuditAction) :
    ∃ b bs, Text.utf8 a.asStr = b :: bs ∧ ¬b < 97 := by
  have lower := (letters_asStr a).2
  cases text : a.asStr.toList with
  | nil =>
    rw [text] at lower
    cases lower
  | cons c cs =>
    rw [text] at lower
    have letter := toNat_of_isLower lower
    refine ⟨_, _, (utf8_asStr a).trans (congrArg _ text), ?_⟩
    rw [UInt8.lt_iff_toNat_lt, UInt8.toNat_ofNat', Nat.mod_eq_of_lt (by omega)]
    simp only [UInt8.reduceToNat]
    omega

end AuditAction

/-- The texts of other libraries that are hashed: scalars in JSON, and times, which are told apart and
have no lower case letters. -/
class HashText extends Json.ScalarText where
  toRfc3339 : DateTime → String
  toRfc3339_injective : Function.Injective toRfc3339
  lt_of_mem_toRfc3339 : ∀ {t c}, c ∈ (toRfc3339 t).toList → c.toNat < 97

structure AuditEntry where
  communityId : Uuid
  seq : Int64
  hash : List UInt8
  prevHash : Option (List UInt8)
  action : AuditAction
  actorPubkey : Option (List UInt8)
  objectId : Option String
  detail : Json.Document
  createdAt : DateTime

def genesisHash : List UInt8 := List.replicate 32 0

/-- Whole microseconds. -/
def toStoragePrecision (createdAt : DateTime) : DateTime := createdAt - createdAt % 1000

/-- An optional field with its presence byte. -/
def present : Option (List UInt8) → List UInt8
  | some bytes => 1 :: bytes
  | none => [0]

namespace AuditEntry

variable [HashText] (e : AuditEntry)

def timestamp : String := HashText.toRfc3339 (toStoragePrecision e.createdAt)

def context : List UInt8 :=
  present e.actorPubkey ++ (present (e.objectId.map Text.utf8) ++
    (Text.utf8 (String.ofList (Json.canonical e.detail.value)) ++ e.prevHash.getD genesisHash))

def hashInput : List UInt8 :=
  Bytes.bigEndian 16 e.communityId.toNat ++ (Bytes.bigEndian 8 e.seq.toBitVec.toNat ++
    (Text.utf8 e.timestamp ++ (Text.utf8 e.action.asStr ++ e.context)))

/-- The hash of an entry; its own `hash` field is not read. -/
def computeHash (sha256 : List UInt8 → BitVec 256) : List UInt8 :=
  Bytes.bigEndian 32 (sha256 e.hashInput).toNat

theorem computeHash_withHash (sha256 : List UInt8 → BitVec 256) (hash : List UInt8) :
    { e with hash := hash }.computeHash sha256 = e.computeHash sha256 := by
  unfold computeHash hashInput context timestamp
  rfl

end AuditEntry

/-- Two entries are equal up to the precision of storage, the order of the fields of their details,
and the way a missing previous hash is written. -/
structure Agree (e f : AuditEntry) : Prop where
  communityId : e.communityId = f.communityId
  seq : e.seq = f.seq
  createdAt : toStoragePrecision e.createdAt = toStoragePrecision f.createdAt
  action : e.action = f.action
  actorPubkey : e.actorPubkey = f.actorPubkey
  objectId : e.objectId = f.objectId
  detail : Json.sortKeys e.detail.value = Json.sortKeys f.detail.value
  prevHash : e.prevHash.getD genesisHash = f.prevHash.getD genesisHash

def SameLengths (e f : AuditEntry) : Prop :=
  e.actorPubkey.map List.length = f.actorPubkey.map List.length ∧
    e.objectId.map Text.byteLength = f.objectId.map Text.byteLength

variable {e f : AuditEntry}

/-! ## The fields before the context -/

section

variable [HashText]

theorem timestamp_bytes (e : AuditEntry) : ∀ b ∈ Text.utf8 e.timestamp, b < 97 := by
  intro b mem
  have ascii : ∀ c ∈ e.timestamp.toList, c.toNat ≤ 127 :=
    fun c mem => Nat.le_trans (Nat.le_of_lt (HashText.lt_of_mem_toRfc3339 mem)) (by decide)
  rw [Text.utf8_eq_map ascii] at mem
  obtain ⟨c, char, rfl⟩ := List.mem_map.1 mem
  have small := HashText.lt_of_mem_toRfc3339 char
  rw [UInt8.lt_iff_toNat_lt, UInt8.toNat_ofNat']
  exact Nat.lt_of_le_of_lt (Nat.mod_le _ _) small

omit [HashText] in
theorem head_action (e : AuditEntry) (rest : List UInt8) :
    ∀ b ∈ (Text.utf8 e.action.asStr ++ rest).head?, ¬b < 97 := by
  intro b first
  obtain ⟨c, cs, bytes, letter⟩ := AuditAction.exists_cons_utf8 e.action
  rw [bytes] at first
  cases first
  exact letter

theorem head_context (e : AuditEntry) : ∀ b ∈ e.context.head?, ¬¬b < 2 := by
  intro b first
  unfold AuditEntry.context present at first
  cases actor : e.actorPubkey with
  | some bytes =>
    rw [actor] at first
    cases first
    decide
  | none =>
    rw [actor] at first
    cases first
    decide

theorem fields_of_hashInput (same : e.hashInput = f.hashInput) :
    e.communityId = f.communityId ∧ e.seq = f.seq ∧
      toStoragePrecision e.createdAt = toStoragePrecision f.createdAt ∧ e.action = f.action ∧
      e.context = f.context := by
  unfold AuditEntry.hashInput at same
  obtain ⟨community, same⟩ := List.append_inj same (by simp)
  obtain ⟨seq, same⟩ := List.append_inj same (by simp)
  obtain ⟨time, same⟩ := Delimited.append_inj_of_kind (timestamp_bytes e) (timestamp_bytes f)
    (head_action e _) (head_action f _) same
  obtain ⟨action, context⟩ := Delimited.append_inj_of_kind
    (AuditAction.not_lt_of_mem_utf8 e.action) (AuditAction.not_lt_of_mem_utf8 f.action)
    (head_context e) (head_context f) same
  refine ⟨?_, ?_, ?_, AuditAction.asStr_injective (Text.utf8_injective action), context⟩
  · exact BitVec.eq_of_toNat_eq
      (Bytes.bigEndian_inj e.communityId.isLt f.communityId.isLt community)
  · exact Int64.toBitVec_inj.1 (BitVec.eq_of_toNat_eq
      (Bytes.bigEndian_inj e.seq.toBitVec.isLt f.seq.toBitVec.isLt seq))
  · exact HashText.toRfc3339_injective (Text.utf8_injective time)

/-! ## The context -/

omit [HashText] in
theorem present_append_inj {a b : Option (List UInt8)} {s t : List UInt8}
    (lengths : a.map List.length = b.map List.length) (same : present a ++ s = present b ++ t) :
    a = b ∧ s = t := by
  cases a with
  | none =>
    cases b with
    | none => exact ⟨rfl, (List.cons.inj same).2⟩
    | some b => cases lengths
  | some a =>
    cases b with
    | none => cases lengths
    | some b =>
      obtain ⟨rfl, rest⟩ := List.append_inj (List.cons.inj same).2 (Option.some.inj lengths)
      exact ⟨rfl, rest⟩

omit [HashText] in
/-- A previous hash is 32 bytes long, also when there is none. -/
theorem length_prevHash (sized : ∀ h ∈ e.prevHash, h.length = 32) :
    (e.prevHash.getD genesisHash).length = 32 := by
  cases prev : e.prevHash with
  | none => rfl
  | some h => exact sized h prev

/-- Of two entries that are hashed from the same bytes, all fields agree exactly when the actors
have the same length and the objects have the same length. -/
theorem agree_iff_sameLengths (sized : ∀ h ∈ e.prevHash, h.length = 32)
    (sized' : ∀ h ∈ f.prevHash, h.length = 32) (same : e.hashInput = f.hashInput) :
    Agree e f ↔ SameLengths e f := by
  constructor
  · intro agree
    exact ⟨congrArg (Option.map List.length) agree.actorPubkey,
      congrArg (Option.map Text.byteLength) agree.objectId⟩
  · rintro ⟨actors, objects⟩
    obtain ⟨community, seq, time, action, same⟩ := fields_of_hashInput same
    obtain ⟨actor, same⟩ := present_append_inj actors same
    have lengths : (e.objectId.map Text.utf8).map List.length =
        (f.objectId.map Text.utf8).map List.length := by
      rw [Option.map_map, Option.map_map]
      exact objects
    obtain ⟨object, same⟩ := present_append_inj lengths same
    obtain ⟨detail, prev⟩ := List.append_inj' same
      ((length_prevHash sized).trans (length_prevHash sized').symm)
    exact {
      communityId := community
      seq := seq
      createdAt := time
      action := action
      actorPubkey := actor
      objectId := Option.map_injective Text.utf8_injective object
      detail := Json.sortKeys_eq_of_canonical e.detail.wellFormed f.detail.wellFormed
        (String.ofList_injective (Text.utf8_injective detail))
      prevHash := prev }

end

/-! ## A collision -/

def instantNumber (t : Int) : Json.Number :=
  if 0 ≤ t then .nat t.toNat else .neg (-t).toNat

theorem instantNumber_wellFormed (t : Int) : (instantNumber t).WellFormed := by
  unfold instantNumber
  split_ifs with negative
  · trivial
  · change 0 < (-t).toNat
    omega

theorem instantNumber_injective : Function.Injective instantNumber := by
  intro t u same
  unfold instantNumber at same
  split_ifs at same
  · have := Json.Number.nat.inj same
    omega
  · have := Json.Number.neg.inj same
    omega

/-- The epoch as it is written, and other instants by their numbers. -/
@[reducible] def sampleText : HashText where
  toScalarText := Json.plainText
  toRfc3339 t :=
    if t = 0 then "1970-01-01T00:00:00+00:00" else String.ofList (instantNumber t).write
  toRfc3339_injective := by
    have apart : ∀ t : DateTime,
        "1970-01-01T00:00:00+00:00" ≠ String.ofList (instantNumber t).write := by
      intro t same
      have letter : 'T' ∈ (instantNumber t).write := by
        rw [← String.toList_ofList (l := (instantNumber t).write), ← same]
        decide
      exact absurd (Json.Number.numberChar_of_mem_write (instantNumber_wellFormed t) _ letter)
        (by decide)
    intro t u same
    dsimp only at same
    split_ifs at same with epoch epoch' epoch'
    · rw [epoch, epoch']
    · exact absurd same (apart u)
    · exact absurd same.symm (apart t)
    · exact instantNumber_injective (Json.Number.write_inj (instantNumber_wellFormed t)
        (instantNumber_wellFormed u) (String.ofList_injective same))
  lt_of_mem_toRfc3339 := by
    intro t c mem
    split_ifs at mem
    · have low : "1970-01-01T00:00:00+00:00".toList.all (fun c => decide (c.toNat < 97)) = true := by
        decide
      exact of_decide_eq_true (List.all_eq_true.1 low c mem)
    · rw [String.toList_ofList] at mem
      unfold instantNumber at mem
      have digit : ∀ n, c ∈ Json.nat n → c.toNat < 97 := fun n mem =>
        Nat.lt_of_le_of_lt (Text.toNat_of_isDigit (Json.isDigit_of_mem_nat mem)).2 (by decide)
      split_ifs at mem
      · exact digit _ mem
      · rcases List.mem_cons.1 mem with rfl | mem
        · decide
        · exact digit _ mem

/-- An entry about an object, with a number as its detail. -/
def sampleEntry (objectId : String) (detail : Nat) (prevHash : Option (List UInt8)) :
    AuditEntry where
  communityId := 1
  seq := 1
  hash := []
  prevHash := prevHash
  action := .mediaUploaded
  actorPubkey := some [0xab]
  objectId := some objectId
  detail := ⟨.number (.nat detail), .number trivial⟩
  createdAt := 0

theorem agree_iff_sameLengths_sampleEntry :
    @AuditEntry.hashInput sampleText (sampleEntry "abc" 1 none) =
      @AuditEntry.hashInput sampleText (sampleEntry "abc" 1 (some genesisHash)) ∧
    Agree (sampleEntry "abc" 1 none) (sampleEntry "abc" 1 (some genesisHash)) := by
  have first : ∀ h ∈ (sampleEntry "abc" 1 none).prevHash, h.length = 32 := fun h is => nomatch is
  have second : ∀ h ∈ (sampleEntry "abc" 1 (some genesisHash)).prevHash, h.length = 32 := by
    rintro h ⟨⟩
    rfl
  exact ⟨rfl, (@agree_iff_sameLengths _ _ sampleText first second rfl).2 ⟨rfl, rfl⟩⟩

/-- The last digit of an object may as well be the first digit of the detail. -/
theorem hashInput_collision :
    @AuditEntry.hashInput sampleText (sampleEntry "abc1" 2 none) =
      @AuditEntry.hashInput sampleText (sampleEntry "abc" 12 none) ∧
    ¬Agree (sampleEntry "abc1" 2 none) (sampleEntry "abc" 12 none) := by
  refine ⟨by decide +kernel, fun agree => ?_⟩
  exact absurd agree.objectId (by decide)

end Audit

end Carryforth
