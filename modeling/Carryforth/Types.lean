import Carryforth.Lib.OrdMap
import Carryforth.Lib.Text

/-!
# Shared types

Identifiers are their big-endian bits, so that their order is the byte order of the source.
Instants are whole nanoseconds from the epoch.
-/

namespace Carryforth

/-- A 128-bit identifier. -/
abbrev Uuid := BitVec 128

abbrev PublicKey := BitVec 256

abbrev EventId := BitVec 256

instance : Std.TransOrd Uuid := BitVec.instTransOrd
instance : Std.LawfulEqOrd Uuid := inferInstanceAs (Std.LawfulEqOrd (BitVec 128))
instance : LawfulBEq Uuid := inferInstanceAs (LawfulBEq (BitVec 128))
instance : Std.TransOrd PublicKey := BitVec.instTransOrd
instance : Std.LawfulEqOrd PublicKey := inferInstanceAs (Std.LawfulEqOrd (BitVec 256))
instance : LawfulBEq PublicKey := inferInstanceAs (LawfulBEq (BitVec 256))

abbrev DateTime := Int

def days (n : Int) : Int := n * 86400000000000

/-- The largest integer JavaScript represents exactly. -/
def maxSafeRevision : Nat := 9007199254740991

namespace Uuid

def isNil (id : Uuid) : Bool := id == 0

/-- The version nibble, the upper half of byte six. -/
def versionNum (id : Uuid) : Nat := (id.extractLsb 79 76).toNat

/-- The variant bits of byte eight are those of RFC 4122. -/
def isRfc4122 (id : Uuid) : Bool := id.extractLsb 63 62 == 2

def isV4 (id : Uuid) : Bool := id.versionNum == 4 && id.isRfc4122

theorem le_of_compare {a b : Uuid} (le : (compare a b).isLE = true) : a ≤ b := by
  change (compareOfLessAndEq a b).isLE = true at le
  unfold compareOfLessAndEq at le
  split_ifs at le with below same
  · exact BitVec.le_of_lt below
  · exact BitVec.le_of_eq same
  · cases le

/-- The 8-4-4-4-12 hexadecimal spelling. -/
def toText (id : Uuid) : String :=
  let digits := Text.hexDigits 32 id.toNat
  String.ofList (digits.take 8 ++ '-' :: ((digits.drop 8).take 4 ++ '-' ::
    ((digits.drop 12).take 4 ++ '-' :: ((digits.drop 16).take 4 ++ '-' :: digits.drop 20))))

theorem mem_toText {id : Uuid} {c : Char} (mem : c ∈ id.toText.toList) :
    c = '-' ∨ c ∈ Text.hexDigits 32 id.toNat := by
  simp only [toText, String.toList_ofList, List.mem_append, List.mem_cons] at mem
  rcases mem with h | h | h | h | h | h | h | h | h
  · exact .inr (List.mem_of_mem_take h)
  · exact .inl h
  · exact .inr (List.mem_of_mem_drop (List.mem_of_mem_take h))
  · exact .inl h
  · exact .inr (List.mem_of_mem_drop (List.mem_of_mem_take h))
  · exact .inl h
  · exact .inr (List.mem_of_mem_drop (List.mem_of_mem_take h))
  · exact .inl h
  · exact .inr (List.mem_of_mem_drop h)

theorem byteLength_toText (id : Uuid) : Text.byteLength id.toText = 36 := by
  have length := Text.hexDigits_length 32 id.toNat
  rw [← String.ofList_toList (s := id.toText), Text.byteLength_ofList, toText, String.toList_ofList]
  · simp only [List.length_append, List.length_cons, List.length_take, List.length_drop, length]
    rfl
  · intro c mem
    rcases mem_toText mem with rfl | digit
    · decide
    · exact Text.hexDigits_utf8Size digit

end Uuid

example : Uuid.isV4 0x00000000000040008000000000000001 = true := by decide

example : Uuid.toText 0x00112233445566778899aabbccddeeff =
    "00112233-4455-6677-8899-aabbccddeeff" := by decide

inductive SchemaVersion
  | v1
  | v2
  | v3
deriving DecidableEq, Repr

def SchemaVersion.asU16 : SchemaVersion → Nat
  | .v1 => 1
  | .v2 => 2
  | .v3 => 3

/-- Governance level of a Role: a Leader Role or an ordinary Role. -/
inductive RoleLevel
  | admin
  | member
deriving DecidableEq, Repr

theorem RoleLevel.eq_member_of_ne {level : RoleLevel} (ordinary : level ≠ .admin) :
    level = .member := by
  cases level with
  | admin => exact absurd rfl ordinary
  | member => rfl

def RoleLevel.asStr : RoleLevel → String
  | .admin => "admin"
  | .member => "member"

inductive WorkStatus
  | pending
  | inProgress
  | paused
  | submitted
  | completed
  | cancelled
deriving DecidableEq, Repr

/-- A server-issued epoch of a supervised runtime. -/
structure RuntimeFence where
  runtimeId : Uuid
  runtimeEpoch : Nat
deriving DecidableEq, Repr

def maxSafeRuntimeEpoch : Nat := 9007199254740991

/-- A runtime fence has a non-nil identity and a JavaScript-safe positive epoch. -/
def RuntimeFence.validate (fence : RuntimeFence) : Except String Unit := do
  Fallible.ensure (¬fence.runtimeId.isNil = true) "runtime_id cannot be nil"
  Fallible.ensure (1 ≤ fence.runtimeEpoch ∧ fence.runtimeEpoch ≤ maxSafeRuntimeEpoch)
    "runtime_epoch must be in the JavaScript-safe positive range"

end Carryforth
