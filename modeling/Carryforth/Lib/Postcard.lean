import Carryforth.Lib.Bytes
import Carryforth.Lib.Delimited
import Carryforth.Lib.Text

/-!
# Postcard

A binary format without names and types: texts and lists stand behind their length, optional values
behind a mark that says whether there is one, the variants of an enumeration behind their index, and
records are written field by field.  The bytes of numbers and marks are those of a serializer, which
is a parameter: all that is used of it is that each of them can be told from what follows.  Then
every value can, which is a field of the class of the values that have an encoding.
-/

open Delimited

/-- How a serializer writes numbers, and the mark of an optional value. -/
class PostcardFormat where
  unsigned : Nat → List UInt8
  signed : Int → List UInt8
  mark : Bool → List UInt8
  delimits_unsigned : SelfDelimiting (fun _ => True) unsigned
  delimits_signed : SelfDelimiting (fun _ => True) signed
  delimits_mark : SelfDelimiting (fun _ => True) mark

class Postcard (α : Type) where
  write [PostcardFormat] : α → List UInt8
  delimits [PostcardFormat] : SelfDelimiting (fun _ : α => True) write

namespace PostcardFormat

theorem mark_ne_nil [PostcardFormat] (present : Bool) : mark present ≠ [] := by
  intro empty
  have same : mark present ++ mark (!present) = mark (!present) ++ [] := by
    rw [empty, List.nil_append, List.append_nil]
  have := (delimits_mark trivial trivial same).1
  simp at this

/-- A number in groups of seven bits, the lowest first; the last one has no high bit. -/
def varint (n : Nat) : List UInt8 :=
  if n < 128 then [UInt8.ofNat n] else UInt8.ofNat (n % 128 + 128) :: varint (n / 128)

theorem delimits_varint : SelfDelimiting (fun _ => True) varint := by
  intro n m _ _ s t same
  induction n using Nat.strongRecOn generalizing m with
  | ind n ih =>
    rw [varint, varint.eq_def m] at same
    have byte : ∀ k, k < 256 → (UInt8.ofNat k).toNat = k := fun k small => by
      rw [UInt8.toNat_ofNat']
      omega
    split_ifs at same with last last' last'
    · obtain ⟨first, rest⟩ := List.cons.inj same
      have numbers := congrArg UInt8.toNat first
      rw [byte n (by omega), byte m (by omega)] at numbers
      exact ⟨numbers, rest⟩
    · have numbers := congrArg UInt8.toNat (List.cons.inj same).1
      rw [byte n (by omega), byte (m % 128 + 128) (by omega)] at numbers
      omega
    · have numbers := congrArg UInt8.toNat (List.cons.inj same).1
      rw [byte (n % 128 + 128) (by omega), byte m (by omega)] at numbers
      omega
    · obtain ⟨first, rest⟩ := List.cons.inj same
      have numbers := congrArg UInt8.toNat first
      rw [byte (n % 128 + 128) (by omega), byte (m % 128 + 128) (by omega)] at numbers
      obtain ⟨quotients, after⟩ := ih (n / 128) (by omega) rest
      exact ⟨by omega, after⟩

/-- The sign is the lowest bit. -/
def zigzag (i : Int) : Nat := if 0 ≤ i then 2 * i.toNat else 2 * (-i).toNat - 1

theorem zigzag_injective : Function.Injective zigzag := by
  intro i j same
  rw [zigzag, zigzag] at same
  split_ifs at same <;> omega

@[reducible] def standard : PostcardFormat where
  unsigned := varint
  signed i := varint (zigzag i)
  mark present := [if present then 1 else 0]
  delimits_unsigned := delimits_varint
  delimits_signed := delimits_varint.comap zigzag_injective fun _ _ => trivial
  delimits_mark := of_length (fun _ _ => rfl) fun a b same => by
    cases a <;> cases b <;> first | rfl | cases same

end PostcardFormat

namespace Postcard

open PostcardFormat

variable {α β : Type}

/-- Unsigned numbers of any width. -/
instance : Postcard Nat := ⟨unsigned, fun [PostcardFormat] => delimits_unsigned⟩

/-- Signed numbers of any width. -/
instance : Postcard Int := ⟨signed, fun [PostcardFormat] => delimits_signed⟩

/-- A value by something else that identifies it, such as its fields in their order. -/
@[reducible] def via [Postcard β] (parts : α → β) (inj : Function.Injective parts) : Postcard α where
  write a := write (parts a)
  delimits := fun [PostcardFormat] => delimits.comap inj fun _ _ => trivial

instance : Postcard Int64 := via Int64.toInt fun _ _ same => Int64.toInt_inj.1 same

theorem delimits_bigEndian (n : Nat) : SelfDelimiting (fun _ => True)
    fun v : BitVec (8 * n) => Bytes.bigEndian n v.toNat := by
  refine of_length (fun _ _ => Bytes.length_bigEndian n _) fun a b same => ?_
  have small : ∀ v : BitVec (8 * n), v.toNat < 256 ^ n := fun v => by
    have bound := v.isLt
    rwa [Nat.pow_mul] at bound
  exact BitVec.eq_of_toNat_eq (Bytes.bigEndian_inj (small a) (small b) same)

@[reducible] def array (n : Nat) : Postcard (BitVec (8 * n)) where
  write v := Bytes.bigEndian n v.toNat
  delimits := fun [PostcardFormat] => delimits_bigEndian n

instance : Postcard (BitVec 128) := array 16
instance : Postcard (BitVec 256) := array 32
instance : Postcard (BitVec 512) := array 64

def lengthPrefixed [PostcardFormat] (bytes : List UInt8) : List UInt8 := unsigned bytes.length ++ bytes

instance : Postcard String where
  write s := lengthPrefixed (Text.utf8 s)
  delimits := fun [PostcardFormat] => Delimited.lengthPrefixed delimits_unsigned Text.utf8_injective

instance [Postcard α] [Postcard β] : Postcard (α × β) where
  write v := write v.1 ++ write v.2
  delimits := fun [PostcardFormat] _ _ _ _ =>
    (delimits.pair delimits) ⟨trivial, trivial⟩ ⟨trivial, trivial⟩

/-- One of two variants. -/
instance [Postcard α] [Postcard β] : Postcard (α ⊕ β) where
  write v := unsigned (if v.isLeft then 0 else 1) ++ v.elim write write
  delimits := fun [PostcardFormat] => delimits_unsigned.tagged (fun _ _ => trivial) <| by
    intro v w tags s t same
    match v, w with
    | .inl a, .inl b =>
      obtain ⟨rfl, rest⟩ := delimits (a := a) (b := b) trivial trivial same
      exact ⟨rfl, rest⟩
    | .inr a, .inr b =>
      obtain ⟨rfl, rest⟩ := delimits (a := a) (b := b) trivial trivial same
      exact ⟨rfl, rest⟩
    | .inl _, .inr _ => cases tags
    | .inr _, .inl _ => cases tags

instance [Postcard α] : Postcard (Option α) where
  write o := mark o.isSome ++ o.elim [] write
  delimits := fun [PostcardFormat] => delimits_mark.tagged (fun _ _ => trivial) <| by
    intro o o' marks s t same
    match o, o' with
    | none, none => exact ⟨rfl, same⟩
    | some a, some b =>
      obtain ⟨rfl, rest⟩ := delimits (a := a) (b := b) trivial trivial same
      exact ⟨rfl, rest⟩
    | none, some _ => cases marks
    | some _, none => cases marks

instance [Postcard α] : Postcard (List α) where
  write l := unsigned l.length ++ l.flatMap write
  delimits := fun [PostcardFormat] _ _ _ _ =>
    (delimits.counted delimits_unsigned) ⟨trivial, fun _ _ => trivial⟩ ⟨trivial, fun _ _ => trivial⟩

theorem write_injective [PostcardFormat] [Postcard α] : Function.Injective (write : α → List UInt8) :=
  fun _ _ same => (delimits trivial trivial (congrArg (· ++ []) same)).1

end Postcard
