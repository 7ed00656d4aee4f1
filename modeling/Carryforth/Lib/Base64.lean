import Mathlib.Data.List.Basic
import Mathlib.Tactic

/-!
# Base64

An engine for the standard alphabet with padding is a parameter: every list of bytes has one text,
of a known length and in plain signs.  `Base64.standard` is such an engine: three bytes are written
as four symbols, one or two bytes at the end are filled up with padding signs, and the bits of the
last symbol that stand for no byte must be zero when it is read.
-/

class Base64 where
  encode : List UInt8 → List Char
  decode : List Char → Option (List UInt8)
  decode_encode : ∀ bytes, decode (encode bytes) = some bytes
  encode_of_decode : ∀ {cs bytes}, decode cs = some bytes → encode bytes = cs
  length_encode : ∀ bytes, (encode bytes).length = 4 * ((bytes.length + 2) / 3)
  toNat_of_mem_encode : ∀ {bytes c}, c ∈ encode bytes → 43 ≤ c.toNat ∧ c.toNat ≤ 122

namespace Base64

namespace Standard

def alphabet : List Char :=
  "ABCDEFGHIJKLMNOPQRSTUVWXYZabcdefghijklmnopqrstuvwxyz0123456789+/".toList

/-- The sign for six bits. -/
def symbol (n : Nat) : Char := alphabet.getD n '='

/-- The six bits of a sign. -/
def value (c : Char) : Option Nat := alphabet.idxOf? c

def encode : List UInt8 → List Char
  | [] => []
  | [a] => [symbol (a.toNat / 4), symbol (a.toNat % 4 * 16), '=', '=']
  | [a, b] =>
    [symbol (a.toNat / 4), symbol (a.toNat % 4 * 16 + b.toNat / 16), symbol (b.toNat % 16 * 4), '=']
  | a :: b :: c :: rest =>
    symbol (a.toNat / 4) :: symbol (a.toNat % 4 * 16 + b.toNat / 16) ::
      symbol (b.toNat % 16 * 4 + c.toNat / 64) :: symbol (c.toNat % 64) :: encode rest

def decode : List Char → Option (List UInt8)
  | [] => some []
  | w :: x :: y :: z :: rest => do
    let w ← value w
    let x ← value x
    let first := UInt8.ofNat (w * 4 + x / 16)
    if y = '=' ∧ z = '=' ∧ rest = [] then
      if x % 16 = 0 then some [first] else none
    else do
      let y ← value y
      let second := UInt8.ofNat (x % 16 * 16 + y / 4)
      if z = '=' ∧ rest = [] then
        if y % 4 = 0 then some [first, second] else none
      else do
        let z ← value z
        let rest ← decode rest
        return first :: second :: UInt8.ofNat (y % 4 * 64 + z) :: rest
  | _ => none

theorem value_symbol : ∀ n < 64, value (symbol n) = some n := by decide +kernel

theorem symbol_ne : ∀ n < 64, symbol n ≠ '=' := by decide +kernel

theorem ofNat_eq (a : UInt8) {n : Nat} (is : n = a.toNat) : UInt8.ofNat n = a := by
  rw [is, UInt8.ofNat_toNat]

theorem decode_encode (bytes : List UInt8) : decode (encode bytes) = some bytes := by
  fun_induction encode bytes with
  | case1 => rfl
  | case2 a =>
    have small := a.toNat_lt
    rw [decode, value_symbol _ (by omega), value_symbol _ (by omega)]
    simp only [Option.bind_eq_bind, Option.bind_some, true_and, if_true,
      show a.toNat % 4 * 16 % 16 = 0 by omega, ofNat_eq a (n := a.toNat / 4 * 4 +
        a.toNat % 4 * 16 / 16) (by omega)]
  | case3 a b =>
    have smallA := a.toNat_lt
    have smallB := b.toNat_lt
    rw [decode, value_symbol _ (by omega), value_symbol _ (by omega), value_symbol _ (by omega)]
    simp only [Option.bind_eq_bind, Option.bind_some, symbol_ne _ (show b.toNat % 16 * 4 < 64 by omega),
      false_and, if_false, true_and, if_true, show b.toNat % 16 * 4 % 4 = 0 by omega]
    rw [ofNat_eq a (by omega), ofNat_eq b (by omega)]
  | case4 a b c rest ih =>
    have smallA := a.toNat_lt
    have smallB := b.toNat_lt
    have smallC := c.toNat_lt
    rw [decode, value_symbol _ (by omega), value_symbol _ (by omega), value_symbol _ (by omega),
      value_symbol _ (by omega)]
    simp only [Option.bind_eq_bind, Option.bind_some,
      symbol_ne _ (show c.toNat % 64 < 64 by omega), false_and, and_false, if_false, ih]
    rw [ofNat_eq a (by omega), ofNat_eq b (by omega), ofNat_eq c (by omega)]
    rfl

theorem symbol_of_value {c : Char} {n : Nat} (read : value c = some n) : symbol n = c ∧ n < 64 := by
  obtain ⟨inside, is, -⟩ := List.findIdx?_eq_some_iff_getElem.1 read
  refine ⟨?_, inside⟩
  rw [symbol, List.getD_eq_getElem?_getD, List.getElem?_eq_getElem inside]
  exact eq_of_beq is

theorem encode_of_decode {cs : List Char} {bytes : List UInt8} (read : decode cs = some bytes) :
    encode bytes = cs := by
  fun_induction decode cs generalizing bytes with
  | case1 =>
    obtain rfl := Option.some.inj read
    rfl
  | case2 w x y z rest ih =>
    simp only [Option.bind_eq_bind, Option.bind_eq_some_iff] at read
    obtain ⟨wv, readW, xv, readX, read⟩ := read
    obtain ⟨rfl, smallW⟩ := symbol_of_value readW
    obtain ⟨rfl, smallX⟩ := symbol_of_value readX
    have first : (UInt8.ofNat (wv * 4 + xv / 16)).toNat = wv * 4 + xv / 16 := by
      rw [UInt8.toNat_ofNat']
      omega
    by_cases one : y = '=' ∧ z = '=' ∧ rest = []
    · rw [if_pos one, Option.ite_none_right_eq_some] at read
      obtain ⟨bits, read⟩ := read
      obtain ⟨rfl, rfl, rfl⟩ := one
      obtain rfl := Option.some.inj read
      simp only [encode, first, List.cons.injEq, and_true]
      exact ⟨congrArg symbol (by omega), congrArg symbol (by omega)⟩
    · rw [if_neg one, Option.bind_eq_some_iff] at read
      obtain ⟨yv, readY, read⟩ := read
      obtain ⟨rfl, smallY⟩ := symbol_of_value readY
      have second : (UInt8.ofNat (xv % 16 * 16 + yv / 4)).toNat = xv % 16 * 16 + yv / 4 := by
        rw [UInt8.toNat_ofNat']
        omega
      by_cases two : z = '=' ∧ rest = []
      · rw [if_pos two, Option.ite_none_right_eq_some] at read
        obtain ⟨bits, read⟩ := read
        obtain ⟨rfl, rfl⟩ := two
        obtain rfl := Option.some.inj read
        simp only [encode, first, second, List.cons.injEq, and_true]
        exact ⟨congrArg symbol (by omega), congrArg symbol (by omega), congrArg symbol (by omega)⟩
      · simp only [if_neg two, Option.bind_eq_some_iff] at read
        obtain ⟨zv, readZ, after, readRest, is⟩ := read
        obtain ⟨rfl, smallZ⟩ := symbol_of_value readZ
        obtain rfl := Option.some.inj is
        have third : (UInt8.ofNat (yv % 4 * 64 + zv)).toNat = yv % 4 * 64 + zv := by
          rw [UInt8.toNat_ofNat']
          omega
        simp only [encode, first, second, third, List.cons.injEq, ih readRest, and_true]
        exact ⟨congrArg symbol (by omega), congrArg symbol (by omega), congrArg symbol (by omega),
          congrArg symbol (by omega)⟩
  | case3 => cases read

theorem length_encode (bytes : List UInt8) :
    (encode bytes).length = 4 * ((bytes.length + 2) / 3) := by
  fun_induction encode bytes with
  | case1 => rfl
  | case2 a => simp
  | case3 a b => simp
  | case4 a b c rest ih =>
    simp only [List.length_cons, ih]
    omega

/-- The written text has only signs of the alphabet and padding. -/
theorem mem_encode {bytes : List UInt8} {c : Char} (mem : c ∈ encode bytes) :
    c ∈ alphabet ∨ c = '=' := by
  have symbols : ∀ n < 64, symbol n ∈ alphabet := by decide +kernel
  fun_induction encode bytes with
  | case1 => cases mem
  | case2 a =>
    have small := a.toNat_lt
    simp only [List.mem_cons, List.not_mem_nil, or_false] at mem
    rcases mem with rfl | rfl | rfl | rfl
    · exact .inl (symbols _ (by omega))
    · exact .inl (symbols _ (by omega))
    · exact .inr rfl
    · exact .inr rfl
  | case3 a b =>
    have smallA := a.toNat_lt
    have smallB := b.toNat_lt
    simp only [List.mem_cons, List.not_mem_nil, or_false] at mem
    rcases mem with rfl | rfl | rfl | rfl
    · exact .inl (symbols _ (by omega))
    · exact .inl (symbols _ (by omega))
    · exact .inl (symbols _ (by omega))
    · exact .inr rfl
  | case4 a b c rest ih =>
    have smallA := a.toNat_lt
    have smallB := b.toNat_lt
    have smallC := c.toNat_lt
    simp only [List.mem_cons] at mem
    rcases mem with rfl | rfl | rfl | rfl | mem
    · exact .inl (symbols _ (by omega))
    · exact .inl (symbols _ (by omega))
    · exact .inl (symbols _ (by omega))
    · exact .inl (symbols _ (by omega))
    · exact ih mem

theorem toNat_of_mem_encode {bytes : List UInt8} {c : Char} (mem : c ∈ encode bytes) :
    43 ≤ c.toNat ∧ c.toNat ≤ 122 := by
  have signs : alphabet.all (fun c => 43 ≤ c.toNat ∧ c.toNat ≤ 122) = true := by decide +kernel
  rcases mem_encode mem with mem | rfl
  · exact of_decide_eq_true (List.all_eq_true.1 signs c mem)
  · decide

end Standard

@[reducible] def standard : Base64 where
  encode := Standard.encode
  decode := Standard.decode
  decode_encode := Standard.decode_encode
  encode_of_decode := Standard.encode_of_decode
  length_encode := Standard.length_encode
  toNat_of_mem_encode := Standard.toNat_of_mem_encode

end Base64
