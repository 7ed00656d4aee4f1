import Carryforth.Lib.Json
import Carryforth.Lib.OrdMap

/-!
# Manifests

A manifest is the published state of a repository: its refs, its HEAD, the packs that hold its
objects, and the digest of the manifest it replaces.  A ref name that may be published is made of
printable ASCII characters (`toNat_of_isRefnameChar`).
-/

namespace Carryforth

namespace Git

/-- The published state of a repository. -/
structure Manifest where
  version : Nat
  head : String
  refs : OrdMap String String
  packs : List String
  parent : Option String

/-! ## Names -/

def isRefnameChar (c : Char) : Bool :=
  c.isAlphanum || c = '/' || c = '_' || c = '.' || c = '-'

def isSafeRefname (s : String) : Bool :=
  let cs := s.toList
  "refs/".toList.isPrefixOf cs &&
    !(decide (['.', '.'] <:+: cs) || decide (['/', '/'] <:+: cs) || ['/'].isPrefixOf cs ||
      ['/'].isSuffixOf cs) &&
    cs.all isRefnameChar

theorem toNat_of_isRefnameChar {c : Char} (safe : isRefnameChar c = true) :
    45 ≤ c.toNat ∧ c.toNat ≤ 122 ∧ c.toNat ≠ 92 := by
  simp only [isRefnameChar, Char.isAlphanum, Char.isAlpha, Char.isUpper, Char.isLower,
    Char.isDigit, Bool.or_eq_true, Bool.and_eq_true, decide_eq_true_eq, UInt32.le_iff_toNat_le,
    ge_iff_le] at safe
  rcases safe with ((((((upper | lower) | digit) | rfl) | rfl) | rfl) | rfl)
  · have range : 65 ≤ c.toNat ∧ c.toNat ≤ 90 := upper
    omega
  · have range : 97 ≤ c.toNat ∧ c.toNat ≤ 122 := lower
    omega
  · have range : 48 ≤ c.toNat ∧ c.toNat ≤ 57 := digit
    omega
  all_goals decide

theorem isRefnameChar_of_isSafeRefname {s : String} (safe : isSafeRefname s = true) {c : Char}
    (mem : c ∈ s.toList) : isRefnameChar c = true :=
  List.all_eq_true.1 (Bool.and_eq_true_iff.1 safe).2 c mem

/-- A SHA-1 or SHA-256 object identifier. -/
def isHexOid (s : String) : Bool :=
  (Text.byteLength s = 40 || Text.byteLength s = 64) && s.toList.all Text.isAsciiHexdigit

end Git

end Carryforth
