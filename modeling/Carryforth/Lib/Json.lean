import Carryforth.Lib.Text

/-!
# JSON text

Values of JSON texts and a writer of compact ones, without whitespace and with the usual escapes
inside strings.  The reader is in `Lib.Rfc8259`.
-/

namespace Json

/-! ## Strings -/

/-- A character inside a string. -/
def escape (c : Char) : List Char :=
  if c = '"' then ['\\', '"']
  else if c = '\\' then ['\\', '\\']
  else if c = '\x08' then ['\\', 'b']
  else if c = '\x0c' then ['\\', 'f']
  else if c = '\n' then ['\\', 'n']
  else if c = '\r' then ['\\', 'r']
  else if c = '\t' then ['\\', 't']
  else if c.toNat < 0x20 then '\\' :: 'u' :: '0' :: '0' :: Text.hexDigits 2 c.toNat
  else [c]

def string (s : String) : List Char := '"' :: (s.toList.flatMap escape ++ ['"'])

theorem escape_eq_self {c : Char} (low : 0x23 ≤ c.toNat) (slash : c.toNat ≠ 0x5C) :
    escape c = [c] := by
  have other : ∀ d : Char, d.toNat < 0x23 ∨ d.toNat = 0x5C → c ≠ d := by
    rintro d special rfl
    omega
  rw [escape, if_neg (other _ (by decide)), if_neg (other _ (by decide)),
    if_neg (other _ (by decide)), if_neg (other _ (by decide)), if_neg (other _ (by decide)),
    if_neg (other _ (by decide)), if_neg (other _ (by decide)), if_neg (by omega)]

/-! ## Numbers -/

def nat (n : Nat) : List Char := Nat.toDigits 10 n

theorem exists_cons_nat (n : Nat) : ∃ c cs, nat n = c :: cs ∧ c.isDigit = true := by
  obtain ⟨c, cs, first⟩ := List.exists_cons_of_ne_nil (@Nat.toDigits_ne_nil n 10)
  exact ⟨c, cs, first, Nat.isDigit_of_mem_toDigits (by decide) (by decide)
    (first ▸ List.mem_cons_self)⟩

/-! ## Lists -/

/-- Items with commas between them, up to a closing bracket. -/
def items (close : Char) : List (List Char) → List Char
  | [] => [close]
  | item :: rest => item ++ rest.flatMap (',' :: ·) ++ [close]

/-- What may follow a value. -/
def Ends (s : List Char) : Prop := ∀ c ∈ s.head?, c = ',' ∨ c = ']' ∨ c = '\x7d'

theorem ends_nil : Ends [] := fun _ first => nomatch first

theorem ends_cons {c : Char} {s : List Char} (is : c = ',' ∨ c = ']' ∨ c = '\x7d') :
    Ends (c :: s) := by
  rintro d ⟨⟩
  exact is

/-- An item is followed by the comma of the next one or by the closing bracket. -/
theorem ends_more {α : Type} {write : α → List Char} {close : Char}
    (closes : close = ']' ∨ close = '\x7d') (l : List α) (rest : List Char) :
    Ends (l.flatMap (fun a => ',' :: write a) ++ close :: rest) := by
  cases l with
  | nil => exact ends_cons (.inr closes)
  | cons a l => exact ends_cons (.inl rfl)

/-! ## Values -/

inductive Number
  | nat (n : Nat)
  | neg (n : Nat)
  | float (digits : String)
deriving DecidableEq, Repr

/-- A parsed text.  An object is looked up by name and lists every name once. -/
inductive Value
  | null
  | bool (b : Bool)
  | number (n : Number)
  | string (s : String)
  | array (items : List Value)
  | object (fields : List (String × Value))

namespace Value

def asStr : Value → Option String
  | .string s => some s
  | _ => none

def asU64 : Value → Option Nat
  | .number (.nat n) => some n
  | _ => none

def isFloat : Value → Bool
  | .number (.float _) => true
  | _ => false

def asArray : Value → Option (List Value)
  | .array items => some items
  | _ => none

def asObject : Value → Option (List (String × Value))
  | .object fields => some fields
  | _ => none

def get (v : Value) (name : String) : Option Value := v.asObject.bind fun fields => fields.lookup name

end Value

/-! ## Compact texts -/

/-- The text of a value with at most `depth` arrays and objects around any of its parts. -/
def writeValue : Nat → Value → List Char
  | _, .null => ['n', 'u', 'l', 'l']
  | _, .string s => string s
  | _, .number (.nat n) => nat n
  | depth + 1, .array l => '[' :: items ']' (l.map (writeValue depth))
  | depth + 1, .object l =>
    '\x7b' :: items '\x7d' (l.map fun f => string f.1 ++ ':' :: writeValue depth f.2)
  | _, _ => []

/-- The values that `writeValue` writes. -/
inductive Compact : Nat → Value → Prop
  | null {depth : Nat} : Compact depth .null
  | string {depth : Nat} (s : String) : Compact depth (.string s)
  | nat {depth n : Nat} : n < 2 ^ 64 → Compact depth (.number (.nat n))
  | array {depth : Nat} {l : List Value} : (∀ v ∈ l, Compact depth v) → Compact (depth + 1) (.array l)
  | object {depth : Nat} {l : List (String × Value)} : (l.map Prod.fst).Nodup →
      (∀ f ∈ l, Compact depth f.2) → Compact (depth + 1) (.object l)

end Json
