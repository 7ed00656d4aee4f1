import Carryforth.Lib.Fallible
import Carryforth.Lib.Json

/-!
# Reading JSON texts

A reader for the texts of RFC 8259: whitespace between tokens, every escape of a string with
surrogate pairs, numbers with fraction and exponent, and arrays and objects up to a bound on the
nesting.  The reader reports the names of an object to a visitor as it meets them, so a visitor can
refuse a repeated name.  What `Json.writeValue` writes reads back (`readValue_writeValue`).
-/

namespace Rfc8259

open Json Text

def isSpace (c : Char) : Bool := c == ' ' || c == '\t' || c == '\n' || c == '\r'

def skipSpace (input : List Char) : List Char := input.dropWhile isSpace

theorem skipSpace_cons {c : Char} (dense : isSpace c = false) (rest : List Char) :
    skipSpace (c :: rest) = c :: rest := List.dropWhile_cons_of_neg (by simp [dense])

/-! ## Strings -/

def codeUnit (a b c d : Char) : Option Nat :=
  if [a, b, c, d].all isAsciiHexdigit then some (ofHexDigits [a, b, c, d]) else none

/-- The character of an escape with one letter. -/
def unescape : Char → Option Char
  | '"' => some '"'
  | '\\' => some '\\'
  | '/' => some '/'
  | 'b' => some '\x08'
  | 'f' => some '\x0c'
  | 'n' => some '\n'
  | 'r' => some '\r'
  | 't' => some '\t'
  | _ => none

/-- The characters of a string after its opening quote. -/
def readChars : List Char → Except String (List Char × List Char)
  | [] => .error "EOF while parsing a string"
  | '"' :: rest => .ok ([], rest)
  | '\\' :: 'u' :: a :: b :: c :: d :: rest =>
    match codeUnit a b c d with
    | none => .error "invalid escape"
    | some n =>
      if 0xD800 ≤ n ∧ n < 0xDC00 then
        -- the first half of a pair
        match rest with
        | '\\' :: 'u' :: a :: b :: c :: d :: rest =>
          match codeUnit a b c d with
          | none => .error "invalid escape"
          | some m =>
            if 0xDC00 ≤ m ∧ m < 0xE000 then do
              let (cs, rest) ← readChars rest
              .ok (Char.ofNat (0x10000 + (n - 0xD800) * 0x400 + (m - 0xDC00)) :: cs, rest)
            else .error "lone leading surrogate in hex escape"
        | _ => .error "unexpected end of hex escape"
      else if 0xDC00 ≤ n ∧ n < 0xE000 then .error "lone leading surrogate in hex escape"
      else do
        let (cs, rest) ← readChars rest
        .ok (Char.ofNat n :: cs, rest)
  | '\\' :: c :: rest =>
    match unescape c with
    | none => .error "invalid escape"
    | some c => do
      let (cs, rest) ← readChars rest
      .ok (c :: cs, rest)
  | c :: rest =>
    if c.toNat < 0x20 then
      .error "control character (\\u0000-\\u001F) found while parsing a string"
    else do
      let (cs, rest) ← readChars rest
      .ok (c :: cs, rest)

/-- The characters are read, and then the rest of the string. -/
def Reads (text : List Char) (c : Char) : Prop :=
  ∀ rest cs after, readChars rest = .ok (cs, after) →
    readChars (text ++ rest) = .ok (c :: cs, after)

theorem reads_plain {c : Char} (quote : c ≠ '"') (back : c ≠ '\\') (high : 0x20 ≤ c.toNat) :
    Reads [c] c := by
  intro rest cs after read
  rw [List.singleton_append, readChars, if_neg (by omega), read]
  · rfl
  · exact quote
  · exact fun _ _ _ _ _ same _ => back same
  · exact fun _ _ same _ => back same

theorem reads_unescape {letter c : Char} (is : unescape letter = some c) :
    Reads ['\\', letter] c := by
  intro rest cs after read
  have other : letter ≠ 'u' := by
    rintro rfl
    cases is
  show readChars ('\\' :: letter :: rest) = _
  rw [readChars, is, read]
  · rfl
  · exact fun _ _ _ _ _ same _ => other same

/-- An escape with four digits that is not a surrogate. -/
theorem reads_codeUnit {a b c d : Char} {n : Nat} (is : codeUnit a b c d = some n)
    (low : n < 0xD800) : Reads ['\\', 'u', a, b, c, d] (Char.ofNat n) := by
  intro rest cs after read
  show readChars ('\\' :: 'u' :: a :: b :: c :: d :: rest) = _
  rw [readChars, is, read]
  dsimp only
  rw [if_neg (by omega), if_neg (by omega)]
  rfl

/-! ## Numbers -/

/-- The least magnitude that rounds to infinity. -/
def outOfRange : Nat := 2 ^ 1024 - 2 ^ 970

def ofDigits (digits : List Char) : Nat := digits.foldl (fun n c => 10 * n + (c.toNat - 48)) 0

/-- The digits after a mark, of which there must be one. -/
def readDigits (input : List Char) : Except String (List Char × List Char) :=
  match input.takeWhile Char.isDigit with
  | [] => .error "invalid number"
  | digits => .ok (digits, input.dropWhile Char.isDigit)

def readFraction : List Char → Except String (List Char × List Char)
  | '.' :: rest => readDigits rest
  | rest => .ok ([], rest)

def readExponent : List Char → Except String (Option Int × List Char)
  | c :: rest =>
    if c = 'e' ∨ c = 'E' then do
      let (negative, rest) := match rest with
        | '-' :: rest => (true, rest)
        | '+' :: rest => (false, rest)
        | rest => (false, rest)
      let (digits, rest) ← readDigits rest
      let n : Int := ofDigits digits
      .ok (some (if negative then -n else n), rest)
    else .ok (none, c :: rest)
  | [] => .ok (none, [])

/-- Whether there is a minus sign, and what follows. -/
def readSign : List Char → Bool × List Char
  | '-' :: rest => (true, rest)
  | rest => (false, rest)

/-- A number: a word where it is a whole number that fits, otherwise a finite float. -/
def readNumber (input : List Char) : Except String (Number × List Char) := do
  let (negative, rest) := readSign input
  let (whole, rest) ← readDigits rest
  if 1 < whole.length ∧ whole.head? = some '0' then .error "invalid number"
  else do
    let (fraction, afterFraction) ← readFraction rest
    let (exponent, afterExponent) ← readExponent afterFraction
    let n := ofDigits whole
    if fraction = [] ∧ exponent = none ∧ negative = false ∧ n < 2 ^ 64 then .ok (.nat n, rest)
    else if fraction = [] ∧ exponent = none ∧ negative = true ∧ 0 < n ∧ n ≤ 2 ^ 63 then
      .ok (.neg n, rest)
    else
      let mantissa := ofDigits (whole ++ fraction)
      let power := exponent.getD 0 - fraction.length
      if outOfRange * 10 ^ (-power).toNat ≤ mantissa * 10 ^ power.toNat then
        .error "number out of range"
      else .ok (.float (String.ofList (input.take (input.length - afterExponent.length))),
        afterExponent)

/-! ## Values -/

abbrev ValueReader := List Char → Except String (Value × List Char)

/-- A visitor is told the names of an object so far and the next one. -/
abbrev Visitor := List String → String → Except String Unit

/-- The items of an array after its opening bracket and the first whitespace. -/
def readItems (value : ValueReader) : Nat → List Char → Except String (List Value × List Char)
  | 0, _ => .error "EOF while parsing a list"
  | fuel + 1, input => do
    let (v, rest) ← value input
    match skipSpace rest with
    | ',' :: rest => do
      let (items, rest) ← readItems value fuel rest
      .ok (v :: items, rest)
    | ']' :: rest => .ok ([v], rest)
    | _ => .error "expected `,` or `]`"

/-- A member of an object; its name is visited before its value is read. -/
def readMember (visit : Visitor) (value : ValueReader) (seen : List String) (input : List Char) :
    Except String ((String × Value) × List Char) :=
  match skipSpace input with
  | '"' :: rest => do
    let (cs, rest) ← readChars rest
    let name := String.ofList cs
    visit seen name
    match skipSpace rest with
    | ':' :: rest => do
      let (v, rest) ← value rest
      .ok ((name, v), rest)
    | _ => .error "expected `:`"
  | _ => .error "key must be a string"

/-- The members of an object after its opening brace. -/
def readMembers (visit : Visitor) (value : ValueReader) :
    Nat → List String → List Char → Except String (List (String × Value) × List Char)
  | 0, _, _ => .error "EOF while parsing an object"
  | fuel + 1, seen, input => do
    let (member, rest) ← readMember visit value seen input
    match skipSpace rest with
    | ',' :: rest => do
      let (members, rest) ← readMembers visit value fuel (member.1 :: seen) rest
      .ok (member :: members, rest)
    | '\x7d' :: rest => .ok ([member], rest)
    | _ => .error "expected `,` or `\x7d`"

/-- A value whose items and members are read by `nested`, if there may be any. -/
def readAt (visit : Visitor) (nested : Option ValueReader) (input : List Char) :
    Except String (Value × List Char) :=
  match skipSpace input with
  | 'n' :: 'u' :: 'l' :: 'l' :: rest => .ok (.null, rest)
  | 't' :: 'r' :: 'u' :: 'e' :: rest => .ok (.bool true, rest)
  | 'f' :: 'a' :: 'l' :: 's' :: 'e' :: rest => .ok (.bool false, rest)
  | '"' :: rest => do
    let (cs, rest) ← readChars rest
    .ok (.string (String.ofList cs), rest)
  | '[' :: rest =>
    match nested, skipSpace rest with
    | none, _ => .error "recursion limit exceeded"
    | some _, ']' :: rest => .ok (.array [], rest)
    | some value, rest => do
      let (items, rest) ← readItems value rest.length rest
      .ok (.array items, rest)
  | '\x7b' :: rest =>
    match nested, skipSpace rest with
    | none, _ => .error "recursion limit exceeded"
    | some _, '\x7d' :: rest => .ok (.object [], rest)
    | some value, rest => do
      let (members, rest) ← readMembers visit value rest.length [] rest
      .ok (.object members, rest)
  | rest => do
    let (n, rest) ← readNumber rest
    .ok (.number n, rest)

/-- A value with at most `depth` arrays and objects around any of its parts. -/
def readValue (visit : Visitor) : Nat → ValueReader
  | 0 => readAt visit none
  | depth + 1 => readAt visit (some (readValue visit depth))

/-! ## Reading what a compact writer writes -/

theorem reads_escape (c : Char) : Reads (escape c) c := by
  unfold escape
  split_ifs with quote back b f n r t control
  · subst quote
    exact reads_unescape rfl
  · subst back
    exact reads_unescape rfl
  · exact b ▸ reads_unescape rfl
  · exact f ▸ reads_unescape rfl
  · exact n ▸ reads_unescape rfl
  · exact r ▸ reads_unescape rfl
  · exact t ▸ reads_unescape rfl
  · have unit : ∀ m < 0x20, codeUnit '0' '0' (Nat.digitChar (m / 16 % 16))
        (Nat.digitChar (m % 16)) = some m := by decide
    have reads := reads_codeUnit (unit _ control) (by omega)
    rwa [Char.ofNat_toNat] at reads
  · exact reads_plain quote back (by omega)

theorem readChars_string (s : String) (rest : List Char) :
    readChars (s.toList.flatMap escape ++ '"' :: rest) = .ok (s.toList, rest) := by
  induction s.toList with
  | nil => rfl
  | cons c cs ih =>
    rw [List.flatMap_cons, List.append_assoc]
    exact reads_escape c _ _ _ ih

theorem head_nat_ne {n : Nat} (pos : 0 < n) : (nat n).head? ≠ some '0' := by
  unfold nat
  induction n using Nat.strongRecOn with
  | _ n ih =>
    by_cases small : n < 10
    · have digit : ∀ m < 10, 0 < m → [Nat.digitChar m].head? ≠ some '0' := by decide
      rw [Nat.toDigits_of_lt_base small]
      exact digit n small pos
    · have parts := @Nat.toDigits_append_toDigits 10 (n / 10) (n % 10) (by decide) (by omega)
        (Nat.mod_lt _ (by decide))
      rw [Nat.div_add_mod] at parts
      rw [← parts, List.head?_append_of_ne_nil _ Nat.toDigits_ne_nil]
      exact ih (n / 10) (by omega) (by omega)

theorem ne_of_isDigit {c d : Char} (digit : c.isDigit = true) (other : d.isDigit = false) : c ≠ d := by
  rintro rfl
  rw [digit] at other
  cases other

theorem isSpace_of_isDigit {c : Char} (digit : c.isDigit = true) : isSpace c = false := by
  have differs : ∀ d : Char, d.isDigit = false → c ≠ d := fun _ => ne_of_isDigit digit
  simp [isSpace, differs ' ' rfl, differs '\t' rfl, differs '\n' rfl, differs '\r' rfl]

theorem readDigits_nat (n : Nat) {rest : List Char} (ends : Ends rest) :
    readDigits (nat n ++ rest) = .ok (nat n, rest) := by
  have digits : ∀ d ∈ nat n, d.isDigit = true := fun d mem =>
    Nat.isDigit_of_mem_toDigits (by decide) (by decide) mem
  have after : rest.takeWhile Char.isDigit = [] ∧ rest.dropWhile Char.isDigit = rest := by
    cases rest with
    | nil => exact ⟨rfl, rfl⟩
    | cons c rest => rcases ends c rfl with rfl | rfl | rfl <;> exact ⟨rfl, rfl⟩
  obtain ⟨c, cs, first, -⟩ := exists_cons_nat n
  rw [readDigits, List.takeWhile_append_of_pos digits, List.dropWhile_append_of_pos digits, after.1,
    after.2, List.append_nil, first]

theorem readNumber_nat {n : Nat} (word : n < 2 ^ 64) {rest : List Char} (ends : Ends rest) :
    readNumber (nat n ++ rest) = .ok (.nat n, rest) := by
  obtain ⟨c, cs, first, digit⟩ := exists_cons_nat n
  have unsigned : readSign (nat n ++ rest) = (false, nat n ++ rest) := by
    rw [first, List.cons_append, readSign]
    exact fun _ same => ne_of_isDigit digit rfl (List.cons.inj same).1
  have zero : ¬(1 < (nat n).length ∧ (nat n).head? = some '0') := by
    rintro ⟨long, zero⟩
    rcases Nat.eq_zero_or_pos n with rfl | pos
    · exact absurd long (by decide)
    · exact head_nat_ne pos zero
  have whole : readFraction rest = .ok ([], rest) ∧ readExponent rest = .ok (none, rest) := by
    cases rest with
    | nil => exact ⟨rfl, rfl⟩
    | cons c rest => rcases ends c rfl with rfl | rfl | rfl <;> exact ⟨rfl, rfl⟩
  have value : ofDigits (nat n) = n := Nat.ofDigitChars_ten_toDigits
  simp only [readNumber, unsigned, readDigits_nat n ends, Fallible.ok_bind, if_neg zero, whole, value,
    word, and_self, if_true]

section Compact

variable {visit : Visitor} {value : ValueReader} {nested : Option ValueReader} {rest : List Char}

theorem readAt_string (s : String) :
    readAt visit nested (string s ++ rest) = .ok (.string s, rest) := by
  have quote := @skipSpace_cons '"' rfl
  simp only [string, List.append_assoc, List.cons_append, List.nil_append, readAt, quote,
    readChars_string, Fallible.ok_bind, String.ofList_toList]

theorem readAt_nat {n : Nat} (word : n < 2 ^ 64) (ends : Ends rest) :
    readAt visit nested (nat n ++ rest) = .ok (.number (.nat n), rest) := by
  obtain ⟨c, cs, first, digit⟩ := exists_cons_nat n
  have dense : skipSpace (nat n ++ rest) = nat n ++ rest := by
    rw [first]
    exact skipSpace_cons (isSpace_of_isDigit digit) _
  have differs : ∀ (d : Char) (t : List Char), d.isDigit = false → nat n ++ rest ≠ d :: t := by
    intro d t other same
    rw [first, List.cons_append] at same
    exact ne_of_isDigit digit other (List.cons.inj same).1
  rw [readAt, dense]
  split
  · exact absurd ‹_› (differs _ _ rfl)
  · exact absurd ‹_› (differs _ _ rfl)
  · exact absurd ‹_› (differs _ _ rfl)
  · exact absurd ‹_› (differs _ _ rfl)
  · exact absurd ‹_› (differs _ _ rfl)
  · exact absurd ‹_› (differs _ _ rfl)
  · rw [readNumber_nat word ends]
    rfl

/-- A text begins neither with whitespace nor with a closing bracket. -/
theorem exists_cons_writeValue {depth : Nat} {v : Value} (compact : Compact depth v) :
    ∃ c cs, writeValue depth v = c :: cs ∧ isSpace c = false ∧ c ≠ ']' := by
  cases compact with
  | null => exact ⟨'n', _, by rw [writeValue], rfl, by decide⟩
  | string s => exact ⟨'"', _, by rw [writeValue, string], rfl, by decide⟩
  | nat _ =>
    obtain ⟨c, cs, first, digit⟩ := exists_cons_nat _
    exact ⟨c, cs, by rw [writeValue, first], isSpace_of_isDigit digit, ne_of_isDigit digit rfl⟩
  | array _ => exact ⟨'[', _, rfl, rfl, by decide⟩
  | object _ _ => exact ⟨'\x7b', _, rfl, rfl, by decide⟩

theorem readItems_more {write : Value → List Char} {v : Value} {l : List Value}
    (reads : ∀ w ∈ v :: l, ∀ rest, Ends rest → value (write w ++ rest) = .ok (w, rest))
    {fuel : Nat} (enough : l.length < fuel) :
    readItems value fuel (write v ++ (l.flatMap (fun w => ',' :: write w) ++ ']' :: rest)) =
      .ok (v :: l, rest) := by
  induction l generalizing v fuel with
  | nil =>
    obtain ⟨fuel, rfl⟩ := Nat.exists_eq_succ_of_ne_zero (Nat.ne_zero_of_lt enough)
    rw [readItems, reads v List.mem_cons_self _ (ends_more (.inl rfl) _ _)]
    rfl
  | cons w l ih =>
    obtain ⟨fuel, rfl⟩ := Nat.exists_eq_succ_of_ne_zero (Nat.ne_zero_of_lt enough)
    have more := ih (fun u mem => reads u (List.mem_cons_of_mem _ mem)) (Nat.lt_of_succ_lt_succ enough)
    have comma := @skipSpace_cons ',' rfl
    rw [readItems, reads v List.mem_cons_self _ (ends_more (.inl rfl) _ _)]
    simp only [Fallible.ok_bind, List.flatMap_cons, List.cons_append, List.append_assoc, comma, more]

theorem readAt_items {c : Char} {cs : List Char} (dense : isSpace c = false) (opens : c ≠ ']')
    {l : List Value} (read : readItems value (c :: cs).length (c :: cs) = .ok (l, rest)) :
    readAt visit (some value) ('[' :: c :: cs) = .ok (.array l, rest) := by
  have bracket := @skipSpace_cons '[' rfl
  simp only [readAt, bracket, skipSpace_cons dense]
  split
  · cases ‹some _ = none›
  · exact absurd (List.cons.inj ‹_›).1 opens
  · cases ‹some _ = some _›
    rw [read]
    rfl

variable {seen : List String}

theorem readMember_field {f : String × Value} (visited : visit seen f.1 = .ok ()) {text : List Char}
    (read : value (text ++ rest) = .ok (f.2, rest)) :
    readMember visit value seen (string f.1 ++ ':' :: text ++ rest) = .ok (f, rest) := by
  have chars := readChars_string f.1 (':' :: (text ++ rest))
  have quote := @skipSpace_cons '"' rfl
  have colon := @skipSpace_cons ':' rfl
  simp only [string, List.append_assoc, List.cons_append, List.nil_append, readMember, quote, chars,
    Fallible.ok_bind, String.ofList_toList, visited, colon, read]

/-- The visitor accepts names that it has not seen. -/
def Lenient (visit : Visitor) : Prop := ∀ seen name, name ∉ seen → visit seen name = .ok ()

theorem readMembers_more (lenient : Lenient visit) {write : Value → List Char}
    {f : String × Value} {l : List (String × Value)}
    (reads : ∀ g ∈ f :: l, ∀ rest, Ends rest → value (write g.2 ++ rest) = .ok (g.2, rest))
    (unique : ((f :: l).map Prod.fst).Nodup) (fresh : ∀ g ∈ f :: l, g.1 ∉ seen)
    {fuel : Nat} (enough : l.length < fuel) :
    readMembers visit value fuel seen (string f.1 ++ ':' :: write f.2 ++
      (l.flatMap (fun g => ',' :: (string g.1 ++ ':' :: write g.2)) ++ '\x7d' :: rest)) =
        .ok (f :: l, rest) := by
  have visited := lenient seen f.1 (fresh f List.mem_cons_self)
  induction l generalizing f seen fuel with
  | nil =>
    obtain ⟨fuel, rfl⟩ := Nat.exists_eq_succ_of_ne_zero (Nat.ne_zero_of_lt enough)
    rw [readMembers, readMember_field visited
      (reads f List.mem_cons_self _ (ends_more (.inr rfl) _ _))]
    rfl
  | cons g l ih =>
    obtain ⟨fuel, rfl⟩ := Nat.exists_eq_succ_of_ne_zero (Nat.ne_zero_of_lt enough)
    rw [List.map_cons, List.nodup_cons] at unique
    have others : ∀ h ∈ g :: l, h.1 ∉ f.1 :: seen := by
      intro h mem
      rw [List.mem_cons, not_or]
      exact ⟨fun same => unique.1 (same ▸ List.mem_map_of_mem mem),
        fresh h (List.mem_cons_of_mem _ mem)⟩
    have more := ih (fun h mem => reads h (List.mem_cons_of_mem _ mem)) unique.2 others
      (Nat.lt_of_succ_lt_succ enough) (lenient _ _ (others g List.mem_cons_self))
    have comma := @skipSpace_cons ',' rfl
    rw [readMembers, readMember_field visited (reads f List.mem_cons_self _ (ends_more (.inr rfl) _ _))]
    simp only [List.append_assoc, List.cons_append] at more
    simp only [Fallible.ok_bind, List.flatMap_cons, List.cons_append, List.append_assoc, comma, more]

theorem items_cons {α : Type} (close : Char) (write : α → List Char) (a : α) (l : List α)
    (rest : List Char) : items close ((a :: l).map write) ++ rest =
      write a ++ (l.flatMap (fun b => ',' :: write b) ++ close :: rest) := by
  simp [items, List.flatMap_map]

theorem length_lt_items {α : Type} (close : Char) (write : α → List Char) (a : α) (l : List α)
    (rest : List Char) :
    l.length < (write a ++ (l.flatMap (fun b => ',' :: write b) ++ close :: rest)).length := by
  have : l.length ≤ (l.flatMap fun b => ',' :: write b).length := by
    rw [List.length_flatMap]
    simp
  simp only [List.length_append, List.length_cons]
  omega

theorem readValue_writeValue (lenient : Lenient visit) {depth : Nat} {v : Value}
    (compact : Compact depth v) {rest : List Char} (ends : Ends rest) :
    readValue visit depth (writeValue depth v ++ rest) = .ok (v, rest) := by
  have scalar : ∀ depth, ∃ nested, readValue visit depth = readAt visit nested := by
    rintro ⟨⟩
    · exact ⟨_, rfl⟩
    · exact ⟨_, rfl⟩
  -- a part of the value is read inside the text, so the induction is for every rest of the text
  induction compact generalizing rest with
  | @null depth =>
    obtain ⟨nested, is⟩ := scalar depth
    rw [is, writeValue]
    rfl
  | @string depth s =>
    obtain ⟨nested, is⟩ := scalar depth
    rw [is, writeValue, readAt_string]
  | @nat depth n word =>
    obtain ⟨nested, is⟩ := scalar depth
    rw [is, writeValue, readAt_nat word ends]
  | @array depth l compact ih =>
    cases l with
    | nil => rfl
    | cons v l =>
      obtain ⟨c, cs, first, dense, opens⟩ := exists_cons_writeValue (compact v List.mem_cons_self)
      have read := @readItems_more _ rest (writeValue depth) v l (fun w mem _ ends => ih w mem ends) _
        (length_lt_items ']' (writeValue depth) v l rest)
      rw [readValue, writeValue, List.cons_append, items_cons]
      rw [first, List.cons_append] at read ⊢
      exact readAt_items dense opens read
  | @object depth l unique compact ih =>
    cases l with
    | nil => rfl
    | cons f l =>
      have read := @readMembers_more visit _ rest [] lenient (writeValue depth) f l
        (fun g mem _ ends => ih g mem ends) unique (fun _ _ => List.not_mem_nil) _
        (length_lt_items '\x7d' (fun f => string f.1 ++ ':' :: writeValue depth f.2) f l rest)
      rw [readValue, writeValue, List.cons_append, items_cons]
      exact congrArg (· >>= fun r => Except.ok (Value.object r.1, r.2)) read

end Compact

end Rfc8259
