import Carryforth.Lib.Fallible

/-!
# Text measures

Blank text, trimming, byte length, the UTF-8 encoding with its strict decoding, and fixed-width
hexadecimal numerals.
-/

namespace Text

/-- The code points with the Unicode property `White_Space`. -/
def isWhiteSpace (c : Char) : Bool :=
  let n := c.toNat
  (9 ≤ n && n ≤ 13) || n == 0x20 || n == 0x85 || n == 0xA0 || n == 0x1680 ||
    (0x2000 ≤ n && n ≤ 0x200A) || n == 0x2028 || n == 0x2029 || n == 0x202F || n == 0x205F ||
    n == 0x3000

/-- Nothing is left after trimming white space. -/
def isBlank (s : String) : Bool := s.toList.all isWhiteSpace

/-- The text without white space at either end. -/
def trim (s : String) : String :=
  String.ofList ((s.toList.dropWhile isWhiteSpace).reverse.dropWhile isWhiteSpace).reverse

/-- The code points of the Unicode category `Cc`. -/
def isControl (c : Char) : Bool := c.toNat ≤ 0x1F || (0x7F ≤ c.toNat && c.toNat ≤ 0x9F)

def byteLength (s : String) : Nat := s.utf8ByteSize

def utf8 (s : String) : List UInt8 := s.toByteArray.data.toList

/-- The text of which these bytes are the UTF-8 encoding. -/
def ofUtf8 (bytes : List UInt8) : Option String := String.fromUTF8? ⟨bytes.toArray⟩

/-- The last `w` hexadecimal digits of `n`. -/
def hexDigits : Nat → Nat → List Char
  | 0, _ => []
  | w + 1, n => hexDigits w (n / 16) ++ [Nat.digitChar (n % 16)]

def isAsciiHexdigit (c : Char) : Bool :=
  c.isDigit || (decide ('a' ≤ c) && decide (c ≤ 'f')) || (decide ('A' ≤ c) && decide (c ≤ 'F'))

theorem toNat_of_isDigit {c : Char} (digit : c.isDigit = true) : 48 ≤ c.toNat ∧ c.toNat ≤ 57 := by
  simp only [Char.isDigit, Bool.and_eq_true, decide_eq_true_eq] at digit
  exact ⟨UInt32.le_iff_toNat_le.1 digit.1, UInt32.le_iff_toNat_le.1 digit.2⟩

theorem utf8Size_eq_one {c : Char} (low : c.toNat ≤ 127) : c.utf8Size = 1 :=
  Char.utf8Size_eq_one_iff.2 (UInt32.le_iff_toNat_le.2 low)

theorem toNat_of_hexdigit {c : Char} (digit : isAsciiHexdigit c = true) :
    48 ≤ c.toNat ∧ c.toNat ≤ 102 := by
  simp only [isAsciiHexdigit, Char.isDigit, Bool.or_eq_true, Bool.and_eq_true,
    decide_eq_true_eq] at digit
  rcases digit with (⟨low, high⟩ | ⟨low, high⟩) | ⟨low, high⟩ <;>
    exact ⟨le_trans (by decide) (UInt32.le_iff_toNat_le.1 low),
      le_trans (UInt32.le_iff_toNat_le.1 high) (by decide)⟩

def digitValue (c : Char) : Nat :=
  if c.isDigit then c.toNat - 48 else if c.isLower then c.toNat - 87 else c.toNat - 55

def decodeHex : List Char → Option (List UInt8)
  | [] => some []
  | [_] => none
  | high :: low :: rest =>
    if isAsciiHexdigit high && isAsciiHexdigit low then
      (decodeHex rest).map (UInt8.ofNat (16 * digitValue high + digitValue low) :: ·)
    else none

/-- The lowercase hexadecimal digits of bytes. -/
def encodeHex (bytes : List UInt8) : List Char := bytes.flatMap fun b => hexDigits 2 b.toNat

def isLowerHexdigit (c : Char) : Bool := isAsciiHexdigit c && !c.isUpper

def stripPrefix (part s : String) : Option String :=
  if part.toList.isPrefixOf s.toList then some (String.ofList (s.toList.drop part.length)) else none

def stripLast (last : Char) (s : String) : Option String :=
  match s.toList.reverse with
  | c :: rest => if c = last then some (String.ofList rest.reverse) else none
  | [] => none

/-- The number that a text spells in decimal, perhaps after a plus sign, if it fits the word. -/
def readUnsigned (bits : Nat) (s : String) : Option Nat :=
  let digits := if s.toList.head? = some '+' then s.toList.tail else s.toList
  if digits ≠ [] ∧ digits.all Char.isDigit = true then
    let n := digits.foldl (fun n c => 10 * n + (c.toNat - 48)) 0
    if n < 2 ^ bits then some n else none
  else none

theorem isBlank_append (s t : String) : isBlank (s ++ t) = (isBlank s && isBlank t) := by
  rw [isBlank, String.toList_append, List.all_append]
  rfl

theorem byteLength_append (s t : String) : byteLength (s ++ t) = byteLength s + byteLength t :=
  String.utf8ByteSize_append

theorem byteLength_ofList {cs : List Char} (ascii : ∀ c ∈ cs, c.utf8Size = 1) :
    byteLength (String.ofList cs) = cs.length := by
  rw [byteLength, String.utf8ByteSize_ofList]
  induction cs with
  | nil => rfl
  | cons c cs ih =>
    rw [String.utf8Len_cons, ih fun d hd => ascii d (List.mem_cons_of_mem _ hd),
      ascii c List.mem_cons_self, List.length_cons]

@[simp] theorem ofUtf8_utf8 (s : String) : ofUtf8 (utf8 s) = some s := by
  simp [ofUtf8, utf8, String.fromUTF8?, s.isValidUTF8, String.fromUTF8]

theorem utf8_injective : Function.Injective utf8 := fun s t same =>
  Option.some.inj ((ofUtf8_utf8 s).symm.trans ((congrArg ofUtf8 same).trans (ofUtf8_utf8 t)))

theorem length_utf8 (s : String) : (utf8 s).length = byteLength s := rfl

theorem utf8_append (s t : String) : utf8 (s ++ t) = utf8 s ++ utf8 t := by
  simp [utf8, String.toByteArray_append]

theorem utf8_ofList {cs : List Char} (ascii : ∀ c ∈ cs, c.toNat ≤ 127) :
    utf8 (String.ofList cs) = cs.map fun c => UInt8.ofNat c.toNat := by
  have encode : ∀ c : Char, c.toNat ≤ 127 → String.utf8EncodeChar c = [UInt8.ofNat c.toNat] :=
    fun c low => if_pos low
  have bytes : utf8 (String.ofList cs) = cs.flatMap String.utf8EncodeChar := by
    rw [utf8, String.toByteArray_ofList, List.utf8Encode, List.data_toByteArray]
  rw [bytes, List.flatMap_congr fun c mem => encode c (ascii c mem), ← List.map_eq_flatMap]

def decimal (n : Nat) : List UInt8 := utf8 (Nat.repr n)

theorem decimal_injective : Function.Injective decimal := by
  intro m n same
  have digits := utf8_injective same
  rw [Nat.repr_eq_ofList_toDigits, Nat.repr_eq_ofList_toDigits] at digits
  have value : ∀ k, Nat.ofDigitChars 10 (Nat.toDigits 10 k) 0 = k := fun k =>
    Nat.ofDigitChars_ten_toDigits
  rw [← value m, String.ofList_injective digits, value]

theorem mem_decimal {n : Nat} {b : UInt8} (mem : b ∈ decimal n) : 48 ≤ b.toNat ∧ b.toNat ≤ 57 := by
  have digit : ∀ c ∈ Nat.toDigits 10 n, 48 ≤ c.toNat ∧ c.toNat ≤ 57 := by
    intro c mem
    exact toNat_of_isDigit (Nat.isDigit_of_mem_toDigits (by decide) (by decide) mem)
  rw [decimal, Nat.repr_eq_ofList_toDigits,
    utf8_ofList fun c mem => (digit c mem).2.trans (by decide)] at mem
  obtain ⟨c, listed, rfl⟩ := List.mem_map.1 mem
  have range := digit c listed
  rw [UInt8.toNat_ofNat_of_lt' (Nat.lt_of_le_of_lt range.2 (by decide))]
  exact range

theorem eq_append_of_stripPrefix {part s rest : String} (stripped : stripPrefix part s = some rest) :
    s = part ++ rest := by
  simp only [stripPrefix, Option.ite_none_right_eq_some, Option.some.injEq] at stripped
  obtain ⟨begins, rfl⟩ := stripped
  obtain ⟨tail, all⟩ := List.isPrefixOf_iff_prefix.1 begins
  apply String.toList_inj.1
  have same : (part.toList ++ tail).drop part.length = tail := List.drop_left
  rw [String.toList_append, String.toList_ofList, ← all, same]

theorem utf8_eq_map {s : String} (ascii : ∀ c ∈ s.toList, c.toNat ≤ 127) :
    utf8 s = s.toList.map fun c => UInt8.ofNat c.toNat := by
  have bytes := utf8_ofList ascii
  rwa [String.ofList_toList] at bytes

theorem hexDigits_length (w n : Nat) : (hexDigits w n).length = w := by
  induction w generalizing n with
  | zero => rfl
  | succ w ih => rw [hexDigits, List.length_append, ih, List.length_singleton]

theorem isAsciiHexdigit_of_mem_hexDigits {w n : Nat} {c : Char} (h : c ∈ hexDigits w n) :
    isAsciiHexdigit c = true := by
  induction w generalizing n with
  | zero => cases h
  | succ w ih =>
    rcases List.mem_append.1 h with h | h
    · exact ih h
    · have digit : ∀ d : Fin 16, isAsciiHexdigit (Nat.digitChar d) = true := by decide
      rw [List.mem_singleton.1 h]
      exact digit ⟨n % 16, Nat.mod_lt _ (by decide)⟩

theorem hexDigits_utf8Size {w n : Nat} {c : Char} (h : c ∈ hexDigits w n) : c.utf8Size = 1 :=
  utf8Size_eq_one ((toNat_of_hexdigit (isAsciiHexdigit_of_mem_hexDigits h)).2.trans (by decide))

theorem utf8_of_ofUtf8 {bytes : List UInt8} {s : String} (read : ofUtf8 bytes = some s) :
    utf8 s = bytes := by
  simp only [ofUtf8, String.fromUTF8?] at read
  split at read
  · rw [← Option.some.inj read]
    rfl
  · cases read

theorem mem_splitOn {x c : Char} {cs : List Char} (mem : c ∈ cs) :
    c = x ∨ ∃ part ∈ cs.splitOn x, c ∈ part := by
  have inside : ∀ ls : List (List Char), c ∈ [x].intercalate ls → c = x ∨ ∃ part ∈ ls, c ∈ part := by
    intro ls
    induction ls with
    | nil => exact fun mem => nomatch mem
    | cons l ls ih =>
      intro mem
      by_cases last : ls = []
      · rw [last, List.intercalate_singleton] at mem
        exact .inr ⟨l, List.mem_cons_self, mem⟩
      · rw [List.intercalate_cons_of_ne_nil last] at mem
        rcases List.mem_append.1 mem with mem | mem
        · rcases List.mem_append.1 mem with mem | mem
          · exact .inr ⟨l, List.mem_cons_self, mem⟩
          · exact .inl (List.mem_singleton.1 mem)
        · rcases ih mem with same | ⟨part, listed, mem⟩
          · exact .inl same
          · exact .inr ⟨part, List.mem_cons_of_mem _ listed, mem⟩
  exact inside _ ((List.intercalate_splitOn x).symm ▸ mem)

/-! ## Lowercase hexadecimal -/

theorem toNat_of_isLowerHexdigit {c : Char} (digit : isLowerHexdigit c = true) :
    (48 ≤ c.toNat ∧ c.toNat ≤ 57) ∨ (97 ≤ c.toNat ∧ c.toNat ≤ 102) := by
  simp only [isLowerHexdigit, isAsciiHexdigit, Char.isDigit, Char.isUpper, Bool.or_eq_true,
    Bool.and_eq_true, decide_eq_true_eq, Bool.not_eq_true', decide_eq_false_iff_not] at digit
  obtain ⟨(⟨low, high⟩ | ⟨low, high⟩) | ⟨low, high⟩, lower⟩ := digit
  · exact .inl ⟨UInt32.le_iff_toNat_le.1 low, UInt32.le_iff_toNat_le.1 high⟩
  · exact .inr ⟨UInt32.le_iff_toNat_le.1 low, UInt32.le_iff_toNat_le.1 high⟩
  · exact absurd ⟨low, le_trans high (by decide)⟩ lower

theorem hexDigits_two : ∀ n < 256, ∃ high low, hexDigits 2 n = [high, low] ∧
    isLowerHexdigit high = true ∧ isLowerHexdigit low = true ∧
      16 * digitValue high + digitValue low = n := by
  have digit : ∀ n < 16, isLowerHexdigit (Nat.digitChar n) = true ∧
      digitValue (Nat.digitChar n) = n := by decide
  intro n small
  have high := digit (n / 16 % 16) (by omega)
  have low := digit (n % 16) (by omega)
  refine ⟨_, _, rfl, high.1, low.1, ?_⟩
  rw [high.2, low.2]
  omega

theorem length_encodeHex (bytes : List UInt8) : (encodeHex bytes).length = 2 * bytes.length := by
  rw [encodeHex, List.length_flatMap]
  simp only [hexDigits_length, List.map_const', List.sum_replicate, smul_eq_mul]
  omega

theorem isLowerHexdigit_of_mem {bytes : List UInt8} {c : Char} (mem : c ∈ encodeHex bytes) :
    isLowerHexdigit c = true := by
  obtain ⟨b, -, digit⟩ := List.mem_flatMap.1 mem
  obtain ⟨high, low, digits, isHigh, isLow, -⟩ := hexDigits_two b.toNat b.toNat_lt
  rw [digits] at digit
  simp only [List.mem_cons, List.not_mem_nil, or_false] at digit
  rcases digit with rfl | rfl
  · exact isHigh
  · exact isLow

theorem decodeHex_encodeHex (bytes : List UInt8) : decodeHex (encodeHex bytes) = some bytes := by
  induction bytes with
  | nil => rfl
  | cons b bytes ih =>
    obtain ⟨high, low, digits, isHigh, isLow, value⟩ := hexDigits_two b.toNat b.toNat_lt
    rw [isLowerHexdigit, Bool.and_eq_true] at isHigh isLow
    rw [encodeHex, List.flatMap_cons, digits]
    show decodeHex (high :: low :: encodeHex bytes) = _
    rw [decodeHex, isHigh.1, isLow.1, ih, value, UInt8.ofNat_toNat]
    rfl

/-- The number that hexadecimal digits spell. -/
def ofHexDigits (cs : List Char) : Nat := cs.foldl (fun n c => 16 * n + digitValue c) 0

theorem ofHexDigits_concat (cs : List Char) (c : Char) :
    ofHexDigits (cs ++ [c]) = 16 * ofHexDigits cs + digitValue c := by
  rw [ofHexDigits, List.foldl_append]
  rfl

theorem ofHexDigits_hexDigits {w n : Nat} (small : n < 16 ^ w) : ofHexDigits (hexDigits w n) = n := by
  induction w generalizing n with
  | zero =>
    rw [Nat.pow_zero] at small
    change 0 = n
    omega
  | succ w ih =>
    have digit : ∀ n < 16, digitValue (Nat.digitChar n) = n := by decide
    rw [Nat.pow_succ] at small
    rw [hexDigits, ofHexDigits_concat, ih (Nat.div_lt_of_lt_mul (by omega)),
      digit (n % 16) (Nat.mod_lt _ (by decide))]
    omega

end Text
