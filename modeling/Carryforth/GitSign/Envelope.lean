import Carryforth.Lib.Base64
import Carryforth.Lib.Delimited
import Carryforth.Lib.Rfc8259

/-!
# Signature files

A signature file is an armored JSON envelope with the signer's key, the signature, the time, and
optionally the attestation of an owner.  The envelope is written by plain interpolation and read by
a JSON parser, field checks, and a comparison with what would have been written; an envelope that
passes the field checks and is short enough is read back from its own file
(`parseSignature_armor`).
-/

namespace Carryforth

namespace GitSign

open Fallible

def armorBegin : String := "-----BEGIN SIGNED MESSAGE-----"

def armorEnd : String := "-----END SIGNED MESSAGE-----"

def maxSigFile : Nat := 8 * 1024

def maxJsonDecoded : Nat := 2048

def maxBase64Line : Nat := 4096

def maxTimestamp : Nat := 4294967295

/-- The statement of an owner that an agent acts for them. -/
structure OwnerAttestation where
  owner : String
  conditions : String
  sig : String
deriving DecidableEq, Repr

structure Envelope where
  pk : String
  sig : String
  t : Nat
  oa : Option OwnerAttestation
deriving DecidableEq, Repr

/-! ## Conditions of an attestation -/

/-- A decimal number without sign or leading zeros, up to `u32::MAX`. -/
def parseDecimalU32 (s : String) : Option Nat :=
  let cs := s.toList
  if cs = [] ∨ (1 < cs.length ∧ cs.head? = some '0') ∨ cs.all Char.isDigit = false then none
  else
    let n := Nat.ofDigitChars 10 cs 0
    if n ≤ maxTimestamp then some n else none

def clauses (conditions : String) : List String :=
  (conditions.toList.splitOn '&').map String.ofList

def validateClause (clause : String) : Bool :=
  match Text.stripPrefix "kind=" clause with
  | some value => (parseDecimalU32 value).any fun n => decide (n ≤ 65535)
  | none =>
    match Text.stripPrefix "created_at<" clause with
    | some value => (parseDecimalU32 value).isSome
    | none =>
      match Text.stripPrefix "created_at>" clause with
      | some value => (parseDecimalU32 value).isSome
      | none => false

def validateConditions (conditions : String) : Bool :=
  conditions = "" || (clauses conditions).all fun clause =>
    !decide (clause = "") && validateClause clause

/-- Whether the time meets one clause; clauses about kinds do not apply here. -/
def enforceClause (t : Nat) (clause : String) : Except String Unit :=
  match Text.stripPrefix "created_at<" clause with
  | some value =>
    checkSome (parseDecimalU32 value) fun limit =>
      ensure (t < limit) s!"timestamp {t} violates auth tag constraint created_at<{limit}"
  | none =>
    match Text.stripPrefix "created_at>" clause with
    | some value =>
      checkSome (parseDecimalU32 value) fun limit =>
        ensure (limit < t) s!"timestamp {t} violates auth tag constraint created_at>{limit}"
    | none => .ok ()

def enforceConditions (conditions : String) (t : Nat) : Except String Unit :=
  if conditions = "" then .ok () else (clauses conditions).forM (enforceClause t)

/-! ## Writing -/

/-- The envelope as text, in a fixed order of fields and without white space. -/
def buildEnvelope (e : Envelope) : String :=
  "\x7b\"v\":1,\"pk\":\"" ++ e.pk ++ "\",\"sig\":\"" ++ e.sig ++ "\",\"t\":" ++ Nat.repr e.t ++
    match e.oa with
    | some oa =>
      ",\"oa\":[\"" ++ oa.owner ++ "\",\"" ++ oa.conditions ++ "\",\"" ++ oa.sig ++ "\"]\x7d"
    | none => "\x7d"

def armor [Base64] (json : List UInt8) : String :=
  armorBegin ++ "\n" ++ String.ofList (Base64.encode json) ++ "\n" ++ armorEnd ++ "\n"

/-! ## Parsers of other libraries -/

def Envelope.fields (e : Envelope) : List (String × Json.Value) :=
  [("v", .number (.nat 1)), ("pk", .string e.pk), ("sig", .string e.sig), ("t", .number (.nat e.t))] ++
    match e.oa with
    | some oa => [("oa", .array [.string oa.owner, .string oa.conditions, .string oa.sig])]
    | none => []

/-- Text that stands for itself inside a JSON string. -/
def Unescaped (s : String) : Prop := ∀ c ∈ s.toList, Json.escape c = [c]

/-- An envelope whose text is JSON: its strings need no escapes, its number fits. -/
structure Envelope.Printable (e : Envelope) : Prop where
  pk : Unescaped e.pk
  sig : Unescaped e.sig
  t : e.t ≤ maxTimestamp
  oa : ∀ oa, e.oa = some oa → Unescaped oa.owner ∧ Unescaped oa.conditions ∧ Unescaped oa.sig

/-- The JSON parser.  Nothing is known of it but that it understands envelopes; the order in which
it keeps the members of an object is left open. -/
class SerdeJson where
  fromStr : String → Except String Json.Value
  reads : ∀ e : Envelope, e.Printable → ∃ fields, fromStr (buildEnvelope e) = .ok (.object fields) ∧
    (∀ name, fields.lookup name = e.fields.lookup name) ∧
    ∀ field ∈ fields, field.1 ∈ e.fields.map Prod.fst

/-- The hexadecimal spelling of keys: it may be refused, and a spelled key may be no point. -/
class PublicKeys where
  PublicKey : Type
  XOnly : Type
  fromHex : String → Except String PublicKey
  xonly : PublicKey → Option XOnly

export SerdeJson (fromStr)
export PublicKeys (PublicKey XOnly)

/-! ## Reading -/

def findAfter (part : List Char) : List Char → Option (List Char)
  | [] => if part = [] then some [] else none
  | c :: cs =>
    if part.isPrefixOf (c :: cs) then some ((c :: cs).drop part.length) else findAfter part cs

/-- The key of an envelope that may not be well formed, for error reports. -/
def extractPkBestEffort (json : String) : Option String := do
  let rest ← findAfter "\"pk\":\"".toList json.toList
  let candidate := rest.take 64
  if candidate.length = 64 ∧ candidate.all Text.isLowerHexdigit = true then
    some (String.ofList candidate)
  else none

def isAsciiWhitespace (c : Char) : Bool :=
  c = ' ' || c = '\t' || c = '\n' || c = '\x0c' || c = '\r'

/-- White space outside strings; the flags say whether the text so far ends inside a string, and
whether with a backslash there. -/
def whitespaceOutside : (inString escape : Bool) → List Char → Bool
  | _, _, [] => false
  | inString, true, _ :: cs => whitespaceOutside inString false cs
  | true, false, c :: cs => whitespaceOutside (c ≠ '"') (c = '\\') cs
  | false, false, c :: cs =>
    if c = '"' then whitespaceOutside true false cs
    else isAsciiWhitespace c || whitespaceOutside false false cs

def hasNonStringWhitespace (s : String) : Bool := whitespaceOutside false false s.toList

def validateHexField (val : String) (expectedLen : Nat) (name : String) : Except String Unit := do
  ensure (Text.byteLength val = expectedLen)
    s!"{name} must be exactly {expectedLen} characters, got {Text.byteLength val}"
  ensure (val.toList.all Text.isLowerHexdigit = true) s!"{name} must be lowercase hex"

/-- The line of an armored file between its markers. -/
def parseArmor (content : String) : Except String String := do
  let cs := content.toList
  ensure (cs.getLast? = some '\n') "armor must end with a newline"
  let lines := (cs.dropLast.splitOn '\n').map String.ofList
  ensure (lines.length = 3)
    s!"armor must have exactly 3 lines (BEGIN, base64, END), got {lines.length}"
  ensure (lines.getD 0 "" = armorBegin) "missing or malformed BEGIN marker"
  ensure (lines.getD 2 "" = armorEnd) "missing or malformed END marker"
  lines.zipIdx.forM fun line =>
    ensure (line.1.toList.getLast?.all (fun c => !(c = ' ' || c = '\t' || c = '\r')) = true)
      s!"trailing whitespace on line {line.2 + 1}"
  return lines.getD 1 ""

section Parse

variable [SerdeJson] [PublicKeys]

/-- The attestation of an envelope of the key `pk`. -/
def parseAttestation (pk : String) (value : Json.Value) : Except String OwnerAttestation := do
  let items ← okOr value.asArray "oa must be an array"
  ensure (items.length = 3) s!"oa must have exactly 3 elements, got {items.length}"
  let owner ← okOr (items.getD 0 .null).asStr "oa[0] must be a string"
  let conditions ← okOr (items.getD 1 .null).asStr "oa[1] must be a string"
  let ownerSig ← okOr (items.getD 2 .null).asStr "oa[2] must be a string"
  validateHexField owner 64 "oa[0]"
  validateHexField ownerSig 128 "oa[2]"
  ensure (validateConditions conditions = true)
    "oa[1] conditions contain invalid characters (allowed: alphanumeric, _=<>&)"
  let _ ← within (s!"oa[0] is not a valid BIP-340 public key: {·}") (PublicKeys.fromHex owner)
  ensure (owner ≠ pk) "oa[0] (owner) must not equal pk (self-attestation)"
  return { owner, conditions, sig := ownerSig }

def parseEnvelope (json : String) : Except String Envelope := do
  let value ← within ("invalid JSON: " ++ ·) (fromStr json)
  let fields ← okOr value.asObject "JSON must be an object"
  fields.forM fun field =>
    ensure (field.1 ∈ ["v", "pk", "sig", "t", "oa"])
      s!"unknown key in v=1 envelope: {field.1.quote}"
  let v ← okOr (fields.lookup "v") "missing required field: v"
  let v ← okOr v.asU64 "v must be an integer"
  ensure (v = 1) s!"unsupported version: {v}"
  let pk ← okOr (fields.lookup "pk") "missing required field: pk"
  let pk ← okOr pk.asStr "pk must be a string"
  validateHexField pk 64 "pk"
  let sig ← okOr (fields.lookup "sig") "missing required field: sig"
  let sig ← okOr sig.asStr "sig must be a string"
  validateHexField sig 128 "sig"
  let t ← okOr (fields.lookup "t") "missing required field: t"
  ensure (t.isFloat = false) "t must be an integer, not a float"
  let t ← okOr t.asU64 "t must be a non-negative integer"
  ensure (t ≤ maxTimestamp) s!"t out of range: {t}"
  match fields.lookup "oa" with
  | some value => do
    let oa ← parseAttestation pk value
    return { pk, sig, t, oa := some oa }
  | none => return { pk, sig, t, oa := none }

end Parse

/-! ## Reports -/

inductive Error
  | fatal (msg : String)
  | verifyFailed (pk : Option String) (msg : String)
deriving DecidableEq, Repr

inductive StatusLine
  | newsig
  | goodsig (pk : String)
  | badsig (pk : String)
  | errsig (pk : Option String)
  | validsig (pk date : String) (t : Nat)
  | trust (level : String)
  | noteName (name : String)
  | noteData (data : String)
  | beginSigning
  | sigCreated (t : Nat) (pk : String)
deriving DecidableEq, Repr

def StatusLine.text : StatusLine → String
  | .newsig => "[GNUPG:] NEWSIG"
  | .goodsig pk => s!"[GNUPG:] GOODSIG {pk} {pk}"
  | .badsig pk => s!"[GNUPG:] BADSIG {pk} {pk}"
  | .errsig none => "[GNUPG:] ERRSIG 0000000000000000 0 0 00 0 9"
  | .errsig (some pk) => s!"[GNUPG:] ERRSIG {pk} 0 0 00 0 9"
  | .validsig pk date t => s!"[GNUPG:] VALIDSIG {pk} {date} {t} 0 - - - - - {pk}"
  | .trust level => s!"[GNUPG:] {level} 0 shell"
  | .noteName name => s!"[GNUPG:] NOTATION_NAME {name}"
  | .noteData data => s!"[GNUPG:] NOTATION_DATA {data}"
  | .beginSigning => "[GNUPG:] BEGIN_SIGNING"
  | .sigCreated t pk => s!"[GNUPG:] SIG_CREATED D 8 1 00 {t} {pk}"

/-- Why a signature was not accepted, and what was reported before giving up. -/
structure Failure where
  status : List StatusLine
  error : Error
deriving DecidableEq, Repr

/-- A signature that cannot be processed. -/
def reject (pk : Option String) (msg : String) : Failure :=
  { status := [.errsig pk], error := .verifyFailed pk msg }

def parseSignature [Base64] [SerdeJson] [PublicKeys] (content : String) : Except Failure Envelope := do
  let b64 ← within (reject none) (parseArmor content)
  ensure (Text.byteLength b64 ≤ maxBase64Line)
    (reject none s!"base64 line exceeds {maxBase64Line} bytes")
  let decoded ← okOr (Base64.decode b64.toList) (reject none "invalid base64")
  ensure (decoded.length ≤ maxJsonDecoded)
    (reject none s!"decoded JSON exceeds {maxJsonDecoded} bytes")
  let json ← okOr (Text.ofUtf8 decoded) (reject none "decoded bytes are not valid UTF-8")
  ensure (hasNonStringWhitespace json = false)
    (reject (extractPkBestEffort json) "JSON contains whitespace outside string values")
  let envelope ← within (reject (extractPkBestEffort json)) (parseEnvelope json)
  ensure (buildEnvelope envelope = json)
    (reject (some envelope.pk) "JSON is not in canonical form")
  return envelope

/-! ## What is accepted -/

/-- Lowercase hexadecimal text of this length. -/
def IsHex (n : Nat) (s : String) : Prop :=
  Text.byteLength s = n ∧ s.toList.all Text.isLowerHexdigit = true

instance (n : Nat) (s : String) : Decidable (IsHex n s) := inferInstanceAs (Decidable (_ ∧ _))

theorem validateHexField_eq_ok {val name : String} {n : Nat} :
    validateHexField val n name = .ok () ↔ IsHex n val := by
  simp only [validateHexField, then_eq_ok, ensure_eq_ok, IsHex]

section WellFormed

variable [PublicKeys]

/-- An attestation that an envelope of the key `pk` may carry. -/
structure OwnerAttestation.WellFormed (oa : OwnerAttestation) (pk : String) : Prop where
  owner : IsHex 64 oa.owner
  sig : IsHex 128 oa.sig
  conditions : validateConditions oa.conditions = true
  isKey : ∃ key, PublicKeys.fromHex oa.owner = .ok key
  other : oa.owner ≠ pk

structure Envelope.WellFormed (e : Envelope) : Prop where
  pk : IsHex 64 e.pk
  sig : IsHex 128 e.sig
  t : e.t ≤ maxTimestamp
  oa : ∀ oa, e.oa = some oa → oa.WellFormed e.pk

theorem wellFormed_of_parseAttestation {pk : String} {value : Json.Value} {oa : OwnerAttestation}
    (parsed : parseAttestation pk value = .ok oa) : oa.WellFormed pk := by
  simp only [parseAttestation, bind_eq_ok, exists_unit, okOr_eq_ok, ensure_eq_ok, within_eq_ok,
    validateHexField_eq_ok, pure_eq_ok] at parsed
  obtain ⟨_, -, -, _, -, _, -, _, -, owner, sig, conditions, key, isKey, other, rfl⟩ := parsed
  exact ⟨owner, sig, conditions, ⟨key, isKey⟩, other⟩

theorem parseAttestation_value {pk : String} {oa : OwnerAttestation} (wellFormed : oa.WellFormed pk) :
    parseAttestation pk (.array [.string oa.owner, .string oa.conditions, .string oa.sig]) =
      .ok oa := by
  obtain ⟨key, isKey⟩ := wellFormed.isKey
  simp only [parseAttestation, bind_eq_ok, exists_unit, okOr_eq_ok, ensure_eq_ok, within_eq_ok,
    validateHexField_eq_ok, pure_eq_ok]
  exact ⟨_, rfl, rfl, _, rfl, _, rfl, _, rfl, wellFormed.owner, wellFormed.sig,
    wellFormed.conditions, key, isKey, wellFormed.other, rfl⟩

theorem wellFormed_of_parseEnvelope [SerdeJson] {json : String} {e : Envelope}
    (parsed : parseEnvelope json = .ok e) : e.WellFormed := by
  simp only [parseEnvelope, bind_eq_ok, exists_unit, okOr_eq_ok, ensure_eq_ok, within_eq_ok,
    validateHexField_eq_ok] at parsed
  obtain ⟨_, -, fields, -, -, _, -, _, -, -, _, -, pk, -, pkHex, _, -, sig, -, sigHex, _, -, -, t, -,
    inRange, parsed⟩ := parsed
  split at parsed
  · rw [bind_eq_ok] at parsed
    obtain ⟨oa, attested, same⟩ := parsed
    rw [pure_eq_ok] at same
    subst same
    exact ⟨pkHex, sigHex, inRange, fun _ is => Option.some.inj is ▸
      wellFormed_of_parseAttestation attested⟩
  · rw [pure_eq_ok] at parsed
    subst parsed
    refine ⟨pkHex, sigHex, inRange, ?_⟩
    intro _ is
    cases is

end WellFormed

/-! ## An envelope reads back -/

/-- Text of the characters of keys, signatures and conditions. -/
def Plain (s : String) : Prop :=
  ∀ c ∈ s.toList, 38 ≤ c.toNat ∧ c.toNat ≤ 122 ∧ c.toNat ≠ 58 ∧ c.toNat ≠ 92

theorem Plain.unescaped {s : String} (plain : Plain s) : Unescaped s := fun c mem =>
  Json.escape_eq_self (by have := plain c mem; omega) (plain c mem).2.2.2

theorem IsHex.plain {n : Nat} {s : String} (hex : IsHex n s) : Plain s := by
  intro c mem
  have range := Text.toNat_of_isLowerHexdigit (List.all_eq_true.1 hex.2 c mem)
  omega

theorem Plain.append {s t : String} (first : Plain s) (second : Plain t) : Plain (s ++ t) := by
  intro c mem
  rw [String.toList_append] at mem
  rcases List.mem_append.1 mem with mem | mem
  · exact first c mem
  · exact second c mem

theorem plain_of_all {s : String} (all : s.toList.all (fun c =>
    decide (38 ≤ c.toNat ∧ c.toNat ≤ 122 ∧ c.toNat ≠ 58 ∧ c.toNat ≠ 92)) = true) : Plain s :=
  fun c mem => of_decide_eq_true (List.all_eq_true.1 all c mem)

theorem plain_of_parseDecimalU32 {s : String} {n : Nat} (parsed : parseDecimalU32 s = some n) :
    Plain s := by
  intro c mem
  simp only [parseDecimalU32, Option.ite_none_left_eq_some, not_or, Bool.not_eq_false] at parsed
  have range := Text.toNat_of_isDigit (List.all_eq_true.1 parsed.1.2.2 c mem)
  omega

theorem plain_of_validateClause {clause : String} (valid : validateClause clause = true) :
    Plain clause := by
  have part : ∀ name, Plain name → ∀ value, Text.stripPrefix name clause = some value →
      (parseDecimalU32 value).isSome = true → Plain clause := by
    intro name plain value stripped number
    obtain ⟨n, parsed⟩ := Option.isSome_iff_exists.1 number
    rw [Text.eq_append_of_stripPrefix stripped]
    exact plain.append (plain_of_parseDecimalU32 parsed)
  rw [validateClause] at valid
  split at valid
  · rename_i value stripped
    obtain ⟨n, parsed, -⟩ := (Option.any_eq_true _ _).1 valid
    exact part "kind=" (plain_of_all (by decide)) value stripped
      (Option.isSome_iff_exists.2 ⟨n, parsed⟩)
  · split at valid
    · rename_i value stripped
      exact part "created_at<" (plain_of_all (by decide)) value stripped valid
    · split at valid
      · rename_i value stripped
        exact part "created_at>" (plain_of_all (by decide)) value stripped valid
      · cases valid

theorem plain_of_validateConditions {conditions : String}
    (valid : validateConditions conditions = true) : Plain conditions := by
  intro c mem
  simp only [validateConditions, Bool.or_eq_true, decide_eq_true_eq, List.all_eq_true,
    Bool.and_eq_true, clauses, List.forall_mem_map] at valid
  rcases valid with rfl | valid
  · cases mem
  · rcases Text.mem_splitOn (x := '&') mem with rfl | ⟨part, listed, mem⟩
    · decide
    · exact plain_of_validateClause (valid part listed).2 c (by rwa [String.toList_ofList])

theorem Envelope.WellFormed.printable [PublicKeys] {e : Envelope} (wellFormed : e.WellFormed) :
    e.Printable where
  pk := wellFormed.pk.plain.unescaped
  sig := wellFormed.sig.plain.unescaped
  t := wellFormed.t
  oa := fun oa is => ⟨(wellFormed.oa oa is).owner.plain.unescaped,
    (plain_of_validateConditions (wellFormed.oa oa is).conditions).unescaped,
    (wellFormed.oa oa is).sig.plain.unescaped⟩

theorem parseEnvelope_buildEnvelope [SerdeJson] [PublicKeys] {e : Envelope}
    (wellFormed : e.WellFormed) : parseEnvelope (buildEnvelope e) = .ok e := by
  obtain ⟨fields, parsed, lookup, names⟩ := SerdeJson.reads e wellFormed.printable
  have allowed : ∀ field ∈ fields, field.1 ∈ ["v", "pk", "sig", "t", "oa"] := by
    intro field mem
    have listed := names field mem
    rw [Envelope.fields] at listed
    split at listed <;> simp at listed ⊢ <;> tauto
  have v : fields.lookup "v" = some (.number (.nat 1)) := by
    rw [lookup]
    rfl
  have pk : fields.lookup "pk" = some (.string e.pk) := by
    rw [lookup]
    rfl
  have sig : fields.lookup "sig" = some (.string e.sig) := by
    rw [lookup]
    rfl
  have t : fields.lookup "t" = some (.number (.nat e.t)) := by
    rw [lookup]
    rfl
  have oa : fields.lookup "oa" = e.oa.map fun oa =>
      .array [.string oa.owner, .string oa.conditions, .string oa.sig] := by
    rw [lookup, Envelope.fields]
    cases e.oa <;> rfl
  simp only [parseEnvelope, bind_eq_ok, exists_unit, okOr_eq_ok, ensure_eq_ok, within_eq_ok,
    validateHexField_eq_ok, forM_eq_ok]
  refine ⟨_, parsed, fields, rfl, allowed, _, v, 1, rfl, rfl, _, pk, e.pk, rfl, wellFormed.pk, _, sig,
    e.sig, rfl, wellFormed.sig, _, t, rfl, e.t, rfl, wellFormed.t, ?_⟩
  obtain ⟨pk, sig, t, attestation⟩ := e
  cases attestation with
  | none => rw [oa]; rfl
  | some attested =>
    rw [oa]
    dsimp only [Option.map_some]
    rw [parseAttestation_value (wellFormed.oa attested rfl)]
    rfl

/-- The characters of an envelope's text are visible ones of one byte. -/
theorem toNat_of_mem_buildEnvelope {e : Envelope} (pk : Plain e.pk) (sig : Plain e.sig)
    (oa : ∀ oa, e.oa = some oa → Plain oa.owner ∧ Plain oa.conditions ∧ Plain oa.sig) :
    ∀ c ∈ (buildEnvelope e).toList, 34 ≤ c.toNat ∧ c.toNat ≤ 125 := by
  have literal : ∀ s : String, s.toList.all (fun c => decide (34 ≤ c.toNat ∧ c.toNat ≤ 125)) = true →
      ∀ c ∈ s.toList, 34 ≤ c.toNat ∧ c.toNat ≤ 125 := fun s all c mem =>
    of_decide_eq_true (List.all_eq_true.1 all c mem)
  have plain : ∀ s, Plain s → ∀ c ∈ s.toList, 34 ≤ c.toNat ∧ c.toNat ≤ 125 := by
    intro s plain c mem
    have range := plain c mem
    omega
  have digits : ∀ c ∈ (Nat.repr e.t).toList, 34 ≤ c.toNat ∧ c.toNat ≤ 125 := by
    intro c mem
    rw [Nat.repr_eq_ofList_toDigits, String.toList_ofList] at mem
    have range := Text.toNat_of_isDigit (Nat.isDigit_of_mem_toDigits (by decide) (by decide) mem)
    omega
  have both : ∀ {s t : String}, (∀ c ∈ s.toList, 34 ≤ c.toNat ∧ c.toNat ≤ 125) →
      (∀ c ∈ t.toList, 34 ≤ c.toNat ∧ c.toNat ≤ 125) →
      ∀ c ∈ (s ++ t).toList, 34 ≤ c.toNat ∧ c.toNat ≤ 125 := by
    intro s t first second c mem
    rw [String.toList_append] at mem
    exact (List.mem_append.1 mem).elim (first c) (second c)
  have head := both (both (both (both (both (literal "\x7b\"v\":1,\"pk\":\"" (by decide)) (plain _ pk))
    (literal "\",\"sig\":\"" (by decide))) (plain _ sig)) (literal "\",\"t\":" (by decide))) digits
  unfold buildEnvelope
  cases attested : e.oa with
  | none => exact both head (literal "\x7d" (by decide))
  | some attestation =>
    obtain ⟨owner, conditions, ownerSig⟩ := oa attestation attested
    exact both head (both (both (both (both (both (both (literal ",\"oa\":[\"" (by decide))
      (plain _ owner)) (literal "\",\"" (by decide))) (plain _ conditions))
      (literal "\",\"" (by decide))) (plain _ ownerSig)) (literal "\"]\x7d" (by decide)))

theorem whitespaceOutside_eq_false {cs : List Char} (none : ∀ c ∈ cs, isAsciiWhitespace c = false)
    (inString escape : Bool) : whitespaceOutside inString escape cs = false := by
  induction cs generalizing inString escape with
  | nil => cases inString <;> cases escape <;> rfl
  | cons c cs ih =>
    have rest := ih fun d mem => none d (List.mem_cons_of_mem _ mem)
    cases escape with
    | true =>
      rw [whitespaceOutside]
      exact rest inString false
    | false =>
      cases inString with
      | true =>
        rw [whitespaceOutside]
        exact rest _ _
      | false =>
        rw [whitespaceOutside]
        split_ifs
        · exact rest true false
        · rw [none c List.mem_cons_self, rest false false]
          rfl

theorem isAsciiWhitespace_eq_false {c : Char} (visible : 33 ≤ c.toNat) :
    isAsciiWhitespace c = false := by
  have other : ∀ d : Char, d.toNat < 33 → c ≠ d := by
    rintro d low rfl
    omega
  simp [isAsciiWhitespace, other ' ' (by decide), other '\t' (by decide), other '\n' (by decide),
    other '\x0c' (by decide), other '\r' (by decide)]

theorem parseArmor_armor [Base64] (json : List UInt8) :
    parseArmor (armor json) = .ok (String.ofList (Base64.encode json)) := by
  have signs : ∀ c ∈ Base64.encode json, 43 ≤ c.toNat := fun c mem =>
    (Base64.toNat_of_mem_encode mem).1
  have apart : ∀ c ∈ Base64.encode json, ∀ d : Char, d.toNat < 43 → c ≠ d := by
    rintro c mem d low rfl
    exact absurd (signs c mem) (by omega)
  have text : (armor json).toList = ['\n'].intercalate [armorBegin.toList, Base64.encode json,
      armorEnd.toList] ++ ['\n'] := by
    simp [armor, List.intercalate]
  have split : (((armor json).toList.dropLast.splitOn '\n').map String.ofList) =
      [armorBegin, String.ofList (Base64.encode json), armorEnd] := by
    rw [text, List.dropLast_concat, List.splitOn_intercalate]
    · simp
    · intro l mem
      simp only [List.mem_cons, List.not_mem_nil, or_false] at mem
      rcases mem with rfl | rfl | rfl
      · decide
      · exact fun mem => apart _ mem '\n' (by decide) rfl
      · decide
    · exact List.cons_ne_nil _ _
  simp only [parseArmor, split, bind_eq_ok, exists_unit, ensure_eq_ok, forM_eq_ok, pure_eq_ok]
  refine ⟨by rw [text, List.getLast?_concat], rfl, rfl, rfl, ?_, rfl⟩
  intro line mem
  simp only [List.zipIdx_cons, List.zipIdx_nil, List.mem_cons, List.not_mem_nil, or_false] at mem
  rcases mem with rfl | rfl | rfl
  · decide
  · rw [String.toList_ofList]
    cases last : (Base64.encode json).getLast? with
    | none => rfl
    | some c =>
      have inside := apart c (List.mem_of_getLast? last)
      simp [inside ' ' (by decide), inside '\t' (by decide), inside '\r' (by decide)]
  · decide

theorem byteLength_buildEnvelope (e : Envelope) :
    Text.byteLength (buildEnvelope e) = 28 + Text.byteLength e.pk + Text.byteLength e.sig +
      (Nat.toDigits 10 e.t).length + match e.oa with
        | some oa => 17 + Text.byteLength oa.owner + Text.byteLength oa.conditions +
            Text.byteLength oa.sig
        | none => 1 := by
  have digits : Text.byteLength (Nat.repr e.t) = (Nat.toDigits 10 e.t).length := by
    rw [Nat.repr_eq_ofList_toDigits, Text.byteLength_ofList]
    intro c mem
    have range := Text.toNat_of_isDigit (Nat.isDigit_of_mem_toDigits (by decide) (by decide) mem)
    exact Text.utf8Size_eq_one (range.2.trans (by decide))
  unfold buildEnvelope
  cases e.oa with
  | none =>
    simp only [Text.byteLength_append, digits]
    have lengths : Text.byteLength "\x7b\"v\":1,\"pk\":\"" = 13 ∧ Text.byteLength "\",\"sig\":\"" = 9 ∧
      Text.byteLength "\",\"t\":" = 6 ∧ Text.byteLength "\x7d" = 1 := by decide
    omega
  | some oa =>
    simp only [Text.byteLength_append, digits]
    have lengths : Text.byteLength "\x7b\"v\":1,\"pk\":\"" = 13 ∧ Text.byteLength "\",\"sig\":\"" = 9 ∧
      Text.byteLength "\",\"t\":" = 6 ∧ Text.byteLength ",\"oa\":[\"" = 8 ∧
      Text.byteLength "\",\"" = 3 ∧ Text.byteLength "\"]\x7d" = 3 := by decide
    omega

theorem byteLength_armor_le [Base64] {json : List UInt8} (short : json.length ≤ maxJsonDecoded) :
    Text.byteLength (armor json) ≤ maxSigFile := by
  have line : Text.byteLength (String.ofList (Base64.encode json)) =
      4 * ((json.length + 2) / 3) := by
    rw [Text.byteLength_ofList, Base64.length_encode]
    exact fun c mem => Text.utf8Size_eq_one ((Base64.toNat_of_mem_encode mem).2.trans (by decide))
  have marks : Text.byteLength armorBegin = 30 ∧ Text.byteLength armorEnd = 28 ∧
    Text.byteLength "\n" = 1 := by decide
  simp only [armor, Text.byteLength_append, line, marks]
  rw [maxJsonDecoded] at short
  rw [maxSigFile]
  omega

section ReadBack

variable [Base64] [SerdeJson] [PublicKeys]

theorem parseSignature_armor {e : Envelope} (wellFormed : e.WellFormed)
    (short : Text.byteLength (buildEnvelope e) ≤ maxJsonDecoded) :
    parseSignature (armor (Text.utf8 (buildEnvelope e))) = .ok e := by
  have visible := toNat_of_mem_buildEnvelope wellFormed.pk.plain wellFormed.sig.plain fun oa is =>
    ⟨(wellFormed.oa oa is).owner.plain, plain_of_validateConditions (wellFormed.oa oa is).conditions,
      (wellFormed.oa oa is).sig.plain⟩
  have line : Text.byteLength (String.ofList (Base64.encode (Text.utf8 (buildEnvelope e)))) ≤
      maxBase64Line := by
    rw [Text.byteLength_ofList, Base64.length_encode, Text.length_utf8]
    · rw [maxJsonDecoded] at short
      rw [maxBase64Line]
      omega
    · exact fun c mem =>
        Text.utf8Size_eq_one ((Base64.toNat_of_mem_encode mem).2.trans (by decide))
  have compact : hasNonStringWhitespace (buildEnvelope e) = false :=
    whitespaceOutside_eq_false (fun c mem => isAsciiWhitespace_eq_false
      (Nat.le_of_succ_le (visible c mem).1)) false false
  simp only [parseSignature, parseArmor_armor, bind_eq_ok, exists_unit, ensure_eq_ok, within_eq_ok,
    okOr_eq_ok, pure_eq_ok]
  refine ⟨_, rfl, line, Text.utf8 (buildEnvelope e), ?_, short, buildEnvelope e,
    Text.ofUtf8_utf8 _, compact, e, parseEnvelope_buildEnvelope wellFormed, rfl, rfl⟩
  rw [String.toList_ofList, Base64.decode_encode]

theorem wellFormed_of_parseSignature {content : String} {e : Envelope}
    (parsed : parseSignature content = .ok e) :
    e.WellFormed ∧ Text.byteLength (buildEnvelope e) ≤ maxJsonDecoded := by
  simp only [parseSignature, bind_eq_ok, exists_unit, ensure_eq_ok, within_eq_ok, okOr_eq_ok,
    pure_eq_ok] at parsed
  obtain ⟨_, -, -, decoded, -, short, json, text, -, _, parsed, canonical, rfl⟩ := parsed
  rw [← Text.utf8_of_ofUtf8 text, Text.length_utf8, ← canonical] at short
  exact ⟨wellFormed_of_parseEnvelope parsed, short⟩

end ReadBack

/-! ## A parser of envelopes -/

theorem buildEnvelope_eq {e : Envelope} (printable : e.Printable) (depth : Nat) :
    buildEnvelope e = String.ofList (Json.writeValue (depth + 2) (.object e.fields)) := by
  have quoted : ∀ s : String, Unescaped s → Json.string s = '"' :: (s.toList ++ ['"']) := by
    intro s unescaped
    rw [Json.string, List.flatMap_congr unescaped, List.flatMap_singleton']
  have number : (Nat.repr e.t).toList = Json.nat e.t := by
    simp only [Nat.repr_eq_ofList_toDigits, String.toList_ofList, Json.nat]
  have one : Json.nat 1 = ['1'] := by decide
  have name : Json.string "v" = ['"', 'v', '"'] ∧ Json.string "pk" = ['"', 'p', 'k', '"'] ∧
      Json.string "sig" = ['"', 's', 'i', 'g', '"'] ∧ Json.string "t" = ['"', 't', '"'] ∧
      Json.string "oa" = ['"', 'o', 'a', '"'] := by decide
  have scalar : ∀ (s : String) (depth : Nat), Json.writeValue depth (.string s) = Json.string s := by
    intro s depth
    rw [Json.writeValue]
  apply String.toList_inj.1
  unfold buildEnvelope Envelope.fields
  cases attested : e.oa with
  | none =>
    simp [number, Json.writeValue, Json.items, one, name, quoted _ printable.pk,
      quoted _ printable.sig]
  | some oa =>
    obtain ⟨owner, conditions, sig⟩ := printable.oa oa attested
    simp [number, Json.writeValue, Json.items, one, name, scalar, quoted _ printable.pk,
      quoted _ printable.sig, quoted _ owner, quoted _ conditions, quoted _ sig]

/-- The reader of RFC 8259 understands envelopes. -/
@[reducible] def compactJson : SerdeJson where
  fromStr text := do
    let (value, rest) ← Rfc8259.readValue (fun _ _ => .ok ()) 127 text.toList
    ensure (Rfc8259.skipSpace rest = []) "trailing characters"
    return value
  reads := by
    intro e printable
    have time : Json.Compact 126 (.number (.nat e.t)) := .nat (printable.t.trans_lt (by decide))
    have compact : Json.Compact 127 (.object e.fields) := by
      rw [Envelope.fields]
      cases e.oa with
      | none => exact .object (by simp) (by simp [Json.Compact.string, Json.Compact.nat, time])
      | some oa =>
        exact .object (by simp) (by
          simp [Json.Compact.string, Json.Compact.nat, Json.Compact.array, time])
    have read := @Rfc8259.readValue_writeValue (fun _ _ => .ok ()) (fun _ _ _ => rfl) 127 _ compact []
      Json.ends_nil
    refine ⟨e.fields, ?_, fun _ => rfl, fun field mem => List.mem_map_of_mem mem⟩
    rw [List.append_nil] at read
    rw [buildEnvelope_eq printable 125, String.toList_ofList, read]
    rfl

end GitSign

end Carryforth
