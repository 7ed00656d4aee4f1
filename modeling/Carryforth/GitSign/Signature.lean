import Carryforth.GitSign.Envelope

/-!
# Signing and verifying

The signer hashes a mark of the protocol, the time, the attestation if there is one, and the payload,
one after the other.  Nothing in these bytes says whether an attestation is there, so a payload that
begins like one can be read both ways: what a signature binds is the time and the attestation
followed by the payload.  Verification therefore accepts only what was signed exactly when the
signed contents are closed under the two ways of reading (`binds_iff`).
-/

namespace Carryforth

namespace GitSign

open Fallible Delimited

def domainSeparator : String := "nostr:git:v1:"

def maxPayload : Nat := 100 * 1024 * 1024

/-- The most bytes of a configured attestation. -/
def maxAuthTag : Nat := 1024

structure Content where
  t : Nat
  oa : Option OwnerAttestation
  payload : List UInt8
deriving DecidableEq, Repr

/-- The bytes that an attestation puts before the payload. -/
def OwnerAttestation.binding (oa : OwnerAttestation) : List UInt8 :=
  (Text.utf8 oa.owner ++ [58]) ++ ((Text.utf8 oa.conditions ++ [58]) ++ (Text.utf8 oa.sig ++ [58]))

/-- The bytes before the payload. -/
def oaBinding : Option OwnerAttestation → List UInt8
  | some oa => oa.binding
  | none => []

def Content.message (c : Content) : List UInt8 :=
  Text.utf8 domainSeparator ++ ((Text.decimal c.t ++ [58]) ++ (oaBinding c.oa ++ c.payload))

/-- The signatures, the hash, and the spellings of keys. -/
class Bip340 extends PublicKeys where
  SecretKey : Type
  Digest : Type
  sha256 : List UInt8 → Digest
  parseSecret : String → Except String SecretKey
  xOnlyPublicKey : SecretKey → List UInt8
  npubHex : String → Option String
  signSchnorr : (aux : List UInt8) → Digest → SecretKey → List UInt8
  verifySchnorr : List UInt8 → Digest → XOnly → Bool
  length_xOnlyPublicKey : ∀ key, (xOnlyPublicKey key).length = 32
  length_signSchnorr : ∀ aux digest key, (signSchnorr aux digest key).length = 64
  own_key : ∀ key, ∃ pk point, fromHex (String.ofList (Text.encodeHex (xOnlyPublicKey key))) = .ok pk ∧
    xonly pk = some point

export Bip340 (SecretKey Digest sha256 signSchnorr verifySchnorr)

section Program

variable [Bip340]

def computeSigningHash (c : Content) : Digest := sha256 c.message

/-- The spelling of the public key of a secret key. -/
def pkHex (key : SecretKey) : String := String.ofList (Text.encodeHex (Bip340.xOnlyPublicKey key))

/-- Whether the owner signed that the agent acts for them. -/
def verifyOa (agentPk : String) (oa : OwnerAttestation) : Bool :=
  match PublicKeys.fromHex oa.owner, Text.decodeHex oa.sig.toList with
  | .ok owner, some sig =>
    decide (sig.length = 64) && (PublicKeys.xonly owner).any fun point =>
      verifySchnorr sig (sha256 (Text.utf8 s!"nostr:agent-auth:{agentPk}:{oa.conditions}")) point
  | _, _ => false

def readPayloadStdin (stdin : Except String (List UInt8)) : Except Error (List UInt8) := do
  let payload ← within (fun e => .fatal s!"failed to read payload from stdin: {e}") stdin
  ensure (payload.length ≤ maxPayload)
    (.fatal s!"payload exceeds {maxPayload / (1024 * 1024)} MB limit")
  return payload

/-- The hexadecimal spelling of a key given by the user. -/
def normalizeKeyId (keyId : String) : Option String :=
  let trimmed := Text.trim keyId
  if "npub1".toList.isPrefixOf trimmed.toList then Bip340.npubHex trimmed
  else if Text.byteLength trimmed = 64 ∧ trimmed.toList.all Text.isAsciiHexdigit = true then
    some (String.ofList (trimmed.toList.map Char.toLower))
  else none

/-! ## Signing -/

/-- What one run of the signer finds: its key argument, its secret key, its input, the seconds of
its clock unless that is set before the epoch, the attestation configured in the environment and in
git, its randomness, and whether its output can be written. -/
structure SignRun where
  keyId : String
  rawKey : Except Error String
  stdin : Except String (List UInt8)
  clock : Option Nat
  authTagEnv : Option String
  authTagConfig : Except String (Option String)
  aux : List UInt8
  stdout : Except String Unit

def parseAuthTag [SerdeJson] (json : String) : Except Error OwnerAttestation := do
  ensure (Text.byteLength json ≤ maxAuthTag)
    (.fatal s!"auth tag exceeds {maxAuthTag}-byte size limit")
  let value ← within (fun e => .fatal s!"BUZZ_AUTH_TAG is not valid JSON: {e}") (fromStr json)
  let items ← okOr value.asArray (.fatal "BUZZ_AUTH_TAG must be a JSON array")
  ensure (items.length = 4) (.fatal "BUZZ_AUTH_TAG must have exactly 4 elements")
  ensure ((items.getD 0 .null).asStr = some "auth") (.fatal "BUZZ_AUTH_TAG[0] must be \"auth\"")
  let owner ← okOr (items.getD 1 .null).asStr (.fatal "BUZZ_AUTH_TAG[1] must be a string")
  let conditions ← okOr (items.getD 2 .null).asStr (.fatal "BUZZ_AUTH_TAG[2] must be a string")
  let sig ← okOr (items.getD 3 .null).asStr (.fatal "BUZZ_AUTH_TAG[3] must be a string")
  ensure (validateConditions conditions = true)
    (.fatal "BUZZ_AUTH_TAG conditions contain invalid characters")
  ensure (IsHex 64 owner) (.fatal "BUZZ_AUTH_TAG owner must be 64 lowercase hex chars")
  ensure (IsHex 128 sig) (.fatal "BUZZ_AUTH_TAG signature must be 128 lowercase hex chars")
  return { owner, conditions, sig }

/-- The text of the configured attestation; a value in the environment goes before one in git. -/
def SignRun.authTagText (run : SignRun) : Except Error (Option String) :=
  match run.authTagEnv.filter (· ≠ "") with
  | some json => .ok (some json)
  | none => within (fun e => .fatal s!"failed to read nostr.authtag: {e}") run.authTagConfig

def SignRun.loadAuthTag [SerdeJson] (run : SignRun) : Except Error (Option OwnerAttestation) := do
  let json ← run.authTagText
  match json with
  | none => return none
  | some json => do
    let oa ← parseAuthTag json
    return some oa

def checkKeyId (keyId : String) (key : SecretKey) : Except Error Unit :=
  if keyId = "" then .ok ()
  else match normalizeKeyId keyId with
    | some expected =>
      ensure (expected = pkHex key) (.fatal
        s!"signing key argument ({keyId}) does not match loaded key ({pkHex key})")
    | none => .error (.fatal
        (s!"signing key argument ({keyId}) is not a recognized key format " ++
          "(expected 64-char hex or npub1...)"))

/-- An attestation is only embedded if it is valid and in force. -/
def checkAttestation (pk : String) (t : Nat) (oa : OwnerAttestation) : Except Error Unit := do
  ensure ((PublicKeys.fromHex oa.owner).isOk = true)
    (.fatal "auth tag owner (oa[0]) is not a valid BIP-340 public key")
  ensure (oa.owner ≠ pk)
    (.fatal "auth tag owner (oa[0]) must not equal signing key (self-attestation)")
  ensure (verifyOa pk oa = true)
    (.fatal ("auth tag owner signature (oa[2]) verification failed — " ++
      "the configured BUZZ_AUTH_TAG is invalid or stale"))
  within (fun msg => .fatal s!"auth tag conditions not satisfied: {msg}")
    (enforceConditions oa.conditions t)

def SignRun.prepare [SerdeJson] (run : SignRun) : Except Error (SecretKey × Content) := do
  let raw ← run.rawKey
  let key ← within (fun e => .fatal s!"invalid nostr private key: {e}") (Bip340.parseSecret raw)
  checkKeyId run.keyId key
  let payload ← readPayloadStdin run.stdin
  let t ← okOr run.clock (.fatal "system clock is before Unix epoch")
  ensure (t ≤ maxTimestamp)
    (.fatal s!"timestamp {t} exceeds NIP-GS u32 range (max {maxTimestamp})")
  let oa ← run.loadAuthTag
  checkSome oa (checkAttestation (pkHex key) t)
  return (key, { t, oa, payload })

structure Signed where
  stdout : String
  status : List StatusLine
deriving DecidableEq, Repr

def envelopeOf (aux : List UInt8) (key : SecretKey) (c : Content) : Envelope :=
  { pk := pkHex key
    sig := String.ofList (Text.encodeHex (signSchnorr aux (computeSigningHash c) key))
    t := c.t
    oa := c.oa }

def SignRun.doSign [Base64] [SerdeJson] (run : SignRun) : Except Error Signed := do
  let (key, content) ← run.prepare
  let armored := armor (Text.utf8 (buildEnvelope (envelopeOf run.aux key content)))
  within (fun e => .fatal s!"failed to write signature to stdout: {e}") run.stdout
  return { stdout := armored, status := [.beginSigning, .sigCreated content.t (pkHex key)] }

/-! ## Verifying -/

inductive OaVerifyResult
  | absent
  | valid
  | invalidSignature
  | conditionsViolated
deriving DecidableEq, Repr

def OaVerifyResult.asStatusStr : OaVerifyResult → String
  | .absent => "none"
  | .valid => "valid"
  | .invalidSignature => "invalid_signature"
  | .conditionsViolated => "expired"

/-- What one run of the verifier finds: the bytes of the signature file or why it cannot be opened,
its input, the key configured in git, and how many status lines can be written before writing
fails. -/
structure VerifyRun where
  path : String
  file : Except String (List UInt8)
  stdin : Except String (List UInt8)
  signingKey : Option String
  statusRoom : Nat
  statusError : String

def VerifyRun.readBoundedFile (run : VerifyRun) : Except Error String := do
  let bytes ← within .fatal run.file
  ensure (bytes.length ≤ maxSigFile)
    (.fatal s!"signature file {run.path} exceeds {maxSigFile} byte limit")
  okOr (Text.ofUtf8 bytes)
    (.fatal s!"cannot read signature file {run.path}: stream did not contain valid UTF-8")

def VerifyRun.envelope [Base64] [SerdeJson] (run : VerifyRun) : Except Failure Envelope := do
  let content ← within (fun e => { status := [.errsig none], error := e }) run.readBoundedFile
  parseSignature content

def attestationResult (e : Envelope) : Option OwnerAttestation → Except Failure OaVerifyResult
  | none => .ok .absent
  | some oa => do
    ensure ((PublicKeys.fromHex oa.owner).isOk = true)
      (reject (some e.pk) "oa[0] owner pubkey is not a valid BIP-340 key")
    if verifyOa e.pk oa then
      match enforceConditions oa.conditions e.t with
      | .ok () => return .valid
      | .error _ => return .conditionsViolated
    else return .invalidSignature

/-- The envelope of a good signature, with the result for its attestation. -/
def VerifyRun.verifySignature [Base64] [SerdeJson] (run : VerifyRun) :
    Except Failure (Envelope × OaVerifyResult) := do
  let e ← run.envelope
  let pk ← within (fun msg => reject (some e.pk) s!"pk is not a valid BIP-340 public key: {msg}")
    (PublicKeys.fromHex e.pk)
  let payload ← within (fun error => { status := [.errsig (some e.pk)], error })
    (readPayloadStdin run.stdin)
  let sig ← okOr (Text.decodeHex e.sig.toList) (reject (some e.pk) "invalid signature hex")
  ensure (sig.length = 64) (reject (some e.pk) "invalid BIP-340 signature")
  let point ← okOr (PublicKeys.xonly pk) (reject (some e.pk) "invalid public key xonly conversion")
  ensure (verifySchnorr sig (computeSigningHash { t := e.t, oa := e.oa, payload }) point = true)
    { status := [.newsig, .badsig e.pk]
      error := .verifyFailed (some e.pk) "BIP-340 signature verification failed" }
  let oaResult ← attestationResult e e.oa
  return (e, oaResult)

/-- Advisory only: whether the key is the one configured in git. -/
def VerifyRun.determineTrust (run : VerifyRun) (pk : String) : String :=
  if run.signingKey.bind normalizeKeyId = some pk then "TRUST_FULLY" else "TRUST_UNDEFINED"

/-- A date of the Gregorian calendar, counted from 1 March of the year 0. -/
def timestampToDate (t : Nat) : String :=
  let days := t / 86400 + 719468
  let dayOfEra := days % 146097
  let yearOfEra := (dayOfEra - dayOfEra / 1460 + dayOfEra / 36524 - dayOfEra / 146096) / 365
  let dayOfYear := dayOfEra - (365 * yearOfEra + yearOfEra / 4 - yearOfEra / 100)
  let month := (5 * dayOfYear + 2) / 153
  let day := dayOfYear - (153 * month + 2) / 5 + 1
  let year := yearOfEra + days / 146097 * 400 + if month < 10 then 0 else 1
  let pad := fun (width n : Nat) => "".pushn '0' (width - (Nat.repr n).length) ++ Nat.repr n
  pad 4 year ++ "-" ++ pad 2 (if month < 10 then month + 3 else month - 9) ++ "-" ++ pad 2 day

example : timestampToDate 0 = "1970-01-01" ∧ timestampToDate 951782400 = "2000-02-29" ∧
    timestampToDate 4294967295 = "2106-02-07" := by decide +kernel

def VerifyRun.report (run : VerifyRun) (e : Envelope) (oaResult : OaVerifyResult) :
    List StatusLine :=
  [.newsig, .goodsig e.pk, .validsig e.pk (timestampToDate e.t) e.t,
    .trust (run.determineTrust e.pk), .noteName "nostr-trust-model",
    .noteData "advisory-config-match-only", .noteName "nostr-oa-status",
    .noteData (match e.oa with | some _ => oaResult.asStatusStr | none => "none")] ++
  match e.oa with
  | some oa => [.noteName "nostr-oa-owner", .noteData oa.owner]
  | none => []

/-- The result of a run, with the status lines that were written. -/
def VerifyRun.doVerify [Base64] [SerdeJson] (run : VerifyRun) : Except Error Unit × List StatusLine :=
  match run.verifySignature with
  | .error failure => (.error failure.error, failure.status.take run.statusRoom)
  | .ok (e, oaResult) =>
    let lines := run.report e oaResult
    (ensure (lines.length ≤ run.statusRoom)
      (.fatal s!"failed to write status line: {run.statusError}"), lines.take run.statusRoom)

end Program

/-! ## What the signed bytes determine -/

theorem not_mem_utf8_of_plain {s : String} (plain : Plain s) : (58 : UInt8) ∉ Text.utf8 s := by
  intro mem
  rw [Text.utf8_eq_map fun c mem => (plain c mem).2.1.trans (by decide)] at mem
  obtain ⟨c, listed, same⟩ := List.mem_map.1 mem
  have range := plain c listed
  have value := congrArg UInt8.toNat same
  rw [UInt8.toNat_ofNat_of_lt' (Nat.lt_of_le_of_lt range.2.1 (by decide))] at value
  exact range.2.2.1 value

/-- An attestation without separators inside its parts. -/
def OwnerAttestation.Separable (oa : OwnerAttestation) : Prop :=
  Plain oa.owner ∧ Plain oa.conditions ∧ Plain oa.sig

theorem OwnerAttestation.WellFormed.separable [PublicKeys] {oa : OwnerAttestation} {pk : String}
    (wellFormed : oa.WellFormed pk) : oa.Separable :=
  ⟨wellFormed.owner.plain, plain_of_validateConditions wellFormed.conditions, wellFormed.sig.plain⟩

theorem selfDelimiting_binding :
    SelfDelimiting OwnerAttestation.Separable OwnerAttestation.binding := by
  have part : SelfDelimiting Plain fun s => Text.utf8 s ++ [58] :=
    terminated (fun _ plain => not_mem_utf8_of_plain plain) Text.utf8_injective
  exact (part.pair (part.pair part)).comap
    (f := fun oa : OwnerAttestation => (oa.owner, oa.conditions, oa.sig))
    (fun a b same => by cases a; cases b; simpa using same) fun _ separable => separable

/-- One message determines the time, and the attestation together with the payload. -/
theorem eq_of_message {c d : Content} (same : c.message = d.message) :
    c.t = d.t ∧ oaBinding c.oa ++ c.payload = oaBinding d.oa ++ d.payload := by
  have time : SelfDelimiting (fun _ => True) fun t => Text.decimal t ++ [58] :=
    terminated (fun _ _ mem => absurd (Text.mem_decimal mem).2 (by decide)) Text.decimal_injective
  exact time trivial trivial (List.append_cancel_left same)

theorem isHex_encodeHex {bytes : List UInt8} {n : Nat} (length : 2 * bytes.length = n) :
    IsHex n (String.ofList (Text.encodeHex bytes)) := by
  have digits : ∀ c ∈ Text.encodeHex bytes, Text.isLowerHexdigit c = true := fun c mem =>
    Text.isLowerHexdigit_of_mem mem
  refine ⟨?_, by rwa [String.toList_ofList, List.all_eq_true]⟩
  rw [Text.byteLength_ofList, Text.length_encodeHex, length]
  intro c mem
  have range := Text.toNat_of_isLowerHexdigit (digits c mem)
  exact Text.utf8Size_eq_one (by omega)

/-! ## What a signature binds -/

section Binding

variable [Base64] [SerdeJson] [Bip340]

/-- Every one of these contents has been signed with the key. -/
def SignedBy (key : SecretKey) (signed : Set Content) : Prop :=
  ∀ c ∈ signed, ∃ run : SignRun, run.prepare = .ok (key, c) ∧ ∃ out, run.doSign = .ok out

/-- The hash has no collisions, signatures of the signer verify, and under its key no others do. -/
structure Ideal (key : SecretKey) (signed : Set Content) : Prop where
  collisionFree : Function.Injective (sha256 : List UInt8 → Digest)
  genuine : ∀ c ∈ signed, ∀ aux pk point, PublicKeys.fromHex (pkHex key) = .ok pk →
    PublicKeys.xonly pk = some point →
    verifySchnorr (signSchnorr aux (computeSigningHash c) key) (computeSigningHash c) point = true
  unforgeable : ∀ sig digest pk point, PublicKeys.fromHex (pkHex key) = .ok pk →
    PublicKeys.xonly pk = some point → verifySchnorr sig digest point = true →
    ∃ c ∈ signed, computeSigningHash c = digest

/-- A run that reports a good signature by the key is about signed content. -/
def Binds (key : SecretKey) (signed : Set Content) : Prop :=
  ∀ (run : VerifyRun) (e : Envelope) (payload : List UInt8), run.envelope = .ok e →
    run.stdin = .ok payload → .goodsig (pkHex key) ∈ run.doVerify.2 →
    { t := e.t, oa := e.oa, payload } ∈ signed

/-- Signed contents that have all their readings among them: an attestation can be read as the
beginning of the payload, and the beginning of a payload as an attestation. -/
structure Unambiguous (key : SecretKey) (signed : Set Content) : Prop where
  attested : ∀ t oa payload, { t, oa := some oa, payload } ∈ signed →
    (oa.binding ++ payload).length ≤ maxPayload →
    { t, oa := none, payload := oa.binding ++ payload } ∈ signed
  plain : ∀ t oa payload, { t, oa := none, payload := oa.binding ++ payload } ∈ signed →
    oa.WellFormed (pkHex key) →
    429 + (Nat.toDigits 10 t).length + Text.byteLength oa.conditions ≤ maxJsonDecoded →
    { t, oa := some oa, payload } ∈ signed

variable {key : SecretKey} {signed : Set Content}

omit [Base64] [SerdeJson] in
theorem isHex_pkHex : IsHex 64 (pkHex key) :=
  isHex_encodeHex (by rw [Bip340.length_xOnlyPublicKey])

omit [Base64] in
theorem wellFormed_of_checks {json : String} {t : Nat} {oa : OwnerAttestation} {pk : String}
    (parsed : parseAuthTag json = .ok oa) (checked : checkAttestation pk t oa = .ok ()) :
    oa.WellFormed pk := by
  simp only [parseAuthTag, bind_eq_ok, exists_unit, ensure_eq_ok, within_eq_ok, okOr_eq_ok,
    pure_eq_ok] at parsed
  simp only [checkAttestation, bind_eq_ok, exists_unit, ensure_eq_ok] at checked
  obtain ⟨-, _, -, _, -, -, -, _, -, _, -, _, -, conditions, owner, sig, rfl⟩ := parsed
  obtain ⟨isKey, other, -⟩ := checked
  refine ⟨owner, sig, conditions, ?_, other⟩
  cases spelled : PublicKeys.fromHex _ with
  | ok key => exact ⟨key, rfl⟩
  | error e =>
    rw [spelled] at isKey
    cases isKey

/-- What is signed keeps the limits, and its attestation is well formed. -/
theorem SignedBy.content (made : SignedBy key signed) {c : Content} (mem : c ∈ signed) :
    c.t ≤ maxTimestamp ∧ c.payload.length ≤ maxPayload ∧
      ∀ oa, c.oa = some oa → oa.WellFormed (pkHex key) := by
  obtain ⟨run, prepared, -⟩ := made c mem
  simp only [SignRun.prepare, bind_eq_ok, exists_unit, ensure_eq_ok, within_eq_ok, okOr_eq_ok,
    checkSome_eq_ok, pure_eq_ok, Prod.mk.injEq, readPayloadStdin] at prepared
  obtain ⟨_, -, _, -, -, _, ⟨_, -, fits, rfl⟩, _, -, time, oa, loaded, checked, rfl, rfl⟩ := prepared
  refine ⟨time, fits, fun attestation is => ?_⟩
  subst is
  simp only [SignRun.loadAuthTag, bind_eq_ok] at loaded
  obtain ⟨json, -, loaded⟩ := loaded
  cases json with
  | none => cases loaded
  | some json =>
    simp only [bind_eq_ok, pure_eq_ok, Option.some.injEq] at loaded
    obtain ⟨_, parsed, rfl⟩ := loaded
    exact wellFormed_of_checks parsed (checked _ rfl)

theorem verifySignature_failsWith (run : VerifyRun) :
    FailsWith (fun failure => ∀ pk, .goodsig pk ∉ failure.status) run.verifySignature := by
  have rejected : ∀ pk msg good, .goodsig good ∉ (reject pk msg).status := by
    intro pk msg good mem
    cases List.mem_singleton.1 mem
  have unread : ∀ pk error good, .goodsig good ∉ (Failure.mk [.errsig pk] error).status := by
    intro pk error good mem
    cases List.mem_singleton.1 mem
  have envelope : FailsWith (fun failure => ∀ pk, .goodsig pk ∉ failure.status) run.envelope := by
    refine failsWith_bind (failsWith_within fun e => unread none e) fun content => ?_
    refine failsWith_bind (failsWith_within fun e => rejected none e) fun _ => ?_
    refine failsWith_bind (failsWith_ensure (rejected _ _)) fun _ => ?_
    refine failsWith_bind (failsWith_okOr (rejected _ _)) fun _ => ?_
    refine failsWith_bind (failsWith_ensure (rejected _ _)) fun _ => ?_
    refine failsWith_bind (failsWith_okOr (rejected _ _)) fun _ => ?_
    refine failsWith_bind (failsWith_ensure (rejected _ _)) fun _ => ?_
    refine failsWith_bind (failsWith_within fun e => rejected _ e) fun _ => ?_
    exact failsWith_bind (failsWith_ensure (rejected _ _)) fun _ => failsWith_pure _
  have attestation : ∀ e oa, FailsWith (fun failure => ∀ pk, .goodsig pk ∉ failure.status)
      (attestationResult e oa) := by
    intro e oa
    cases oa with
    | none => exact failsWith_pure _
    | some oa =>
      refine failsWith_bind (failsWith_ensure (rejected _ _)) fun _ => ?_
      split_ifs
      · cases enforceConditions oa.conditions e.t <;> exact failsWith_pure _
      · exact failsWith_pure _
  refine failsWith_bind envelope fun e => ?_
  refine failsWith_bind (failsWith_within fun msg => rejected _ _) fun pk => ?_
  refine failsWith_bind (failsWith_within fun error => unread _ error) fun payload => ?_
  refine failsWith_bind (failsWith_okOr (rejected _ _)) fun sig => ?_
  refine failsWith_bind (failsWith_ensure (rejected _ _)) fun _ => ?_
  refine failsWith_bind (failsWith_okOr (rejected _ _)) fun point => ?_
  refine failsWith_bind (failsWith_ensure fun good mem => ?_) fun _ => ?_
  · simp at mem
  · exact failsWith_bind (attestation e e.oa) fun _ => failsWith_pure _

/-- A good signature is reported exactly when verification accepts and the report can be written. -/
theorem goodsig_mem_doVerify {run : VerifyRun} {pk : String} :
    .goodsig pk ∈ run.doVerify.2 ↔
      2 ≤ run.statusRoom ∧ ∃ e oaResult, run.verifySignature = .ok (e, oaResult) ∧ e.pk = pk := by
  unfold VerifyRun.doVerify
  cases verified : run.verifySignature with
  | error failure =>
    have quiet := verifySignature_failsWith run failure verified pk
    simp only [reduceCtorEq, false_and, exists_false, and_false, iff_false]
    exact fun mem => quiet (List.mem_of_mem_take mem)
  | ok found =>
    obtain ⟨e, oaResult⟩ := found
    simp only [Except.ok.injEq, Prod.mk.injEq]
    have rest : ∃ tail, run.report e oaResult = .newsig :: .goodsig e.pk :: tail ∧
        .goodsig pk ∉ tail := by
      refine ⟨_, rfl, ?_⟩
      cases e.oa <;> simp
    obtain ⟨tail, report, quiet⟩ := rest
    rw [report]
    match run.statusRoom with
    | 0 => simp
    | 1 => simp
    | n + 2 =>
      have later : .goodsig pk ∉ tail.take n := fun mem => quiet (List.mem_of_mem_take mem)
      simp [later, eq_comm]

theorem wellFormed_of_envelope {run : VerifyRun} {e : Envelope} (read : run.envelope = .ok e) :
    e.WellFormed ∧ Text.byteLength (buildEnvelope e) ≤ maxJsonDecoded := by
  rw [VerifyRun.envelope, bind_eq_ok] at read
  obtain ⟨content, -, parsed⟩ := read
  exact wellFormed_of_parseSignature parsed

theorem verifySignature_eq_ok {run : VerifyRun} {e : Envelope} {oaResult : OaVerifyResult}
    (verified : run.verifySignature = .ok (e, oaResult)) :
    run.envelope = .ok e ∧ ∃ payload pk sig point, run.stdin = .ok payload ∧
      payload.length ≤ maxPayload ∧ PublicKeys.fromHex e.pk = .ok pk ∧
      PublicKeys.xonly pk = some point ∧
      verifySchnorr sig (computeSigningHash { t := e.t, oa := e.oa, payload }) point = true := by
  simp only [VerifyRun.verifySignature, readPayloadStdin, bind_eq_ok, exists_unit, ensure_eq_ok,
    within_eq_ok, okOr_eq_ok, pure_eq_ok, Prod.mk.injEq] at verified
  obtain ⟨_, envelope, pk, isKey, _, ⟨payload, read, fits, rfl⟩, sig, -, -, point, isPoint, genuine,
    _, -, rfl, -⟩ := verified
  exact ⟨envelope, payload, pk, sig, point, read, fits, isKey, isPoint, genuine⟩

omit [Base64] [SerdeJson] in
theorem exists_attestationResult {e : Envelope}
    (oa : ∀ oa, e.oa = some oa → oa.WellFormed e.pk) :
    ∃ oaResult, attestationResult e e.oa = .ok oaResult := by
  cases attested : e.oa with
  | none => exact ⟨.absent, rfl⟩
  | some attestation =>
    obtain ⟨owner, isKey⟩ := (oa attestation attested).isKey
    have isOk : (PublicKeys.fromHex attestation.owner).isOk = true := by
      rw [isKey]
      rfl
    rw [attestationResult, ensure_of isOk, ok_bind]
    split_ifs
    · cases enforceConditions attestation.conditions e.t with
      | ok _ => exact ⟨.valid, rfl⟩
      | error _ => exact ⟨.conditionsViolated, rfl⟩
    · exact ⟨.invalidSignature, rfl⟩

/-- A run of the verifier on a file made for this envelope, with room for its whole report. -/
def presented (e : Envelope) (payload : List UInt8) : VerifyRun :=
  { path := ""
    file := .ok (Text.utf8 (armor (Text.utf8 (buildEnvelope e))))
    stdin := .ok payload
    signingKey := none
    statusRoom := 10
    statusError := "" }

theorem envelope_presented {e : Envelope} {payload : List UInt8} (wellFormed : e.WellFormed)
    (short : Text.byteLength (buildEnvelope e) ≤ maxJsonDecoded) :
    (presented e payload).envelope = .ok e := by
  simp only [VerifyRun.envelope, VerifyRun.readBoundedFile, bind_eq_ok, exists_unit, ensure_eq_ok,
    within_eq_ok, okOr_eq_ok]
  refine ⟨armor (Text.utf8 (buildEnvelope e)), ⟨_, rfl, ?_, Text.ofUtf8_utf8 _⟩,
    parseSignature_armor wellFormed short⟩
  rw [Text.length_utf8]
  exact byteLength_armor_le short

/-- A signature of one content is good for every other reading of the same message. -/
theorem goodsig_of_message {c d : Content} (ideal : Ideal key signed) (mem : c ∈ signed)
    (same : c.message = d.message) (time : d.t ≤ maxTimestamp) (fits : d.payload.length ≤ maxPayload)
    (oa : ∀ oa, d.oa = some oa → oa.WellFormed (pkHex key))
    (short : ∀ sig, IsHex 128 sig →
      Text.byteLength (buildEnvelope { pk := pkHex key, sig, t := d.t, oa := d.oa }) ≤ maxJsonDecoded) :
    ∃ run : VerifyRun, ∃ e, run.envelope = .ok e ∧ run.stdin = .ok d.payload ∧ e.t = d.t ∧
      e.oa = d.oa ∧ .goodsig (pkHex key) ∈ run.doVerify.2 := by
  obtain ⟨pk, point, isKey, isPoint⟩ := Bip340.own_key key
  have sigLength := Bip340.length_signSchnorr [] (computeSigningHash c) key
  have genuine := ideal.genuine c mem [] pk point isKey isPoint
  generalize signSchnorr [] (computeSigningHash c) key = sig at sigLength genuine
  have sigHex : IsHex 128 (String.ofList (Text.encodeHex sig)) :=
    isHex_encodeHex (by rw [sigLength])
  obtain ⟨e, is⟩ : ∃ e : Envelope,
      e = ⟨pkHex key, String.ofList (Text.encodeHex sig), d.t, d.oa⟩ := ⟨_, rfl⟩
  have wellFormed : e.WellFormed := by
    rw [is]
    exact ⟨isHex_pkHex, sigHex, time, oa⟩
  have envelope : (presented e d.payload).envelope = .ok e :=
    envelope_presented wellFormed (is ▸ short _ sigHex)
  obtain ⟨oaResult, attestation⟩ := exists_attestationResult wellFormed.oa
  have verified : (presented e d.payload).verifySignature = .ok (e, oaResult) := by
    have digest : computeSigningHash c =
        computeSigningHash { t := e.t, oa := e.oa, payload := d.payload } := by
      rw [is]
      exact congrArg sha256 same
    rw [digest] at genuine
    simp only [VerifyRun.verifySignature, readPayloadStdin, bind_eq_ok, exists_unit, ensure_eq_ok,
      within_eq_ok, okOr_eq_ok, pure_eq_ok]
    refine ⟨e, envelope, pk, by rw [is]; exact isKey, d.payload, ⟨_, rfl, fits, rfl⟩, sig, ?_,
      sigLength, point, isPoint, genuine, oaResult, attestation, rfl⟩
    rw [is, String.toList_ofList, Text.decodeHex_encodeHex]
  exact ⟨presented e d.payload, e, envelope, rfl, by rw [is], by rw [is],
    goodsig_mem_doVerify.2 ⟨show 2 ≤ 10 by decide, e, oaResult, verified, by rw [is]⟩⟩

omit [Base64] [SerdeJson] in
/-- Unambiguous contents contain every reading of their messages that an envelope can carry. -/
theorem Unambiguous.readings (unambiguous : Unambiguous key signed) {c d : Content}
    (mem : c ∈ signed) (same : c.message = d.message)
    (signedOa : ∀ oa, c.oa = some oa → oa.WellFormed (pkHex key))
    (readOa : ∀ oa, d.oa = some oa → oa.WellFormed (pkHex key))
    (fits : d.payload.length ≤ maxPayload)
    (short : ∀ oa, d.oa = some oa →
      429 + (Nat.toDigits 10 d.t).length + Text.byteLength oa.conditions ≤ maxJsonDecoded) :
    d ∈ signed := by
  obtain ⟨t, was, payload⟩ := c
  obtain ⟨t', now, payload'⟩ := d
  obtain ⟨rfl, rest⟩ : t = t' ∧ oaBinding was ++ payload = oaBinding now ++ payload' :=
    eq_of_message same
  -- on either side there may be an attestation before the payload
  cases was with
  | none =>
    cases now with
    | none =>
      obtain rfl : payload = payload' := rest
      exact mem
    | some oa =>
      obtain rfl : payload = oa.binding ++ payload' := rest
      exact unambiguous.plain t oa payload' mem (readOa oa rfl) (short oa rfl)
  | some signedWith =>
    cases now with
    | none =>
      obtain rfl : signedWith.binding ++ payload = payload' := rest
      exact unambiguous.attested t signedWith payload mem fits
    | some oa =>
      obtain ⟨rfl, rfl⟩ := selfDelimiting_binding (signedOa signedWith rfl).separable
        (readOa oa rfl).separable rest
      exact mem

/-- For every key and every set of contents signed with it: what the verifier reports as a good
signature of the key is one of the signed contents, if and only if the signed contents have all
their readings among them. -/
theorem binds_iff (made : SignedBy key signed) (ideal : Ideal key signed) :
    Binds key signed ↔ Unambiguous key signed := by
  constructor
  · intro binds
    have closed : ∀ c ∈ signed, ∀ d : Content, c.message = d.message → d.t ≤ maxTimestamp →
        d.payload.length ≤ maxPayload → (∀ oa, d.oa = some oa → oa.WellFormed (pkHex key)) →
        (∀ sig, IsHex 128 sig → Text.byteLength
          (buildEnvelope { pk := pkHex key, sig, t := d.t, oa := d.oa }) ≤ maxJsonDecoded) →
        d ∈ signed := by
      intro c mem d same time fits oa short
      obtain ⟨run, e, envelope, stdin, sameT, sameOa, good⟩ :=
        goodsig_of_message ideal mem same time fits oa short
      have bound := binds run e d.payload envelope stdin good
      rwa [sameT, sameOa] at bound
    have digits : ∀ t ≤ maxTimestamp, (Nat.toDigits 10 t).length ≤ 10 := fun t time =>
      (Nat.length_toDigits_le_iff (by decide) (by decide)).2 (Nat.lt_of_le_of_lt time (by decide))
    constructor
    · intro t oa payload mem fits
      obtain ⟨time, -, -⟩ := made.content mem
      refine closed _ mem { t, oa := none, payload := oa.binding ++ payload } rfl time fits
        (fun _ is => nomatch is) fun sig sigHex => ?_
      have length := digits t time
      rw [byteLength_buildEnvelope, isHex_pkHex.1, sigHex.1, maxJsonDecoded]
      dsimp only
      omega
    · intro t oa payload mem wellFormed short
      obtain ⟨time, fits, -⟩ := made.content mem
      refine closed _ mem { t, oa := some oa, payload } rfl time ?_
        (fun _ is => Option.some.inj is ▸ wellFormed) fun sig sigHex => ?_
      · rw [List.length_append] at fits
        exact (Nat.le_add_left _ _).trans fits
      · rw [byteLength_buildEnvelope, isHex_pkHex.1, sigHex.1]
        dsimp only
        rw [wellFormed.owner.1, wellFormed.sig.1]
        omega
  · intro unambiguous run e payload envelope stdin good
    obtain ⟨-, _, oaResult, verified, samePk⟩ := goodsig_mem_doVerify.1 good
    obtain ⟨found, _, pk, sig, point, read, fits, isKey, isPoint, genuine⟩ :=
      verifySignature_eq_ok verified
    rw [envelope, Except.ok.injEq] at found
    rw [stdin, Except.ok.injEq] at read
    subst found read
    rw [samePk] at isKey
    obtain ⟨c, mem, digest⟩ := ideal.unforgeable sig _ pk point isKey isPoint genuine
    obtain ⟨wellFormed, short⟩ := wellFormed_of_envelope envelope
    obtain ⟨-, -, signedOa⟩ := made.content mem
    refine unambiguous.readings mem (ideal.collisionFree digest) signedOa (samePk ▸ wellFormed.oa) fits
      fun oa is => ?_
    rw [byteLength_buildEnvelope, wellFormed.pk.1, wellFormed.sig.1,
      show e.oa = some oa from is] at short
    dsimp only at short ⊢
    rw [(wellFormed.oa oa is).owner.1, (wellFormed.oa oa is).sig.1] at short
    omega

end Binding

/-! ## An agent and its owner -/

inductive Signer
  | agent
  | owner
deriving DecidableEq, Repr

namespace Signer

def publicKey : Signer → List UInt8
  | agent => List.replicate 32 0x11
  | owner => List.replicate 32 0x22

def spelling : Signer → String
  | agent => String.ofList (List.replicate 64 '1')
  | owner => String.ofList (List.replicate 64 '2')

theorem spelling_eq (signer : Signer) :
    String.ofList (Text.encodeHex signer.publicKey) = signer.spelling := by
  cases signer <;> exact congrArg String.ofList (by decide)

end Signer

/-- What each of them has signed: the agent some contents, the owner that the agent acts for them. -/
def Signer.messages (signed : List Content) : Signer → List (List UInt8)
  | agent => signed.map Content.message
  | owner => [Text.utf8 s!"nostr:agent-auth:{agent.spelling}:"]

/-- A signature verifies under the key of the one who made it, for what they have signed. -/
@[reducible] def listedOnly (signed : List Content) : Bip340 where
  PublicKey := String
  XOnly := String
  fromHex := .ok
  xonly := some
  SecretKey := Signer
  Digest := List UInt8
  sha256 := id
  parseSecret := fun _ => .ok .agent
  xOnlyPublicKey := Signer.publicKey
  npubHex := fun _ => none
  signSchnorr := fun _ _ _ => List.replicate 64 0
  verifySchnorr := fun sig digest point =>
    decide (sig = List.replicate 64 0) && [Signer.agent, .owner].any fun signer =>
      decide (point = signer.spelling ∧ digest ∈ signer.messages signed)
  length_xOnlyPublicKey := fun signer => by cases signer <;> rfl
  length_signSchnorr := fun _ _ _ => List.length_replicate
  own_key := fun _ => ⟨_, _, rfl, rfl⟩

theorem pkHex_listedOnly (signed : List Content) (signer : Signer) :
    @pkHex (listedOnly signed) signer = signer.spelling := signer.spelling_eq

theorem verifySchnorr_listedOnly {signed : List Content} {sig digest : List UInt8} {signer : Signer} :
    @verifySchnorr (listedOnly signed) sig digest signer.spelling = true ↔
      sig = List.replicate 64 0 ∧ digest ∈ signer.messages signed := by
  have other : Signer.agent.spelling ≠ Signer.owner.spelling := by decide
  cases signer <;> simp [Bip340.verifySchnorr, other, other.symm]

theorem ideal_listedOnly (signed : List Content) :
    @Ideal (listedOnly signed) .agent {c | c ∈ signed} := by
  have own : ∀ pk point : String,
      Except.ok (@pkHex (listedOnly signed) .agent) = Except.ok (ε := String) pk →
        some pk = some point → point = Signer.agent.spelling := by
    rintro pk point isKey isPoint
    rw [← Option.some.inj isPoint, ← Except.ok.inj isKey, pkHex_listedOnly]
  refine @Ideal.mk (listedOnly signed) _ _ Function.injective_id ?_ ?_
  · intro c mem aux pk point isKey isPoint
    rw [own pk point isKey isPoint]
    exact verifySchnorr_listedOnly.2 ⟨rfl, List.mem_map_of_mem mem⟩
  · intro sig digest pk point isKey isPoint verified
    rw [own pk point isKey isPoint] at verified
    obtain ⟨c, mem, is⟩ := List.mem_map.1 (verifySchnorr_listedOnly.1 verified).2
    exact ⟨c, mem, is⟩

def signByte (authTag : Option String) : SignRun where
  keyId := ""
  rawKey := .ok ""
  stdin := .ok [97]
  clock := some 7
  authTagEnv := authTag
  authTagConfig := .ok none
  aux := []
  stdout := .ok ()

def plainContent : Content := { t := 7, oa := none, payload := [97] }

/-- What verifies under a key that signed one plain byte is that byte. -/
theorem binds_iff_plainContent :
    @SignedBy .standard compactJson (listedOnly [plainContent]) .agent {c | c ∈ [plainContent]} ∧
      @Binds .standard compactJson (listedOnly [plainContent]) .agent {c | c ∈ [plainContent]} := by
  have made : @SignedBy .standard compactJson (listedOnly [plainContent]) .agent
      {c | c ∈ [plainContent]} := by
    intro c mem
    rw [List.mem_singleton.1 mem]
    exact ⟨signByte none, rfl, _, rfl⟩
  refine ⟨made, (@binds_iff .standard compactJson (listedOnly [plainContent]) _ _ made
    (ideal_listedOnly [plainContent])).2 (@Unambiguous.mk (listedOnly _) _ _ ?_ ?_)⟩
  · intro t oa payload mem
    cases List.mem_singleton.1 mem
  · intro t oa payload mem
    have length := congrArg (fun c : Content => c.payload.length) (List.mem_singleton.1 mem)
    simp [OwnerAttestation.binding, plainContent] at length
    omega

def byOwner : OwnerAttestation where
  owner := Signer.owner.spelling
  conditions := ""
  sig := String.ofList (List.replicate 128 '0')

def ownerTag : String :=
  "[\"auth\",\"" ++ byOwner.owner ++ "\",\"\",\"" ++ byOwner.sig ++ "\"]"

def attestedContent : Content := { t := 7, oa := some byOwner, payload := [97] }

theorem doSign_attested {json : SerdeJson} (tag : @parseAuthTag json ownerTag = .ok byOwner) :
    @SignRun.prepare (listedOnly [attestedContent]) json (signByte (some ownerTag)) =
        .ok (.agent, attestedContent) ∧
      ∃ out, @SignRun.doSign (listedOnly [attestedContent]) .standard json
        (signByte (some ownerTag)) = .ok out := by
  have loaded : @SignRun.loadAuthTag json (signByte (some ownerTag)) = .ok (some byOwner) := by
    have text : (signByte (some ownerTag)).authTagText = .ok (some ownerTag) := by decide +kernel
    unfold SignRun.loadAuthTag
    rw [text, ok_bind]
    dsimp only
    rw [tag]
    rfl
  have checked : @checkAttestation (listedOnly [attestedContent])
      (@pkHex (listedOnly [attestedContent]) .agent) 7 byOwner = .ok () := by decide +kernel
  have prepared : @SignRun.prepare (listedOnly [attestedContent]) json (signByte (some ownerTag)) =
      .ok (.agent, attestedContent) := by
    simp only [SignRun.prepare, readPayloadStdin, bind_eq_ok, exists_unit, ensure_eq_ok,
      within_eq_ok, okOr_eq_ok, checkSome_eq_ok, pure_eq_ok]
    exact ⟨"", rfl, .agent, rfl, rfl, [97], ⟨[97], rfl, by decide, rfl⟩, 7, rfl, by decide,
      some byOwner, loaded, fun oa is => Option.some.inj is ▸ checked, rfl⟩
  refine ⟨prepared, ?_⟩
  unfold SignRun.doSign
  rw [prepared]
  exact ⟨_, rfl⟩

/-- A content is signed with a genuine attestation, and no other; the same signature is good without
it, for the payload that begins with the attestation. -/
theorem attestedContent_unbound :
    @SignedBy .standard compactJson (listedOnly [attestedContent]) .agent {c | c ∈ [attestedContent]} ∧
      @Ideal (listedOnly [attestedContent]) .agent {c | c ∈ [attestedContent]} ∧
      (∀ sig digest, @verifySchnorr (listedOnly [attestedContent]) sig digest byOwner.owner = true →
        digest = Text.utf8 s!"nostr:agent-auth:{Signer.agent.spelling}:") ∧
      ∃ (run : VerifyRun) (e : Envelope),
        @VerifyRun.envelope (listedOnly [attestedContent]) .standard compactJson run = .ok e ∧
        run.stdin = .ok (byOwner.binding ++ [97]) ∧ e.t = 7 ∧ e.oa = none ∧
        .goodsig Signer.agent.spelling ∈
          (@VerifyRun.doVerify (listedOnly [attestedContent]) .standard compactJson run).2 ∧
        { t := e.t, oa := e.oa, payload := byOwner.binding ++ [97] } ∉
          {c | c ∈ [attestedContent]} := by
  have made : @SignedBy .standard compactJson (listedOnly [attestedContent]) .agent
      {c | c ∈ [attestedContent]} := by
    intro c mem
    rw [List.mem_singleton.1 mem]
    have tag : @parseAuthTag compactJson ownerTag = .ok byOwner := by decide +kernel
    exact ⟨signByte (some ownerTag), doSign_attested tag⟩
  have ideal := ideal_listedOnly [attestedContent]
  obtain ⟨run, e, envelope, stdin, t, oa, good⟩ :=
    @goodsig_of_message .standard compactJson (listedOnly [attestedContent]) .agent
      {c | c ∈ [attestedContent]} attestedContent
      { t := 7, oa := none, payload := byOwner.binding ++ [97] } ideal
      List.mem_cons_self rfl (by decide) (by decide +kernel) (by
        intro _ is
        cases is) (by
        intro sig hex
        rw [byteLength_buildEnvelope, (@isHex_pkHex (listedOnly [attestedContent]) .agent).1, hex.1]
        show 28 + 64 + 128 + (Nat.toDigits 10 7).length + 1 ≤ maxJsonDecoded
        decide)
  have owned : ∀ sig digest,
      @verifySchnorr (listedOnly [attestedContent]) sig digest byOwner.owner = true →
      digest = Text.utf8 s!"nostr:agent-auth:{Signer.agent.spelling}:" := fun sig digest verified =>
    List.mem_singleton.1 ((@verifySchnorr_listedOnly _ _ _ .owner).1 verified).2
  refine ⟨made, ideal, owned, run, e, envelope, stdin, t, oa, pkHex_listedOnly _ .agent ▸ good, ?_⟩
  rw [t, oa]
  intro mem
  cases List.mem_singleton.1 mem

end GitSign

end Carryforth
