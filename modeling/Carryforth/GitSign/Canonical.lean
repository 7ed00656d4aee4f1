import Carryforth.GitSign.Signature

/-!
# There is one file for a signature

The file that the signer writes is read back with all its values, however long the conditions of its
attestation are, since these stand in a configured text that is itself short.  In the other direction
every file that is read is the one that would be written for its values: armor, base64 and the
envelope have a single spelling each (`signature_files_canonical`).
-/

namespace Carryforth

namespace GitSign

open Fallible Bip340

/-! ## The spelling of a file -/

theorem eq_of_parseArmor {content line : String} (parsed : parseArmor content = .ok line) :
    content = armorBegin ++ "\n" ++ line ++ "\n" ++ armorEnd ++ "\n" := by
  simp only [parseArmor, bind_eq_ok, exists_unit, ensure_eq_ok, pure_eq_ok] at parsed
  obtain ⟨last, count, first, third, -, second⟩ := parsed
  obtain ⟨one, two, three, lines⟩ := List.length_eq_three.1 (List.length_map _ ▸ count)
  rw [lines] at first second third
  have texts : one = armorBegin.toList ∧ two = line.toList ∧ three = armorEnd.toList := by
    rw [← first, ← second, ← third]
    simp
  obtain ⟨rfl, rfl, rfl⟩ := texts
  obtain ⟨before, whole⟩ := List.getLast?_eq_some_iff.1 last
  rw [whole, List.dropLast_concat] at lines
  have joined : ['\n'].intercalate (before.splitOn '\n') = before := List.intercalate_splitOn _
  rw [lines] at joined
  apply String.toList_inj.1
  rw [whole, ← joined]
  simp [List.intercalate]

section Files

variable [Base64] [SerdeJson] [PublicKeys]

/-- A file that is read is the one that is written for its envelope. -/
theorem eq_armor_of_parseSignature {content : String} {e : Envelope}
    (parsed : parseSignature content = .ok e) : content = armor (Text.utf8 (buildEnvelope e)) := by
  simp only [parseSignature, bind_eq_ok, exists_unit, ensure_eq_ok, within_eq_ok, okOr_eq_ok,
    pure_eq_ok] at parsed
  obtain ⟨line, armored, -, decoded, base64, -, json, text, -, e', -, canonical, rfl⟩ := parsed
  have bytes : Text.utf8 (buildEnvelope e') = decoded := by
    rw [canonical]
    exact Text.utf8_of_ofUtf8 text
  rw [eq_of_parseArmor armored, armor, bytes, Base64.encode_of_decode base64, String.ofList_toList]

end Files

/-! ## What the signer writes -/

/-- The strings in a list that the JSON parser reads are no longer than the text of the list. -/
def Spelled [SerdeJson] : Prop :=
  ∀ json items s, fromStr json = .ok (.array items) → .string s ∈ items →
    Text.byteLength s ≤ Text.byteLength json

section Sign

variable [SerdeJson]

theorem byteLength_conditions_le (spelled : Spelled) {json : String} {oa : OwnerAttestation}
    (parsed : parseAuthTag json = .ok oa) : Text.byteLength oa.conditions ≤ maxAuthTag := by
  simp only [parseAuthTag, bind_eq_ok, exists_unit, ensure_eq_ok, within_eq_ok, okOr_eq_ok,
    pure_eq_ok] at parsed
  obtain ⟨short, value, read, items, isArray, count, -, _, -, conditions, isString, _, -, -, -, -,
    rfl⟩ := parsed
  refine le_trans (spelled json items conditions ?_ ?_) short
  · rw [read]
    cases value <;> cases isArray
    rfl
  · have inside : 2 < items.length := by omega
    rw [List.getD_eq_getElem?_getD, List.getElem?_eq_getElem inside] at isString
    have is : items.get ⟨2, inside⟩ = .string conditions := by
      simp only [Option.getD_some] at isString
      rw [List.get_eq_getElem]
      cases item : items[2] <;> rw [item] at isString <;> cases isString
      rfl
    exact is ▸ List.get_mem items ⟨2, inside⟩

variable [Base64] [Bip340]

omit [Base64] in
/-- The attestation that is signed comes from a configured text. -/
theorem SignRun.conditions_le (spelled : Spelled) {run : SignRun} {key : SecretKey} {c : Content}
    (prepared : run.prepare = .ok (key, c)) :
    ∀ oa, c.oa = some oa → Text.byteLength oa.conditions ≤ maxAuthTag := by
  simp only [SignRun.prepare, bind_eq_ok, exists_unit, pure_eq_ok, Prod.mk.injEq] at prepared
  obtain ⟨_, -, _, -, -, _, -, _, -, -, oa, loaded, -, rfl, rfl⟩ := prepared
  rintro attestation rfl
  simp only [SignRun.loadAuthTag, bind_eq_ok] at loaded
  obtain ⟨json, -, loaded⟩ := loaded
  cases json with
  | none => cases loaded
  | some json =>
    simp only [bind_eq_ok, pure_eq_ok, Option.some.injEq] at loaded
    obtain ⟨_, parsed, rfl⟩ := loaded
    exact byteLength_conditions_le spelled parsed

theorem SignRun.envelopeOf_readable (spelled : Spelled) {run : SignRun} {key : SecretKey}
    {c : Content} {out : Signed} (prepared : run.prepare = .ok (key, c))
    (signed : run.doSign = .ok out) :
    (envelopeOf run.aux key c).WellFormed ∧
      Text.byteLength (buildEnvelope (envelopeOf run.aux key c)) ≤ maxJsonDecoded := by
  have made : SignedBy key {c} := fun d mem =>
    Set.mem_singleton_iff.1 mem ▸ ⟨run, prepared, out, signed⟩
  obtain ⟨time, -, attested⟩ := made.content (Set.mem_singleton c)
  have sig : IsHex 128 (envelopeOf run.aux key c).sig :=
    isHex_encodeHex (by rw [Bip340.length_signSchnorr])
  have pk : IsHex 64 (envelopeOf run.aux key c).pk := isHex_pkHex
  have digits : (Nat.toDigits 10 c.t).length ≤ 10 :=
    (Nat.length_toDigits_le_iff (by decide) (by decide)).2 (lt_of_le_of_lt time (by decide))
  refine ⟨⟨pk, sig, time, attested⟩, ?_⟩
  have size := byteLength_buildEnvelope (envelopeOf run.aux key c)
  rw [pk.1, sig.1] at size
  have conditions := SignRun.conditions_le spelled prepared
  rw [maxAuthTag] at conditions
  rw [maxJsonDecoded, size]
  have time : (envelopeOf run.aux key c).t = c.t := rfl
  rw [time]
  cases is : c.oa with
  | none =>
    have oa : (envelopeOf run.aux key c).oa = none := is
    rw [oa]
    dsimp only
    omega
  | some oa =>
    have short := conditions oa is
    have own : (envelopeOf run.aux key c).oa = some oa := is
    rw [own]
    dsimp only
    rw [(attested oa is).owner.1, (attested oa is).sig.1]
    omega

/-- Whatever is signed is read back from its file with the same key, signature, time and attestation;
and a file that is read is, byte for byte, the one that is written for what was read. -/
theorem signature_files_canonical (spelled : Spelled) :
    (∀ (run : SignRun) (out : Signed), run.doSign = .ok out → ∃ key c, run.prepare = .ok (key, c) ∧
      ∀ verify : VerifyRun, verify.file = .ok (Text.utf8 out.stdout) →
        verify.envelope = .ok
          { pk := pkHex key
            sig := String.ofList (Text.encodeHex (signSchnorr run.aux (computeSigningHash c) key))
            t := c.t
            oa := c.oa }) ∧
      ∀ (verify : VerifyRun) (file : List UInt8) (e : Envelope), verify.file = .ok file →
        verify.envelope = .ok e → file = Text.utf8 (armor (Text.utf8 (buildEnvelope e))) := by
  constructor
  · intro run out signed
    have steps := signed
    simp only [SignRun.doSign, bind_eq_ok, exists_unit, pure_eq_ok] at steps
    obtain ⟨⟨key, c⟩, prepared, -, rfl⟩ := steps
    obtain ⟨wellFormed, short⟩ := SignRun.envelopeOf_readable spelled prepared signed
    refine ⟨key, c, prepared, fun verify file => ?_⟩
    simp only [VerifyRun.envelope, VerifyRun.readBoundedFile, bind_eq_ok, exists_unit, ensure_eq_ok,
      within_eq_ok, okOr_eq_ok]
    refine ⟨_, ⟨_, file, ?_, Text.ofUtf8_utf8 _⟩, parseSignature_armor wellFormed short⟩
    rw [Text.length_utf8]
    exact byteLength_armor_le short
  · intro verify file e is read
    simp only [VerifyRun.envelope, VerifyRun.readBoundedFile, bind_eq_ok, exists_unit, ensure_eq_ok,
      within_eq_ok, okOr_eq_ok] at read
    obtain ⟨content, ⟨bytes, found, -, text⟩, parsed⟩ := read
    obtain rfl := Except.ok.inj (is.symm.trans found)
    rw [← eq_armor_of_parseSignature parsed]
    exact (Text.utf8_of_ofUtf8 text).symm

end Sign

/-- The reader of compact texts, for lists of strings no longer than the text. -/
@[reducible] def spelledJson : SerdeJson where
  fromStr json :=
    match compactJson.fromStr json with
    | .ok (.array items) =>
      if (items.filterMap Json.Value.asStr).all (fun s => Text.byteLength s ≤ Text.byteLength json) then
        .ok (.array items)
      else .error "too long"
    | other => other
  reads := by
    intro e printable
    obtain ⟨fields, read, lookup, names⟩ := compactJson.reads e printable
    exact ⟨fields, by rw [read], lookup, names⟩

theorem spelled_spelledJson : @Spelled spelledJson := by
  intro json items s read mem
  dsimp only [fromStr] at read
  split at read
  · split_ifs at read with short
    obtain rfl := Json.Value.array.inj (Except.ok.inj read)
    have listed : s ∈ List.filterMap Json.Value.asStr _ := List.mem_filterMap.2 ⟨_, mem, rfl⟩
    exact of_decide_eq_true (List.all_eq_true.1 short s listed)
  · rename_i other
    exact absurd read (other items)

/-- A byte is signed with an attestation, and the file is read back with it. -/
theorem signature_files_canonical_attested :
    ∃ out, @SignRun.doSign (listedOnly [attestedContent]) .standard spelledJson
        (signByte (some ownerTag)) = .ok out ∧
      ∀ verify : VerifyRun, verify.file = .ok (Text.utf8 out.stdout) →
        ∃ e, @VerifyRun.envelope (listedOnly [attestedContent]) .standard spelledJson verify = .ok e ∧
          e.t = 7 ∧ e.oa = some byOwner ∧
          Text.utf8 out.stdout = Text.utf8 (@armor .standard (Text.utf8 (buildEnvelope e))) := by
  obtain ⟨written, read⟩ := @signature_files_canonical spelledJson .standard
    (listedOnly [attestedContent]) spelled_spelledJson
  have tag : @parseAuthTag spelledJson ownerTag = .ok byOwner := by decide +kernel
  obtain ⟨prepared, out, signed⟩ := doSign_attested tag
  refine ⟨out, signed, fun verify file => ?_⟩
  obtain ⟨key, c, found, back⟩ := written (signByte (some ownerTag)) out signed
  obtain ⟨rfl, rfl⟩ := Prod.mk.inj (Except.ok.inj (prepared.symm.trans found))
  exact ⟨_, back verify file, rfl, rfl, read verify _ _ file (back verify file)⟩

end GitSign

end Carryforth
