import Carryforth.Lib.Fallible
import Carryforth.Lib.Utf8

/-!
# Agent engrams: slugs

A slug names an engram: the reserved `core`, or a path of segments of lower-case letters, digits,
underscores and hyphens under `mem/`.
-/

namespace Carryforth

namespace Engram

open Fallible Text

def coreSlug : String := "core"

def slugMaxLen : Nat := 255

def memPrefix : String := "mem/"

inductive SlugFault
  | tooLong (length : Nat)
  | unrooted (slug : String)
  | emptyPath
  | badSegment (index : Nat) (segment : String) (why : String)
deriving DecidableEq, Repr

/-- The text of a fault; `quote` writes a string as a debugger shows it. -/
def SlugFault.text (quote : String → String) : SlugFault → String
  | .tooLong length => s!"length {length} exceeds {slugMaxLen}"
  | .unrooted slug => "expected `core` or `mem/…`, got " ++ quote slug
  | .emptyPath => "empty after `mem/`"
  | .badSegment index segment why => s!"segment {index} ({quote segment}): {why}"

inductive EngramError
  | invalidSlug (fault : SlugFault)
  | invalidBody (reason : String)
  | invalidEnvelope (reason : String)
  | decrypt
  | encrypt (reason : String)
  | bodyTooLarge (size : Nat)
  | sign (reason : String)
deriving DecidableEq, Repr

/-- The text of an error; `quote` writes a string as a debugger shows it. -/
def EngramError.text (quote : String → String) : EngramError → String
  | .invalidSlug fault => "invalid slug: " ++ fault.text quote
  | .invalidBody reason => "invalid body: " ++ reason
  | .invalidEnvelope reason => "invalid envelope: " ++ reason
  | .decrypt => "decrypt failed"
  | .encrypt reason => "encrypt failed: " ++ reason
  | .bodyTooLarge size => s!"body exceeds 65535-byte plaintext limit ({size} bytes)"
  | .sign reason => "sign failed: " ++ reason

def isLowerAlnum (b : UInt8) : Bool := (97 ≤ b && b ≤ 122) || (48 ≤ b && b ≤ 57)

def validateSegment (s : String) : Except String Unit := do
  let bytes := utf8 s
  ensure (bytes ≠ []) "empty"
  ensure (bytes.length ≤ 64) "longer than 64 bytes"
  ensure (bytes.head?.all isLowerAlnum = true) "first byte must be [a-z0-9]"
  ensure (bytes.tail.all (fun b => isLowerAlnum b || b == 95 || b == 45) = true)
    "only [a-z0-9_-] allowed after the first byte"

def validateSlug (slug : String) : Except EngramError Unit :=
  if slug = coreSlug then .ok ()
  else do
    ensure (byteLength slug ≤ slugMaxLen) (.invalidSlug (.tooLong (byteLength slug)))
    let rest ← okOr (stripPrefix memPrefix slug) (.invalidSlug (.unrooted slug))
    ensure (rest ≠ "") (.invalidSlug .emptyPath)
    (rest.toList.splitOn '/').zipIdx.forM fun (segment, i) =>
      within (fun why => .invalidSlug (.badSegment (i + 1) (String.ofList segment) why))
        (validateSegment (String.ofList segment))

def normalizeSlug (raw : String) : Except EngramError String := do
  let slug := if raw = coreSlug ∨ (stripPrefix memPrefix raw).isSome then raw else memPrefix ++ raw
  validateSlug slug
  return slug

/-! ## What a valid slug is made of -/

/-- A byte of a slug: a letter, a digit, or one of `/`, `_` and `-`. -/
def SlugByte (b : UInt8) : Prop := isLowerAlnum b = true ∨ b = 47 ∨ b = 95 ∨ b = 45

theorem slugByte_of_validateSegment {s : String} (valid : validateSegment s = .ok ()) :
    ∀ b ∈ utf8 s, SlugByte b := by
  simp only [validateSegment, bind_eq_ok, exists_unit, ensure_eq_ok] at valid
  obtain ⟨nonempty, -, first, rest⟩ := valid
  intro b mem
  cases is : utf8 s with
  | nil => exact absurd is nonempty
  | cons c bytes =>
    rw [is] at mem first rest
    rcases List.mem_cons.1 mem with rfl | later
    · exact .inl first
    · have within := List.all_eq_true.1 rest b later
      simp only [Bool.or_eq_true, beq_iff_eq] at within
      rcases within with (alnum | underscore) | hyphen
      · exact .inl alnum
      · exact .inr (.inr (.inl underscore))
      · exact .inr (.inr (.inr hyphen))

theorem slugByte_of_validateSlug {slug : String} (valid : validateSlug slug = .ok ()) {b : UInt8}
    (ascii : b.toNat ≤ 127) (mem : b ∈ utf8 slug) : SlugByte b := by
  unfold validateSlug at valid
  split_ifs at valid with core
  · -- the letters of `core`
    have letters : ∀ b ∈ ([99, 111, 114, 101] : List UInt8), SlugByte b := by
      simp only [List.forall_mem_cons]
      exact ⟨.inl rfl, .inl rfl, .inl rfl, .inl rfl, fun _ mem => nomatch mem⟩
    have bytes : utf8 coreSlug = [99, 111, 114, 101] := by decide
    rw [core, bytes] at mem
    exact letters b mem
  · simp only [bind_eq_ok, exists_unit, ensure_eq_ok, okOr_eq_ok, forM_eq_ok, within_eq_ok] at valid
    obtain ⟨-, rest, stripped, -, segments⟩ := valid
    rw [eq_append_of_stripPrefix stripped, utf8_append, List.mem_append] at mem
    rcases mem with root | mem
    · have letters : ∀ b ∈ ([109, 101, 109, 47] : List UInt8), SlugByte b := by
        simp only [List.forall_mem_cons]
        exact ⟨.inl rfl, .inl rfl, .inl rfl, .inr (.inl rfl), fun _ mem => nomatch mem⟩
      have bytes : utf8 memPrefix = [109, 101, 109, 47] := by decide
      rw [bytes] at root
      exact letters b root
    · rcases mem_splitOn (x := '/') ((mem_utf8_of_ascii ascii).1 mem) with
        slash | ⟨segment, listed, mem⟩
      · have value : (Char.ofNat b.toNat).toNat = b.toNat := by
          rw [Char.toNat_ofNat, if_pos (.inl (by omega))]
        rw [slash] at value
        exact .inr (.inl (UInt8.toNat_inj.1 value.symm))
      · obtain ⟨i, indexed⟩ := List.mem_iff_getElem?.1 listed
        have checked := segments (segment, i) (List.mk_mem_zipIdx_iff_getElem?.2 indexed)
        refine slugByte_of_validateSegment checked b ((mem_utf8_of_ascii ascii).2 ?_)
        rwa [String.toList_ofList]

theorem not_mem_of_validateSlug {slug : String} (valid : validateSlug slug = .ok ()) :
    (91 : UInt8) ∉ utf8 slug ∧ (93 : UInt8) ∉ utf8 slug := by
  refine ⟨fun mem => ?_, fun mem => ?_⟩
  · exact absurd (slugByte_of_validateSlug valid (by decide) mem) (by unfold SlugByte; decide)
  · exact absurd (slugByte_of_validateSlug valid (by decide) mem) (by unfold SlugByte; decide)

end Engram

end Carryforth
