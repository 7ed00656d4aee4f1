import Carryforth.Engram.Slug
import Carryforth.Lib.Rfc8259

/-!
# Agent engrams: bodies

A body is the plaintext of an engram: the profile of the agent under `core`, or one memory entry,
whose value is absent in a tombstone.  It is written as compact JSON by hand and read back through a
strict reader that refuses repeated member names.
-/

namespace Carryforth

namespace Engram

open Fallible Text
open Json (Value)

inductive Body
  | core (profile : String)
  | memory (slug : String) (value : Option String)
deriving DecidableEq, Repr

namespace Body

def slug : Body → String
  | .core _ => coreSlug
  | .memory slug _ => slug

/-- A core profile, or an entry under a slug of the grammar other than `core`. -/
def WellFormed : Body → Prop
  | .core _ => True
  | .memory slug _ => validateSlug slug = .ok () ∧ slug ≠ coreSlug

instance : DecidablePred WellFormed
  | .core _ => .isTrue trivial
  | .memory slug _ => inferInstanceAs (Decidable (validateSlug slug = .ok () ∧ slug ≠ coreSlug))

end Body

/-! ## Writing -/

def writeJsonChar (c : Char) : List Char :=
  if c = '"' then ['\\', '"']
  else if c = '\\' then ['\\', '\\']
  else if c = '\x08' then ['\\', 'b']
  else if c = '\x0c' then ['\\', 'f']
  else if c = '\n' then ['\\', 'n']
  else if c = '\r' then ['\\', 'r']
  else if c = '\t' then ['\\', 't']
  else if c.toNat < 0x20 then '\\' :: 'u' :: hexDigits 4 c.toNat
  else [c]

def writeJsonString (s : String) : List Char := '"' :: (s.toList.flatMap writeJsonChar ++ ['"'])

/-- The name of the second member and its text. -/
def Body.payload : Body → String × List Char
  | .memory _ (some v) => ("value", writeJsonString v)
  | .memory _ none => ("value", ['n', 'u', 'l', 'l'])
  | .core profile => ("profile", writeJsonString profile)

def Body.toJson (body : Body) : List Char :=
  '\x7b' :: (writeJsonString "slug" ++ ':' :: (writeJsonString body.slug ++
    ',' :: (writeJsonString body.payload.1 ++ ':' :: (body.payload.2 ++ ['\x7d']))))

def Body.toJsonBytes (body : Body) : List UInt8 := utf8 (String.ofList body.toJson)

/-! ## Reading -/

/-- The visitor of objects that have unique names. -/
def strictValue : Rfc8259.Visitor := fun seen name =>
  ensure (name ∉ seen) ("duplicate object member name: " ++ name)

/-- The nesting that the deserializer allows. -/
def recursionLimit : Nat := 127

/-- The texts of the reader's own errors stand without their line and column. -/
def parseStrictJson (bytes : List UInt8) : Except EngramError Value := do
  let text ← okOr (ofUtf8 bytes) (.invalidBody "invalid JSON body: invalid unicode code point")
  let (v, rest) ← within (fun e => EngramError.invalidBody ("invalid JSON body: " ++ e))
    (Rfc8259.readValue strictValue recursionLimit text.toList)
  ensure (Rfc8259.skipSpace rest = [])
    (.invalidBody "trailing data after JSON body: trailing characters")
  return v

def Body.fromJsonBytes (bytes : List UInt8) : Except EngramError Body := do
  let raw ← parseStrictJson bytes
  let obj ← match raw with
    | .object members => .ok members
    | _ => .error (.invalidBody "top-level not an object")
  let slug ← match obj.lookup "slug" with
    | some (.string s) => .ok s
    | some _ => .error (.invalidBody "`slug` is not a string")
    | none => .error (.invalidBody "missing `slug`")
  validateSlug slug
  if slug = coreSlug then
    match obj.lookup "profile" with
    | some (.string s) => .ok (.core s)
    | some _ => .error (.invalidBody "`profile` is not a string")
    | none => .error (.invalidBody "core missing `profile`")
  else
    match obj.lookup "value" with
    | some (.string s) => .ok (.memory slug (some s))
    | some .null => .ok (.memory slug none)
    | some _ => .error (.invalidBody "`value` is not a string")
    | none => .error (.invalidBody "memory missing `value`")

/-! ## A body reads back -/

theorem writeJsonChar_eq (c : Char) : writeJsonChar c = Json.escape c := by
  have digits : ∀ m < 0x20, hexDigits 4 m = '0' :: '0' :: hexDigits 2 m := by decide
  by_cases control : c.toNat < 0x20
  · rw [writeJsonChar, digits _ control, Json.escape]
  · simp only [writeJsonChar, Json.escape, if_neg control]

theorem writeJsonString_eq (s : String) : writeJsonString s = Json.string s := by
  rw [writeJsonString, funext writeJsonChar_eq, Json.string]

def Body.payloadValue : Body → Value
  | .memory _ (some v) => .string v
  | .memory _ none => .null
  | .core profile => .string profile

def Body.members (body : Body) : List (String × Value) :=
  [("slug", .string body.slug), (body.payload.1, body.payloadValue)]

theorem payload_eq (body : Body) (depth : Nat) :
    body.payload.2 = Json.writeValue depth body.payloadValue := by
  match body with
  | .memory _ (some v) => rw [Body.payload, Body.payloadValue, Json.writeValue, writeJsonString_eq]
  | .memory _ none => rw [Body.payload, Body.payloadValue, Json.writeValue]
  | .core profile => rw [Body.payload, Body.payloadValue, Json.writeValue, writeJsonString_eq]

theorem toJson_eq (body : Body) (depth : Nat) :
    body.toJson = Json.writeValue (depth + 1) (.object body.members) := by
  have slug : Json.writeValue depth (.string body.slug) = Json.string body.slug := by
    rw [Json.writeValue]
  simp [Body.toJson, writeJsonString_eq, payload_eq body depth, Json.writeValue, Json.items,
    Body.members, slug]

theorem compact_members (body : Body) (depth : Nat) :
    Json.Compact (depth + 1) (.object body.members) := by
  have payload : body.payload.1 ≠ "slug" ∧ Json.Compact depth body.payloadValue := by
    match body with
    | .memory _ (some v) => exact ⟨show "value" ≠ "slug" by decide, .string v⟩
    | .memory _ none => exact ⟨show "value" ≠ "slug" by decide, .null⟩
    | .core profile => exact ⟨show "profile" ≠ "slug" by decide, .string profile⟩
  refine .object ?_ ?_
  · simpa [Body.members] using payload.1.symm
  · simpa [Body.members] using ⟨.string body.slug, payload.2⟩

theorem parseStrictJson_toJsonBytes (body : Body) :
    parseStrictJson body.toJsonBytes = .ok (.object body.members) := by
  have read := @Rfc8259.readValue_writeValue strictValue (fun _ _ fresh => ensure_of fresh _) _ _
    (compact_members body 126) _ Json.ends_nil
  unfold parseStrictJson Body.toJsonBytes
  rw [List.append_nil, ← toJson_eq] at read
  rw [ofUtf8_utf8, okOr_some, ok_bind, String.toList_ofList, recursionLimit, read]
  rfl

theorem fromJsonBytes_toJsonBytes {body : Body} (wellFormed : body.WellFormed) :
    Body.fromJsonBytes body.toJsonBytes = .ok body := by
  unfold Body.fromJsonBytes
  rw [parseStrictJson_toJsonBytes, ok_bind]
  match body, wellFormed with
  | .core profile, _ => rfl
  | .memory slug value, ⟨valid, other⟩ =>
    show (do
      validateSlug slug
      if slug = coreSlug then _ else _) = _
    rw [valid, ok_bind, if_neg other]
    cases value <;> rfl

end Engram

end Carryforth
