import Carryforth.Git.Manifest
import Carryforth.Lib.PktLine
import Carryforth.Lib.Utf8

/-!
# The advertisement of an upload-pack

A clone asks for the refs of a repository.  For a repository with branches only, the relay answers
from the published manifest, without a workspace.  An encoder that meets a payload too long for a
packet sends an empty packet in its place; for an eligible manifest every payload fits, so the answer
decodes to the lines of the manifest, and these to its refs (`buildUploadPackAdvertisement_decodes`).
-/

namespace Carryforth

namespace Git

open Lines PktLine

/-! ## The encoder -/

/-- The longest ref name that is advertised without a subprocess. -/
def maxFastPathRefnameLen : Nat := 4096

/-- Whether the refs can be advertised without a subprocess. -/
def fastPathEligible (m : Manifest) : Bool :=
  if m.refs.toList.any fun ref => "refs/tags/".toList.isPrefixOf ref.1.toList then false
  else if !m.refs.contains m.head then false
  else m.refs.toList.all fun ref =>
    isSafeRefname ref.1 && decide (Text.byteLength ref.1 ≤ maxFastPathRefnameLen) && isHexOid ref.2

def pktLineMaxPayload : Nat := 0xffff - 4

/-- Append a packet, or an empty one in place of a payload that is too long. -/
def pktLine (out payload : List UInt8) : List UInt8 :=
  if pktLineMaxPayload < payload.length then out ++ Text.utf8 "0004"
  else out ++ (lengthDigits (payload.length + 4) ++ payload)

def objectFormat (headOid : String) : String :=
  if Text.byteLength headOid = 64 then "sha256" else "sha1"

/-- The capabilities that are always offered, up to the head. -/
def fixedCaps : String :=
  "multi_ack thin-pack side-band side-band-64k ofs-delta shallow " ++
    "deepen-since deepen-not deepen-relative no-progress include-tag " ++
    "multi_ack_detailed no-done symref=HEAD:"

def offeredCaps (head headOid : String) : String :=
  fixedCaps ++ (head ++ (" object-format=" ++ (objectFormat headOid ++ " agent=buzz-git")))

def serviceLine : List UInt8 := Text.utf8 "# service=git-upload-pack\n"

def headLine (head headOid : String) : List UInt8 :=
  Text.utf8 headOid ++ Text.utf8 " HEAD\x00" ++ Text.utf8 (offeredCaps head headOid) ++ [0x0A]

def refLine (ref : String × String) : List UInt8 :=
  Text.utf8 ref.2 ++ [0x20] ++ Text.utf8 ref.1 ++ [0x0A]

/-- The whole answer; a manifest whose head is not one of its refs has none. -/
def buildUploadPackAdvertisement (m : Manifest) : Option (List UInt8) := do
  let headOid ← m.refs[m.head]?
  let out := pktLine [] serviceLine ++ Text.utf8 "0000"
  let out := pktLine out (headLine m.head headOid)
  let out := m.refs.toList.foldl (fun out ref => pktLine out (refLine ref)) out
  return out ++ Text.utf8 "0000"

/-! ## The reader -/

/-- A line `<oid> <refname>`. -/
def readRefLine (line : List UInt8) : Option (String × String) := do
  let (oid, rest) ← splitFirst 0x20 line
  if rest.getLast? = some 0x0A then
    let oid ← Text.ofUtf8 oid
    let name ← Text.ofUtf8 rest.dropLast
    return (name, oid)
  else none

/-- The first line: an object, a name, and the capabilities. -/
def readHeadLine (line : List UInt8) : Option (String × String × List String) := do
  let (oid, rest) ← splitFirst 0x20 line
  let (name, caps) ← splitFirst 0 rest
  if caps.getLast? = some 0x0A then
    let oid ← Text.ofUtf8 oid
    let name ← Text.ofUtf8 name
    let caps ← (caps.dropLast.splitOn 0x20).mapM Text.ofUtf8
    return (oid, name, caps)
  else none

/-! ## What is eligible -/

structure Eligible (m : Manifest) : Prop where
  branches : ∀ ref ∈ m.refs.toList, "refs/tags/".toList.isPrefixOf ref.1.toList = false
  head : ∃ headOid, m.refs[m.head]? = some headOid
  names : ∀ ref ∈ m.refs.toList, isSafeRefname ref.1 = true
  short : ∀ ref ∈ m.refs.toList, Text.byteLength ref.1 ≤ maxFastPathRefnameLen
  oids : ∀ ref ∈ m.refs.toList, isHexOid ref.2 = true

theorem fastPathEligible_iff {m : Manifest} : fastPathEligible m = true ↔ Eligible m := by
  unfold fastPathEligible
  constructor
  · intro eligible
    split_ifs at eligible with tags detached
    rw [List.any_eq_true] at tags
    rw [Bool.not_eq_true', Bool.not_eq_false, OrdMap.contains_iff] at detached
    simp only [List.all_eq_true, Bool.and_eq_true, decide_eq_true_eq] at eligible
    refine ⟨fun ref mem => ?_, detached, fun ref mem => (eligible ref mem).1.1,
      fun ref mem => (eligible ref mem).1.2, fun ref mem => (eligible ref mem).2⟩
    exact Bool.eq_false_iff.2 fun tag => tags ⟨ref, mem, tag⟩
  · intro eligible
    rw [if_neg, if_neg, List.all_eq_true]
    · intro ref mem
      simp [eligible.names ref mem, eligible.short ref mem, eligible.oids ref mem]
    · rw [Bool.not_eq_true', Bool.not_eq_false, OrdMap.contains_iff]
      exact eligible.head
    · rw [List.any_eq_true]
      rintro ⟨ref, mem, tag⟩
      rw [eligible.branches ref mem] at tag
      cases tag

/-! ## Every payload fits -/

theorem length_oid {oid : String} (hex : isHexOid oid = true) : (Text.utf8 oid).length ≤ 64 := by
  simp only [isHexOid, Bool.and_eq_true, Bool.or_eq_true, decide_eq_true_eq] at hex
  rw [Text.length_utf8]
  omega

theorem pktLine_of_fits {payload : List UInt8} (fits : Fits payload) (out : List UInt8) :
    pktLine out payload = out ++ (Packet.line payload).wire := by
  have small : ¬pktLineMaxPayload < payload.length := by
    unfold Fits at fits
    unfold pktLineMaxPayload
    omega
  exact if_neg small

theorem fits_serviceLine : Fits serviceLine := by
  have length : serviceLine.length = 26 := by decide +kernel
  unfold Fits
  omega

theorem fits_refLine {ref : String × String} (short : Text.byteLength ref.1 ≤ maxFastPathRefnameLen)
    (hex : isHexOid ref.2 = true) : Fits (refLine ref) := by
  have oid := length_oid hex
  have name : (Text.utf8 ref.1).length ≤ maxFastPathRefnameLen := short
  unfold Fits maxFastPathRefnameLen at *
  simp only [refLine, List.length_append, List.length_singleton]
  omega

def fixedCapabilities : List String :=
  ["multi_ack", "thin-pack", "side-band", "side-band-64k", "ofs-delta", "shallow", "deepen-since",
    "deepen-not", "deepen-relative", "no-progress", "include-tag", "multi_ack_detailed", "no-done"]

def capabilities (head headOid : String) : List String :=
  fixedCapabilities ++
    ["symref=HEAD:" ++ head, "object-format=" ++ objectFormat headOid, "agent=buzz-git"]

theorem utf8_offeredCaps (head headOid : String) : Text.utf8 (offeredCaps head headOid) =
    Text.utf8 fixedCaps ++ (Text.utf8 head ++ (Text.utf8 " object-format=" ++
      (Text.utf8 (objectFormat headOid) ++ Text.utf8 " agent=buzz-git"))) := by
  rw [offeredCaps, Text.utf8_append fixedCaps, Text.utf8_append head,
    Text.utf8_append " object-format=", Text.utf8_append (objectFormat headOid)]

theorem utf8_offeredCaps_eq_intercalate (head headOid : String) :
    Text.utf8 (offeredCaps head headOid) =
      [0x20].intercalate ((capabilities head headOid).map Text.utf8) := by
  have fixed : Text.utf8 fixedCaps =
      [0x20].intercalate ((fixedCapabilities ++ ["symref=HEAD:"]).map Text.utf8) := by
    decide +kernel
  have format : Text.utf8 " object-format=" = 0x20 :: Text.utf8 "object-format=" := by
    decide +kernel
  have agent : Text.utf8 " agent=buzz-git" = 0x20 :: Text.utf8 "agent=buzz-git" := by
    decide +kernel
  rw [utf8_offeredCaps, fixed, format, agent, capabilities, fixedCapabilities]
  simp only [List.map_cons, List.map_nil, List.cons_append, List.nil_append,
    Text.utf8_append "symref=HEAD:" head, Text.utf8_append "object-format=" (objectFormat headOid)]
  simp [List.intercalate]

theorem not_mem_refname {name : String} (safe : isSafeRefname name = true) {b : UInt8}
    (low : b.toNat < 45) : b ∉ Text.utf8 name := by
  intro mem
  rw [Text.mem_utf8_of_ascii (by omega)] at mem
  have range := toNat_of_isRefnameChar (isRefnameChar_of_isSafeRefname safe mem)
  rw [Char.toNat_ofNat, if_pos (.inl (by omega))] at range
  omega

theorem not_mem_oid {oid : String} (hex : isHexOid oid = true) {b : UInt8} (low : b.toNat < 45) :
    b ∉ Text.utf8 oid := by
  intro mem
  rw [Text.mem_utf8_of_ascii (by omega)] at mem
  have range := Text.toNat_of_hexdigit (List.all_eq_true.1 (Bool.and_eq_true_iff.1 hex).2 _ mem)
  rw [Char.toNat_ofNat, if_pos (.inl (by omega))] at range
  omega

theorem fits_headLine {head headOid : String} (short : Text.byteLength head ≤ maxFastPathRefnameLen)
    (hex : isHexOid headOid = true) : Fits (headLine head headOid) := by
  have oid := length_oid hex
  have name : (Text.utf8 head).length ≤ maxFastPathRefnameLen := short
  have format : (Text.utf8 (objectFormat headOid)).length ≤ 6 := by
    unfold objectFormat
    split_ifs
    · decide +kernel
    · decide +kernel
  have fixed : (Text.utf8 fixedCaps).length + (Text.utf8 " object-format=").length +
      (Text.utf8 " agent=buzz-git").length + (Text.utf8 " HEAD\x00").length ≤ 300 := by
    decide +kernel
  unfold Fits maxFastPathRefnameLen at *
  rw [headLine, utf8_offeredCaps]
  simp only [List.length_append, List.length_singleton]
  omega

/-! ## Reading back -/

theorem readRefLine_refLine {ref : String × String} (hex : isHexOid ref.2 = true) :
    readRefLine (refLine ref) = some ref := by
  have split : splitFirst 0x20 (refLine ref) =
      some (Text.utf8 ref.2, Text.utf8 ref.1 ++ [0x0A]) := by
    rw [refLine, List.append_assoc, List.append_assoc]
    exact splitFirst_append (not_mem_oid hex (by decide)) _
  unfold readRefLine
  rw [split, Option.bind_eq_bind, Option.bind_some]
  simp

theorem mapM_readRefLine {refs : List (String × String)}
    (hex : ∀ ref ∈ refs, isHexOid ref.2 = true) : (refs.map refLine).mapM readRefLine = some refs := by
  induction refs with
  | nil => rfl
  | cons ref refs ih =>
    rw [List.map_cons, List.mapM_cons, readRefLine_refLine (hex ref List.mem_cons_self),
      ih fun ref mem => hex ref (List.mem_cons_of_mem _ mem)]
    rfl

theorem readHeadLine_headLine {head headOid : String} (safe : isSafeRefname head = true)
    (hex : isHexOid headOid = true) :
    readHeadLine (headLine head headOid) = some (headOid, "HEAD", capabilities head headOid) := by
  have first : splitFirst 0x20 (headLine head headOid) = some (Text.utf8 headOid,
      Text.utf8 "HEAD" ++ 0 :: (Text.utf8 (offeredCaps head headOid) ++ [0x0A])) := by
    have name : Text.utf8 " HEAD\x00" = 0x20 :: (Text.utf8 "HEAD" ++ [0]) := by decide +kernel
    rw [headLine, name, List.append_assoc, List.append_assoc, List.cons_append, List.append_assoc]
    exact splitFirst_append (not_mem_oid hex (by decide)) _
  have second := @splitFirst_append _ _ 0 (Text.utf8 "HEAD") (by decide +kernel)
    (Text.utf8 (offeredCaps head headOid) ++ [0x0A])
  have spaces : ∀ cap ∈ (capabilities head headOid).map Text.utf8, 0x20 ∉ cap := by
    have fixed : ∀ cap ∈ fixedCapabilities.map Text.utf8, 0x20 ∉ cap :=
      @of_decide_eq_true _ (List.decidableBAll _ _) (by decide +kernel)
    have symref : 0x20 ∉ Text.utf8 ("symref=HEAD:" ++ head) := by
      rw [Text.utf8_append, List.mem_append, not_or]
      exact ⟨by decide +kernel, not_mem_refname safe (by decide)⟩
    have format : 0x20 ∉ Text.utf8 ("object-format=" ++ objectFormat headOid) := by
      unfold objectFormat
      split_ifs
      · decide +kernel
      · decide +kernel
    have agent : 0x20 ∉ Text.utf8 "agent=buzz-git" := by decide +kernel
    rw [capabilities, List.map_append]
    refine List.forall_mem_append.2 ⟨fixed, ?_⟩
    exact List.forall_mem_cons.2 ⟨symref, List.forall_mem_cons.2 ⟨format,
      List.forall_mem_singleton.2 agent⟩⟩
  have caps := List.splitOn_intercalate 0x20 spaces (by simp [capabilities])
  unfold readHeadLine
  rw [first, Option.bind_eq_bind, Option.bind_some]
  simp only [second, Option.bind_eq_bind, Option.bind_some]
  rw [if_pos (by simp), List.dropLast_concat, utf8_offeredCaps_eq_intercalate, caps, Text.mapM_ofUtf8,
    Text.ofUtf8_utf8, Text.ofUtf8_utf8]
  rfl

theorem refs_ascending (m : Manifest) :
    (m.refs.toList.map fun ref => Text.utf8 ref.1).Pairwise (· < ·) := by
  rw [List.pairwise_map]
  refine Std.ExtTreeMap.ordered_keys_toList.imp fun {a b} ordered => ?_
  exact Text.utf8_lt_utf8.2 (compare_lt_iff_lt.1 ordered)

def advertised (m : Manifest) (headOid : String) : List Packet :=
  .line serviceLine :: .control 0 :: .line (headLine m.head headOid) ::
    (m.refs.toList.map (fun ref => .line (refLine ref)) ++ [.control 0])

theorem fits_advertised {m : Manifest} (eligible : Eligible m) {headOid : String}
    (found : m.refs[m.head]? = some headOid) : ∀ p ∈ advertised m headOid, p.Fits := by
  have mem : (m.head, headOid) ∈ m.refs.toList :=
    Std.ExtTreeMap.mem_toList_iff_getElem?_eq_some.2 found
  have refs : ∀ p ∈ m.refs.toList.map (fun ref => Packet.line (refLine ref)), p.Fits := by
    intro p there
    obtain ⟨ref, listed, rfl⟩ := List.mem_map.1 there
    exact fits_refLine (eligible.short ref listed) (eligible.oids ref listed)
  have zero : (Packet.control 0).Fits := by
    show 0 < 4
    decide
  refine List.forall_mem_cons.2 ⟨fits_serviceLine, List.forall_mem_cons.2 ⟨zero,
    List.forall_mem_cons.2 ⟨?_, List.forall_mem_append.2 ⟨refs, List.forall_mem_singleton.2 zero⟩⟩⟩⟩
  exact fits_headLine (eligible.short _ mem) (eligible.oids _ mem)

theorem foldl_pktLine {refs : List (String × String)} (fit : ∀ ref ∈ refs, Fits (refLine ref))
    (out : List UInt8) :
    refs.foldl (fun out ref => pktLine out (refLine ref)) out =
      out ++ (refs.map fun ref => Packet.line (refLine ref)).flatMap Packet.wire := by
  induction refs generalizing out with
  | nil => simp
  | cons ref refs ih =>
    rw [List.foldl_cons, pktLine_of_fits (fit ref List.mem_cons_self),
      ih fun ref mem => fit ref (List.mem_cons_of_mem _ mem)]
    simp

theorem buildUploadPackAdvertisement_eq {m : Manifest} (eligible : Eligible m) {headOid : String}
    (found : m.refs[m.head]? = some headOid) :
    buildUploadPackAdvertisement m = some ((advertised m headOid).flatMap Packet.wire) := by
  have mem : (m.head, headOid) ∈ m.refs.toList :=
    Std.ExtTreeMap.mem_toList_iff_getElem?_eq_some.2 found
  have zero : Text.utf8 "0000" = (Packet.control 0).wire := by decide +kernel
  have head : Fits (headLine m.head headOid) :=
    fits_headLine (eligible.short _ mem) (eligible.oids _ mem)
  have refs : ∀ ref ∈ m.refs.toList, Fits (refLine ref) := fun ref listed =>
    fits_refLine (eligible.short ref listed) (eligible.oids ref listed)
  unfold buildUploadPackAdvertisement
  rw [found, Option.bind_eq_bind, Option.bind_some]
  dsimp only
  rw [pktLine_of_fits fits_serviceLine, pktLine_of_fits head, foldl_pktLine refs, zero]
  simp only [advertised, List.flatMap_cons, List.flatMap_append, List.flatMap_nil, List.nil_append,
    List.append_nil, List.append_assoc]
  rfl

/-- The answer for an eligible manifest decodes to the service line, a flush, the line of the head
with the capabilities, one line for every ref in ascending order, and a flush; and the lines give
back the refs. -/
theorem buildUploadPackAdvertisement_decodes {m : Manifest} (eligible : fastPathEligible m = true) :
    ∃ body headOid, buildUploadPackAdvertisement m = some body ∧
      m.refs[m.head]? = some headOid ∧
      decode body = some (.line serviceLine :: .control 0 :: .line (headLine m.head headOid) ::
        (m.refs.toList.map (fun ref => .line (refLine ref)) ++ [.control 0])) ∧
      readHeadLine (headLine m.head headOid) = some (headOid, "HEAD", capabilities m.head headOid) ∧
      "symref=HEAD:" ++ m.head ∈ capabilities m.head headOid ∧
      (m.refs.toList.map fun ref => Text.utf8 ref.1).Pairwise (· < ·) ∧
      ((m.refs.toList.map refLine).mapM readRefLine).map (Std.ExtTreeMap.ofList · compare) =
        some m.refs ∧
      payloads body = serviceLine :: headLine m.head headOid :: m.refs.toList.map refLine := by
  have eligible := fastPathEligible_iff.1 eligible
  obtain ⟨headOid, found⟩ := eligible.head
  have mem : (m.head, headOid) ∈ m.refs.toList :=
    Std.ExtTreeMap.mem_toList_iff_getElem?_eq_some.2 found
  refine ⟨_, headOid, buildUploadPackAdvertisement_eq eligible found, found,
    decode_flatMap_wire (fits_advertised eligible found),
    readHeadLine_headLine (eligible.names _ mem) (eligible.oids _ mem), ?_, refs_ascending m, ?_, ?_⟩
  · exact List.mem_append_right _ List.mem_cons_self
  · rw [mapM_readRefLine eligible.oids, Option.map_some, OrdMap.ofList_toList]
  · rw [payloads_flatMap_wire (fits_advertised eligible found)]
    have refs : (m.refs.toList.map fun ref => Packet.line (refLine ref)).filterMap Packet.payload? =
        m.refs.toList.map refLine := by
      rw [List.filterMap_map]
      exact congrFun List.filterMap_eq_map _
    show serviceLine :: headLine m.head headOid ::
      (m.refs.toList.map (fun ref => Packet.line (refLine ref)) ++ [Packet.control 0]).filterMap
        Packet.payload? = _
    rw [List.filterMap_append, refs]
    exact congrArg (fun l => _ :: _ :: l) (List.append_nil _)

def branchesOnly : Manifest where
  version := 1
  head := "refs/heads/main"
  refs := Std.ExtTreeMap.ofList
    [("refs/heads/main", "1111111111111111111111111111111111111111"),
      ("refs/heads/dev", "2222222222222222222222222222222222222222")] compare
  packs := []
  parent := none

theorem buildUploadPackAdvertisement_decodes_branchesOnly : fastPathEligible branchesOnly = true ∧
    ∃ body headOid, buildUploadPackAdvertisement branchesOnly = some body ∧
      decode body = some (.line serviceLine :: .control 0 ::
        .line (headLine branchesOnly.head headOid) ::
          (branchesOnly.refs.toList.map (fun ref => .line (refLine ref)) ++ [.control 0])) := by
  have eligible : fastPathEligible branchesOnly = true := by decide +kernel
  obtain ⟨body, headOid, built, -, decoded, -⟩ := buildUploadPackAdvertisement_decodes eligible
  exact ⟨eligible, body, headOid, built, decoded⟩

end Git

end Carryforth
