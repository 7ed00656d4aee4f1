import Carryforth.Lib.Fallible
import Carryforth.Lib.LinePatch

/-!
# Memory patches

`cf mem patch` applies a unified diff to the value of a slug.  The hunks are first checked against
the lines they declare, by their old starts and on the unpatched value; the patch is then applied by
a search that begins at the new starts and may find the old lines of a hunk elsewhere.  The check
leaves that search free, so a verified patch lands where it says exactly when no place tried before
the declared one fits (`patch_lands_iff`).
-/

namespace Carryforth

namespace Mem

open Fallible LinePatch

/-- The lines of a text, each with its newline. -/
def splitInclusive : List Char → List (List Char)
  | [] => []
  | c :: cs =>
    if c = '\n' then [c] :: splitInclusive cs
    else
      match splitInclusive cs with
      | [] => [[c]]
      | line :: lines => (c :: line) :: lines

def linesOf (s : String) : List String := (splitInclusive s.toList).map String.ofList

def ofLines (lines : List String) : String := String.ofList (lines.flatMap String.toList)

/-! ## The check -/

/-- Why a hunk is refused; hunks and lines count from one. -/
inductive HunkFault
  | emptyPreimage (hunk line : Nat)
  | lineZero (hunk : Nat)
  | overflow (hunk : Nat)
  | tooShort (hunk expected line have_ : Nat)
  | mismatch (hunk line : Nat) (expected actual : String)
deriving DecidableEq, Repr

/-- The text of a fault; `quote` writes a string as a debugger shows it. -/
def HunkFault.text (quote : String → String) : HunkFault → String
  | .emptyPreimage hunk line => s!"hunk #{hunk} has empty preimage at line {line}; " ++
      "pure no-context insertions into non-empty values are not supported (regenerate the patch " ++
      "with `diff -u` to include surrounding context)"
  | .lineZero hunk => s!"hunk #{hunk} has invalid line number 0"
  | .overflow hunk => s!"hunk #{hunk} line range overflows"
  | .tooShort hunk expected line have_ => s!"hunk #{hunk} expects {expected} preimage line(s) " ++
      s!"starting at line {line}, but the value only has {have_} line(s)"
  | .mismatch hunk line expected actual => s!"hunk #{hunk} preimage mismatch at line {line}: " ++
      s!"patch expects {quote expected} but value has {quote actual}"

def verifyHunk (currentLines : List String) (i : Nat) (hunk : Hunk String) :
    Except HunkFault Unit :=
  if hunk.preimage = [] then
    ensure (hunk.oldStart = 0) (.emptyPreimage (i + 1) hunk.oldStart)
  else do
    ensure (hunk.oldStart ≠ 0) (.lineZero (i + 1))
    let declaredStart := hunk.oldStart - 1
    ensure (declaredStart + hunk.preimage.length < 2 ^ 64) (.overflow (i + 1))
    ensure (declaredStart + hunk.preimage.length ≤ currentLines.length)
      (.tooShort (i + 1) hunk.preimage.length (declaredStart + 1) currentLines.length)
    hunk.preimage.zipIdx.forM fun (expected, offset) =>
      checkSome currentLines[declaredStart + offset]? fun actual =>
        ensure (expected = actual) (.mismatch (i + 1) (declaredStart + offset + 1) expected actual)

def verifyHunksAtDeclaredPosition (current : String) (patch : Patch String) :
    Except HunkFault Unit :=
  patch.hunks.zipIdx.forM fun (hunk, i) => verifyHunk (linesOf current) i hunk

/-- The places where the hunks land, and the patched text. -/
def apply (current : String) (patch : Patch String) : Option (List Nat × String) :=
  (applyHunks ((linesOf current).map .unpatched) patch.hunks).map fun r =>
    (r.1, ofLines (r.2.map ImageLine.text))

/-! ## What the check shows -/

theorem verifyHunk_eq_ok {lines : List String} {i : Nat} {hunk : Hunk String}
    (ok : verifyHunk lines i hunk = .ok ()) :
    Placed lines hunk ∧ (hunk.oldStart = 0 → hunk.preimage = []) := by
  unfold verifyHunk at ok
  split_ifs at ok with empty
  · have first : hunk.oldStart = 0 := ensure_eq_ok.1 ok
    have index : hunk.index = 0 := by rw [Hunk.index, first]
    refine ⟨⟨?_, ?_⟩, fun _ => empty⟩
    · rw [index, empty]
      exact Nat.zero_le _
    · rw [empty]
      rfl
  · simp only [bind_eq_ok, exists_unit, ensure_eq_ok, forM_eq_ok, checkSome_eq_ok] at ok
    obtain ⟨positive, -, inside, same⟩ := ok
    refine ⟨⟨inside, ?_⟩, fun zero => absurd zero positive⟩
    refine List.ext_getElem? fun offset => ?_
    rcases Nat.lt_or_ge offset hunk.preimage.length with within | beyond
    · obtain ⟨expected, is⟩ : ∃ expected, hunk.preimage[offset]? = some expected :=
        ⟨_, List.getElem?_eq_getElem within⟩
      obtain ⟨actual, at_⟩ : ∃ actual, lines[hunk.oldStart - 1 + offset]? = some actual :=
        ⟨_, List.getElem?_eq_getElem (by omega)⟩
      have equal : expected = actual :=
        same (expected, offset) (List.mk_mem_zipIdx_iff_getElem?.2 is) actual at_
      rw [List.getElem?_take_of_lt within, List.getElem?_drop, is, Hunk.index, at_, equal]
    · rw [List.getElem?_eq_none beyond, List.getElem?_eq_none (by simp; omega)]

theorem ordered_of_verify {current : String} {patch : Patch String}
    (verified : verifyHunksAtDeclaredPosition current patch = .ok ()) :
    Ordered (linesOf current) 0 patch.hunks := by
  have each : ∀ hunk ∈ patch.hunks,
      Placed (linesOf current) hunk ∧ (hunk.oldStart = 0 → hunk.preimage = []) := by
    intro hunk mem
    obtain ⟨i, at_⟩ := List.mem_iff_getElem?.1 mem
    exact verifyHunk_eq_ok
      (forM_eq_ok.1 verified (hunk, i) (List.mk_mem_zipIdx_iff_getElem?.2 at_))
  refine ⟨fun hunk mem => ⟨(each hunk mem).1, Nat.zero_le _⟩, ?_⟩
  refine patch.pairwise.imp_of_mem fun {hunk hunk'} mem _ before => ?_
  obtain ⟨old, -⟩ := before
  unfold Hunk.index
  by_cases zero : hunk.oldStart = 0
  · rw [(each hunk mem).2 zero, zero]
    exact Nat.zero_le _
  · omega

/-! ## Where a patch lands -/

/-- A patch that is verified and applied lands where it declares, and replaces just the lines of its
declared ranges, exactly when no hunk fits a place that is tried before its declared one. -/
theorem patch_lands_iff (current : String) (patch : Patch String)
    (verified : verifyHunksAtDeclaredPosition current patch = .ok ()) {landings : List Nat}
    {result : String} (applied : apply current patch = some (landings, result)) :
    landings = declared 0 0 patch.hunks ∧
        result = ofLines (replaced (linesOf current) 0 patch.hunks) ↔
      Undisturbed (linesOf current) [] 0 patch.hunks := by
  obtain ⟨⟨found, image⟩, landed, is⟩ := Option.map_eq_some_iff.1 applied
  obtain ⟨rfl, rfl⟩ := Prod.mk.inj is
  have lands := landings_iff (ordered_of_verify verified) landed
  constructor
  · rintro ⟨here, -⟩
    dsimp only at here
    rw [here] at landed
    exact undisturbed_of_applyHunks (ordered_of_verify verified) landed
  · intro undisturbed
    obtain ⟨same, text⟩ := lands.2 undisturbed
    exact ⟨same, congrArg ofLines text⟩

def firstLine (newStart : Nat) : Patch String where
  hunks := [⟨1, newStart, [.delete "a\n", .insert "x\n", .context "b\n"]⟩]
  inOrder := .singleton _

theorem patch_lands_iff_firstLine :
    verifyHunksAtDeclaredPosition "a\nb\na\nb\n" (firstLine 1) = .ok () ∧
    apply "a\nb\na\nb\n" (firstLine 1) = some ([0], "x\nb\na\nb\n") ∧
    Undisturbed (linesOf "a\nb\na\nb\n") [] 0 (firstLine 1).hunks := by
  have verified : verifyHunksAtDeclaredPosition "a\nb\na\nb\n" (firstLine 1) = .ok () := by decide
  have applied : apply "a\nb\na\nb\n" (firstLine 1) = some ([0], "x\nb\na\nb\n") := by decide
  exact ⟨verified, applied, (patch_lands_iff _ _ verified applied).1 (by decide)⟩

/-- A change of the first line whose new start says three, as after a hunk before it was left out,
changes the third line. -/
theorem lands_elsewhere :
    verifyHunksAtDeclaredPosition "a\nb\na\nb\n" (firstLine 3) = .ok () ∧
    apply "a\nb\na\nb\n" (firstLine 3) = some ([2], "a\nb\nx\nb\n") ∧
    ofLines (replaced (linesOf "a\nb\na\nb\n") 0 (firstLine 3).hunks) = "x\nb\na\nb\n" := by
  decide

end Mem

end Carryforth
