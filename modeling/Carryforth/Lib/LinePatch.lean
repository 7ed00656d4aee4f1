import Mathlib.Data.List.Chain
import Mathlib.Data.List.TakeWhile
import Mathlib.Tactic.Tauto

/-!
# Patches of lines

A patch is a list of hunks in order.  A hunk has context, deleted and inserted lines, and declares
where it starts in the old and in the new text.  A patch is applied hunk by hunk to an image of the
text: each hunk is tried where its new start says, then ever further away on both sides, and lands
on the first place where its old lines stand on lines that no hunk has produced.  A hunk lands at
its declared old place exactly when no place tried before that fits (`Undisturbed`), and a patch all
of whose hunks do replaces just the declared lines (`landings_iff`).
-/

namespace LinePatch

variable {α : Type}

inductive Line (α : Type)
  | context (a : α)
  | delete (a : α)
  | insert (a : α)
deriving DecidableEq, Repr

/-- A hunk with its starting lines in the old and the new text, which count from one.  The lengths of
both ranges are those of its lines. -/
structure Hunk (α : Type) where
  oldStart : Nat
  newStart : Nat
  lines : List (Line α)
deriving DecidableEq, Repr

namespace Hunk

def preimage (h : Hunk α) : List α := h.lines.filterMap fun
  | .context a => some a
  | .delete a => some a
  | .insert _ => none

def postimage (h : Hunk α) : List α := h.lines.filterMap fun
  | .context a => some a
  | .delete _ => none
  | .insert a => some a

/-- Where the old range starts, counted from zero. -/
def index (h : Hunk α) : Nat := h.oldStart - 1

/-- A hunk ends before another one starts, in both texts. -/
def Before (h h' : Hunk α) : Prop :=
  h.oldStart + h.preimage.length ≤ h'.oldStart ∧ h.newStart + h.postimage.length ≤ h'.newStart

theorem Before.trans {h h' h'' : Hunk α} (first : h.Before h') (second : h'.Before h'') :
    h.Before h'' := by
  unfold Before at *
  omega

end Hunk

/-- A patch, whose hunks are in order. -/
structure Patch (α : Type) where
  hunks : List (Hunk α)
  inOrder : hunks.IsChain Hunk.Before

theorem Patch.pairwise (patch : Patch α) : patch.hunks.Pairwise Hunk.Before :=
  have : @Trans (Hunk α) _ _ Hunk.Before Hunk.Before Hunk.Before := ⟨Hunk.Before.trans⟩
  patch.inOrder.pairwise

/-! ## The image -/

inductive ImageLine (α : Type)
  | unpatched (a : α)
  | patched (a : α)
deriving DecidableEq, Repr

def ImageLine.text : ImageLine α → α
  | .unpatched a => a
  | .patched a => a

def Hunk.splice (h : Hunk α) (image : List (ImageLine α)) (p : Nat) : List (ImageLine α) :=
  image.take p ++ (h.postimage.map .patched ++ image.drop (p + h.preimage.length))

/-! ## What a patch declares -/

/-- The places that the hunks declare, as places in the image: `k` old lines are behind, which have
become `m` lines. -/
def declared : Nat → Nat → List (Hunk α) → List Nat
  | _, _, [] => []
  | k, m, h :: hunks =>
    (m + (h.index - k)) ::
      declared (h.index + h.preimage.length) (m + (h.index - k) + h.postimage.length) hunks

/-- The lines from the `k`th on, with the declared ranges replaced. -/
def replaced (lines : List α) : Nat → List (Hunk α) → List α
  | k, [] => lines.drop k
  | k, h :: hunks =>
    (lines.drop k).take (h.index - k) ++
      (h.postimage ++ replaced lines (h.index + h.preimage.length) hunks)

/-- The old lines of the hunk stand where it declares. -/
structure Placed (lines : List α) (h : Hunk α) : Prop where
  inside : h.index + h.preimage.length ≤ lines.length
  here : (lines.drop h.index).take h.preimage.length = h.preimage

/-- The hunks are in order, and their old lines stand where they declare, from the `k`th on. -/
structure Ordered (lines : List α) (k : Nat) (hunks : List (Hunk α)) : Prop where
  placed : ∀ h ∈ hunks, Placed lines h ∧ k ≤ h.index
  sorted : hunks.Pairwise fun h h' => h.index + h.preimage.length ≤ h'.index

/-- The image when the hunks behind have landed where they declare: `front` for the first `k` lines
and the other lines as they are. -/
def imageAt (lines : List α) (front : List (ImageLine α)) (k : Nat) : List (ImageLine α) :=
  front ++ (lines.drop k).map .unpatched

/-- The front after another hunk has landed where it declares. -/
def pushed (lines : List α) (front : List (ImageLine α)) (k : Nat) (h : Hunk α) :
    List (ImageLine α) :=
  front ++ (((lines.drop k).take (h.index - k)).map .unpatched ++ h.postimage.map .patched)

section Image

variable {lines : List α} {front : List (ImageLine α)} {k : Nat} {h : Hunk α}

theorem drop_imageAt (n : Nat) :
    (imageAt lines front k).drop (front.length + n) = (lines.drop (k + n)).map .unpatched := by
  rw [imageAt, List.drop_length_add_append, ← List.map_drop, List.drop_drop]

theorem length_imageAt : (imageAt lines front k).length = front.length + (lines.length - k) := by
  rw [imageAt, List.length_append, List.length_map, List.length_drop]

theorem Ordered.tail {hunks : List (Hunk α)} (ordered : Ordered lines k (h :: hunks)) :
    Ordered lines (h.index + h.preimage.length) hunks := by
  obtain ⟨first, rest⟩ := List.pairwise_cons.1 ordered.sorted
  exact ⟨fun h' mem => ⟨(ordered.placed h' (List.mem_cons_of_mem _ mem)).1, first h' mem⟩, rest⟩

theorem length_pushed (behind : k ≤ h.index) (placed : Placed lines h) :
    (pushed lines front k h).length = front.length + (h.index - k) + h.postimage.length := by
  have inside := placed.inside
  simp only [pushed, List.length_append, List.length_map, List.length_take, List.length_drop]
  omega

theorem splice_declared (behind : k ≤ h.index) :
    h.splice (imageAt lines front k) (front.length + (h.index - k)) =
      imageAt lines (pushed lines front k h) (h.index + h.preimage.length) := by
  have place : k + (h.index - k + h.preimage.length) = h.index + h.preimage.length := by omega
  rw [Hunk.splice, Nat.add_assoc, drop_imageAt, place, imageAt, List.take_length_add_append,
    ← List.map_take, imageAt, pushed]
  simp only [List.append_assoc]

end Image

/-! ## Applying a patch -/

/-- One of each list in turn, and the rest of the longer one. -/
def interleave : List α → List α → List α
  | [], ys => ys
  | xs, [] => xs
  | x :: xs, y :: ys => x :: y :: interleave xs ys

/-- The places in the order in which they are tried. -/
def outward (start length : Nat) : List Nat :=
  start :: interleave (List.range start).reverse (List.range' (start + 1) (length - (start + 1)))

theorem mem_interleave {xs ys : List α} {a : α} : a ∈ interleave xs ys ↔ a ∈ xs ∨ a ∈ ys := by
  fun_induction interleave xs ys with
  | case1 ys => simp
  | case2 xs => simp
  | case3 x xs y ys ih =>
    simp only [List.mem_cons, ih]
    tauto

theorem mem_outward {start length p : Nat} (inside : p < length) : p ∈ outward start length := by
  unfold outward
  rw [List.mem_cons, mem_interleave, List.mem_reverse, List.mem_range, List.mem_range'_1]
  omega

namespace Hunk

variable [DecidableEq α]

def matchesAt (h : Hunk α) (image : List (ImageLine α)) (p : Nat) : Bool :=
  decide (p + h.preimage.length ≤ image.length ∧
    (image.drop p).take h.preimage.length = h.preimage.map .unpatched)

/-- The places that the search for a hunk tries. -/
def tried (h : Hunk α) (image : List (ImageLine α)) : List Nat :=
  outward (min (h.newStart - 1) image.length) image.length

def findPosition (h : Hunk α) (image : List (ImageLine α)) : Option Nat :=
  (h.tried image).find? (h.matchesAt image)

end Hunk

variable [DecidableEq α]

/-- The places where the hunks land, and the image afterwards. -/
def applyHunks : List (ImageLine α) → List (Hunk α) → Option (List Nat × List (ImageLine α))
  | image, [] => some ([], image)
  | image, h :: hunks => do
    let p ← h.findPosition image
    let (landings, patched) ← applyHunks (h.splice image p) hunks
    return (p :: landings, patched)

/-- For each hunk, no place that is tried before the declared one fits when the hunks before it have
landed where they declare. -/
def Undisturbed (lines : List α) : List (ImageLine α) → Nat → List (Hunk α) → Prop
  | _, _, [] => True
  | front, k, h :: hunks =>
    (∀ q ∈ (h.tried (imageAt lines front k)).takeWhile (· ≠ front.length + (h.index - k)),
      h.matchesAt (imageAt lines front k) q = false) ∧
    Undisturbed lines (pushed lines front k h) (h.index + h.preimage.length) hunks

/-- The first element with a property is the one before which none has it. -/
theorem find?_eq_some_iff_takeWhile {l : List α} {f : α → Bool} {a : α} :
    l.find? f = some a ↔ a ∈ l ∧ f a = true ∧ ∀ b ∈ l.takeWhile (· ≠ a), f b = false := by
  induction l with
  | nil => simp
  | cons b l ih =>
    by_cases same : b = a
    · subst same
      cases value : f b with
      | true => simp [value]
      | false =>
        have none : l.find? f ≠ some b := fun found => by
          rw [List.find?_some found] at value
          cases value
        simp [value, none]
    · cases value : f b with
      | true => simp [value, same]
      | false => simp [value, same, ih, Ne.symm same]

/-! ## A hunk at its declared place -/

section Declared

variable {lines : List α} {front : List (ImageLine α)} {k : Nat} {h : Hunk α}

theorem matchesAt_declared (behind : k ≤ h.index) (placed : Placed lines h) :
    h.matchesAt (imageAt lines front k) (front.length + (h.index - k)) = true := by
  have inside := placed.inside
  have place : k + (h.index - k) = h.index := by omega
  rw [Hunk.matchesAt, decide_eq_true_eq, length_imageAt, drop_imageAt, place, ← List.map_take,
    placed.here]
  exact ⟨by omega, rfl⟩

/-- A hunk lands at its declared place exactly when no place tried before it fits. -/
theorem findPosition_iff (behind : k ≤ h.index) (placed : Placed lines h) :
    h.findPosition (imageAt lines front k) = some (front.length + (h.index - k)) ↔
      ∀ q ∈ (h.tried (imageAt lines front k)).takeWhile (· ≠ front.length + (h.index - k)),
        h.matchesAt (imageAt lines front k) q = false := by
  have fits := @matchesAt_declared _ _ lines front k h behind placed
  rw [Hunk.findPosition, find?_eq_some_iff_takeWhile]
  refine ⟨fun found => found.2.2, fun undisturbed => ⟨?_, fits, undisturbed⟩⟩
  by_contra absent
  have all : (h.tried (imageAt lines front k)).takeWhile (· ≠ front.length + (h.index - k)) =
      h.tried (imageAt lines front k) := by
    rw [List.takeWhile_eq_self_iff]
    intro q mem
    exact decide_eq_true fun same => absent (same ▸ mem)
  rw [all] at undisturbed
  cases empty : h.preimage with
  | nil =>
    -- a hunk without old lines fits where the search starts
    have start := undisturbed (min (h.newStart - 1) (imageAt lines front k).length)
      List.mem_cons_self
    rw [Hunk.matchesAt, empty] at start
    simp only [List.length_nil, Nat.add_zero, List.take_zero, List.map_nil, and_true,
      decide_eq_false_iff_not] at start
    omega
  | cons a old =>
    have inside := placed.inside
    refine absent (mem_outward ?_)
    rw [empty, List.length_cons] at inside
    rw [length_imageAt]
    omega

end Declared

/-! ## A patch -/

/-- Undisturbed hunks land where they declare and replace just the declared lines. -/
theorem applyHunks_of_undisturbed {lines : List α} {front : List (ImageLine α)} {k : Nat}
    {hunks : List (Hunk α)} (ordered : Ordered lines k hunks)
    (undisturbed : Undisturbed lines front k hunks) :
    ∃ image, applyHunks (imageAt lines front k) hunks =
        some (declared k front.length hunks, image) ∧
      image.map ImageLine.text = front.map ImageLine.text ++ replaced lines k hunks := by
  induction hunks generalizing front k with
  | nil =>
    refine ⟨imageAt lines front k, rfl, ?_⟩
    rw [imageAt, List.map_append, List.map_map, replaced]
    exact congrArg (_ ++ ·) (List.map_id _)
  | cons h hunks ih =>
    obtain ⟨placed, behind⟩ := ordered.placed h List.mem_cons_self
    have lands := (findPosition_iff behind placed).2 undisturbed.1
    obtain ⟨image, applied, text⟩ := ih ordered.tail undisturbed.2
    rw [length_pushed behind placed] at applied
    refine ⟨image, ?_, ?_⟩
    · simp only [applyHunks, lands, splice_declared behind, applied, Option.bind_eq_bind,
        Option.bind_some, Option.pure_def, declared]
    · have copied : ∀ l : List α, (l.map ImageLine.unpatched).map ImageLine.text = l ∧
          (l.map ImageLine.patched).map ImageLine.text = l := fun l => by
        rw [List.map_map, List.map_map]
        exact ⟨List.map_id _, List.map_id _⟩
      rw [text, pushed, List.map_append, List.map_append, (copied _).1, (copied _).2, replaced]
      simp only [List.append_assoc]

theorem undisturbed_of_applyHunks {lines : List α} {front : List (ImageLine α)} {k : Nat}
    {hunks : List (Hunk α)} (ordered : Ordered lines k hunks) {image : List (ImageLine α)}
    (applied : applyHunks (imageAt lines front k) hunks =
      some (declared k front.length hunks, image)) : Undisturbed lines front k hunks := by
  induction hunks generalizing front k with
  | nil => trivial
  | cons h hunks ih =>
    obtain ⟨placed, behind⟩ := ordered.placed h List.mem_cons_self
    simp only [applyHunks, Option.bind_eq_bind, Option.bind_eq_some_iff, Option.pure_def,
      Option.some.injEq, Prod.mk.injEq, declared, List.cons.injEq] at applied
    obtain ⟨p, lands, ⟨landings, patched⟩, rest, ⟨rfl, rfl⟩, rfl⟩ := applied
    rw [splice_declared behind, ← length_pushed behind placed] at rest
    exact ⟨(findPosition_iff behind placed).1 lands, ih ordered.tail rest⟩

/-- Where a patch lands at all, it lands where it declares, with just the declared lines replaced,
exactly when its hunks are undisturbed. -/
theorem landings_iff {lines : List α} {hunks : List (Hunk α)} (ordered : Ordered lines 0 hunks)
    {landings : List Nat} {image : List (ImageLine α)}
    (applied : applyHunks (lines.map .unpatched) hunks = some (landings, image)) :
    landings = declared 0 0 hunks ∧ image.map ImageLine.text = replaced lines 0 hunks ↔
      Undisturbed lines [] 0 hunks := by
  constructor
  · rintro ⟨rfl, -⟩
    exact undisturbed_of_applyHunks ordered applied
  · intro undisturbed
    obtain ⟨image', applied', text⟩ := applyHunks_of_undisturbed ordered undisturbed
    have same := applied.symm.trans applied'
    obtain ⟨rfl, rfl⟩ := Prod.mk.inj (Option.some.inj same)
    exact ⟨rfl, text⟩

end LinePatch
