import Mathlib

/-!
# Keyset pagination

A sorted list is handed out in pages.  A page is what a filter leaves of the list, up to a limit; one
element more is looked at to tell whether the page is the last one.  The filter of the next page keeps
what comes after the last element handed out.  If the filter agrees with the order of the list, the
pages are the list cut into pieces.
-/

namespace Keyset

variable {α : Type}

inductive Exhaustion
  | exhausted
  | truncated
deriving DecidableEq, Repr

/-- The first `limit` elements that the filter keeps, and whether there is another one. -/
def slice (eligible : α → Bool) (options : List α) (limit : Nat) : List α × Exhaustion :=
  let found := (options.filter eligible).take (limit + 1)
  if limit < found.length then (found.dropLast, .truncated) else (found, .exhausted)

/-- The pages up to the first exhausted one.  A page starts after the last element of the page
before it. -/
def pageAt (call : Option α → Nat → List α × Exhaustion) (limits : Nat → Nat) :
    Nat → Option (List α × Exhaustion)
  | 0 => some (call none (limits 0))
  | n + 1 =>
    match pageAt call limits n with
    | some (options, .truncated) => some (call options.getLast? (limits (n + 1)))
    | _ => none

/-- What the first `n` pages hand out. -/
def handedOut (call : Option α → Nat → List α × Exhaustion) (limits : Nat → Nat) (n : Nat) :
    List α :=
  (List.range n).flatMap fun k => ((pageAt call limits k).map Prod.fst).getD []

theorem handedOut_succ (call : Option α → Nat → List α × Exhaustion) (limits : Nat → Nat) (n : Nat) :
    handedOut call limits (n + 1) =
      handedOut call limits n ++ ((pageAt call limits n).map Prod.fst).getD [] := by
  unfold handedOut
  rw [List.range_succ, List.flatMap_append, List.flatMap_singleton]

/-! ## One page -/

theorem slice_eq (eligible : α → Bool) (options : List α) (limit : Nat) :
    slice eligible options limit =
      ((options.filter eligible).take limit,
        if limit < (options.filter eligible).length then .truncated else .exhausted) := by
  unfold slice
  generalize options.filter eligible = found
  by_cases more : limit < found.length
  · have length : (found.take (limit + 1)).length = limit + 1 := by
      rw [List.length_take]
      omega
    rw [if_pos more, if_pos (by omega), List.dropLast_eq_take, length, List.take_take]
    simp
  · have whole : found.take (limit + 1) = found := List.take_of_length_le (by omega)
    have whole' : found.take limit = found := List.take_of_length_le (by omega)
    rw [if_neg more, whole, if_neg more, whole']

/-- What comes after an element of a list that is sorted without ties. -/
theorem filter_after {cmp : α → α → Ordering} [Std.TransCmp cmp] {front rest : List α} {c : α}
    {eligible : α → Bool} (sorted : (front ++ c :: rest).Pairwise fun a b => cmp a b = .lt)
    (agrees : ∀ a, eligible a = true ↔ cmp c a = .lt) :
    (front ++ c :: rest).filter eligible = rest := by
  obtain ⟨-, tail, before⟩ := List.pairwise_append.1 sorted
  have after : ∀ a ∈ rest, cmp c a = .lt := (List.pairwise_cons.1 tail).1
  have none_before : front.filter eligible = [] := by
    refine List.filter_eq_nil_iff.2 fun a mem kept => ?_
    have smaller : cmp a c = .lt := before a mem c List.mem_cons_self
    have swapped : cmp a c = (cmp c a).swap := Std.OrientedCmp.eq_swap
    rw [swapped, (agrees a).1 kept] at smaller
    cases smaller
  have self : cmp c c = .eq := Std.ReflCmp.compare_self
  have not_itself : ¬eligible c = true := by
    rw [agrees, self]
    simp
  rw [List.filter_append, none_before, List.nil_append, List.filter_cons_of_neg not_itself,
    List.filter_eq_self]
  exact fun a mem => (agrees a).2 (after a mem)

/-! ## All pages -/

section Walk

variable {cmp : α → α → Ordering} [Std.TransCmp cmp] {options : List α} {limits : Nat → Nat}
variable {beyond : Option α → α → Bool}

/-- The filter of a page keeps everything at first, then what comes after the cursor. -/
structure Agrees (cmp : α → α → Ordering) (beyond : Option α → α → Bool) : Prop where
  all : ∀ a, beyond none a = true
  after : ∀ c a, beyond (some c) a = true ↔ cmp c a = .lt

/-- A page after the elements of `front`. -/
theorem slice_after (sorted : options.Pairwise fun a b => cmp a b = .lt)
    (agrees : Agrees cmp beyond) {front rest : List α} (split : front ++ rest = options)
    (limit : Nat) :
    slice (beyond front.getLast?) options limit =
      (rest.take limit, if limit < rest.length then .truncated else .exhausted) := by
  have kept : options.filter (beyond front.getLast?) = rest := by
    rcases List.eq_nil_or_concat front with rfl | ⟨front, c, rfl⟩
    · rw [← split]
      exact List.filter_eq_self.2 fun a _ => agrees.all a
    · rw [List.concat_eq_append, List.append_assoc, List.singleton_append] at split
      rw [List.concat_eq_append, List.getLast?_concat, ← split]
      rw [← split] at sorted
      exact filter_after sorted (agrees.after c)
  rw [slice_eq, kept]

/-- As long as no page was exhausted, a page continues where the pages before it stopped. -/
theorem pageAt_eq (sorted : options.Pairwise fun a b => cmp a b = .lt)
    (agrees : Agrees cmp beyond) (positive : ∀ n, 0 < limits n) (n : Nat) :
    let call := fun cursor => slice (beyond cursor) options
    ∀ page, pageAt call limits n = some page →
      ∃ rest, handedOut call limits n ++ rest = options ∧
        (n ≠ 0 → rest ≠ []) ∧ page.1 = rest.take (limits n) ∧
        page.2 = if limits n < rest.length then .truncated else .exhausted := by
  intro call
  induction n with
  | zero =>
    intro page first
    cases first
    refine ⟨options, rfl, fun different => absurd rfl different, ?_⟩
    have whole := slice_after sorted agrees (List.nil_append options) (limits 0)
    exact ⟨congrArg Prod.fst whole, congrArg Prod.snd whole⟩
  | succ n ih =>
    intro page next
    rw [pageAt] at next
    split at next
    · rename_i last before
      cases next
      obtain ⟨rest, split, -, taken, more⟩ := ih _ before
      have longer : limits n < rest.length := by
        by_contra short
        rw [if_neg short] at more
        cases more
      have taken : last = rest.take (limits n) := taken
      have handed : handedOut call limits (n + 1) = handedOut call limits n ++ last := by
        rw [handedOut_succ, before]
        rfl
      have split' : handedOut call limits (n + 1) ++ rest.drop (limits n) = options := by
        rw [handed, List.append_assoc, taken, List.take_append_drop, split]
      -- the page before is not empty, so its last element is the last one handed out
      have nonempty : last ≠ [] := by
        have positive := positive n
        intro empty
        have length := congrArg List.length (taken.symm.trans empty)
        rw [List.length_take, List.length_nil] at length
        omega
      have cursor : last.getLast? = (handedOut call limits (n + 1)).getLast? := by
        rw [handed, List.getLast?_append_of_ne_nil _ nonempty]
      refine ⟨rest.drop (limits n), split', fun _ none_left => ?_, ?_⟩
      · have length := congrArg List.length none_left
        rw [List.length_drop, List.length_nil] at length
        omega
      · have page := slice_after sorted agrees split' (limits (n + 1))
        rw [← cursor] at page
        exact ⟨congrArg Prod.fst page, congrArg Prod.snd page⟩
    · cases next

/-- The pages of a walk over a list. -/
structure Exact (options : List α) (limits : Nat → Nat)
    (call : Option α → Nat → List α × Exhaustion) : Prop where
  bounded : ∀ n page, pageAt call limits n = some page → page.1.length ≤ limits n
  marked : ∀ n page, pageAt call limits n = some page →
    (page.2 = .exhausted ↔ options = [] ∨ ∃ last ∈ page.1, options.getLast? = some last)
  complete : ∃ n, (∃ page, pageAt call limits n = some page ∧ page.2 = .exhausted) ∧
    handedOut call limits (n + 1) = options

/-- A page holds the last element exactly when it holds all that is left. -/
theorem mem_take_getLast?_iff (nodup : options.Nodup) {front rest : List α}
    (split : front ++ rest = options) (left : rest ≠ []) (limit : Nat) :
    (∃ last ∈ rest.take limit, options.getLast? = some last) ↔ rest.length ≤ limit := by
  have last : options.getLast? = rest.getLast? := by
    rw [← split, List.getLast?_append_of_ne_nil _ left]
  rw [last]
  constructor
  · rintro ⟨a, mem, is⟩
    by_contra longer
    obtain ⟨init, rfl⟩ : ∃ init, rest = init ++ [a] := List.getLast?_eq_some_iff.1 is
    rw [List.length_append, List.length_singleton] at longer
    rw [List.take_append_of_le_length (by omega)] at mem
    have twice : a ∈ init := List.mem_of_mem_take mem
    rw [← split] at nodup
    exact (List.nodup_append.1 (List.nodup_append.1 nodup).2.1).2.2 a twice a
      (List.mem_singleton_self a) rfl
  · intro short
    rw [List.take_of_length_le short]
    obtain ⟨a, is⟩ := Option.isSome_iff_exists.1 (List.getLast?_isSome.2 left)
    exact ⟨a, List.mem_of_getLast? is, is⟩

theorem exhaustion_eq_iff {limit length : Nat} :
    (if limit < length then Exhaustion.truncated else .exhausted) = .exhausted ↔
      length ≤ limit := by
  split_ifs <;> simp <;> omega

/-- Every truncated page is followed by another one, and each leaves less. -/
theorem exists_exhausted (sorted : options.Pairwise fun a b => cmp a b = .lt)
    (agrees : Agrees cmp beyond) (positive : ∀ n, 0 < limits n) :
    let call := fun cursor => slice (beyond cursor) options
    ∃ n page, pageAt call limits n = some page ∧ page.2 = .exhausted := by
  intro call
  by_contra never
  have goes_on : ∀ n, ∃ page, pageAt call limits n = some page ∧
      n ≤ (handedOut call limits n).length := by
    intro n
    induction n with
    | zero => exact ⟨_, rfl, Nat.zero_le _⟩
    | succ n ih =>
      obtain ⟨⟨last, mark⟩, before, grown⟩ := ih
      obtain ⟨rest, -, -, taken, more⟩ := pageAt_eq sorted agrees positive n _ before
      cases mark with
      | exhausted => exact absurd ⟨n, _, before, rfl⟩ never
      | truncated =>
        refine ⟨_, by rw [pageAt, before], ?_⟩
        have longer : limits n < rest.length := by
          by_contra short
          rw [if_neg short] at more
          cases more
        have taken : last = rest.take (limits n) := taken
        have := positive n
        rw [handedOut_succ, before, List.length_append]
        change n + 1 ≤ _ + last.length
        rw [taken, List.length_take]
        omega
  obtain ⟨page, found, grown⟩ := goes_on (options.length + 1)
  obtain ⟨rest, split, -⟩ := pageAt_eq sorted agrees positive _ page found
  have length : (handedOut call limits (options.length + 1) ++ rest).length = options.length :=
    congrArg List.length split
  rw [List.length_append] at length
  omega

/-- The pages are exactly the list. -/
theorem exact_slice (sorted : options.Pairwise fun a b => cmp a b = .lt)
    (agrees : Agrees cmp beyond) (positive : ∀ n, 0 < limits n) :
    Exact options limits fun cursor => slice (beyond cursor) options where
  bounded n page found := by
    obtain ⟨rest, -, -, taken, -⟩ := pageAt_eq sorted agrees positive n page found
    rw [taken]
    exact List.length_take_le _ _
  marked n page found := by
    obtain ⟨rest, split, more, taken, mark⟩ := pageAt_eq sorted agrees positive n page found
    have nodup : options.Nodup := sorted.imp fun {a b} lt same => by
      have self : cmp b b = .eq := Std.ReflCmp.compare_self
      rw [same, self] at lt
      cases lt
    rw [mark, exhaustion_eq_iff, taken]
    by_cases left : rest = []
    · -- nothing is left, so this is the first page of the empty list
      have first : n = 0 := by
        by_contra later
        exact more later left
      subst first left
      exact ⟨fun _ => .inl split.symm, fun _ => Nat.zero_le _⟩
    · rw [mem_take_getLast?_iff nodup split left]
      constructor
      · exact Or.inr
      · rintro (none | short)
        · rw [none] at split
          exact absurd (List.append_eq_nil_iff.1 split).2 left
        · exact short
  complete := by
    obtain ⟨n, page, found, mark⟩ := exists_exhausted sorted agrees positive
    obtain ⟨rest, split, -, taken, is⟩ := pageAt_eq sorted agrees positive n page found
    refine ⟨n, ⟨page, found, mark⟩, ?_⟩
    rw [mark] at is
    rw [handedOut_succ, found]
    change handedOut _ limits n ++ page.1 = options
    rw [taken, List.take_of_length_le (exhaustion_eq_iff.1 is.symm), split]

end Walk

end Keyset
