import Carryforth.Engram.Slug

/-!
# Agent engrams: references

A text refers to an engram by its slug between double brackets.  The scanner goes over the bytes of the
text: at an opening pair it looks for the closing one and gives up where another pair opens before it.
It never skips a place where a reference begins, except after a third opening bracket.
-/

namespace Carryforth

namespace Engram

open Fallible Text

/-! ## The scanner -/

/-- The bytes before the first `]]` and those after it, unless a `[[` comes first. -/
def closing : List UInt8 → Option (List UInt8 × List UInt8)
  | b :: c :: rest =>
    if b = 91 ∧ c = 91 then none
    else if b = 93 ∧ c = 93 then some ([], rest)
    else (closing (c :: rest)).map fun (candidate, after) => (b :: candidate, after)
  | _ => none

theorem closing_eq_some {l candidate after : List UInt8}
    (closed : closing l = some (candidate, after)) :
    l = candidate ++ 93 :: 93 :: after ∧
      ∀ a b, l = a ++ 91 :: 91 :: b → candidate.length + 2 ≤ a.length := by
  fun_induction closing l generalizing candidate with
  | case1 => cases closed
  | case2 b c rest opens closes =>
    cases closed
    obtain ⟨rfl, rfl⟩ := closes
    refine ⟨rfl, fun a b' whole => ?_⟩
    match a with
    | [] => cases whole
    | [_] => cases whole
    | _ :: _ :: _ => simp
  | case3 b c rest opens closes ih =>
    obtain ⟨⟨inner, after'⟩, later, is⟩ := Option.map_eq_some_iff.1 closed
    cases is
    obtain ⟨whole, apart⟩ := ih later
    refine ⟨by rw [whole, List.cons_append], fun a b' whole' => ?_⟩
    match a with
    | [] =>
      obtain ⟨rfl, rest⟩ := List.cons.inj whole'
      exact absurd ⟨rfl, (List.cons.inj rest).1⟩ opens
    | _ :: a =>
      have bound := apart a b' (List.cons.inj whole').2
      simp only [List.length_cons]
      omega
  | case4 => cases closed

theorem closing_of_free {c : List UInt8} (free : (91 : UInt8) ∉ c ∧ (93 : UInt8) ∉ c)
    (after : List UInt8) : closing (c ++ 93 :: 93 :: after) = some (c, after) := by
  induction c with
  | nil => rw [List.nil_append, closing, if_neg (by decide), if_pos ⟨rfl, rfl⟩]
  | cons b c ih =>
    simp only [List.mem_cons, not_or] at free
    have rest := ih ⟨free.1.2, free.2.2⟩
    obtain ⟨d, l, is⟩ : ∃ d l, c ++ 93 :: 93 :: after = d :: l := by
      cases c with
      | nil => exact ⟨_, _, rfl⟩
      | cons d c => exact ⟨_, _, rfl⟩
    rw [List.cons_append, is, closing, if_neg fun h => free.1.1 h.1.symm,
      if_neg fun h => free.2.1 h.1.symm, ← is, rest]
    rfl

theorem length_closing {l candidate after : List UInt8}
    (closed : closing l = some (candidate, after)) : after.length < l.length := by
  rw [(closing_eq_some closed).1]
  simp only [List.length_append, List.length_cons]
  omega

/-- Add a candidate that is a slug and not there yet. -/
def pushRef (out : List String) (candidate : String) : List String :=
  if (validateSlug candidate).isOk = true ∧ candidate ∉ out then out ++ [candidate] else out

/-- The scan from here on.  There is no result if a candidate is cut inside a character. -/
def scanRefs : List UInt8 → List String → Option (List String)
  | b :: c :: d :: e :: rest, out =>
    if b = 91 ∧ c = 91 then
      match _closed : closing (d :: e :: rest) with
      | some (candidate, after) => do
        let candidate ← ofUtf8 candidate
        scanRefs after (pushRef out candidate)
      | none => scanRefs (d :: e :: rest) out
    else scanRefs (c :: d :: e :: rest) out
  | _, out => some out
termination_by l => l.length
decreasing_by
  · have := length_closing _closed
    simp only [List.length_cons] at this ⊢
    omega
  · simp
  · simp

/-- The slugs referred to, in the order of their first references. -/
def extractRefs (body : String) : Option (List String) := scanRefs (utf8 body) []

/-! ## The candidates -/

/-- The closed candidates, with the places of their opening brackets. -/
def candidates : Nat → List UInt8 → List (Nat × List UInt8)
  | i, b :: c :: d :: e :: rest =>
    if b = 91 ∧ c = 91 then
      match closed : closing (d :: e :: rest) with
      | some (candidate, after) =>
        (i, candidate) :: candidates (i + candidate.length + 4) after
      | none => candidates (i + 2) (d :: e :: rest)
    else candidates (i + 1) (c :: d :: e :: rest)
  | _, _ => []
termination_by _ l => l.length
decreasing_by
  · have := length_closing closed
    simp only [List.length_cons] at this ⊢
    omega
  · simp
  · simp

theorem scanRefs_eq (l : List UInt8) (i : Nat) (out : List String) :
    scanRefs l out =
      (candidates i l).foldlM (fun out c => (ofUtf8 c.2).map (pushRef out)) out := by
  fun_induction candidates i l generalizing out with
  | case1 i b c d e rest opens candidate after closed ih =>
    rw [scanRefs, if_pos opens, List.foldlM_cons]
    split
    · next candidate' after' closed' =>
      cases closed.symm.trans closed'
      cases ofUtf8 candidate with
      | none => rfl
      | some s => exact ih (pushRef out s)
    · next open_ => cases open_.symm.trans closed
  | case2 i b c d e rest opens open_ ih =>
    rw [scanRefs, if_pos opens]
    split
    · next closed => cases open_.symm.trans closed
    · exact ih out
  | case3 i b c d e rest opens ih => rw [scanRefs, if_neg opens, ih]
  | case4 i l short =>
    rw [scanRefs]
    · rfl
    · exact short

/-- The places of the candidates, in order. -/
theorem pairwise_candidates (i : Nat) (l : List UInt8) :
    (∀ c ∈ candidates i l, i ≤ c.1) ∧ (candidates i l).Pairwise fun c d => c.1 < d.1 := by
  fun_induction candidates i l with
  | case1 i b c d e rest opens candidate after closed ih =>
    refine ⟨List.forall_mem_cons.2 ⟨le_rfl, fun c mem => ?_⟩,
      List.pairwise_cons.2 ⟨fun c mem => ?_, ih.2⟩⟩
    · have := ih.1 c mem
      omega
    · have := ih.1 c mem
      dsimp only
      omega
  | case2 i b c d e rest opens open_ ih => exact ⟨fun c mem => by have := ih.1 c mem; omega, ih.2⟩
  | case3 i b c d e rest opens ih => exact ⟨fun c mem => by have := ih.1 c mem; omega, ih.2⟩
  | case4 => exact ⟨fun c mem => (nomatch mem), List.Pairwise.nil⟩

def bracketed (c : List UInt8) : List UInt8 := 91 :: 91 :: (c ++ [93, 93])

theorem bracketed_of_mem_candidates {i : Nat} {l : List UInt8} {c : Nat × List UInt8}
    (mem : c ∈ candidates i l) :
    ∃ a b, l = a ++ (bracketed c.2 ++ b) ∧ c.1 = i + a.length := by
  fun_induction candidates i l with
  | case1 i x y d e rest opens candidate after closed ih =>
    obtain ⟨rfl, rfl⟩ := opens
    have whole := (closing_eq_some closed).1
    rw [whole]
    rcases List.mem_cons.1 mem with rfl | later
    · exact ⟨[], after, by simp [bracketed], rfl⟩
    · obtain ⟨a, b, is, place⟩ := ih later
      refine ⟨bracketed candidate ++ a, b, by simp [bracketed, is], ?_⟩
      simp only [bracketed, place, List.length_append, List.length_cons, List.length_nil]
      omega
  | case2 i x y d e rest opens open_ ih =>
    obtain ⟨a, b, is, place⟩ := ih mem
    refine ⟨x :: y :: a, b, by rw [is]; rfl, ?_⟩
    rw [place, List.length_cons, List.length_cons]
    omega
  | case3 i x y d e rest opens ih =>
    obtain ⟨a, b, is, place⟩ := ih mem
    refine ⟨x :: a, b, by rw [is]; rfl, ?_⟩
    rw [place, List.length_cons]
    omega
  | case4 => cases mem

/-- A reference that begins at the second of two opening brackets follows a third one. -/
theorem calm_second {x : UInt8} {c l b : List UInt8} (calm : ¬[91, 91, 91] <:+: 91 :: 91 :: l)
    (whole : 91 :: 91 :: l = [x] ++ (bracketed c ++ b)) : False := by
  obtain ⟨-, whole⟩ := List.cons.inj whole
  obtain ⟨-, whole⟩ := List.cons.inj whole
  refine calm ⟨[], c ++ [93, 93] ++ b, ?_⟩
  rw [whole]
  rfl

/-- No place where a reference begins is skipped. -/
theorem mem_candidates {c : List UInt8} (free : (91 : UInt8) ∉ c ∧ (93 : UInt8) ∉ c) (i : Nat)
    (l : List UInt8) (calm : ¬[91, 91, 91] <:+: l) (a b : List UInt8)
    (whole : l = a ++ (bracketed c ++ b)) : (i + a.length, c) ∈ candidates i l := by
  have inside : ∀ {d e : UInt8} {rest : List UInt8},
      91 :: 91 :: d :: e :: rest = [] ++ (bracketed c ++ b) →
        closing (d :: e :: rest) = some (c, b) := by
    intro d e rest whole
    have inner : d :: e :: rest = c ++ 93 :: 93 :: b := by simpa [bracketed] using whole
    rw [inner, closing_of_free free]
  fun_induction candidates i l generalizing a with
  | case1 i x y d e rest opens candidate after closed ih =>
    obtain ⟨rfl, rfl⟩ := opens
    obtain ⟨is, apart⟩ := closing_eq_some closed
    match a with
    | [] =>
      -- the brackets around the slug are the ones that are found
      cases closed.symm.trans (inside whole)
      exact List.mem_cons_self
    | [x] => exact (calm_second calm whole).elim
    | x :: y :: a =>
      have whole : d :: e :: rest = a ++ (bracketed c ++ b) :=
        (List.cons.inj (List.cons.inj whole).2).2
      have beyond := apart a _ whole
      have shorter : candidate ++ [93, 93] <+: a := by
        refine List.prefix_of_prefix_length_le ⟨after, ?_⟩ ⟨_, whole.symm⟩ (by simpa using beyond)
        rw [is, List.append_assoc]
        rfl
      obtain ⟨a', rfl⟩ := shorter
      have tail : after = a' ++ (bracketed c ++ b) := by
        rw [is, List.append_assoc, List.append_assoc] at whole
        simpa using List.append_cancel_left whole
      have within : after <:+: 91 :: 91 :: d :: e :: rest :=
        ⟨91 :: 91 :: candidate ++ [93, 93], [], by rw [is]; simp⟩
      have found := ih (fun three => calm (three.trans within)) a' tail
      refine List.mem_cons_of_mem _ ?_
      have place : i + (x :: y :: (candidate ++ [93, 93] ++ a')).length =
          i + candidate.length + 4 + a'.length := by
        simp only [List.length_cons, List.length_append, List.length_nil]
        omega
      rw [place]
      exact found
  | case2 i x y d e rest opens open_ ih =>
    obtain ⟨rfl, rfl⟩ := opens
    match a with
    | [] => cases open_.symm.trans (inside whole)
    | [x] => exact (calm_second calm whole).elim
    | x :: y :: a =>
      have whole : d :: e :: rest = a ++ (bracketed c ++ b) :=
        (List.cons.inj (List.cons.inj whole).2).2
      have found := ih (fun three => calm (three.trans ⟨[91, 91], [], by simp⟩)) a whole
      rwa [List.length_cons, List.length_cons, show i + (a.length + 1 + 1) = i + 2 + a.length by omega]
  | case3 i x y d e rest opens ih =>
    match a with
    | [] =>
      obtain ⟨first, next⟩ := List.cons.inj whole
      exact absurd ⟨first, (List.cons.inj next).1⟩ opens
    | _ :: a =>
      have found := ih (fun three => calm (three.trans ⟨[x], [], by simp⟩)) a
        (List.cons.inj whole).2
      rwa [List.length_cons, show i + (a.length + 1) = i + 1 + a.length by omega]
  | case4 i l short =>
    have length : l.length = a.length + (c.length + 4 + b.length) := by
      rw [whole]
      simp only [bracketed, List.length_append, List.length_cons, List.length_nil]
    match l with
    | x :: y :: d :: e :: rest => exact (short x y d e rest rfl).elim
    | [] | [_] | [_, _] | [_, _, _] =>
      simp only [List.length_cons, List.length_nil] at length
      omega

theorem exists_text_of_mem_candidates {body : String} {c : Nat × List UInt8}
    (mem : c ∈ candidates 0 (utf8 body)) : ∃ s, c.2 = utf8 s := by
  obtain ⟨a, b, whole, -⟩ := bracketed_of_mem_candidates mem
  have opened : utf8 body = (a ++ [91]) ++ 91 :: (c.2 ++ 93 :: (93 :: b)) := by
    rw [whole]
    simp [bracketed]
  obtain ⟨-, u, -, after⟩ := exists_of_utf8_eq_append opened (by decide)
  obtain ⟨t, -, before, -⟩ := exists_of_utf8_eq_append after.symm (by decide)
  exact ⟨t, before⟩

/-! ## The references -/

theorem mem_pushRef {out : List String} {s t : String} :
    s ∈ pushRef out t ↔ s ∈ out ∨ s = t ∧ (validateSlug s).isOk = true := by
  unfold pushRef
  split_ifs with new
  · rw [List.mem_append, List.mem_singleton]
    exact or_congr_right ⟨fun is => ⟨is, is ▸ new.1⟩, And.left⟩
  · refine ⟨.inl, fun h => h.elim (fun mem => mem) ?_⟩
    rintro ⟨rfl, valid⟩
    by_contra missing
    exact new ⟨valid, missing⟩

/-- Of candidates in order, the first one of each slug is kept. -/
structure Kept (found : List (Nat × String)) (refs : List String) : Prop where
  nodup : refs.Nodup
  mem_iff : ∀ s, s ∈ refs ↔ (validateSlug s).isOk = true ∧ ∃ i, (i, s) ∈ found
  ordered : refs.Pairwise fun s t => ∃ i, (i, s) ∈ found ∧ ∀ j, (j, t) ∈ found → i < j

theorem Kept.pushRef {found : List (Nat × String)} {refs : List String} (kept : Kept found refs)
    {i : Nat} {s : String} (later : ∀ c ∈ found, c.1 < i) :
    Kept (found ++ [(i, s)]) (pushRef refs s) := by
  have grown : refs.Pairwise fun r t => ∃ j, (j, r) ∈ found ++ [(i, s)] ∧
      ∀ k, (k, t) ∈ found ++ [(i, s)] → j < k := by
    refine kept.ordered.imp fun {r t} ⟨j, mem, before⟩ => ⟨j, List.mem_append_left _ mem, ?_⟩
    intro k mem'
    rcases List.mem_append.1 mem' with old | new
    · exact before k old
    · cases List.mem_singleton.1 new
      exact later _ mem
  have members : ∀ t, t ∈ Engram.pushRef refs s ↔
      (validateSlug t).isOk = true ∧ ∃ j, (j, t) ∈ found ++ [(i, s)] := by
    intro t
    rw [mem_pushRef, kept.mem_iff]
    constructor
    · rintro (⟨valid, j, mem⟩ | ⟨rfl, valid⟩)
      · exact ⟨valid, j, List.mem_append_left _ mem⟩
      · exact ⟨valid, i, List.mem_append_right _ (List.mem_singleton_self _)⟩
    · rintro ⟨valid, j, mem⟩
      rcases List.mem_append.1 mem with old | new
      · exact .inl ⟨valid, j, old⟩
      · cases List.mem_singleton.1 new
        exact .inr ⟨rfl, valid⟩
  refine ⟨?_, members, ?_⟩
  · unfold Engram.pushRef
    split_ifs with new
    · refine List.nodup_append.2 ⟨kept.nodup, List.nodup_singleton s, fun r mem t is => ?_⟩
      rw [List.mem_singleton.1 is]
      rintro rfl
      exact new.2 mem
    · exact kept.nodup
  · unfold Engram.pushRef
    split_ifs with new
    · refine List.pairwise_append.2 ⟨grown, List.pairwise_singleton _ s, fun r mem t is => ?_⟩
      rw [List.mem_singleton.1 is]
      obtain ⟨-, j, found'⟩ := (kept.mem_iff r).1 mem
      refine ⟨j, List.mem_append_left _ found', fun k mem' => ?_⟩
      -- the slug was not found before
      rcases List.mem_append.1 mem' with old | here
      · exact absurd ((kept.mem_iff s).2 ⟨new.1, k, old⟩) new.2
      · cases List.mem_singleton.1 here
        exact later _ found'
    · exact grown

theorem kept_foldl (found : List (Nat × String)) (increasing : found.Pairwise fun c d => c.1 < d.1) :
    Kept found (found.foldl (fun out c => pushRef out c.2) []) := by
  induction found using List.reverseRecOn with
  | nil => exact ⟨List.nodup_nil, by simp, List.Pairwise.nil⟩
  | append_singleton found c ih =>
    obtain ⟨before, -, later⟩ := List.pairwise_append.1 increasing
    rw [List.foldl_append]
    exact (ih before).pushRef fun d mem => later d mem c (List.mem_singleton_self c)

theorem exists_found (body : String) : ∃ found : List (Nat × String),
    candidates 0 (utf8 body) = found.map fun c => (c.1, utf8 c.2) := by
  have texts := fun c mem => @exists_text_of_mem_candidates body c mem
  generalize candidates 0 (utf8 body) = cs at texts
  induction cs with
  | nil => exact ⟨[], rfl⟩
  | cons c cs ih =>
    obtain ⟨found, is⟩ := ih fun d mem => texts d (List.mem_cons_of_mem c mem)
    obtain ⟨s, text⟩ := texts c List.mem_cons_self
    exact ⟨(c.1, s) :: found, by rw [List.map_cons, ← is, ← text]⟩

theorem foldlM_found (found : List (Nat × String)) (out : List String) :
    (found.map fun c => (c.1, utf8 c.2)).foldlM
        (fun out c => (ofUtf8 c.2).map (pushRef out)) out =
      some (found.foldl (fun out c => pushRef out c.2) out) := by
  induction found generalizing out with
  | nil => rfl
  | cons c found ih =>
    rw [List.map_cons, List.foldlM_cons, ofUtf8_utf8, List.foldl_cons]
    exact ih (pushRef out c.2)

theorem bracketed_utf8 (s : String) : bracketed (utf8 s) = utf8 ("[[" ++ s ++ "]]") := by
  have opening : utf8 "[[" = [91, 91] := by decide
  have closing : utf8 "]]" = [93, 93] := by decide
  rw [utf8_append, utf8_append, opening, closing]
  rfl

theorem validateSlug_isOk_iff {s : String} :
    (validateSlug s).isOk = true ↔ validateSlug s = .ok () := by
  cases validateSlug s with
  | ok _ => exact ⟨fun _ => rfl, fun _ => rfl⟩
  | error e => exact ⟨fun h => (nomatch h), fun h => (nomatch h)⟩

/-- The extracted references are exactly the valid slugs that stand between double brackets, each one
once, and in the order in which they first do. -/
theorem extractRefs_exact (body : String) (calm : ¬utf8 "[[[" <:+: utf8 body) :
    ∃ refs, extractRefs body = some refs ∧ refs.Nodup ∧
      (∀ s, s ∈ refs ↔ validateSlug s = .ok () ∧ utf8 ("[[" ++ s ++ "]]") <:+: utf8 body) ∧
      refs.Pairwise fun s t => ∃ a b, utf8 body = a ++ (utf8 ("[[" ++ s ++ "]]") ++ b) ∧
        ∀ a' b', utf8 body = a' ++ (utf8 ("[[" ++ t ++ "]]") ++ b') → a.length < a'.length := by
  have three : utf8 "[[[" = [91, 91, 91] := by decide
  rw [three] at calm
  obtain ⟨found, is⟩ := exists_found body
  have increasing : found.Pairwise fun c d => c.1 < d.1 := by
    have places := (pairwise_candidates 0 (utf8 body)).2
    rwa [is, List.pairwise_map] at places
  have kept := kept_foldl found increasing
  -- a slug is found exactly at the places where it stands between brackets
  have sound : ∀ i s, (i, s) ∈ found →
      ∃ a b, utf8 body = a ++ (utf8 ("[[" ++ s ++ "]]") ++ b) ∧ i = a.length := by
    intro i s mem
    have mem' : (i, utf8 s) ∈ candidates 0 (utf8 body) := by
      rw [is]
      exact List.mem_map_of_mem mem
    obtain ⟨a, b, whole, place⟩ := bracketed_of_mem_candidates mem'
    rw [bracketed_utf8] at whole
    exact ⟨a, b, whole, by simpa using place⟩
  have complete : ∀ s, validateSlug s = .ok () → ∀ a b,
      utf8 body = a ++ (utf8 ("[[" ++ s ++ "]]") ++ b) → (a.length, s) ∈ found := by
    intro s valid a b whole
    rw [← bracketed_utf8] at whole
    have mem := mem_candidates (not_mem_of_validateSlug valid) 0 (utf8 body) calm a b whole
    rw [is, List.mem_map] at mem
    obtain ⟨⟨j, t⟩, mem, same⟩ := mem
    obtain ⟨place, text⟩ := Prod.mk.inj same
    rw [Nat.zero_add] at place
    rwa [← place, ← utf8_injective text]
  refine ⟨_, by rw [extractRefs, scanRefs_eq _ 0, is, foldlM_found], kept.nodup, fun s => ?_, ?_⟩
  · rw [kept.mem_iff, validateSlug_isOk_iff]
    refine and_congr_right fun valid => ⟨?_, ?_⟩
    · rintro ⟨i, mem⟩
      obtain ⟨a, b, whole, -⟩ := sound i s mem
      exact ⟨a, b, by rw [whole, List.append_assoc]⟩
    · rintro ⟨a, b, whole⟩
      exact ⟨a.length, complete s valid a b (by rw [← whole, List.append_assoc])⟩
  · refine (List.Pairwise.and_mem.1 kept.ordered).imp fun {s t} ⟨_, listed, i, mem, before⟩ => ?_
    obtain ⟨a, b, whole, place⟩ := sound i s mem
    refine ⟨a, b, whole, fun a' b' whole' => ?_⟩
    have valid := validateSlug_isOk_iff.1 ((kept.mem_iff t).1 listed).1
    rw [← place]
    exact before _ (complete t valid a' b' whole')

/-- An opening pair before the reference, and the reference again. -/
theorem extractRefs_exact_repeated :
    ∃ refs, extractRefs "[[a [[core]] [[core]]" = some refs ∧ "core" ∈ refs := by
  obtain ⟨refs, is, -, exactly, -⟩ :=
    extractRefs_exact "[[a [[core]] [[core]]" (by decide +kernel)
  exact ⟨refs, is, (exactly "core").2 ⟨by decide, by decide +kernel⟩⟩

end Engram

end Carryforth
