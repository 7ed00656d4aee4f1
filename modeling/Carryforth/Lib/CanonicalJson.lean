import Carryforth.Lib.Delimited
import Carryforth.Lib.Rfc8259

/-!
# Canonical JSON text

The canonical text of a value is compact and lists the fields of every object by name.  How strings
and numbers are written is a parameter.  Equal texts come from values that are equal up to the order
of their fields (`sortKeys_eq_of_canonical`).  As in `Lib.Delimited` the argument is about beginnings
of texts: a value inside a list or an object ends at a comma or at a closing bracket.
-/

namespace Json

/-! ## Values by their parts -/

/-- Induction over values: what holds for the parts of a value holds for the value. -/
theorem Value.induction {P : Value → Prop} (null : P .null) (bool : ∀ b, P (.bool b))
    (number : ∀ n, P (.number n)) (string : ∀ s, P (.string s))
    (array : ∀ l, (∀ v ∈ l, P v) → P (.array l))
    (object : ∀ l, (∀ f ∈ l, P f.2) → P (.object l)) (v : Value) : P v :=
  @Value.rec P (fun l => ∀ v ∈ l, P v) (fun l => ∀ f ∈ l, P f.2) (fun f => P f.2)
    null bool number string array object (fun _ mem => nomatch mem)
    (fun _ _ first rest v mem => (List.mem_cons.1 mem).elim (fun same => same ▸ first) (rest v))
    (fun _ mem => nomatch mem)
    (fun _ _ first rest f mem => (List.mem_cons.1 mem).elim (fun same => same ▸ first) (rest f))
    (fun _ _ value => value) v

def NumberChar (c : Char) : Prop :=
  c.isDigit = true ∨ c = '-' ∨ c = '+' ∨ c = '.' ∨ c = 'e' ∨ c = 'E'

instance : DecidablePred NumberChar := fun c =>
  inferInstanceAs (Decidable (c.isDigit = true ∨ c = '-' ∨ c = '+' ∨ c = '.' ∨ c = 'e' ∨ c = 'E'))

/-- The text of a floating-point number has a point or an exponent. -/
def Number.WellFormed : Number → Prop
  | .nat _ => True
  | .neg n => 0 < n
  | .float digits =>
    (∀ c ∈ digits.toList, NumberChar c) ∧ ∃ c ∈ digits.toList, c = '.' ∨ c = 'e'

inductive WellFormed : Value → Prop
  | null : WellFormed .null
  | bool (b : Bool) : WellFormed (.bool b)
  | number {n : Number} : n.WellFormed → WellFormed (.number n)
  | string (s : String) : WellFormed (.string s)
  | array {l : List Value} : (∀ v ∈ l, WellFormed v) → WellFormed (.array l)
  | object {l : List (String × Value)} : (l.map Prod.fst).Nodup →
      (∀ f ∈ l, WellFormed f.2) → WellFormed (.object l)

/-- A well-formed value. -/
structure Document where
  value : Value
  wellFormed : WellFormed value

/-! ## The text -/

/-- How strings and numbers are written: a string begins with a quotation mark and can be told from
what follows it, and a number has only characters of numbers and one text. -/
class ScalarText where
  string : String → List Char
  number : Number → List Char
  quoted : ∀ s, ∃ rest, string s = '"' :: rest
  delimits : Delimited.SelfDelimiting (fun _ => True) string
  number_ne_nil : ∀ {n}, n.WellFormed → number n ≠ []
  numberChar_of_mem : ∀ {n}, n.WellFormed → ∀ c ∈ number n, NumberChar c
  number_inj : ∀ {n m}, n.WellFormed → m.WellFormed → number n = number m → n = m

def byName {α : Type} (f g : String × α) : Prop := f.1 ≤ g.1

instance {α : Type} : DecidableRel (@byName α) := fun f g => inferInstanceAs (Decidable (f.1 ≤ g.1))

mutual

/-- The compact text with the fields of objects by name. -/
def canonical [ScalarText] : Value → List Char
  | .null => ['n', 'u', 'l', 'l']
  | .bool true => ['t', 'r', 'u', 'e']
  | .bool false => ['f', 'a', 'l', 's', 'e']
  | .number n => ScalarText.number n
  | .string s => ScalarText.string s
  | .array l => '[' :: items ']' (canonicalItems l)
  | .object l => '\x7b' :: items '\x7d'
      (((canonicalFields l).insertionSort byName).map fun f => ScalarText.string f.1 ++ ':' :: f.2)

def canonicalItems [ScalarText] : List Value → List (List Char)
  | [] => []
  | v :: l => canonical v :: canonicalItems l

def canonicalFields [ScalarText] : List (String × Value) → List (String × List Char)
  | [] => []
  | (name, v) :: l => (name, canonical v) :: canonicalFields l

end

mutual

/-- The value with the fields of objects by name. -/
def sortKeys : Value → Value
  | .array l => .array (sortItems l)
  | .object l => .object ((sortFields l).insertionSort byName)
  | v => v

def sortItems : List Value → List Value
  | [] => []
  | v :: l => sortKeys v :: sortItems l

def sortFields : List (String × Value) → List (String × Value)
  | [] => []
  | (name, v) :: l => (name, sortKeys v) :: sortFields l

end

theorem canonicalItems_eq [ScalarText] (l : List Value) : canonicalItems l = l.map canonical := by
  induction l with
  | nil => rfl
  | cons v l ih => rw [canonicalItems, ih, List.map_cons]

theorem canonicalFields_eq [ScalarText] (l : List (String × Value)) :
    canonicalFields l = l.map fun f => (f.1, canonical f.2) := by
  induction l with
  | nil => rfl
  | cons f l ih => rw [canonicalFields, ih, List.map_cons]

theorem sortItems_eq (l : List Value) : sortItems l = l.map sortKeys := by
  induction l with
  | nil => rfl
  | cons v l ih => rw [sortItems, ih, List.map_cons]

theorem sortFields_eq (l : List (String × Value)) :
    sortFields l = l.map fun f => (f.1, sortKeys f.2) := by
  induction l with
  | nil => rfl
  | cons f l ih => rw [sortFields, ih, List.map_cons]

theorem insertionSort_map {α β : Type} (f : α → β) (l : List (String × α)) :
    (l.map fun x => (x.1, f x.2)).insertionSort byName =
      (l.insertionSort byName).map fun x => (x.1, f x.2) :=
  (List.map_insertionSort byName byName (fun x : String × α => (x.1, f x.2)) l
    fun _ _ _ _ => Iff.rfl).symm

def field [ScalarText] (f : String × Value) : List Char :=
  ScalarText.string f.1 ++ ':' :: canonical f.2

theorem canonical_array [ScalarText] (l : List Value) :
    canonical (.array l) = '[' :: items ']' (l.map canonical) := by
  rw [canonical, canonicalItems_eq]

theorem canonical_object [ScalarText] (l : List (String × Value)) :
    canonical (.object l) = '\x7b' :: items '\x7d' ((l.insertionSort byName).map field) := by
  rw [canonical, canonicalFields_eq, insertionSort_map, List.map_map]
  rfl

theorem sortKeys_array (l : List Value) : sortKeys (.array l) = .array (l.map sortKeys) := by
  rw [sortKeys, sortItems_eq]

theorem sortKeys_object (l : List (String × Value)) : sortKeys (.object l) =
    .object ((l.insertionSort byName).map fun f => (f.1, sortKeys f.2)) := by
  rw [sortKeys, sortFields_eq, insertionSort_map]

/-! ## Where a text ends -/

theorem more_inj {α : Type} {write : α → List Char} {R : α → α → Prop} {close : Char}
    (closes : close = ']' ∨ close = '\x7d') {l m : List α}
    (each : ∀ a ∈ l, ∀ b ∈ m, ∀ s t, Ends s → Ends t → write a ++ s = write b ++ t →
      R a b ∧ s = t) {s t : List Char}
    (same : l.flatMap (fun a => ',' :: write a) ++ close :: s =
      m.flatMap (fun a => ',' :: write a) ++ close :: t) : List.Forall₂ R l m ∧ s = t := by
  have comma : close ≠ ',' := by
    rcases closes with rfl | rfl
    · decide
    · decide
  induction l generalizing m with
  | nil =>
    cases m with
    | nil => exact ⟨.nil, (List.cons.inj same).2⟩
    | cons b m => exact absurd (List.cons.inj same).1 comma
  | cons a l ih =>
    cases m with
    | nil => exact absurd (List.cons.inj same).1.symm comma
    | cons b m =>
      simp only [List.flatMap_cons, List.cons_append, List.append_assoc, List.cons.injEq,
        true_and] at same
      obtain ⟨first, rest⟩ := each a List.mem_cons_self b List.mem_cons_self _ _
        (ends_more closes l s) (ends_more closes m t) same
      obtain ⟨others, after⟩ := ih (fun a memA b memB => each a (List.mem_cons_of_mem _ memA) b
        (List.mem_cons_of_mem _ memB)) rest
      exact ⟨.cons first others, after⟩

theorem items_inj {α : Type} {write : α → List Char} {R : α → α → Prop} {close : Char}
    (closes : close = ']' ∨ close = '\x7d') {l m : List α}
    (each : ∀ a ∈ l, ∀ b ∈ m, ∀ s t, Ends s → Ends t → write a ++ s = write b ++ t →
      R a b ∧ s = t)
    (begins : ∀ a, a ∈ l ∨ a ∈ m → ∃ c cs, write a = c :: cs ∧ c ≠ close) {s t : List Char}
    (same : items close (l.map write) ++ s = items close (m.map write) ++ t) :
    List.Forall₂ R l m ∧ s = t := by
  -- with a comma in front, the first item is like the others
  have prefixed : ∀ (a : α) (k : List α) (u : List Char), items close ((a :: k).map write) ++ u =
      write a ++ (k.flatMap (fun a => ',' :: write a) ++ close :: u) := by
    intro a k u
    simp [items, List.flatMap_map]
  cases l with
  | nil =>
    cases m with
    | nil => exact ⟨.nil, (List.cons.inj same).2⟩
    | cons b m =>
      obtain ⟨c, cs, first, other⟩ := begins b (.inr List.mem_cons_self)
      rw [prefixed, first] at same
      exact absurd (List.cons.inj same).1.symm other
  | cons a l =>
    cases m with
    | nil =>
      obtain ⟨c, cs, first, other⟩ := begins a (.inl List.mem_cons_self)
      rw [prefixed, first] at same
      exact absurd (List.cons.inj same).1 other
    | cons b m =>
      rw [prefixed, prefixed] at same
      refine more_inj closes each ?_
      simpa [List.flatMap_cons] using same

theorem not_numberChar_of_ends {s : List Char} (ends : Ends s) : ∀ c ∈ s.head?, ¬NumberChar c := by
  intro c first
  rcases ends c first with rfl | rfl | rfl
  · decide
  · decide
  · decide

/-! ## Equal texts -/

/-- The kind of value that begins with a character. -/
def kindOf (c : Char) : Nat :=
  if c = 'n' then 0 else if c = 't' then 1 else if c = 'f' then 2 else if c = '"' then 3
  else if c = '[' then 4 else if c = '\x7b' then 5 else 6

def Value.kind : Value → Nat
  | .null => 0
  | .bool true => 1
  | .bool false => 2
  | .string _ => 3
  | .array _ => 4
  | .object _ => 5
  | .number _ => 6

theorem kindOf_numberChar {c : Char} (is : NumberChar c) : kindOf c = 6 := by
  have other : ∀ d : Char, ¬NumberChar d → c ≠ d := fun d not same => not (same ▸ is)
  rw [kindOf, if_neg (other _ (by decide)), if_neg (other _ (by decide)),
    if_neg (other _ (by decide)), if_neg (other _ (by decide)), if_neg (other _ (by decide)),
    if_neg (other _ (by decide))]

section

variable [ScalarText]

theorem exists_cons_number {n : Number} (wf : n.WellFormed) :
    ∃ c cs, ScalarText.number n = c :: cs ∧ NumberChar c := by
  obtain ⟨c, cs, first⟩ := List.exists_cons_of_ne_nil (ScalarText.number_ne_nil wf)
  exact ⟨c, cs, first, ScalarText.numberChar_of_mem wf c (first ▸ List.mem_cons_self)⟩

theorem exists_cons_canonical {v : Value} (wf : WellFormed v) :
    ∃ c cs, canonical v = c :: cs ∧ kindOf c = v.kind := by
  cases wf with
  | null => exact ⟨_, _, rfl, rfl⟩
  | bool b =>
    cases b with
    | true => exact ⟨_, _, rfl, rfl⟩
    | false => exact ⟨_, _, rfl, rfl⟩
  | number wf =>
    obtain ⟨c, cs, first, is⟩ := exists_cons_number wf
    exact ⟨c, cs, first, kindOf_numberChar is⟩
  | string s =>
    obtain ⟨rest, first⟩ := ScalarText.quoted s
    exact ⟨_, rest, first, rfl⟩
  | array _ => exact ⟨_, _, rfl, rfl⟩
  | object _ _ => exact ⟨_, _, rfl, rfl⟩

theorem kind_eq_of_canonical {v w : Value} (wf : WellFormed v) (wf' : WellFormed w)
    {s t : List Char} (same : canonical v ++ s = canonical w ++ t) : v.kind = w.kind := by
  obtain ⟨c, cs, first, is⟩ := exists_cons_canonical wf
  obtain ⟨d, ds, first', is'⟩ := exists_cons_canonical wf'
  rw [first, first'] at same
  rw [← is, ← is', (List.cons.inj same).1]

theorem canonical_ne_close {v : Value} (wf : WellFormed v) :
    ∃ c cs, canonical v = c :: cs ∧ c ≠ ']' := by
  cases wf with
  | null => exact ⟨_, _, rfl, by decide⟩
  | bool b =>
    cases b with
    | true => exact ⟨_, _, rfl, by decide⟩
    | false => exact ⟨_, _, rfl, by decide⟩
  | number wf =>
    obtain ⟨c, cs, first, is⟩ := exists_cons_number wf
    refine ⟨c, cs, first, ?_⟩
    rintro rfl
    exact absurd is (by decide)
  | string s =>
    obtain ⟨rest, first⟩ := ScalarText.quoted s
    exact ⟨_, rest, first, by decide⟩
  | array _ => exact ⟨_, _, rfl, by decide⟩
  | object _ _ => exact ⟨_, _, rfl, by decide⟩

omit [ScalarText] in
theorem Forall₂.map_eq {α β : Type} {f : α → β} {l m : List α}
    (all : List.Forall₂ (fun a b => f a = f b) l m) : l.map f = m.map f := by
  induction all with
  | nil => rfl
  | cons first _ ih => rw [List.map_cons, List.map_cons, first, ih]

/-- Texts with equal beginnings are texts of values that are equal up to the order of fields. -/
theorem canonical_append_inj {v w : Value} (wf : WellFormed v) (wf' : WellFormed w)
    {s t : List Char} (ends : Ends s) (ends' : Ends t)
    (same : canonical v ++ s = canonical w ++ t) : sortKeys v = sortKeys w ∧ s = t := by
  induction v using Value.induction generalizing w s t with
  | null =>
    have kind := kind_eq_of_canonical wf wf' same
    match w, kind with
    | .null, _ => exact ⟨rfl, List.append_cancel_left same⟩
  | bool b =>
    have kind := kind_eq_of_canonical wf wf' same
    cases b with
    | true =>
      match w, kind with
      | .bool true, _ => exact ⟨rfl, List.append_cancel_left same⟩
    | false =>
      match w, kind with
      | .bool false, _ => exact ⟨rfl, List.append_cancel_left same⟩
  | number n =>
    have kind := kind_eq_of_canonical wf wf' same
    match w, kind with
    | .number m, _ =>
      cases wf with
      | number wf =>
        cases wf' with
        | number wf' =>
          obtain ⟨text, rest⟩ := Delimited.append_inj_of_kind (ScalarText.numberChar_of_mem wf)
            (ScalarText.numberChar_of_mem wf') (not_numberChar_of_ends ends)
            (not_numberChar_of_ends ends') same
          rw [ScalarText.number_inj wf wf' text]
          exact ⟨rfl, rest⟩
  | string a =>
    have kind := kind_eq_of_canonical wf wf' same
    match w, kind with
    | .string b, _ =>
      obtain ⟨rfl, rest⟩ := ScalarText.delimits trivial trivial same
      exact ⟨rfl, rest⟩
  | array l ih =>
    have kind := kind_eq_of_canonical wf wf' same
    match w, kind with
    | .array m, _ =>
      cases wf with
      | array wf =>
        cases wf' with
        | array wf' =>
          rw [canonical_array, canonical_array] at same
          obtain ⟨all, rest⟩ := @items_inj _ canonical (fun a b => sortKeys a = sortKeys b) ']'
            (.inl rfl) l m
            (fun a memA b memB s t ends ends' same =>
              ih a memA (wf a memA) (wf' b memB) ends ends' same)
            (fun a mem => canonical_ne_close (mem.elim (wf a) (wf' a))) s t (List.cons.inj same).2
          rw [sortKeys_array, sortKeys_array, Forall₂.map_eq all]
          exact ⟨rfl, rest⟩
  | object l ih =>
    have kind := kind_eq_of_canonical wf wf' same
    match w, kind with
    | .object m, _ =>
      cases wf with
      | object _ wf =>
        cases wf' with
        | object _ wf' =>
          rw [canonical_object, canonical_object] at same
          have each : ∀ f ∈ l.insertionSort byName, ∀ g ∈ m.insertionSort byName, ∀ s t,
              Ends s → Ends t → field f ++ s = field g ++ t →
              (f.1, sortKeys f.2) = (g.1, sortKeys g.2) ∧ s = t := by
            intro f memF g memG s t ends ends' same
            have inL := (List.mem_insertionSort byName).1 memF
            have inM := (List.mem_insertionSort byName).1 memG
            unfold field at same
            rw [List.append_assoc, List.append_assoc] at same
            obtain ⟨name, same⟩ := ScalarText.delimits trivial trivial same
            obtain ⟨value, rest⟩ := ih f inL (wf f inL) (wf' g inM) ends ends' (List.cons.inj same).2
            rw [name, value]
            exact ⟨rfl, rest⟩
          have begins : ∀ f : String × Value, ∃ c cs, field f = c :: cs ∧ c ≠ '\x7d' := by
            intro f
            obtain ⟨rest, first⟩ := ScalarText.quoted f.1
            exact ⟨'"', rest ++ ':' :: canonical f.2, by rw [field, first, List.cons_append], by decide⟩
          obtain ⟨all, rest⟩ := items_inj (.inr rfl) each (fun f _ => begins f) (List.cons.inj same).2
          rw [sortKeys_object, sortKeys_object, Forall₂.map_eq all]
          exact ⟨rfl, rest⟩

/-- Equal texts are texts of values that are equal up to the order of fields. -/
theorem sortKeys_eq_of_canonical {v w : Value} (wf : WellFormed v) (wf' : WellFormed w)
    (same : canonical v = canonical w) : sortKeys v = sortKeys w := by
  refine (@canonical_append_inj _ v w wf wf' [] [] ends_nil ends_nil ?_).1
  rw [same]

end

/-! ## Scalars in their shortest text -/

theorem isDigit_of_mem_nat {n : Nat} {c : Char} (mem : c ∈ nat n) : c.isDigit = true :=
  Nat.isDigit_of_mem_toDigits (by decide) (by decide) mem

theorem nat_injective : Function.Injective nat := by
  intro n m same
  rw [← Nat.ofDigitChars_ten_toDigits (n := n), ← Nat.ofDigitChars_ten_toDigits (n := m)]
  exact congrArg (Nat.ofDigitChars 10 · 0) same

namespace Number

def write : Number → List Char
  | .nat n => Json.nat n
  | .neg n => '-' :: Json.nat n
  | .float digits => digits.toList

theorem numberChar_of_mem_write {n : Number} (wf : n.WellFormed) : ∀ c ∈ n.write, NumberChar c := by
  intro c mem
  cases n with
  | nat n => exact .inl (isDigit_of_mem_nat mem)
  | neg n =>
    rcases List.mem_cons.1 mem with dash | digit
    · exact .inr (.inl dash)
    · exact .inl (isDigit_of_mem_nat digit)
  | float digits => exact wf.1 c mem

theorem write_ne_nil {n : Number} (wf : n.WellFormed) : n.write ≠ [] := by
  cases n with
  | nat n => exact Nat.toDigits_ne_nil
  | neg n => exact List.cons_ne_nil _ _
  | float digits =>
    obtain ⟨c, mem, -⟩ := wf.2
    exact List.ne_nil_of_mem mem

/-- An integer has neither a point nor an exponent. -/
theorem write_ne_float {digits : String} (wf : (float digits).WellFormed) (sign : List Char)
    (plain : ∀ c ∈ sign, c = '-') (n : Nat) : sign ++ Json.nat n ≠ digits.toList := by
  intro same
  obtain ⟨c, mem, special⟩ := wf.2
  rw [← same, List.mem_append] at mem
  rcases mem with dash | digit
  · rw [plain c dash] at special
    exact absurd special (by decide)
  · have is := isDigit_of_mem_nat digit
    rcases special with rfl | rfl
    · exact absurd is (by decide)
    · exact absurd is (by decide)

theorem write_inj {n m : Number} (wf : n.WellFormed) (wf' : m.WellFormed)
    (same : n.write = m.write) : n = m := by
  have signed : ∀ {a b : Nat}, ¬Json.nat a = '-' :: Json.nat b := by
    intro a b same
    have dash : '-' ∈ Json.nat a := same ▸ List.mem_cons_self
    exact absurd (isDigit_of_mem_nat dash) (by decide)
  cases n with
  | nat n =>
    cases m with
    | nat m => rw [nat_injective same]
    | neg m => exact absurd same signed
    | float digits => exact absurd same (write_ne_float wf' [] (fun c mem => nomatch mem) n)
  | neg n =>
    cases m with
    | nat m => exact absurd same.symm signed
    | neg m => rw [nat_injective (List.cons.inj same).2]
    | float digits =>
      exact absurd same (write_ne_float wf' ['-'] (fun c mem => List.mem_singleton.1 mem) n)
  | float digits =>
    cases m with
    | nat m => exact absurd same.symm (write_ne_float wf [] (fun c mem => nomatch mem) m)
    | neg m =>
      exact absurd same.symm (write_ne_float wf ['-'] (fun c mem => List.mem_singleton.1 mem) m)
    | float other => rw [String.toList_injective same]

end Number

theorem string_append_inj {a b : String} {s t : List Char}
    (same : string a ++ s = string b ++ t) : a = b ∧ s = t := by
  have read := @Rfc8259.readAt_string (fun _ _ => .ok ()) none s a
  rw [same, Rfc8259.readAt_string] at read
  cases read
  exact ⟨rfl, rfl⟩

@[reducible] def plainText : ScalarText where
  string := string
  number := Number.write
  quoted _ := ⟨_, rfl⟩
  delimits _ _ _ _ _ _ same := string_append_inj same
  number_ne_nil := Number.write_ne_nil
  numberChar_of_mem := Number.numberChar_of_mem_write
  number_inj := Number.write_inj

example : @canonical plainText (.object [("z", .number (.neg 1)), ("a", .array [.null, .bool true])]) =
    "\x7b\"a\":[null,true],\"z\":-1\x7d".toList := by decide

end Json
