import Carryforth.Lib.Text

/-!
# Lines and fields

Text made of lines, each of them ended by a separator, and lines made of two fields.  A field that
does not hold the separator is read back (`splitFirst_append`).
-/

namespace Lines

variable {α : Type} [DecidableEq α] {x : α}

/-- The parts that are ended by a separator, and what is left after the last one. -/
def splitLines (x : α) (cs : List α) : List (List α) × List α :=
  ((cs.splitOn x).dropLast, (cs.splitOn x).getLastD [])

/-- The parts before and after the first separator. -/
def splitFirst (x : α) (cs : List α) : Option (List α × List α) :=
  match cs.dropWhile (· ≠ x) with
  | [] => none
  | _ :: rest => some (cs.takeWhile (· ≠ x), rest)

theorem splitFirst_append {a : List α} (free : x ∉ a) (b : List α) :
    splitFirst x (a ++ x :: b) = some (a, b) := by
  have others : ∀ c ∈ a, decide (c ≠ x) = true :=
    fun c mem => decide_eq_true fun same => free (same ▸ mem)
  unfold splitFirst
  rw [List.dropWhile_append_of_pos others, List.takeWhile_append_of_pos others]
  simp

end Lines

namespace Text

open Lines

/-- The lines of a text, without their ends; the last one need not have an end. -/
def lines (s : String) : List String :=
  let (ended, rest) := splitLines '\n' s.toList
  let stripped := ended.map fun l => if l.getLast? = some '\r' then l.dropLast else l
  (stripped ++ (if rest = [] then [] else [rest])).map String.ofList

end Text
