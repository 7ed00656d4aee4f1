import Carryforth.Lib.CanonicalJson

/-!
# JSON text with indentation

A printer with indentation is a parameter: its text has no empty line, whatever the strings of the
value hold, and an object starts with its brace.
-/

namespace Json

/-! ## Lines -/

/-- No line is empty, and the last one is not ended. -/
def Settled (s : List Char) : Prop :=
  s.IsChain (fun a b => a = '\n' → b ≠ '\n') ∧ s.getLast? ≠ some '\n'

instance (s : List Char) : Decidable (Settled s) := inferInstanceAs (Decidable (_ ∧ _))

namespace Settled

theorem append {s t : List Char} (first : Settled s) (second : Settled t) : Settled (s ++ t) := by
  refine ⟨List.isChain_append.2 ⟨first.1, second.1, fun c last _ _ is => ?_⟩, fun last => ?_⟩
  · exact absurd (is ▸ last) first.2
  · rw [List.getLast?_append, Option.or_eq_some_iff] at last
    rcases last with last | ⟨-, last⟩
    · exact second.2 last
    · exact first.2 last

theorem tail {c : Char} {s : List Char} (settled : Settled (c :: s)) : Settled s := by
  refine ⟨settled.1.tail, fun last => settled.2 ?_⟩
  cases s with
  | nil => cases last
  | cons e s => exact last

theorem toList_eq {s : String} {cs : List Char} (is : s = String.ofList cs) : s.toList = cs := by
  rw [is, String.toList_ofList]

theorem of_eq {s : String} {cs : List Char} (is : s = String.ofList cs) (settled : Settled cs) :
    Settled s.toList := by
  rwa [toList_eq is]

theorem append_string {s t : String} (first : Settled s.toList) (second : Settled t.toList) :
    Settled (s ++ t).toList := by
  rw [String.toList_append]
  exact first.append second

end Settled

/-- A printer with indentation, which may give up. -/
class PrettyPrinter where
  toStringPretty : Value → Option (List Char)
  settled : ∀ {v text}, WellFormed v → toStringPretty v = some text → Settled text
  braced : ∀ {fields text}, toStringPretty (.object fields) = some text → ∃ rest, text = '\x7b' :: rest

/-- The printer of one line, which gives up where the line would break. -/
example [ScalarText] : PrettyPrinter where
  toStringPretty v := if Settled (canonical v) then some (canonical v) else none
  settled := by
    intro v text _ printed
    obtain ⟨settled, ⟨⟩⟩ := Option.ite_none_right_eq_some.1 printed
    exact settled
  braced := by
    intro fields text printed
    obtain ⟨-, ⟨⟩⟩ := Option.ite_none_right_eq_some.1 printed
    exact ⟨_, rfl⟩

end Json
