import Carryforth.Lib.OrdMap

/-!
# Composite keys

Pairs are compared by their first parts, then by their second.  A record that serves as a key is
compared by the pairs of its fields (`lawfulEqCmp_compareOn`).
-/

open Std

variable {α β κ : Type}

theorem lawfulEqCmp_compareOn [Ord κ] [LawfulEqOrd κ] {key : α → κ}
    (injective : Function.Injective key) : LawfulEqCmp (compareOn key) where
  compare_self {a} := ReflOrd.compare_self (a := key a)
  eq_of_compare h := injective (LawfulEqOrd.eq_of_compare h)

namespace Prod

variable [Ord α] [Ord β]

instance instOrdLexicographic : Ord (α × β) := ⟨compareLex (compareOn fst) (compareOn snd)⟩

instance instTransOrdLexicographic [TransOrd α] [TransOrd β] : TransOrd (α × β) :=
  inferInstanceAs (TransCmp (compareLex (compareOn fst) (compareOn snd)))

instance instLawfulEqOrdLexicographic [LawfulEqOrd α] [LawfulEqOrd β] : LawfulEqOrd (α × β) where
  compare_self {a} := compareLex_eq_eq.2
    ⟨ReflOrd.compare_self (a := a.1), ReflOrd.compare_self (a := a.2)⟩
  eq_of_compare h :=
    have parts := compareLex_eq_eq.1 h
    Prod.ext (LawfulEqOrd.eq_of_compare parts.1) (LawfulEqOrd.eq_of_compare parts.2)

end Prod
