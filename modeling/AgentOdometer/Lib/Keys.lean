import Std.Data.ExtTreeMap

/-!
# Composite map keys

Lawful orders for the keys of ordered maps: pairs compare lexicographically, and an
injective projection transports the order of its codomain. Ordered maps over lawful keys
are determined by their entries, so their equality is decidable.
-/

namespace AgentOdometer

variable {α β : Type}

/-- Lexicographic order on pairs. -/
instance instOrdPair [Ord α] [Ord β] : Ord (α × β) :=
  lexOrd

instance instTransOrdPair [Ord α] [Ord β] [Std.TransOrd α] [Std.TransOrd β] :
    Std.TransOrd (α × β) :=
  inferInstanceAs (Std.TransCmp (compareLex (compareOn Prod.fst) (compareOn Prod.snd)))

instance instTransOrdNamed : Std.TransOrd (String × Option String) :=
  instTransOrdPair

instance instTransOrdTriple : Std.TransOrd (String × String × String) :=
  instTransOrdPair

instance instTransOrdHourTriple : Std.TransOrd (Int × String × String) :=
  instTransOrdPair

instance instTransOrdHourQuadruple : Std.TransOrd (Int × String × String × String) :=
  instTransOrdPair

instance instLawfulEqOrdPair [Ord α] [Ord β] [Std.LawfulEqOrd α] [Std.LawfulEqOrd β] :
    Std.LawfulEqOrd (α × β) where
  compare_self := by
    intro p
    simp [compare, compareLex, compareOn]
  eq_of_compare := by
    intro p q h
    simp only [compare, compareLex_eq_eq, compareOn, Std.compare_eq_iff_eq] at h
    exact Prod.ext h.1 h.2

/-- An injective projection to a lawful order makes the comparison by it lawful. -/
theorem lawfulEqCmp_compareOn [Ord β] [Std.LawfulEqOrd β] {f : α → β}
    (hf : Function.Injective f) : Std.LawfulEqCmp (compareOn f) where
  compare_self := by
    intro a
    simp [compareOn]
  eq_of_compare := by
    intro a b h
    simp only [compareOn, Std.compare_eq_iff_eq] at h
    exact hf h

instance instDecidableEqExtTreeMap [Ord α] [Std.TransOrd α] [Std.LawfulEqOrd α]
    [DecidableEq α] [DecidableEq β] : DecidableEq (Std.ExtTreeMap α β) :=
  fun _ _ ↦ decidable_of_iff _ Std.ExtTreeMap.toList_inj

end AgentOdometer
