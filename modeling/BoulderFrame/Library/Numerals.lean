import Mathlib.Data.Nat.Init

/-!
# Numerals of a field

A numeral of a field rests on a proof that it is at least two. The numerals that the definitions of
many files share have theirs by name.
-/

namespace Nat

instance atLeastTwo_two : Nat.AtLeastTwo (nat_lit 2) where
  prop := Nat.le_refl 2

instance atLeastTwo_thousand : Nat.AtLeastTwo (nat_lit 1000) where
  prop := by decide

end Nat
