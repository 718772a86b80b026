import Mathlib.Algebra.Ring.Nat

/-!
# Numerals

A numeral of a field rests on a proof that it is at least two, and an index of `Fin n` on
one that `n` is not zero. Here these proofs have names, so that definitions with the same
numeral share them.
-/

namespace MgRobot.Lib

set_option autoImplicit false

instance atLeastTwo_two : Nat.AtLeastTwo 2 := inferInstance

instance atLeastTwo_three : Nat.AtLeastTwo 3 := inferInstance

instance atLeastTwo_four : Nat.AtLeastTwo 4 := inferInstance

instance atLeastTwo_five : Nat.AtLeastTwo 5 := inferInstance

instance atLeastTwo_ten : Nat.AtLeastTwo 10 := inferInstance

instance atLeastTwo_thirteen : Nat.AtLeastTwo 13 := inferInstance

instance atLeastTwo_fifteen : Nat.AtLeastTwo 15 := inferInstance

instance atLeastTwo_seventeen : Nat.AtLeastTwo 17 := inferInstance

instance atLeastTwo_twenty : Nat.AtLeastTwo 20 := inferInstance

instance atLeastTwo_twentySix : Nat.AtLeastTwo 26 := inferInstance

instance atLeastTwo_thirty : Nat.AtLeastTwo 30 := inferInstance

instance atLeastTwo_hundred : Nat.AtLeastTwo 100 := inferInstance

instance atLeastTwo_hundredEighty : Nat.AtLeastTwo 180 := inferInstance

instance atLeastTwo_thousand : Nat.AtLeastTwo 1000 := inferInstance

instance atLeastTwo_tenThousand : Nat.AtLeastTwo 10000 := inferInstance

instance neZero_two : NeZero 2 := inferInstance

instance neZero_three : NeZero 3 := inferInstance

end MgRobot.Lib
