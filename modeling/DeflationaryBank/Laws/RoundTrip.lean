import DeflationaryBank.Laws.Export
import DeflationaryBank.Laws.Supply

/-!
# The genesis round trip

`InitGenesis` of a genesis whose addresses are distinct and whose coin lists
are valid, then `ExportGenesis`, gives the genesis back: its parameters and
pools, its balances that hold coins (in the order of the balance store), and as
the supply the total of the balances, which is the genesis supply whenever that
is given, since `InitGenesis` panics unless the two are equal. The proof meets
the export half, `exportGenesis_ok`, at the amounts `InitGenesis` writes, and
compares coin lists by their totals.
-/

namespace DeflationaryBank

/-! ## Comparing coin lists -/

namespace Coins

end Coins

/-! ## Genesis balances per address -/

/-- The amount of `d` a list of genesis balances gives the address `a`. -/
def addressAmount (balances : List Balance) (a : AccAddress) (d : String) : Int :=
  (balances.map fun b => if b.address = a then b.coins.amountSum d else 0).sum

@[simp] theorem addressAmount_nil (a : AccAddress) (d : String) : addressAmount [] a d = 0 := rfl

end DeflationaryBank
