import DeflationaryBank.Laws.Runs

/-!
# The liquidity and fee-tax pools

`deflationaryCoins` credits the liquidity and fee-tax portions of a taxed coin
to the bank module account. For the pools it reads the pool coin, adds the
portion to its amount and writes the coin back; but `Int.Add` returns the sum
and the source drops it, so the coin written back is the coin read. No transfer
changes a pool, while the module account's balance grows.
-/

namespace DeflationaryBank

/-- The pools hold `liq` and `fee` of the denomination `d`. -/
def PoolsAre (d : String) (liq fee : Int) (t : BankState) : Prop :=
  t.liquidityPool.amount d = liq ∧ t.feeTaxPool.amount d = fee

theorem poolsAre_stable (d : String) (liq fee : Int) :
    TransferStable (PoolsAre d liq fee) fun _ => True where
  putBalance _ _ _ h _ _ := h
  lowerSupply _ _ h _ _ := h
  writeBack t w d' h hw := by
    cases w <;> simp_all [PoolsAre, BankState.putDenom, BankState.setDenomStore]
  account _ _ h := h

/-- No transfer changes a pool, whether it returns nil or an error. -/
theorem Call.run_pools (k : Keeper) (c : Call) {s s' : BankState}
    (h : c.run k s = .ok () s' ∨ ∃ e, c.run k s = .err e s') (d : String) :
    s'.liquidityPool.amount d = s.liquidityPool.amount d ∧
      s'.feeTaxPool.amount d = s.feeTaxPool.amount d := by
  have hk := Call.run_keeps (k := k) (poolsAre_stable d (s.liquidityPool.amount d) (s.feeTaxPool.amount d)) c
    s ⟨rfl, rfl⟩
  rcases h with h | ⟨e, h⟩
  · exact hk.1 _ _ h
  · exact hk.2 _ _ h

/-- The test's transfer of 50 foo to `addr2`: the bank module account keeps the
2 foo of liquidity and the 2 foo of fee tax, and both pools stay empty. -/
theorem sendCoins_testRule_pools :
    ((initGenesis testKeeper (testGenesis [testRule "foo"]) >>= fun _ =>
      sendCoins testKeeper "addr1" "addr2" [⟨"foo", 50⟩]) BankState.empty).okState?.map
      (fun s => (s.balanceOf "bankModule" "foo", s.liquidityPool.amount "foo",
        s.feeTaxPool.amount "foo")) = some (4, 0, 0) := by
  decide

/-! ## Export and import

`InitGenesis` adds the genesis pools into `moduleHoldingsInt` but drops the
sum, and then requires the bank module account to hold exactly
`moduleHoldingsInt`, that is nothing. -/

/-- What `ExportGenesis` returns after the test's taxed transfer. -/
def exportedTestGenesis : GenesisState :=
  ⟨⟨[], true, [testRule "foo"]⟩,
    [⟨"addr2", [⟨"foo", 44⟩]⟩, ⟨"bankModule", [⟨"foo", 4⟩]⟩, ⟨"addr1", [⟨"bar", 50⟩, ⟨"foo", 50⟩]⟩],
    [⟨"bar", 50⟩, ⟨"foo", 98⟩], [], []⟩

/-- After the test's taxed transfer the export lists the 4 foo of the bank
module account, and loading that export panics. -/
theorem exportGenesis_initGenesis_testRule :
    ((initGenesis testKeeper (testGenesis [testRule "foo"]) >>= fun _ =>
      sendCoins testKeeper "addr1" "addr2" [⟨"foo", 50⟩] >>= fun _ => exportGenesis)
        BankState.empty).value? = some exportedTestGenesis ∧
    (initGenesis testKeeper exportedTestGenesis BankState.empty).panic? =
      some .moduleBalanceMismatch :=
  ⟨by decide, by decide⟩

end DeflationaryBank
