import DeflationaryBank.Laws.Genesis

/-!
# Only positive amounts are stored

Every bank setter deletes a key instead of writing a zero, and every amount it
writes is one of a valid coin, a supply that stays above the burnt amount, or a
pool amount read back: no store of the bank ever holds a zero or a negative
entry. `InitGenesis` sets the non-zero genesis balances and writes the genesis
pools and the computed total, so the property holds from a genesis whose pools
are valid coin lists, and every transfer keeps it, whether it returns nil or an
error.
-/

namespace DeflationaryBank

/-- Every entry of the balance store and of the three denomination stores is
positive. -/
structure StoresPos (s : BankState) : Prop where
  balances : s.balances.AllPos
  denoms : ∀ w, (s.denomStore w).AllPos

namespace StoresPos

variable {s : BankState}

theorem putBalance (h : StoresPos s) (a : AccAddress) {c : Coin} (hc : 0 ≤ c.amount) :
    StoresPos (s.putBalance a c) :=
  ⟨h.balances.put _ hc, fun w => by simpa using h.denoms w⟩

theorem putDenom (h : StoresPos s) (w : DenomStore) {c : Coin} (hc : 0 ≤ c.amount) :
    StoresPos (s.putDenom w c) := by
  refine ⟨by simpa using h.balances, fun w' => ?_⟩
  rw [BankState.denomStore_putDenom]
  split
  · exact (h.denoms w).put _ hc
  · exact h.denoms w'

theorem setAccounts (h : StoresPos s) (accounts : List AccAddress) :
    StoresPos { s with accounts := accounts } :=
  ⟨h.balances, h.denoms⟩

end StoresPos

/-- Positivity survives every write a transfer makes. -/
theorem storesPos_stable : TransferStable StoresPos fun _ => True where
  putBalance _ a _ h _ hc := h.putBalance a (Coin.amount_nonneg_of_isValid hc)
  lowerSupply _ _ h hc _ := h.putDenom .supply hc
  writeBack _ w _ h _ := h.putDenom w ((h.denoms w).amount_nonneg _)
  account _ _ h := h.setAccounts _

/-- Writing a list of coins with non-negative amounts into a denomination store
keeps positivity. -/
theorem setDenomCoins_keeps (w : DenomStore) {coins : Coins} (h : ∀ c ∈ coins, 0 ≤ c.amount) :
    Keeps StoresPos (coins.forM (setDenomCoin w)) :=
  Keeps.forM fun c hc => Keeps.modify fun _ ht => ht.putDenom w (h c hc)

/-- `InitGenesis` stores only positive amounts when the genesis pools have no
negative coin. -/
theorem initGenesis_storesPos {k : Keeper} {gen : GenesisState} {s : BankState}
    (hliq : ∀ c ∈ gen.liquidityPool, 0 ≤ c.amount) (hfee : ∀ c ∈ gen.feeTaxPool, 0 ≤ c.amount)
    (h : initGenesis k gen BankState.empty = .ok () s) : StoresPos s := by
  obtain ⟨total, s2, h2, total', h3, s3, s4, s5, h6, h7, h8, accounts, rfl⟩ := initGenesis_ok h
  have p1 : StoresPos { BankState.empty with params := gen.params } :=
    ⟨KVStore.allPos_empty, fun w => by cases w <;> exact KVStore.allPos_empty⟩
  have p2 := (initGenesisBalances_keeps (fun t a c ht _ hz => ⟨ht.balances.set _
    (lt_of_le_of_ne (Coin.amount_nonneg_of_isValid ‹_›) (Ne.symm hz)), ht.denoms⟩) _ _ p1).1 _ _ h2
  have htot : ∀ c ∈ total', 0 ≤ c.amount :=
    Coins.add_nonneg h3 (initGenesisBalances_nonneg h2) (by simp)
  have p3 := (setDenomCoins_keeps .supply htot s2 p2).1 _ _ h6
  have p4 := (setDenomCoins_keeps .feeTaxPool hfee s3 p3).1 _ _ h7
  exact ((setDenomCoins_keeps .liquidityPool hliq s4 p4).1 _ _ h8).setAccounts accounts

/-- The genesis coins are valid: the coins of every balance, the supply and the
two pools each pass `Coins.IsValid`. -/
def GenesisCoinsValid (gen : GenesisState) : Prop :=
  (∀ b ∈ gen.balances, b.coins.isValid = true) ∧ gen.supply.isValid = true ∧
    gen.liquidityPool.isValid = true ∧ gen.feeTaxPool.isValid = true

instance genesisCoinsValidDecidable (gen : GenesisState) : Decidable (GenesisCoinsValid gen) :=
  inferInstanceAs (Decidable (_ ∧ _ ∧ _ ∧ _))

/-- Along every run from a genesis with valid coins, whatever each transfer
returns, every stored balance, supply and pool entry is positive. -/
theorem reachableAny_storesPos {k : Keeper} {s : BankState}
    (h : ReachableAny k GenesisCoinsValid s) : StoresPos s :=
  h.inv (fun _ _ hg hi => initGenesis_storesPos (Coins.amount_nonneg_of_isValid hg.2.2.1)
      (Coins.amount_nonneg_of_isValid hg.2.2.2) hi)
    (Call.run_keeps storesPos_stable)

/-- After the test's transfer that fails part-way. -/
theorem testGenesis_storesPos : StoresPos failedSendState :=
  reachableAny_storesPos (reachableAny_failedSendState (by decide))

end DeflationaryBank
