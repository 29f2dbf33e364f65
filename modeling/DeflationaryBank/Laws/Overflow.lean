import DeflationaryBank.Laws.Supply
import DeflationaryBank.Laws.Split

/-!
# Bounds on amounts

An `sdk.Int` holds at most 256 bits, and `InitGenesis` adds the genesis
balances with checked additions: from a genesis of distinct balances whose
amounts are `sdk.Int`s, the supply of every denomination stays below `2^256`
and, the balances being positive and summing to it, each balance stays below
the supply. A portion of an amount below the supply, at a percentage in
`[0, 1]`, then stays within its bit bounds.

That does not keep a transfer from overflowing: the net of a taxed coin is
`amount - burn - liquidity - feeTax`, three checked subtractions whose result is
as low as `-2 * amount` when the portions, all computed from `LiquidityPercent`,
are the whole amount.
-/

namespace DeflationaryBank

/-- A genesis of distinct balances whose amounts are `sdk.Int`s. -/
def GenesisBounded (gen : GenesisState) : Prop :=
  GenesisDistinct gen ∧ ∀ b ∈ gen.balances, ∀ c ∈ b.coins, c.amount.natAbs < 2 ^ maxBitLen

instance genesisBoundedDecidable (gen : GenesisState) : Decidable (GenesisBounded gen) :=
  inferInstanceAs (Decidable (_ ∧ _))

/-- What a run keeps of the amounts: positive balances, summing to at most the
supply, which stays below `2^256`. -/
structure AmountsBounded (s : BankState) : Prop where
  balancesPos : s.balances.AllPos
  totalLe : ∀ d, s.totalBalance d ≤ s.supplyOf d
  supplyLt : ∀ d, s.supplyOf d < 2 ^ maxBitLen

theorem BankState.balanceOf_le_totalBalance {s : BankState} (h : s.balances.AllPos) (a : AccAddress)
    (d : String) : s.balanceOf a d ≤ s.totalBalance d := by
  have := h.le_sumBy (w := fun key v => if key.2 = d then v else 0) (by simp)
    (fun _ _ hv => by dsimp only; split <;> omega) (a, d)
  simpa using this

theorem AmountsBounded.balance_le {s : BankState} (h : AmountsBounded s) (a : AccAddress) (d : String) :
    0 ≤ s.balanceOf a d ∧ s.balanceOf a d ≤ s.supplyOf d ∧ s.supplyOf d < 2 ^ maxBitLen :=
  ⟨h.balancesPos.amount_nonneg _,
    (BankState.balanceOf_le_totalBalance h.balancesPos a d).trans (h.totalLe d), h.supplyLt d⟩

/-! ## Transfers only burn -/

theorem burnCoinsOf_nonneg (params : Params) (f t : AccAddress) (d : String) :
    ∀ amt, 0 ≤ (burnCoinsOf params f t amt).amountSum d
  | [] => le_refl _
  | coin :: rest => by
    have ih := burnCoinsOf_nonneg params f t d rest
    unfold burnCoinsOf at ih ⊢
    rw [List.filterMap_cons]
    rcases h : taxCoin params f t coin with _ | _ | ⟨sent, bc, lc, fc⟩ <;> simp only [h]
    · exact ih
    · exact ih
    · have := (taxCoin_eq_some h).2.2.2.2.2.1
      rw [Coins.amountSum_cons]
      split_ifs <;> omega

theorem Call.burnt_nonneg (params : Params) (d : String) (c : Call) : 0 ≤ c.burnt params d := by
  cases c with
  | sendCoins f t amt => exact burnCoinsOf_nonneg _ _ _ _ amt
  | inputOutputCoins inputs outputs mem =>
    exact List.sum_nonneg fun x hx => by
      obtain ⟨o, -, rfl⟩ := List.mem_map.1 hx
      exact burnCoinsOf_nonneg _ _ _ _ _

/-- Positive balances survive every write of a transfer. -/
theorem balancesPos_stable : TransferStable (·.balances.AllPos) fun _ => True where
  putBalance _ _ _ h _ hc := h.put _ (Coin.amount_nonneg_of_isValid hc)
  lowerSupply _ _ h _ _ := by simpa using h
  writeBack _ _ _ h _ := by simpa using h
  account _ _ h := h

theorem Call.run_amountsBounded {k : Keeper} {s s' : BankState} (c : Call) (hs : AmountsBounded s)
    (h : c.run k s = .ok () s') : AmountsBounded s' := by
  refine ⟨((Call.run_keeps balancesPos_stable c) s hs.balancesPos).1 _ _ h, fun d => ?_, fun d => ?_⟩
  all_goals
    have := Call.run_totals c h d
    have := Call.burnt_nonneg s.params d c
    have := Call.lost_nonneg s.params d c
    have := hs.totalLe d
    have := hs.supplyLt d
    omega

/-! ## Genesis -/

/-- The total the balance loop of `InitGenesis` returns holds `sdk.Int`s when the
genesis balances do: its additions are checked. -/
theorem initGenesisBalances_lt {balances : List Balance} {total : Coins} {s s' : BankState}
    (hb : ∀ b ∈ balances, ∀ c ∈ b.coins, c.amount.natAbs < 2 ^ maxBitLen)
    (h : initGenesisBalances balances s = .ok total s') : ∀ c ∈ total, c.amount.natAbs < 2 ^ maxBitLen :=
  (foldlM_ok_inv (fun acc rest _ => (∀ c ∈ acc, c.amount.natAbs < 2 ^ maxBitLen) ∧
      ∀ b ∈ rest, ∀ c ∈ b.coins, c.amount.natAbs < 2 ^ maxBitLen)
    (fun _ _ _ _ _ _ ⟨hacc, hrest⟩ hx => by
      obtain ⟨-, hadd⟩ := initGenesisBalance_ok hx
      simp only [List.mem_cons, forall_eq_or_imp] at hrest
      refine ⟨Coins.safeAdd_forall (·.amount.natAbs < 2 ^ maxBitLen)
        (fun _ _ hc => by rw [(Coin.add_eq_ok_iff.1 hc).2.2]; exact (Coin.add_eq_ok_iff.1 hc).2.1)
        _ _ hadd hacc hrest.1, hrest.2⟩)
    ⟨by simp, hb⟩ h).1

theorem initGenesis_amountsBounded {k : Keeper} {gen : GenesisState} {s : BankState}
    (hg : GenesisBounded gen) (h : initGenesis k gen BankState.empty = .ok () s) :
    AmountsBounded s := by
  obtain ⟨total, s2, h2, hsort, hsup⟩ := initGenesis_supply_totals hg.1 h
  refine ⟨?_, fun d => ((hsup d).2.trans (hsup d).1.symm).le, fun d => (hsup d).1 ▸ ?_⟩
  · obtain ⟨_, s2', h2', _, h3, s3, s4, s5, h6, h7, h8, accounts, rfl⟩ := initGenesis_ok h
    have hput : ∀ w (coins : Coins), Keeps (·.balances.AllPos) (coins.forM (setDenomCoin w)) :=
      fun w _ => Keeps.forM fun _ _ => Keeps.modify fun t ht => by simpa using ht
    have p2 := (initGenesisBalances_keeps (P := (·.balances.AllPos)) (fun t _ c ht hv hz =>
      ht.set _ (lt_of_le_of_ne (Coin.amount_nonneg_of_isValid hv) (Ne.symm hz))) _ _
      KVStore.allPos_empty).1 _ _ h2'
    have p3 := ((hput _ _) s2' p2).1 _ _ h6
    have p4 := ((hput _ _) s3 p3).1 _ _ h7
    have p5 := ((hput _ _) s4 p4).1 _ _ h8
    exact p5
  · have hlt := initGenesisBalances_lt
      (fun b hb => hg.2 b ((sanitizeGenesisBalances_perm _).subset hb)) h2
    have hnn := initGenesisBalances_nonneg h2
    refine Coins.amountSum_lt hsort.nodup_denoms (pow_pos two_pos _) (fun c hc => ?_) d
    rw [← Int.natAbs_of_nonneg (hnn c hc)]
    exact SdkInt.natCast_lt (hlt c hc)

theorem Reachable.amountsBounded {k : Keeper} {s : BankState}
    (h : Reachable k GenesisBounded (fun _ => True) s) : AmountsBounded s :=
  h.inv (fun _ _ hg hi => initGenesis_amountsBounded hg hi) fun c _ _ _ ht hc => c.run_amountsBounded ht hc

/-- Overflow bounds: from a genesis of distinct `sdk.Int` balances, along every
run of transfers that return nil, every balance of a denomination lies between
zero and its supply, which is below `2^256`; and a portion of any amount up to
the supply at a percentage `validateSdkDec` accepts returns, between zero and
the amount. -/
theorem reachable_amounts_bounded {k : Keeper} {s : BankState}
    (h : Reachable k GenesisBounded (fun _ => True) s) :
    (∀ a d, 0 ≤ s.balanceOf a d ∧ s.balanceOf a d ≤ s.supplyOf d ∧ s.supplyOf d < 2 ^ maxBitLen) ∧
      ∀ d a (p : Dec), 0 ≤ a → a ≤ s.supplyOf d → validateSdkDec p = .ok () →
        ∃ v, portion a p = .ok v ∧ 0 ≤ v ∧ v ≤ a :=
  ⟨h.amountsBounded.balance_le, fun d _ _ ha hle hp =>
    portion_le ha (lt_of_le_of_lt hle (h.amountsBounded.supplyLt d)) hp⟩

end DeflationaryBank
