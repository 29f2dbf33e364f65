import DeflationaryBank.Laws.Runs

/-!
# What `InitGenesis` writes

`InitGenesis` sets the parameters, writes each genesis balance with
`initBalances` while adding it into the total supply, writes that total as the
supply and the genesis pools as the pools, and at the end may store the module
account. One inversion lemma says so; the invariants of the runs start from it.
-/

namespace DeflationaryBank

variable {s s' : BankState}

theorem accAddressFromBech32_eq_ok {a addr : String} (h : accAddressFromBech32 a = .ok addr) :
    addr = a := by
  unfold accAddressFromBech32 at h
  split_ifs at h
  cases h
  rfl

/-! ## The balance loop -/

section Balances

variable {addr : AccAddress}

/-- `initBalances` returns only when every coin is valid. -/
theorem initBalances_valid {coins : Coins} (h : initBalances addr coins s = .ok () s') :
    ∀ c ∈ coins, c.isValid = true :=
  forM_ok_mem (fun c _ _ h => by
    split at h
    · cases h
    · rename_i hv
      simpa using hv) h

/-- `initBalances` sets valid, non-zero coins of `addr`, and nothing else. -/
theorem initBalances_keeps {P : BankState → Prop}
    (hP : ∀ t (c : Coin), P t → c.isValid → c.amount ≠ 0 →
      P { t with balances := t.balances.set (addr, c.denom) c.amount })
    (coins : Coins) : Keeps P (initBalances addr coins) :=
  Keeps.forM fun c _ => Keeps.ite_of (fun _ => Keeps.throw _) fun hv =>
    Keeps.ite_of (fun hz => Keeps.modify fun t ht =>
        hP t c ht (by simpa using hv) (by simpa [Coin.isZero] using hz))
      fun _ => Keeps.pure _

/-- One genesis balance: its coins written for its own address, and added into
the total. -/
theorem initGenesisBalance_ok {total total' : Coins} {b : Balance}
    (h : initGenesisBalance total b s = .ok total' s') :
    initBalances b.address b.coins s = .ok () s' ∧ total.add b.coins = .ok total' := by
  unfold initGenesisBalance at h
  rcases ha : accAddressFromBech32 b.address with _ | addr <;> simp only [ha] at h
  · cases h
  · obtain ⟨_, _, h1, h⟩ := BankM.bind_eq_ok.1 h
    obtain ⟨hadd, rfl⟩ := BankM.liftPanic_eq_ok.1 h
    exact ⟨accAddressFromBech32_eq_ok ha ▸ BankM.orAbort_eq_ok.1 h1, hadd⟩

theorem initGenesisBalances_keeps {P : BankState → Prop}
    (hP : ∀ t a (c : Coin), P t → c.isValid → c.amount ≠ 0 →
      P { t with balances := t.balances.set (a, c.denom) c.amount })
    (balances : List Balance) : Keeps P (initGenesisBalances balances) := by
  refine Keeps.foldlM (fun _ b _ => ?_) []
  unfold initGenesisBalance
  split
  · exact Keeps.abort _
  · exact (Keeps.orAbort (initBalances_keeps (hP · _) _) _).bind fun _ => Keeps.liftPanic _

/-- The total the balance loop returns has no negative amount. -/
theorem initGenesisBalances_nonneg {balances : List Balance} {total : Coins}
    (h : initGenesisBalances balances s = .ok total s') : ∀ c ∈ total, 0 ≤ c.amount :=
  foldlM_ok_inv (fun acc _ _ => ∀ c ∈ acc, 0 ≤ c.amount) (fun _ _ _ _ _ _ hi hb => by
    obtain ⟨hinit, hadd⟩ := initGenesisBalance_ok hb
    exact Coins.add_nonneg hadd hi fun c hc =>
      Coin.amount_nonneg_of_isValid (initBalances_valid hinit c hc)) (by simp) h

end Balances

/-! ## Sanitized balances -/

/-- Sanitizing reorders the balances and changes none. -/
theorem sanitizeGenesisBalances_perm (balances : List Balance) :
    (sanitizeGenesisBalances balances).Perm balances :=
  List.perm_insertionSort _ balances

theorem sanitizeGenesisBalances_addresses (balances : List Balance) :
    ((sanitizeGenesisBalances balances).map (·.address)).Perm (balances.map (·.address)) :=
  (sanitizeGenesisBalances_perm balances).map _

/-! ## The whole call -/

theorem setParams_ok {p : Params} {u : Unit} (h : setParams p s = .ok u s') :
    s' = { s with params := p } := by
  unfold setParams at h
  split at h <;> cases h
  rfl

/-- The supply check writes nothing. -/
theorem checkGenesisSupply_keeps {P : BankState → Prop} (supply total : Coins) :
    Keeps P (checkGenesisSupply supply total) :=
  Keeps.ite ((Keeps.liftPanic _).bind fun _ => Keeps.ite (Keeps.abort _) (Keeps.pure _))
    (Keeps.pure _)

theorem getAllBalances_keeps {P : BankState → Prop} (addr : AccAddress) :
    Keeps P (getAllBalances addr) :=
  fun s => Keeps.liftPanic _ s

/-- The module-account check writes at most the account list. -/
theorem checkModuleHoldings_keeps {P : BankState → Prop}
    (hP : ∀ t a, P t → P { t with accounts := a :: t.accounts }) (k : Keeper) (holdings : Coins) :
    Keeps P (checkModuleHoldings k holdings) := by
  unfold checkModuleHoldings
  split
  · exact Keeps.abort _
  · exact (getAllBalances_keeps _).bind fun _ =>
      (Keeps.ite (createAccountIfMissing_keeps hP _) (Keeps.pure _)).bind fun _ =>
        (Keeps.liftPanic _).bind fun _ => Keeps.ite (Keeps.abort _) (Keeps.pure _)

/-- What a returning `InitGenesis` did: the balance loop on the store with the
new parameters, the supply and pool loops, and at most a change of the account
list. -/
theorem initGenesis_ok {k : Keeper} {gen : GenesisState} (h : initGenesis k gen s = .ok () s') :
    ∃ total s2, initGenesisBalances (sanitizeGenesisBalances gen.balances)
        { s with params := gen.params } = .ok total s2 ∧
      ∃ total', total.add [] = .ok total' ∧ ∃ s3 s4 s5,
        total'.forM setSupply s2 = .ok () s3 ∧ gen.feeTaxPool.forM setFeeTaxPool s3 = .ok () s4 ∧
        gen.liquidityPool.forM setLiquidityPool s4 = .ok () s5 ∧
        ∃ accounts, s' = { s5 with accounts := accounts } := by
  obtain ⟨_, s1, h1, h⟩ := BankM.bind_eq_ok.1 h
  obtain ⟨total, s2, h2, h⟩ := BankM.bind_eq_ok.1 h
  obtain ⟨_, t3, h3, h⟩ := BankM.bind_eq_ok.1 h
  rw [(BankM.liftPanic_eq_ok.1 h3).2] at h
  obtain ⟨total', t4, h4, h⟩ := BankM.bind_eq_ok.1 h
  rw [(BankM.liftPanic_eq_ok.1 h4).2] at h
  obtain ⟨_, t5, h5, h⟩ := BankM.bind_eq_ok.1 h
  rw [((checkGenesisSupply_keeps (P := (· = s2)) _ _) s2 rfl).1 _ _ h5] at h
  obtain ⟨_, s3, h6, h⟩ := BankM.bind_eq_ok.1 h
  obtain ⟨_, s4, h7, h⟩ := BankM.bind_eq_ok.1 h
  obtain ⟨_, s5, h8, h⟩ := BankM.bind_eq_ok.1 h
  rw [setParams_ok h1] at h2
  refine ⟨total, s2, h2, total', (BankM.liftPanic_eq_ok.1 h4).1, s3, s4, s5, h6, h7, h8, ?_⟩
  exact (checkModuleHoldings_keeps (P := fun t => ∃ accounts, t = { s5 with accounts := accounts })
    (fun t a ⟨_, ht⟩ => ⟨a :: t.accounts, by rw [ht]⟩) k [] s5 ⟨s5.accounts, rfl⟩).1 _ _ h

end DeflationaryBank
