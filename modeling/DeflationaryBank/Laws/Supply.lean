import DeflationaryBank.Laws.Genesis

/-!
# Supply conservation

The supply of a denomination against the sum of its balances over every
address. A transfer that returns nil lowers both by exactly what it burns: the
debit of the sender, the credit of the recipient, the credit of the bank module
account and the burn from it cancel out to the burn portions of the split. The
sum is taken over the stored balance entries, an absent key reading as zero.

`InitGenesis` writes each genesis coin with `Set`, in place of what the address
holds, while it adds every coin into the supply, and `SanitizeGenesisBalances`
sorts the balances without merging them: the two sides agree after genesis
when no address and no denomination of one address occurs twice.
-/

namespace DeflationaryBank

/-- The balances of `denom` summed over every address. -/
def BankState.totalBalance (s : BankState) (denom : String) : Int :=
  s.balances.sumBy fun key v => if key.2 = denom then v else 0

namespace BankState

variable (s : BankState) (d : String)

theorem totalBalance_putBalance (a : AccAddress) (c : Coin) :
    (s.putBalance a c).totalBalance d =
      s.totalBalance d + if c.denom = d then c.amount - s.balanceOf a c.denom else 0 := by
  simp only [totalBalance, putBalance, balanceOf]
  rw [KVStore.sumBy_put _ _ _ _ (by simp)]
  dsimp only
  split_ifs <;> omega

/-- `initBalances` writes with `Set`: on a key that holds nothing it adds. -/
theorem totalBalance_set (key : AccAddress × String) (v : Int) (h0 : s.balances.amount key = 0) :
    { s with balances := s.balances.set key v }.totalBalance d =
      s.totalBalance d + if key.2 = d then v else 0 := by
  simp only [totalBalance, KVStore.sumBy_set]
  rw [KVStore.sumBy_delete s.balances _ key (by simp), h0]
  simp

@[simp] theorem totalBalance_putDenom (w : DenomStore) (c : Coin) :
    (s.putDenom w c).totalBalance d = s.totalBalance d := by
  simp [totalBalance]

@[simp] theorem supplyOf_putBalance (a : AccAddress) (c : Coin) :
    (s.putBalance a c).supplyOf d = s.supplyOf d := rfl

theorem supplyOf_putDenom (w : DenomStore) (c : Coin) :
    (s.putDenom w c).supplyOf d = if w = .supply ∧ d = c.denom then c.amount else s.supplyOf d := by
  cases w <;> simp [supplyOf, putDenom, setDenomStore, KVStore.amount_put]

theorem balanceOf_set_ne {key : AccAddress × String} (v : Int) {a : AccAddress} {x : String}
    (h : (a, x) ≠ key) : { s with balances := s.balances.set key v }.balanceOf a x = s.balanceOf a x := by
  simp only [balanceOf, KVStore.amount, KVStore.get_set_ne _ _ h]

end BankState

/-- No transfer writes the parameters. -/
theorem paramsAre_stable (p : Params) : TransferStable (·.params = p) fun _ => True where
  putBalance _ _ _ h _ _ := by simpa using h
  lowerSupply _ _ h _ _ := by simpa using h
  writeBack _ _ _ h _ := by simpa using h
  account _ _ h := h

/-! ## What each step does to the two sides -/

section Steps

variable {k : Keeper} {s s' : BankState} {addr : AccAddress} (d : String)

/-- A loop over coins whose every iteration moves `Q` by the coin's amount when
it is of `d` moves `Q` by the coins' total of `d`. -/
theorem forM_ok_amountSum {f : Coin → BankM Unit} (Q : BankState → Int)
    (hf : ∀ c t t', f c t = .ok () t' → Q t' = Q t + if c.denom = d then c.amount else 0)
    {amt : Coins} (h : amt.forM f s = .ok () s') : Q s' = Q s + amt.amountSum d :=
  forM_ok_additive Q _ hf amt h

theorem subUnlockedCoin_totals {locked : Coins} {coin : Coin} {u : Unit}
    (h : subUnlockedCoin addr locked coin s = .ok u s') :
    s'.totalBalance d = s.totalBalance d - (if coin.denom = d then coin.amount else 0) ∧
      s'.supplyOf d = s.supplyOf d := by
  obtain ⟨rfl, -⟩ := subUnlockedCoin_ok h
  refine ⟨?_, rfl⟩
  rw [BankState.totalBalance_putBalance]
  dsimp only
  split_ifs <;> omega

theorem addCoin_totals {coin : Coin} {u : Unit} (h : addCoin addr coin s = .ok u s') :
    s'.totalBalance d = s.totalBalance d + (if coin.denom = d then coin.amount else 0) ∧
      s'.supplyOf d = s.supplyOf d := by
  obtain ⟨rfl, -⟩ := addCoin_ok h
  refine ⟨?_, rfl⟩
  rw [BankState.totalBalance_putBalance]
  dsimp only
  split_ifs <;> omega

theorem burnSupply_totals {coin : Coin} {u : Unit} (h : burnSupply coin s = .ok u s') :
    s'.totalBalance d = s.totalBalance d ∧
      s'.supplyOf d = s.supplyOf d - if coin.denom = d then coin.amount else 0 := by
  obtain ⟨rfl, -⟩ := burnSupply_ok h
  refine ⟨by simp, ?_⟩
  by_cases hd : coin.denom = d
  · subst hd; simp [BankState.supplyOf_putDenom]
  · simp [BankState.supplyOf_putDenom, hd, Ne.symm hd]

theorem subUnlockedCoins_totals {amt : Coins} (h : subUnlockedCoins k addr amt s = .ok () s') :
    s'.totalBalance d = s.totalBalance d - amt.amountSum d ∧ s'.supplyOf d = s.supplyOf d := by
  obtain ⟨-, h⟩ := subUnlockedCoins_ok k h
  have hb := forM_ok_amountSum d (fun t => -t.totalBalance d)
    (fun _ _ _ hc => by have := (subUnlockedCoin_totals d hc).1; dsimp only; omega) h
  dsimp only at hb
  exact ⟨by omega, forM_ok_frame (·.supplyOf d) (fun _ _ _ hc => (subUnlockedCoin_totals d hc).2) amt h⟩

theorem addCoins_totals {amt : Coins} (h : addCoins addr amt s = .ok () s') :
    s'.totalBalance d = s.totalBalance d + amt.amountSum d ∧ s'.supplyOf d = s.supplyOf d := by
  obtain ⟨-, h⟩ := addCoins_ok h
  exact ⟨forM_ok_amountSum d (·.totalBalance d) (fun _ _ _ hc => (addCoin_totals d hc).1) h,
    forM_ok_frame (·.supplyOf d) (fun _ _ _ hc => (addCoin_totals d hc).2) amt h⟩

/-- A burn takes its coins off the module account and off the supply alike. -/
theorem burnCoins_totals {name : String} {amounts : Coins} (h : burnCoins k name amounts s = .ok () s') :
    s'.totalBalance d = s.totalBalance d - amounts.amountSum d ∧
      s'.supplyOf d = s.supplyOf d - amounts.amountSum d := by
  obtain ⟨_, -, s1, h1, h2⟩ := burnCoins_ok k h
  have e1 := subUnlockedCoins_totals d h1
  have hs := forM_ok_amountSum d (fun t => -t.supplyOf d)
    (fun _ _ _ hc => by have := (burnSupply_totals d hc).2; dsimp only; omega) h2
  have hb := forM_ok_frame (·.totalBalance d) (fun _ _ _ hc => (burnSupply_totals d hc).1) amounts h2
  dsimp only at hs hb
  omega

theorem createAccountIfMissing_totals {a : AccAddress} {u : Unit}
    (h : createAccountIfMissing a s = .ok u s') :
    s'.totalBalance d = s.totalBalance d ∧ s'.supplyOf d = s.supplyOf d :=
  (createAccountIfMissing_keeps
    (P := fun t => t.totalBalance d = s.totalBalance d ∧ t.supplyOf d = s.supplyOf d)
    (fun _ _ h => h) a s ⟨rfl, rfl⟩).1 _ _ h

end Steps

/-! ## The split -/

/-- The burn portions the split of `amt` computes, one for each taxed coin, in
order: what a transfer of `amt` burns. -/
def burnCoinsOf (params : Params) (fromAddr toAddr : AccAddress) (amt : Coins) : Coins :=
  amt.filterMap fun coin => match taxCoin params fromAddr toAddr coin with
    | .ok (some (_, burnCoin, _, _)) => some burnCoin
    | _ => none

/-- The coins the split of `amt` sends on: each taxed coin replaced by its net. -/
def netCoinsOf (params : Params) (fromAddr toAddr : AccAddress) (amt : Coins) : Coins :=
  amt.map fun coin => match taxCoin params fromAddr toAddr coin with
    | .ok (some (sent, _, _, _)) => sent
    | _ => coin

/-- Each net is below the coin it replaces. -/
theorem netCoinsOf_below (params : Params) (f t : AccAddress) :
    ∀ amt, List.Forall₂ CoinBelow (netCoinsOf params f t amt) amt
  | [] => .nil
  | coin :: rest => by
    refine .cons ?_ (netCoinsOf_below params f t rest)
    rcases h : taxCoin params f t coin with _ | _ | ⟨sent, bc, lc, fc⟩
    all_goals simp only [h]
    · exact CoinBelow.refl coin
    · exact CoinBelow.refl coin
    · obtain ⟨-, -, -, hs, ha, hb, hl, hf, hn⟩ := taxCoin_eq_some h
      exact ⟨hs, by omega, fun _ => hn⟩

section Split

variable {params : Params} {f t : AccAddress} {s s' : BankState}

theorem deflationaryLoop_amt :
    ∀ {amt : Coins} {sp : Split} {s s' : BankState},
      deflationaryLoop params f t amt s = .ok sp s' → sp.amt = netCoinsOf params f t amt
  | [], _, s, s', h => by
    cases h
    rfl
  | coin :: rest, _, s, s', h => by
    obtain ⟨one, s1, h1, h⟩ := BankM.bind_eq_ok.1 h
    obtain ⟨more, s2, h2, h⟩ := BankM.bind_eq_ok.1 h
    cases h
    obtain ⟨r, hr, rfl⟩ := deflationaryCoin_ok h1
    have ih := deflationaryLoop_amt h2
    rcases r with _ | ⟨sent, bc, lc, fc⟩ <;> simp_all [netCoinsOf, Split.ofTax]

theorem deflationaryLoop_burnCoins :
    ∀ {amt : Coins} {sp : Split} {s s' : BankState},
      deflationaryLoop params f t amt s = .ok sp s' → sp.burnCoins = burnCoinsOf params f t amt
  | [], _, s, s', h => by
    cases h
    rfl
  | coin :: rest, _, s, s', h => by
    obtain ⟨one, s1, h1, h⟩ := BankM.bind_eq_ok.1 h
    obtain ⟨more, s2, h2, h⟩ := BankM.bind_eq_ok.1 h
    cases h
    obtain ⟨r, hr, rfl⟩ := deflationaryCoin_ok h1
    have ih := deflationaryLoop_burnCoins h2
    rcases r with _ | ⟨sent, bc, lc, fc⟩ <;> simp_all [burnCoinsOf, Split.ofTax]

/-- No portion of a split is negative. -/
theorem deflationaryLoop_portions_nonneg (d : String) :
    ∀ {amt : Coins} {sp : Split} {s s' : BankState}, deflationaryLoop params f t amt s = .ok sp s' →
      0 ≤ sp.burnCoins.amountSum d ∧ 0 ≤ sp.liquidityCoins.amountSum d ∧
        0 ≤ sp.feeTarCoins.amountSum d
  | [], _, s, s', h => by
    cases h
    simp
  | coin :: rest, _, s, s', h => by
    obtain ⟨one, s1, h1, h⟩ := BankM.bind_eq_ok.1 h
    obtain ⟨more, s2, h2, h⟩ := BankM.bind_eq_ok.1 h
    cases h
    obtain ⟨r, hr, rfl⟩ := deflationaryCoin_ok h1
    have ih := deflationaryLoop_portions_nonneg d h2
    rcases r with _ | ⟨sent, bc, lc, fc⟩
    · simpa [Split.ofTax] using ih
    · obtain ⟨-, -, -, -, -, hb, hl, hf, -⟩ := taxCoin_eq_some hr
      simp only [Split.ofTax, Coins.amountSum_append, Coins.amountSum_cons, Coins.amountSum_nil]
      split_ifs <;> omega

theorem deflationaryLoop_totals (d : String) {amt : Coins} {sp : Split}
    (h : deflationaryLoop params f t amt s = .ok sp s') :
    s'.totalBalance d = s.totalBalance d ∧ s'.supplyOf d = s.supplyOf d :=
  (deflationaryLoop_keeps
    (P := fun u => u.totalBalance d = s.totalBalance d ∧ u.supplyOf d = s.supplyOf d)
    (fun _ _ _ hu hw => by simpa [BankState.supplyOf_putDenom, hw] using hu) params f t amt s
    ⟨rfl, rfl⟩).1 _ _ h

/-- The split moves the portions off the coins sent on: the module account
gains the liquidity and fee-tax portions, and the burn portions leave the
balances and the supply together. -/
theorem deflationaryCoins_totals (d : String) {k : Keeper} {amt sent : Coins}
    (h : deflationaryCoins k f t amt s = .ok sent s') :
    s'.totalBalance d = s.totalBalance d + amt.amountSum d - sent.amountSum d -
        (burnCoinsOf s.params f t amt).amountSum d ∧
      s'.supplyOf d = s.supplyOf d - (burnCoinsOf s.params f t amt).amountSum d := by
  unfold deflationaryCoins at h
  rw [getParams_bind] at h
  obtain ⟨sp, s1, h1, h⟩ := BankM.bind_eq_ok.1 h
  have e1 := deflationaryLoop_totals d h1
  have hbal := deflationaryLoop_balanced h1 d
  have hnn := deflationaryLoop_portions_nonneg d h1
  rw [← deflationaryLoop_burnCoins h1]
  rcases hacc : k.getModuleAccount moduleName with _ | acc <;> simp only [hacc] at h
  · cases h
  obtain ⟨total, htot, h⟩ := liftPanic_bind_eq_ok.1 h
  obtain ⟨bl, hbl, hbf⟩ := except_bind_eq_ok.1 htot
  have ht : total.amountSum d = sp.burnCoins.amountSum d + sp.liquidityCoins.amountSum d +
      sp.feeTarCoins.amountSum d := by
    rw [Coins.amountSum_add hbf, Coins.amountSum_add hbl]
  split at h
  · rename_i hz
    cases h
    have := Coins.amountSum_of_isZero hz d
    omega
  · obtain ⟨_, s2, h2, h⟩ := BankM.bind_eq_ok.1 h
    have e2 := addCoins_totals d h2
    split at h
    · rename_i hz
      cases h
      have := Coins.amountSum_of_isZero hz d
      omega
    · obtain ⟨_, s3, h3, h⟩ := BankM.bind_eq_ok.1 h
      cases h
      have e3 := burnCoins_totals d h3
      omega

end Split

/-! ## Transfers -/

section Transfers

variable {k : Keeper} {s s' : BankState} (d : String)

/-- `SendCoins` lowers the balances and the supply by what it burns. -/
theorem sendCoins_totals {f t : AccAddress} {amt : Coins} (h : sendCoins k f t amt s = .ok () s') :
    s'.totalBalance d = s.totalBalance d - (burnCoinsOf s.params f t amt).amountSum d ∧
      s'.supplyOf d = s.supplyOf d - (burnCoinsOf s.params f t amt).amountSum d := by
  obtain ⟨_, s1, h1, h⟩ := BankM.bind_eq_ok.1 h
  obtain ⟨sent, s2, h2, h⟩ := BankM.bind_eq_ok.1 h
  obtain ⟨_, s3, h3, h4⟩ := BankM.bind_eq_ok.1 h
  have hp : s1.params = s.params :=
    ((subUnlockedCoins_keeps (paramsAre_stable _) k trivial amt) s rfl).1 _ _ h1
  have e1 := subUnlockedCoins_totals d h1
  have e2 := deflationaryCoins_totals d h2
  have e3 := addCoins_totals d h3
  have e4 := createAccountIfMissing_totals d h4
  rw [hp] at e2
  omega

/-! ### Comparing coin lists -/

/-- `Coin.IsEqual` answers true only on equal coins. -/
theorem Coin.isEqual_eq_ok_true {c d : Coin} (h : c.isEqual d = .ok true) : c = d := by
  unfold Coin.isEqual at h
  split_ifs at h with hd
  cases c; cases d
  simp only [Except.ok.injEq, decide_eq_true_eq] at h hd
  rw [not_not] at hd
  rw [hd, h]

/-- The element loop of `Coins.IsEqual` on lists of one length answers true only
on equal lists. -/
theorem Coins.isEqualPairs_eq_true : ∀ {l₁ l₂ : Coins}, l₁.length = l₂.length →
    Coins.isEqualPairs l₁ l₂ = .ok true → l₁ = l₂
  | [], [], _, _ => rfl
  | c :: cs, d :: ds, hl, h => by
    simp only [Coins.isEqualPairs] at h
    rcases hcd : c.isEqual d with _ | b
    · rw [hcd] at h
      cases h
    · rw [hcd] at h
      cases b
      · cases h
      · rw [Coin.isEqual_eq_ok_true hcd, Coins.isEqualPairs_eq_true (Nat.succ.inj hl) h]

theorem Coins.amountSum_sort (l : Coins) (d : String) : l.sort.amountSum d = l.amountSum d :=
  ((List.perm_insertionSort _ l).map _).sum_eq

/-- `Coins.IsEqual` answers true only on lists of equal totals. -/
theorem Coins.amountSum_of_isEqual {l₁ l₂ : Coins} (h : l₁.isEqual l₂ = .ok true) (d : String) :
    l₁.amountSum d = l₂.amountSum d := by
  unfold Coins.isEqual at h
  split_ifs at h with hl
  · cases h
  · have := Coins.isEqualPairs_eq_true
      (by simp only [Coins.sort, List.length_insertionSort]; exact not_not.1 hl) h
    rw [← Coins.amountSum_sort, this, Coins.amountSum_sort]

/-! ### The multi-send -/

/-- The sum a validation fold of `ValidateInputsOutputs` returns: the coins of
every element added, with nothing written. -/
theorem foldlM_validateBasic_ok {β : Type} (address : β → String) (coins : β → Coins) {xs : List β}
    {total : Coins}
    (h : List.foldlM (fun (total : Coins) x => (do
      validateBasic (address x) (coins x)
      BankM.liftPanic (total.add (coins x)) : BankM Coins)) [] xs s = .ok total s') :
    s' = s ∧ ∀ d, total.amountSum d = (xs.map fun x => (coins x).amountSum d).sum := by
  have := foldlM_ok_inv (fun acc rest u => u = s ∧ ∀ d, acc.amountSum d +
      (rest.map fun x => (coins x).amountSum d).sum = (xs.map fun x => (coins x).amountSum d).sum)
    (fun acc x rest u acc' u' ⟨hu, hi⟩ hx => by
      obtain ⟨_, u1, h1, h2⟩ := BankM.bind_eq_ok.1 hx
      have hv : Keeps (· = u) (validateBasic (address x) (coins x)) :=
        (parseAddress_keeps _).bind fun _ =>
          Keeps.ite (Keeps.throw _) (Keeps.ite (Keeps.throw _) (Keeps.pure _))
      obtain ⟨hadd, rfl⟩ := BankM.liftPanic_eq_ok.1 h2
      refine ⟨((hv u rfl).1 _ _ h1).trans hu, fun d => ?_⟩
      rw [← hi d, Coins.amountSum_add hadd, List.map_cons, List.sum_cons]
      omega)
    ⟨rfl, fun d => by simp⟩ h
  exact ⟨this.1, fun d => by simpa using this.2 d⟩

/-- A multi-send that passes validation has inputs and outputs of equal totals
in every denomination, the outputs read from the caller's memory, and has
written nothing. -/
theorem validateInputsOutputs_ok {inputs : List Input} {outputs : List Output} {mem : List Coin}
    {u : Unit} (h : validateInputsOutputs inputs outputs mem s = .ok u s') :
    s' = s ∧ ∀ d, (inputs.map fun i => i.coins.amountSum d).sum =
      (outputs.map fun o => (o.coins.read mem).amountSum d).sum := by
  obtain ⟨tin, s1, h1, h2⟩ := BankM.bind_eq_ok.1 h
  obtain ⟨tout, s2, h3, h4⟩ := BankM.bind_eq_ok.1 h2
  obtain ⟨rfl, hin⟩ := foldlM_validateBasic_ok Input.address Input.coins h1
  obtain ⟨rfl, hout⟩ := foldlM_validateBasic_ok Output.address (fun o => o.coins.read mem) h3
  obtain ⟨eq, heq, hcmp⟩ := liftPanic_bind_eq_ok.1 h4
  cases eq
  · cases hcmp
  · cases hcmp
    exact ⟨rfl, fun d => by rw [← hin, ← hout, Coins.amountSum_of_isEqual heq]⟩

/-- The coins each output of a multi-send splits, with the output: what its
slice holds when the output is reached, after the nets the outputs before it
wrote back into the caller's memory. -/
def outputReads (params : Params) : List Output → List Coin → List (Output × Coins)
  | [], _ => []
  | o :: os, mem => (o, o.coins.read mem) ::
    outputReads params os (o.coins.write mem (netCoinsOf params "" o.address (o.coins.read mem)))

theorem outputReads_fst (params : Params) :
    ∀ (outputs : List Output) (mem : List Coin), (outputReads params outputs mem).map Prod.fst = outputs
  | [], _ => rfl
  | o :: os, mem => by rw [outputReads, List.map_cons, outputReads_fst params os]

/-- Every output splits coins below those its slice held when the call began. -/
theorem outputReads_below (params : Params) :
    ∀ (outputs : List Output) {mem₀ mem : List Coin}, List.Forall₂ CoinBelow mem mem₀ →
      ∀ x ∈ outputReads params outputs mem, List.Forall₂ CoinBelow x.2 (x.1.coins.read mem₀)
  | [], _, _, _, x, hx => by cases hx
  | o :: os, _, mem, h, x, hx => by
    rcases List.mem_cons.1 hx with rfl | hx
    · exact o.coins.read_forall₂ h
    · exact outputReads_below params os (forall₂_coinBelow_trans
        (CoinSlice.write_forall₂ (netCoinsOf_below _ _ _ _)) h) x hx

/-- One output of a multi-send: the coins its slice holds credited less what
their split burns, and the nets written back. -/
theorem outputCoins_totals {out : Output} {mem mem' : List Coin}
    (h : outputCoins k mem out s = .ok mem' s') :
    s'.totalBalance d = s.totalBalance d + (out.coins.read mem).amountSum d -
        (burnCoinsOf s.params "" out.address (out.coins.read mem)).amountSum d ∧
      s'.supplyOf d = s.supplyOf d -
        (burnCoinsOf s.params "" out.address (out.coins.read mem)).amountSum d ∧
      s'.params = s.params ∧
      mem' = out.coins.write mem (netCoinsOf s.params "" out.address (out.coins.read mem)) := by
  obtain ⟨a, s1, h1, hsend⟩ := BankM.bind_eq_ok.1 h
  obtain ⟨rfl, rfl⟩ := parseAddress_ok h1
  obtain ⟨sent, s2, h2, hadd⟩ := BankM.bind_eq_ok.1 hsend
  obtain ⟨_, s3, h3, hrest⟩ := BankM.bind_eq_ok.1 hadd
  obtain ⟨_, s4, h4, h5⟩ := BankM.bind_eq_ok.1 hrest
  cases h5
  obtain ⟨sp, _, hloop, rfl⟩ := deflationaryCoins_sent h2
  have e2 := deflationaryCoins_totals d h2
  have e3 := addCoins_totals d h3
  have e4 := createAccountIfMissing_totals d h4
  have hp := (((deflationaryCoins_keeps (paramsAre_stable _) k (fun _ _ => trivial) _ _ _).bind
    fun _ => (addCoins_keeps (paramsAre_stable _) trivial _).bind fun _ =>
      createAccountIfMissing_keeps (paramsAre_stable _).account _) s1 rfl).1 _ _
    (BankM.bind_eq_ok.2 ⟨_, _, h2, BankM.bind_eq_ok.2 ⟨_, _, h3, h4⟩⟩)
  exact ⟨by omega, by omega, hp, by rw [deflationaryLoop_amt hloop]⟩

theorem outputs_totals :
    ∀ {outputs : List Output} {mem mem' : List Coin} {s s' : BankState},
      outputs.foldlM (outputCoins k) mem s = .ok mem' s' →
      s'.totalBalance d = s.totalBalance d + ((outputReads s.params outputs mem).map fun x =>
          x.2.amountSum d).sum - ((outputReads s.params outputs mem).map fun x =>
          (burnCoinsOf s.params "" x.1.address x.2).amountSum d).sum ∧
        s'.supplyOf d = s.supplyOf d - ((outputReads s.params outputs mem).map fun x =>
          (burnCoinsOf s.params "" x.1.address x.2).amountSum d).sum ∧
        s'.params = s.params
  | [], mem, mem', s, s', h => by
    cases h
    simp [outputReads]
  | o :: os, mem, mem', s, s', h => by
    rw [List.foldlM_cons] at h
    obtain ⟨m1, s1, h1, h2⟩ := BankM.bind_eq_ok.1 h
    obtain ⟨e1, f1, p1, rfl⟩ := outputCoins_totals d h1
    obtain ⟨e2, f2, p2⟩ := outputs_totals h2
    rw [p1] at e2 f2
    simp only [outputReads, List.map_cons, List.sum_cons]
    exact ⟨by omega, by omega, p2.trans p1⟩

/-- One input of a multi-send: its address decoded and its coins debited. -/
theorem inputCoins_totals {i : Input} {u : Unit}
    (h : (do
      let inAddress ← parseAddress i.address
      subUnlockedCoins k inAddress i.coins : BankM Unit) s = .ok u s') :
    s'.totalBalance d = s.totalBalance d - i.coins.amountSum d ∧ s'.supplyOf d = s.supplyOf d ∧
      s'.params = s.params := by
  obtain ⟨_, s1, ha, hs⟩ := BankM.bind_eq_ok.1 h
  obtain ⟨-, rfl⟩ := parseAddress_ok ha
  obtain ⟨e1, f1⟩ := subUnlockedCoins_totals d hs
  exact ⟨e1, f1, ((subUnlockedCoins_keeps (paramsAre_stable _) k trivial _) s1 rfl).1 _ _ hs⟩

/-- The input loop of a multi-send debits every input's coins. -/
theorem inputs_totals {inputs : List Input} {u : Unit}
    (h : (inputs.forM fun input => do
      let inAddress ← parseAddress input.address
      subUnlockedCoins k inAddress input.coins : BankM Unit) s = .ok u s') :
    s'.totalBalance d = s.totalBalance d - (inputs.map fun i => i.coins.amountSum d).sum ∧
      s'.supplyOf d = s.supplyOf d ∧ s'.params = s.params := by
  cases u
  have hb := forM_ok_additive (fun t => -t.totalBalance d) (fun i : Input => i.coins.amountSum d)
    (fun i t t' hi => by have := (inputCoins_totals d hi).1; dsimp only; omega) inputs h
  have hs := forM_ok_frame (fun t => (t.supplyOf d, t.params))
    (fun i t t' hi => Prod.ext (inputCoins_totals d hi).2.1 (inputCoins_totals d hi).2.2) inputs h
  simp only [Prod.mk.injEq] at hb hs
  exact ⟨by omega, hs⟩

/-- `InputOutputCoins` debits what its outputs hold when it is called, then
credits each output the coins it reads less what their split burns. -/
theorem inputOutputCoins_totals {inputs : List Input} {outputs : List Output} {mem mem' : List Coin}
    (h : inputOutputCoins k inputs outputs mem s = .ok mem' s') :
    s'.totalBalance d = s.totalBalance d - (outputs.map fun o => (o.coins.read mem).amountSum d).sum +
        ((outputReads s.params outputs mem).map fun x => x.2.amountSum d).sum -
        ((outputReads s.params outputs mem).map fun x =>
          (burnCoinsOf s.params "" x.1.address x.2).amountSum d).sum ∧
      s'.supplyOf d = s.supplyOf d - ((outputReads s.params outputs mem).map fun x =>
          (burnCoinsOf s.params "" x.1.address x.2).amountSum d).sum := by
  obtain ⟨_, s1, h1, h⟩ := BankM.bind_eq_ok.1 h
  obtain ⟨_, s2, h2, h3⟩ := BankM.bind_eq_ok.1 h
  obtain ⟨rfl, hio⟩ := validateInputsOutputs_ok h1
  obtain ⟨e2, f2, p2⟩ := inputs_totals d h2
  obtain ⟨e3, f3, -⟩ := outputs_totals d h3
  rw [p2] at e3 f3
  have := hio d
  exact ⟨by omega, by omega⟩

end Transfers

/-- What a transfer burns of `denom`: the burn portions of its split; a
multi-send splits the coins each output reads, as sent from the empty address. -/
def Call.burnt (params : Params) (denom : String) : Call → Int
  | .sendCoins fromAddr toAddr amt => (burnCoinsOf params fromAddr toAddr amt).amountSum denom
  | .inputOutputCoins _ outputs mem => ((outputReads params outputs mem).map fun x =>
      (burnCoinsOf params "" x.1.address x.2).amountSum denom).sum

/-- What the write-backs of a multi-send take out of its later outputs: the
coins its outputs hold when it is called, which its inputs pay, less the coins
they read when they are reached. -/
def Call.lost (params : Params) (denom : String) : Call → Int
  | .sendCoins .. => 0
  | .inputOutputCoins _ outputs mem =>
    (outputs.map fun o => (o.coins.read mem).amountSum denom).sum -
      ((outputReads params outputs mem).map fun x => x.2.amountSum denom).sum

/-- A sum over the outputs, taken over what `outputReads` pairs them with. -/
theorem sum_map_outputReads (params : Params) (outputs : List Output) (mem : List Coin)
    (f : Output → Int) :
    (outputs.map f).sum = ((outputReads params outputs mem).map fun x => f x.1).sum := by
  conv_lhs => rw [← outputReads_fst params outputs mem, List.map_map]
  rfl

theorem Call.lost_nonneg (params : Params) (denom : String) : ∀ c : Call, 0 ≤ c.lost params denom
  | .sendCoins .. => le_rfl
  | .inputOutputCoins _ outputs mem => by
    rw [Call.lost, sub_nonneg, sum_map_outputReads params outputs mem]
    exact List.sum_le_sum fun x hx => Coins.amountSum_le_of_forall₂
      (outputReads_below params outputs (List.forall₂_same.2 fun c _ => CoinBelow.refl c) x hx) denom

/-- Every transfer that returns nil lowers the supply of each denomination by
exactly what it burns, and the balances by that and what its write-backs took
from its later outputs. -/
theorem Call.run_totals {k : Keeper} {s s' : BankState} (c : Call) (h : c.run k s = .ok () s')
    (d : String) :
    s'.totalBalance d = s.totalBalance d - c.burnt s.params d - c.lost s.params d ∧
      s'.supplyOf d = s.supplyOf d - c.burnt s.params d := by
  cases c with
  | sendCoins f t amt =>
    have := sendCoins_totals d h
    exact ⟨by simp only [Call.burnt, Call.lost]; omega, this.2⟩
  | inputOutputCoins inputs outputs mem =>
    obtain ⟨mem', h⟩ := Call.run_inputOutputCoins.1 h
    obtain ⟨e, f⟩ := inputOutputCoins_totals d h
    exact ⟨by rw [Call.burnt, Call.lost]; omega, f⟩

/-! ## Genesis -/

section Genesis

/-- `initBalances` on keys that hold nothing, for coins of distinct
denominations: it adds the coins to the balances of the address, and touches no
other address and not the supply. -/
theorem initBalances_totals {a : AccAddress} :
    ∀ {coins : Coins} {s s' : BankState}, coins.Sorted →
      (∀ c ∈ coins, s.balanceOf a c.denom = 0) → initBalances a coins s = .ok () s' →
      (∀ d, s'.totalBalance d = s.totalBalance d + coins.amountSum d) ∧ s'.supply = s.supply ∧
        ∀ a' x, a' ≠ a → s'.balanceOf a' x = s.balanceOf a' x
  | [], s, s', _, _, h => by
    cases h
    simp
  | c :: cs, s, s', hs, h0, h => by
    unfold initBalances at h
    rw [forM_cons'] at h
    obtain ⟨_, s1, h1, h2⟩ := BankM.bind_eq_ok.1 h
    have e1 : (∀ d, s1.totalBalance d = s.totalBalance d + if c.denom = d then c.amount else 0) ∧
        s1.supply = s.supply ∧
        ∀ a' x, (a', x) ≠ (a, c.denom) → s1.balanceOf a' x = s.balanceOf a' x := by
      split at h1
      · cases h1
      · split at h1
        · cases h1
          exact ⟨fun d => BankState.totalBalance_set _ _ _ _ (h0 c (List.mem_cons_self _ _)), rfl,
            fun _ _ hne => BankState.balanceOf_set_ne _ _ hne⟩
        · rename_i hz
          cases h1
          simp only [Coin.isZero, Bool.not_eq_true', Bool.not_eq_false, decide_eq_true_eq] at hz
          exact ⟨fun d => by simp [hz], rfl, fun _ _ _ => rfl⟩
    obtain ⟨hlt, hs'⟩ := List.pairwise_cons.1 hs
    obtain ⟨e2, f2, g2⟩ := initBalances_totals hs' (fun c' hc' => by
      rw [e1.2.2 _ _ fun he => stringLt_ne (hlt c' hc') (congrArg Prod.snd he).symm]
      exact h0 c' (List.mem_cons_of_mem _ hc')) h2
    refine ⟨fun d => ?_, f2.trans e1.2.1, fun a' x ha => ?_⟩
    · rw [e2, e1.1, Coins.amountSum_cons]
      omega
    · rw [g2 a' x ha, e1.2.2 _ _ fun he => ha (congrArg Prod.fst he)]

/-- The balance loop of `InitGenesis` on distinct addresses, each with coins of
distinct denominations: it adds every coin to the balances, and the total it
returns is ordered and holds every coin. -/
theorem initGenesisBalances_totals {balances : List Balance} {total : Coins} {s s' : BankState}
    (hnd : (balances.map (·.address)).Nodup) (hs : ∀ b ∈ balances, b.coins.Sorted)
    (h0 : ∀ b ∈ balances, ∀ c ∈ b.coins, s.balanceOf b.address c.denom = 0)
    (h : initGenesisBalances balances s = .ok total s') :
    total.Sorted ∧ (∀ d, s'.totalBalance d = s.totalBalance d + total.amountSum d) ∧
      s'.supply = s.supply := by
  have := foldlM_ok_inv (fun acc rest t => acc.Sorted ∧
      (∀ d, t.totalBalance d = s.totalBalance d + acc.amountSum d) ∧ t.supply = s.supply ∧
      (rest.map (·.address)).Nodup ∧ (∀ b ∈ rest, b.coins.Sorted) ∧
      ∀ b ∈ rest, ∀ c ∈ b.coins, t.balanceOf b.address c.denom = 0)
    (fun acc b rest t acc' t' ⟨hacc, htb, hsup, hnd, hs, h0⟩ hb => by
      obtain ⟨hinit, hadd⟩ := initGenesisBalance_ok hb
      simp only [List.map_cons, List.nodup_cons, List.mem_map, List.mem_cons,
        forall_eq_or_imp] at hnd hs h0
      obtain ⟨e1, e2, e3⟩ := initBalances_totals hs.1 h0.1 hinit
      refine ⟨Coins.safeAdd_sorted _ _ hadd hacc hs.1, fun d => ?_, e2.trans hsup, hnd.2, hs.2,
        fun b' hb' c hc => ?_⟩
      · rw [e1 d, htb d, Coins.amountSum_add hadd d]
        omega
      · rw [e3 _ _ fun he => hnd.1 ⟨b', hb', he⟩]
        exact h0.2 b' hb' c hc)
    ⟨List.Pairwise.nil, fun d => by simp, rfl, hnd, hs, h0⟩ h
  exact ⟨this.1, this.2.1, this.2.2.1⟩

/-- Writing coins of distinct denominations into a denomination store whose
keys for them hold nothing adds them in. -/
theorem forM_setDenomCoin_amount (w : DenomStore) :
    ∀ {coins : Coins} {s s' : BankState}, (coins.map (·.denom)).Nodup →
      (∀ c ∈ coins, (s.denomStore w).amount c.denom = 0) →
      coins.forM (setDenomCoin w) s = .ok () s' →
      ∀ d, (s'.denomStore w).amount d = (s.denomStore w).amount d + coins.amountSum d
  | [], s, s', _, _, h, d => by
    cases h
    simp
  | c :: cs, s, s', hnd, h0, h, d => by
    rw [forM_cons'] at h
    obtain ⟨_, s1, h1, h2⟩ := BankM.bind_eq_ok.1 h
    cases h1
    simp only [List.map_cons, List.nodup_cons, List.mem_map] at hnd
    have ih := forM_setDenomCoin_amount w hnd.2 (fun c' hc' => by
      rw [BankState.denomStore_putDenom, if_pos rfl,
        KVStore.amount_put_ne _ _ fun he => hnd.1 ⟨c', hc', he⟩]
      exact h0 c' (List.mem_cons_of_mem _ hc')) h2 d
    rw [ih, BankState.denomStore_putDenom, if_pos rfl, KVStore.amount_put, Coins.amountSum_cons]
    by_cases hd : d = c.denom
    · subst hd
      simp [h0 c (List.mem_cons_self _ _)]
    · simp [hd, Ne.symm hd]

/-- The pool loops of `InitGenesis` write neither a balance nor the supply. -/
theorem forM_setDenomCoin_totals {w : DenomStore} (hw : w ≠ .supply) {coins : Coins}
    {s s' : BankState} (h : coins.forM (setDenomCoin w) s = .ok () s') (d : String) :
    s'.totalBalance d = s.totalBalance d ∧ s'.supplyOf d = s.supplyOf d := by
  have := forM_ok_frame (fun t => (t.totalBalance d, t.supplyOf d)) (fun c t t' hc => by
    cases hc
    simp [BankState.supplyOf_putDenom, hw]) coins h
  simpa using this

/-- No address occurs twice among the genesis balances, and the coins of each
are in strictly increasing denomination order, as in a valid coin list. -/
def GenesisDistinct (gen : GenesisState) : Prop :=
  (gen.balances.map (·.address)).Nodup ∧ ∀ b ∈ gen.balances, b.coins.Sorted

instance genesisDistinctDecidable (gen : GenesisState) : Decidable (GenesisDistinct gen) :=
  inferInstanceAs (Decidable ((gen.balances.map fun b : Balance => b.address).Nodup ∧ ∀ b ∈ gen.balances,
    b.coins.Pairwise fun c c' : Coin => stringLt c.denom c'.denom = true))

/-- After `InitGenesis` of distinct balances the supply of every denomination
and the sum of its balances are both the total the balance loop returned. -/
theorem initGenesis_supply_totals {k : Keeper} {gen : GenesisState} {s : BankState}
    (hg : GenesisDistinct gen) (h : initGenesis k gen BankState.empty = .ok () s) :
    ∃ total s2, initGenesisBalances (sanitizeGenesisBalances gen.balances)
        { BankState.empty with params := gen.params } = .ok total s2 ∧ total.Sorted ∧
      ∀ d, s.supplyOf d = total.amountSum d ∧ s.totalBalance d = total.amountSum d := by
  obtain ⟨total, s2, h2, total', h3, s3, s4, s5, h6, h7, h8, accounts, rfl⟩ := initGenesis_ok h
  obtain ⟨hsort, htb, hsup⟩ := initGenesisBalances_totals
    ((sanitizeGenesisBalances_addresses _).nodup_iff.2 hg.1)
    (fun b hb => hg.2 b ((sanitizeGenesisBalances_perm _).subset hb))
    (fun _ _ _ _ => by rfl) h2
  refine ⟨total, s2, h2, hsort, fun d => ?_⟩
  have h0 : BankState.empty.supply.amount d = 0 := rfl
  have hb0 : ({ BankState.empty with params := gen.params } : BankState).totalBalance d = 0 := rfl
  have hs3 : s3.supplyOf d = total.amountSum d := by
    have := forM_setDenomCoin_amount .supply
      (Coins.safeAdd_sorted _ _ h3 hsort List.Pairwise.nil).nodup_denoms
      (fun c _ => by rw [BankState.denomStore_supply, hsup]; rfl) h6 d
    rw [BankState.denomStore_supply, BankState.denomStore_supply, hsup, Coins.amountSum_add h3] at this
    simpa [h0] using this
  have htb3 := forM_ok_frame (·.totalBalance d) (fun c t t' hc => by cases hc; simp) total' h6
  dsimp only at htb3
  obtain ⟨e7, f7⟩ := forM_setDenomCoin_totals DenomStore.noConfusion h7 d
  obtain ⟨e8, f8⟩ := forM_setDenomCoin_totals DenomStore.noConfusion h8 d
  show s5.supplyOf d = _ ∧ s5.totalBalance d = _
  rw [f8, f7, hs3, e8, e7, htb3, htb d, hb0, zero_add]
  exact ⟨rfl, rfl⟩

end Genesis

end DeflationaryBank
