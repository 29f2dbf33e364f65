import DeflationaryBank.Laws.Ledger

/-!
# Locked coins

`subUnlockedCoins` lets an address spend only what its balance holds beyond its
locked coins, `LockedCoins` of the account keeper: the spendable amount is the
balance less the locked amount (a panic when the lock exceeds the balance), and
`SafeSub` of the coin from it must not go negative.

Over whole calls this gives two laws. A transfer that returns nil had every
amount it debited spendable: for a multi-send, the inputs of one address summed.
And no transfer, whether it returns nil or an error, takes a balance that
covers its locked coins below them: every debit passed the check, and every
other write of a balance is a credit of a valid coin.
-/

namespace DeflationaryBank

/-- `SafeSub` of one coin from another of its denomination reports a negative
difference exactly when the subtrahend is the larger. -/
theorem Coins.safeSub_single {a b : Coin} {diff : Coins} {neg : Bool}
    (h : Coins.safeSub [a] [b] = .ok (diff, neg)) (hd : a.denom = b.denom) : neg = decide (a.amount < b.amount) := by
  simp only [Coins.safeSub, Coins.negative, List.map, Coins.safeAdd, Coins.safeAddFrom, hd,
    stringLt_irrefl] at h
  simp at h
  obtain ⟨r, hr, h⟩ := except_bind_eq_ok.1 h
  obtain ⟨-, -, rfl⟩ := Coin.add_eq_ok_iff.1 hr
  cases h
  unfold Coins.consNonZero
  split_ifs with hz
  · simp only [Coin.isZero, decide_eq_true_eq] at hz
    simp [Coins.isAnyNegative, Coins.removeZeroCoins]
    omega
  · simp [Coins.isAnyNegative, Coin.isNegative, Coins.removeZeroCoins]

/-! ## The funds check -/

section Debit

variable {k : Keeper} {s s' : BankState} {addr : AccAddress} {u : Unit}

/-- One coin is debited only when the balance covers it on top of the locked
amount of its denomination. -/
theorem subUnlockedCoin_covered {locked : Coins} {coin : Coin}
    (h : subUnlockedCoin addr locked coin s = .ok u s') :
    coin.amount + locked.amountOf coin.denom ≤ s.balanceOf addr coin.denom := by
  simp only [subUnlockedCoin, getBalance_bind, liftPanic_bind_eq_ok] at h
  obtain ⟨lc, hlc, sp, hsp, ⟨diff, neg⟩, hss, h⟩ := h
  obtain ⟨-, -, rfl⟩ := newCoin_eq_ok.1 hlc
  obtain ⟨-, -, -, rfl⟩ := Coin.sub_eq_ok.1 hsp
  have hneg := Coins.safeSub_single hss rfl
  cases neg
  · simp only [Bool.false_eq, decide_eq_false_iff_not, Int.not_lt] at hneg
    omega
  · simp at h

/-- The debit loop over distinct denominations debits each denomination only
when the balance covers its total on top of the locked amount. -/
theorem forM_subUnlockedCoin_within {locked : Coins} :
    ∀ {amt : Coins} {s s' : BankState}, (amt.map (·.denom)).Nodup →
      amt.forM (subUnlockedCoin addr locked) s = .ok () s' →
      ∀ d, 0 < amt.amountSum d → amt.amountSum d + locked.amountOf d ≤ s.balanceOf addr d
  | [], _, _, _, _, d, hd => by simp at hd
  | c :: cs, s, s', hnd, h, d, hd => by
    rw [forM_cons'] at h
    obtain ⟨_, s1, h1, h2⟩ := BankM.bind_eq_ok.1 h
    simp only [List.map_cons, List.nodup_cons, List.mem_map] at hnd
    rw [Coins.amountSum_cons] at hd ⊢
    by_cases hcd : c.denom = d
    · subst hcd
      rw [if_pos rfl, Coins.amountSum_eq_zero fun x hx he => hnd.1 ⟨x, hx, he⟩, Int.add_zero]
      exact subUnlockedCoin_covered h1
    · rw [if_neg hcd, Int.zero_add] at hd ⊢
      have hs1 : s1.balanceOf addr d = s.balanceOf addr d := by
        rw [(subUnlockedCoin_ok h1).1]
        simp [BankState.balanceOf, BankState.putBalance, KVStore.amount_put, Ne.symm hcd]
      exact hs1 ▸ forM_subUnlockedCoin_within hnd.2 h2 d hd

/-- `subUnlockedCoins` that returns debited, in every denomination, no more than
the balance holds beyond the locked coins. -/
theorem subUnlockedCoins_within {amt : Coins} (h : subUnlockedCoins k addr amt s = .ok () s') (d : String)
    (hd : 0 < amt.amountSum d) : amt.amountSum d + (k.lockedCoins addr).amountOf d ≤ s.balanceOf addr d := by
  obtain ⟨hv, h⟩ := subUnlockedCoins_ok k h
  exact forM_subUnlockedCoin_within ((Coins.isValid_iff amt).1 hv).2.nodup_denoms h d hd

/-- A loop that debits the coins of each input from its address debits, per
address and denomination, no more in total than the balance held beyond the
locked coins before the loop. -/
theorem forM_inputs_within {f : Input → BankM Unit}
    (hf : ∀ i t t', f i t = .ok () t' → subUnlockedCoins k i.address i.coins t = .ok () t') :
    ∀ {inputs : List Input} {s s' : BankState}, inputs.forM f s = .ok () s' → ∀ a d,
      0 < (inputs.map fun i => if i.address = a then i.coins.amountSum d else 0).sum →
      (inputs.map fun i => if i.address = a then i.coins.amountSum d else 0).sum +
        (k.lockedCoins a).amountOf d ≤ s.balanceOf a d
  | [], _, _, _, a, d, hT => by simp at hT
  | i :: rest, s, s', h, a, d, hT => by
    rw [forM_cons'] at h
    obtain ⟨_, s1, h1, h2⟩ := BankM.bind_eq_ok.1 h
    have hs := hf i s s1 h1
    have e : s1.balanceOf a d = s.balanceOf a d - if a = i.address then i.coins.amountSum d else 0 :=
      congrArg (fun L => L.balance a d) (subUnlockedCoins_ledger hs)
    simp only [List.map_cons, List.sum_cons] at hT ⊢
    by_cases hr : 0 < (rest.map fun i => if i.address = a then i.coins.amountSum d else 0).sum
    · have := forM_inputs_within hf h2 a d hr
      by_cases ha : i.address = a
      · simp only [ha, if_true] at e ⊢
        omega
      · simp only [ha, Ne.symm ha, if_false] at e ⊢
        omega
    · by_cases ha : i.address = a
      · subst ha
        simp only [if_true] at hT ⊢
        have := subUnlockedCoins_within hs d (by omega)
        omega
      · simp only [ha, if_false] at hT
        omega

end Debit

/-! ## Locked coins stay covered -/

/-- The balance of `a` in `d` covers the coins of `d` locked for `a`. -/
def LockedCovered (k : Keeper) (a : AccAddress) (d : String) (s : BankState) : Prop :=
  (k.lockedCoins a).amountOf d ≤ s.balanceOf a d

section Covered

variable {k : Keeper} {a : AccAddress} {d : String}

/-- Writes that leave the balances alone keep the cover. -/
theorem lockedCovered_of_balances {t t' : BankState} (h : t'.balances = t.balances)
    (ht : LockedCovered k a d t) : LockedCovered k a d t' := by
  unfold LockedCovered BankState.balanceOf at *
  rwa [h]

/-- A balance write keeps the cover when, at the covered key, it writes an
amount that covers the locked coins. -/
theorem LockedCovered.putBalance {t : BankState} (ht : LockedCovered k a d t) (addr : AccAddress)
    (c : Coin) (hc : addr = a → c.denom = d → (k.lockedCoins a).amountOf d ≤ c.amount) :
    LockedCovered k a d (t.putBalance addr c) := by
  unfold LockedCovered BankState.balanceOf at *
  rw [BankState.putBalance, KVStore.amount_put]
  split_ifs with hk
  · obtain ⟨rfl, rfl⟩ := Prod.mk.inj hk
    exact hc rfl rfl
  · exact ht

theorem subUnlockedCoin_keeps_covered (addr : AccAddress) (coin : Coin) :
    Keeps (LockedCovered k a d) (subUnlockedCoin addr (k.lockedCoins addr) coin) := fun s hs =>
  ⟨fun _ _ h => by
    have hc := subUnlockedCoin_covered h
    rw [(subUnlockedCoin_ok h).1]
    refine hs.putBalance _ _ fun ha hd => ?_
    subst ha hd
    dsimp only
    omega,
   fun _ _ h => by rw [subUnlockedCoin_err h]; exact hs⟩

theorem subUnlockedCoins_keeps_covered (addr : AccAddress) (amt : Coins) :
    Keeps (LockedCovered k a d) (subUnlockedCoins k addr amt) :=
  Keeps.ite (Keeps.throw _) (Keeps.forM fun c _ => subUnlockedCoin_keeps_covered addr c)

/-- A credit of a coin that is not negative keeps the cover. -/
theorem addCoin_keeps_covered (addr : AccAddress) {coin : Coin} (hc : 0 ≤ coin.amount) :
    Keeps (LockedCovered k a d) (addCoin addr coin) := fun s hs =>
  ⟨fun _ _ h => by
    rw [(addCoin_ok h).1]
    refine hs.putBalance _ _ fun ha hd => ?_
    subst ha hd
    unfold LockedCovered at hs
    dsimp only at hs ⊢
    omega,
   fun _ _ h => by rw [addCoin_err h]; exact hs⟩

theorem addCoins_keeps_covered (addr : AccAddress) (amt : Coins) :
    Keeps (LockedCovered k a d) (addCoins addr amt) :=
  Keeps.ite_of (fun _ => Keeps.throw _) fun hv => Keeps.forM fun c hc =>
    addCoin_keeps_covered addr (Coins.amount_nonneg_of_isValid (by simpa using hv) c hc)

theorem burnCoins_keeps_covered (name : String) (amounts : Coins) :
    Keeps (LockedCovered k a d) (burnCoins k name amounts) := by
  unfold burnCoins
  rcases k.getModuleAccount name with _ | acc
  · exact Keeps.abort _
  · refine Keeps.ite (Keeps.abort _) ((subUnlockedCoins_keeps_covered _ _).bind fun _ =>
      Keeps.forM fun c _ s hs => ⟨fun _ _ h => ?_, fun _ _ h => absurd h burnSupply_ne_err⟩)
    exact lockedCovered_of_balances (by rw [(burnSupply_ok h).1]; rfl) hs

theorem deflationaryCoins_keeps_covered (f t : AccAddress) (amt : Coins) :
    Keeps (LockedCovered k a d) (deflationaryCoins k f t amt) := by
  refine (reads_keeps _).bind fun params => (deflationaryLoop_keeps
    (fun u _ _ hu _ => lockedCovered_of_balances (BankState.putDenom_balances _ _ _) hu) params f t amt).bind
    fun split => ?_
  rcases hacc : k.getModuleAccount moduleName with _ | acc
  · exact Keeps.abort _
  · refine (Keeps.liftPanic _).bind fun total => Keeps.ite (Keeps.pure _) ?_
    exact (addCoins_keeps_covered _ _).bind fun _ =>
      Keeps.ite (Keeps.pure _) ((burnCoins_keeps_covered _ _).bind fun _ => Keeps.pure _)

theorem Call.run_keeps_covered (c : Call) : Keeps (LockedCovered k a d) (c.run k) := by
  have hA : ∀ (t : BankState) x, LockedCovered k a d t →
      LockedCovered k a d { t with accounts := x :: t.accounts } := fun _ _ => id
  cases c with
  | sendCoins f t amt =>
    exact (subUnlockedCoins_keeps_covered f amt).bind fun _ => (deflationaryCoins_keeps_covered f t amt).bind
      fun _ => (addCoins_keeps_covered t _).bind fun _ => createAccountIfMissing_keeps hA t
  | inputOutputCoins ins outs mem =>
    refine Keeps.bind ((validateInputsOutputs_keeps _ _ _).bind fun _ => Keeps.bind ?_ fun _ =>
      Keeps.foldlM (fun m o _ => ?_) _) fun _ => Keeps.pure _
    · exact Keeps.forM fun i _ => (parseAddress_keeps _).bind fun x => subUnlockedCoins_keeps_covered x _
    · exact (parseAddress_keeps _).bind fun x => (deflationaryCoins_keeps_covered _ x _).bind fun _ =>
        (addCoins_keeps_covered x _).bind fun _ => (createAccountIfMissing_keeps hA x).bind fun _ =>
          Keeps.pure _

end Covered

/-! ## The laws -/

/-- The test's keeper with 30 foo of `addr1` locked. -/
def lockedKeeper : Keeper :=
  ⟨testKeeper.getModuleAccount, fun a => if a = "addr1" then [⟨"foo", 30⟩] else []⟩

section Laws

variable {k : Keeper} {s s' : BankState}

/-- `SendCoins` that returns nil had every amount it sent spendable: in every
denomination it sends, the sender's balance covered the amount on top of the
sender's locked coins. -/
theorem sendCoins_within_spendable {f t : AccAddress} {amt : Coins} (h : sendCoins k f t amt s = .ok () s')
    (d : String) (hd : 0 < amt.amountSum d) :
    amt.amountSum d + (k.lockedCoins f).amountOf d ≤ s.balanceOf f d := by
  obtain ⟨_, s1, h1, -⟩ := BankM.bind_eq_ok.1 h
  exact subUnlockedCoins_within h1 d hd

theorem lockedKeeper_sendCoins_within_spendable :
    0 < Coins.amountSum [⟨"foo", 60⟩] "foo" ∧
      Coins.amountSum [⟨"foo", 60⟩] "foo" + (lockedKeeper.lockedCoins "addr1").amountOf "foo" ≤
        (testGenesisState [testRule "foo"]).balanceOf "addr1" "foo" :=
  ⟨by decide, sendCoins_within_spendable
    (Outcome.eq_ok_of_isSome (o := sendCoins lockedKeeper "addr1" "addr2" [⟨"foo", 60⟩]
      (testGenesisState [testRule "foo"])) (by decide)) "foo" (by decide)⟩

/-- `InputOutputCoins` that returns nil had every amount it debited spendable:
for every address and denomination, the inputs of that address summed, on top
of its locked coins, were covered by its balance before the call, however many
inputs name the address. -/
theorem inputOutputCoins_within_spendable {inputs : List Input} {outputs : List Output}
    {mem mem' : List Coin} (h : inputOutputCoins k inputs outputs mem s = .ok mem' s') (a : AccAddress)
    (d : String)
    (hd : 0 < (inputs.map fun i => if i.address = a then i.coins.amountSum d else 0).sum) :
    (inputs.map fun i => if i.address = a then i.coins.amountSum d else 0).sum + (k.lockedCoins a).amountOf d ≤
      s.balanceOf a d := by
  obtain ⟨_, s1, h1, h⟩ := BankM.bind_eq_ok.1 h
  obtain ⟨_, s2, h2, -⟩ := BankM.bind_eq_ok.1 h
  obtain ⟨rfl, -⟩ := validateInputsOutputs_ok h1
  refine forM_inputs_within (fun i t t' hi => ?_) h2 a d hd
  obtain ⟨_, t1, hp, hs⟩ := BankM.bind_eq_ok.1 hi
  obtain ⟨rfl, rfl⟩ := parseAddress_ok hp
  exact hs

/-- Two inputs of `addr1`, 40 foo and 25 foo, against its 100 foo of which 30 are
locked. -/
theorem lockedKeeper_inputOutputCoins_within_spendable :
    0 < ([(⟨"addr1", [⟨"foo", 40⟩]⟩ : Input), ⟨"addr1", [⟨"foo", 25⟩]⟩].map fun i =>
        if i.address = "addr1" then i.coins.amountSum "foo" else 0).sum ∧
      ([(⟨"addr1", [⟨"foo", 40⟩]⟩ : Input), ⟨"addr1", [⟨"foo", 25⟩]⟩].map fun i =>
        if i.address = "addr1" then i.coins.amountSum "foo" else 0).sum +
          (lockedKeeper.lockedCoins "addr1").amountOf "foo" ≤
        (testGenesisState [testRule "foo"]).balanceOf "addr1" "foo" :=
  ⟨by decide, inputOutputCoins_within_spendable
    (Outcome.eq_ok_of_value? (o := inputOutputCoins lockedKeeper
      [⟨"addr1", [⟨"foo", 40⟩]⟩, ⟨"addr1", [⟨"foo", 25⟩]⟩] [⟨"addr2", ⟨0, 1⟩⟩] [⟨"foo", 65⟩]
      (testGenesisState [testRule "foo"])) (a := [⟨"foo", 56⟩]) (by decide)) "addr1" "foo" (by decide)⟩

/-- No transfer spends locked coins: when the balance of an address in a
denomination covers the coins of it locked for the address, it still does after
any `SendCoins` or `InputOutputCoins`, whether the call returns nil or an error
(an error keeps the writes made before it). -/
theorem transfer_keeps_locked_covered (c : Call) {a : AccAddress} {d : String}
    (hs : (k.lockedCoins a).amountOf d ≤ s.balanceOf a d)
    (h : c.run k s = .ok () s' ∨ ∃ e, c.run k s = .err e s') :
    (k.lockedCoins a).amountOf d ≤ s'.balanceOf a d := by
  rcases h with h | ⟨e, h⟩
  · exact (Call.run_keeps_covered c s hs).1 _ _ h
  · exact (Call.run_keeps_covered c s hs).2 _ _ h

theorem lockedKeeper_transfer_keeps_locked_covered :
    (lockedKeeper.lockedCoins "addr1").amountOf "foo" ≤ (testGenesisState [testRule "foo"]).balanceOf "addr1" "foo" ∧
      (lockedKeeper.lockedCoins "addr1").amountOf "foo" ≤
        ((sendCoins lockedKeeper "addr1" "addr2" [⟨"foo", 60⟩] (testGenesisState [testRule "foo"])).okState?.getD
          BankState.empty).balanceOf "addr1" "foo" :=
  ⟨by decide, transfer_keeps_locked_covered (.sendCoins "addr1" "addr2" [⟨"foo", 60⟩]) (by decide)
    (.inl (Outcome.eq_ok_of_isSome (by decide)))⟩

end Laws

end DeflationaryBank
