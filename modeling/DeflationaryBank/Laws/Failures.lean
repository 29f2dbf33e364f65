import DeflationaryBank.Laws.Pools

/-!
# Failing transfers

A keeper method returns its error where it meets it: the writes of the steps
before stay in the store, and discarding them is left to the transaction that
called it. A failing `SendCoins` may therefore have debited the sender, credited
the bank module account or burnt; it touches nothing else. The burn itself
rejects a burn list that holds a zero coin, which a small taxed coin next to a
larger one produces.
-/

namespace DeflationaryBank

/-- What a failing transfer leaves alone: the pools, and every balance of an
address `x` other than the sender, the recipient and the bank module account. -/
def FrameOf (x : AccAddress) (s t : BankState) : Prop :=
  (∀ d, t.liquidityPool.amount d = s.liquidityPool.amount d ∧
    t.feeTaxPool.amount d = s.feeTaxPool.amount d) ∧ ∀ d, t.balanceOf x d = s.balanceOf x d

theorem frameOf_stable (x : AccAddress) (s : BankState) : TransferStable (FrameOf x s) (· ≠ x) where
  putBalance t a c h ha _ := ⟨h.1, fun d => by
    rw [← h.2 d]
    exact KVStore.amount_put_ne _ _ fun heq => ha (congrArg Prod.fst heq).symm⟩
  lowerSupply _ _ h _ _ := h
  writeBack t w d h hw := ⟨fun d' => by
    rw [← (h.1 d').1, ← (h.1 d').2]
    cases w <;> simp_all [BankState.putDenom, BankState.setDenomStore],
    fun d' => by rw [← h.2 d']; simp [BankState.balanceOf]⟩
  account _ _ h := h

/-- A `SendCoins` that returns an error has not rolled back what it wrote, but
it has written only the balances of the sender, the recipient and the bank
module account, and the supply. -/
theorem sendCoins_err_frame (k : Keeper) (f t : AccAddress) (amt : Coins) {s s' : BankState}
    {e : BankError} (h : sendCoins k f t amt s = .err e s') :
    (∀ d, s'.liquidityPool.amount d = s.liquidityPool.amount d ∧
      s'.feeTaxPool.amount d = s.feeTaxPool.amount d) ∧
    ∀ x, x ≠ f → x ≠ t → (∀ acc, k.getModuleAccount moduleName = some acc → acc.address ≠ x) →
      ∀ d, s'.balanceOf x d = s.balanceOf x d := by
  refine ⟨fun d => ?_, fun x hf ht hm => ?_⟩
  · exact ((sendCoins_keeps (poolsAre_stable d _ _) k f t trivial trivial (fun _ _ => trivial) amt)
      s ⟨rfl, rfl⟩).2 e s' h
  · exact (((sendCoins_keeps (frameOf_stable x s) k f t (Ne.symm hf) (Ne.symm ht) hm amt)
      s ⟨fun _ => ⟨rfl, rfl⟩, fun _ => rfl⟩).2 e s' h).2

/-- The test's transfer of 10 bar and 200 foo, which debits the bar before it
fails on the foo. -/
theorem testGenesis_sendCoins_err_frame :
    (∀ d, failedSendState.liquidityPool.amount d = (testGenesisState []).liquidityPool.amount d ∧
      failedSendState.feeTaxPool.amount d = (testGenesisState []).feeTaxPool.amount d) ∧
    ∀ x, x ≠ "addr1" → x ≠ "addr2" →
      (∀ acc, testKeeper.getModuleAccount moduleName = some acc → acc.address ≠ x) →
        ∀ d, failedSendState.balanceOf x d = (testGenesisState []).balanceOf x d :=
  sendCoins_err_frame testKeeper "addr1" "addr2" [⟨"bar", 10⟩, ⟨"foo", 200⟩]
    (e := .insufficientFunds ⟨"foo", 100⟩ ⟨"foo", 200⟩) (Outcome.eq_err_of_error? (by decide))

/-- The test's funds, and a transfer of 10 bar and 200 foo: the bar is debited,
then the foo is not covered, and the call returns the error with the sender's
bar lowered to 40. -/
theorem sendCoins_insufficientFunds_keeps_debit :
    (initGenesis testKeeper (testGenesis []) BankState.empty).okState?.map
      (fun s => (s.balanceOf "addr1" "bar",
        (sendCoins testKeeper "addr1" "addr2" [⟨"bar", 10⟩, ⟨"foo", 200⟩] s).error?,
        (sendCoins testKeeper "addr1" "addr2" [⟨"bar", 10⟩, ⟨"foo", 200⟩] s).state?.map
          (·.balanceOf "addr1" "bar"))) =
      some (50, some (.insufficientFunds ⟨"foo", 100⟩ ⟨"foo", 200⟩), some 40) := by
  decide

/-! ## The burn of a zero portion -/

/-- A burn list that holds a zero coin is not valid, so `burnCoins` returns
`ErrInvalidCoins` before any write. -/
theorem burnCoins_zero_err (k : Keeper) {name : String} {acc : ModuleAccount} {amounts : Coins}
    (hacc : k.getModuleAccount name = some acc) (hb : acc.hasPermission burner = true)
    (hz : ∃ c ∈ amounts, c.amount = 0) (s : BankState) :
    burnCoins k name amounts s = .err (.invalidCoins amounts) s := by
  have hv : amounts.isValid = false := by
    obtain ⟨c, hc, h0⟩ := hz
    cases h : amounts.isValid
    · rfl
    · have := (((Coins.isValid_iff amounts).1 h).1 c hc).2
      omega
  simp [burnCoins, hacc, hb, subUnlockedCoins, hv, BankM.bind_apply]

/-- Two taxed denominations at the test's percentages, and a transfer of 10 bar
and 50 foo that the sender's 50 bar and 100 foo cover: the bar portions truncate
to zero, the burn list is `[0bar, 2foo]`, and the call returns `ErrInvalidCoins`. -/
theorem sendCoins_zeroBurn_invalidCoins :
    validateSupportDeflationaryParams [testRule "bar", testRule "foo"] = .ok () ∧
      ((initGenesis testKeeper (testGenesis [testRule "bar", testRule "foo"]) >>= fun _ =>
        sendCoins testKeeper "addr1" "addr2" [⟨"bar", 10⟩, ⟨"foo", 50⟩]) BankState.empty).error? =
        some (.invalidCoins [⟨"bar", 0⟩, ⟨"foo", 2⟩]) := by
  decide

end DeflationaryBank
