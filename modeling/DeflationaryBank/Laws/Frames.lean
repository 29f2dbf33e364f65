import DeflationaryBank.Laws.Effects

/-!
# What a transfer may write

Every write a transfer makes is one of four: a valid coin as the balance of an
address, the supply of a denomination lowered to a non-negative amount, a pool
entry written back with the amount it holds, or a new account. A property that
survives these four writes holds in every state a send-keeper call returns in,
with a nil error or with an error. What a call leaves alone, and the positivity
of the stores, are instances.
-/

namespace DeflationaryBank

/-- `P` survives every write a transfer makes, the balances written being those
of the addresses in `A`. -/
structure TransferStable (P : BankState → Prop) (A : AccAddress → Prop) : Prop where
  putBalance : ∀ t a c, P t → A a → Coin.isValid c → P (t.putBalance a c)
  lowerSupply : ∀ t (c : Coin), P t → 0 ≤ c.amount → c.amount ≤ t.supplyOf c.denom →
    P (t.putDenom .supply c)
  writeBack : ∀ t w d, P t → w ≠ .supply → P (t.putDenom w ⟨d, (t.denomStore w).amount d⟩)
  account : ∀ t a, P t → P { t with accounts := a :: t.accounts }

section Keeps

variable {P : BankState → Prop}

theorem reads_keeps {α : Type} (f : BankState → α) : Keeps P (fun s => .ok (f s) s : BankM α) :=
  fun _ hs => ⟨fun _ _ h => by cases h; exact hs, fun _ _ h => by cases h⟩

theorem parseAddress_ok {a addr : AccAddress} {s s' : BankState} (h : parseAddress a s = .ok addr s') :
    addr = a ∧ s' = s := by
  unfold parseAddress accAddressFromBech32 at h
  split_ifs at h <;> cases h
  exact ⟨rfl, rfl⟩

theorem parseAddress_keeps (a : String) : Keeps P (parseAddress a) := by
  unfold parseAddress
  split
  · exact Keeps.pure _
  · exact Keeps.throw _

/-- The validation of a multi-send writes nothing. -/
theorem validateInputsOutputs_keeps (inputs : List Input) (outputs : List Output) (mem : List Coin) :
    Keeps P (validateInputsOutputs inputs outputs mem) := by
  have hb : ∀ a c, Keeps P (validateBasic a c) := fun a c =>
    (parseAddress_keeps a).bind fun _ => Keeps.ite (Keeps.throw _) (Keeps.ite (Keeps.throw _) (Keeps.pure _))
  exact (Keeps.foldlM (fun _ _ _ => (hb _ _).bind fun _ => Keeps.liftPanic _) _).bind fun _ =>
    (Keeps.foldlM (fun _ _ _ => (hb _ _).bind fun _ => Keeps.liftPanic _) _).bind fun _ =>
      (Keeps.liftPanic _).bind fun _ => Keeps.ite (Keeps.throw _) (Keeps.pure _)

/-- Creating an account writes the account list only. -/
theorem createAccountIfMissing_keeps (hA : ∀ t a, P t → P { t with accounts := a :: t.accounts })
    (a : AccAddress) : Keeps P (createAccountIfMissing a) :=
  Keeps.modify fun t ht => by
    split
    · exact ht
    · exact hA t a ht

/-! The split writes the pools back, and nothing else. -/
section WriteBack

variable (hW : ∀ t w d, P t → w ≠ .supply → P (t.putDenom w ⟨d, (t.denomStore w).amount d⟩))
include hW

theorem addToPool_keeps {w : DenomStore} (hw : w ≠ .supply) (d : String) (x : Int) :
    Keeps P (addToPool w d x) := fun s hs =>
  ⟨fun _ _ h => by
    rw [addToPool_ok h]
    split
    · exact hW _ _ _ hs hw
    · exact hs,
   fun _ _ h => absurd h addToPool_ne_err⟩

theorem deflationaryCoin_keeps (params : Params) (f t : AccAddress) (coin : Coin) :
    Keeps P (deflationaryCoin params f t coin) := by
  refine (Keeps.liftPanic _).bind fun r => ?_
  rcases r with _ | ⟨sent, bc, lc, fc⟩
  · exact Keeps.pure _
  · exact (addToPool_keeps hW DenomStore.noConfusion _ _).bind fun _ =>
      (addToPool_keeps hW DenomStore.noConfusion _ _).bind fun _ => Keeps.pure _

theorem deflationaryLoop_keeps (params : Params) (f t : AccAddress) :
    ∀ amt, Keeps P (deflationaryLoop params f t amt)
  | [] => Keeps.pure _
  | coin :: rest => (deflationaryCoin_keeps hW params f t coin).bind fun _ =>
    (deflationaryLoop_keeps params f t rest).bind fun _ => Keeps.pure _

end WriteBack

variable {A : AccAddress → Prop} (hP : TransferStable P A) (k : Keeper) {addr : AccAddress}
include hP

theorem subUnlockedCoin_keeps (ha : A addr) (locked : Coins) (coin : Coin) :
    Keeps P (subUnlockedCoin addr locked coin) := fun s hs =>
  ⟨fun _ _ h => by
    obtain ⟨rfl, hv⟩ := subUnlockedCoin_ok h
    exact hP.putBalance _ _ _ hs ha hv,
   fun _ _ h => by rw [subUnlockedCoin_err h]; exact hs⟩

theorem subUnlockedCoins_keeps (ha : A addr) (amt : Coins) : Keeps P (subUnlockedCoins k addr amt) :=
  Keeps.ite (Keeps.throw _) (Keeps.forM fun c _ => subUnlockedCoin_keeps hP ha _ c)

theorem addCoin_keeps (ha : A addr) (coin : Coin) : Keeps P (addCoin addr coin) := fun s hs =>
  ⟨fun _ _ h => by
    obtain ⟨rfl, hv⟩ := addCoin_ok h
    exact hP.putBalance _ _ _ hs ha hv,
   fun _ _ h => by rw [addCoin_err h]; exact hs⟩

theorem addCoins_keeps (ha : A addr) (amt : Coins) : Keeps P (addCoins addr amt) :=
  Keeps.ite (Keeps.throw _) (Keeps.forM fun c _ => addCoin_keeps hP ha c)

theorem burnSupply_keeps {coin : Coin} (hc : 0 ≤ coin.amount) : Keeps P (burnSupply coin) :=
  fun s hs =>
  ⟨fun _ _ h => by
    obtain ⟨rfl, hn⟩ := burnSupply_ok h
    exact hP.lowerSupply _ _ hs hn (by simp only [BankState.supplyOf]; omega),
   fun _ _ h => absurd h burnSupply_ne_err⟩

/-- A burn debits the module account, so the hypothesis on it; the supply loop
only runs on valid, hence positive, coins. -/
theorem burnCoins_keeps {name : String}
    (hm : ∀ acc, k.getModuleAccount name = some acc → A acc.address) (amounts : Coins) :
    Keeps P (burnCoins k name amounts) := by
  unfold burnCoins
  rcases hacc : k.getModuleAccount name with _ | acc
  · exact Keeps.abort _
  · refine Keeps.ite (Keeps.abort _) ?_
    refine (subUnlockedCoins_keeps hP k (hm acc hacc) amounts).bind_of_ok
      (fun s _ s' h => (subUnlockedCoins_ok k h).1) fun _ hv => Keeps.forM fun c hc => ?_
    exact burnSupply_keeps hP (((Coins.isValid_iff amounts).1 hv).1 c hc).2.le

theorem deflationaryCoins_keeps (hm : ∀ acc, k.getModuleAccount moduleName = some acc → A acc.address)
    (f t : AccAddress) (amt : Coins) : Keeps P (deflationaryCoins k f t amt) := by
  refine (reads_keeps _).bind fun params => (deflationaryLoop_keeps hP.writeBack params f t amt).bind fun split => ?_
  rcases hacc : k.getModuleAccount moduleName with _ | acc
  · exact Keeps.abort _
  · refine (Keeps.liftPanic _).bind fun total => Keeps.ite (Keeps.pure _) ?_
    exact (addCoins_keeps hP (hm acc hacc) _).bind fun _ =>
      Keeps.ite (Keeps.pure _) ((burnCoins_keeps hP k hm _).bind fun _ => Keeps.pure _)


/-- `SendCoins` writes the balances of the sender, the recipient and the bank
module account only. -/
theorem sendCoins_keeps (f t : AccAddress) (hf : A f) (ht : A t)
    (hm : ∀ acc, k.getModuleAccount moduleName = some acc → A acc.address) (amt : Coins) :
    Keeps P (sendCoins k f t amt) :=
  (subUnlockedCoins_keeps hP k hf amt).bind fun _ => (deflationaryCoins_keeps hP k hm f t amt).bind
    fun _ => (addCoins_keeps hP ht _).bind fun _ => createAccountIfMissing_keeps hP.account t

/-- One output of a multi-send writes the balances of its address and of the
bank module account only. -/
theorem outputCoins_keeps {out : Output} (ho : A out.address)
    (hm : ∀ acc, k.getModuleAccount moduleName = some acc → A acc.address) (mem : List Coin) :
    Keeps P (outputCoins k mem out) := by
  refine (parseAddress_keeps _).bind_of_ok (fun _ _ _ h => (parseAddress_ok h).1) fun a ha => ?_
  exact (deflationaryCoins_keeps hP k hm _ _ _).bind fun _ => (addCoins_keeps hP (ha ▸ ho) _).bind
    fun _ => (createAccountIfMissing_keeps hP.account a).bind fun _ => Keeps.pure _

/-- `InputOutputCoins` writes the balances of its inputs, its outputs and the
bank module account only. -/
theorem inputOutputCoins_keeps {inputs : List Input} {outputs : List Output} {mem : List Coin}
    (hin : ∀ i ∈ inputs, A i.address) (hout : ∀ o ∈ outputs, A o.address)
    (hm : ∀ acc, k.getModuleAccount moduleName = some acc → A acc.address) :
    Keeps P (inputOutputCoins k inputs outputs mem) := by
  refine (validateInputsOutputs_keeps _ _ _).bind fun _ => Keeps.bind ?_ fun _ =>
    Keeps.foldlM (fun m o ho => outputCoins_keeps hP k (hout o ho) hm m) _
  refine Keeps.forM fun i hi => (parseAddress_keeps _).bind_of_ok
    (fun _ _ _ h => (parseAddress_ok h).1) fun a ha => ?_
  exact subUnlockedCoins_keeps hP k (ha ▸ hin i hi) _

end Keeps

end DeflationaryBank
