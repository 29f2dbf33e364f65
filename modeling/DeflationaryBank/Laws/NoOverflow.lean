import DeflationaryBank.Laws.Overflow
import DeflationaryBank.Laws.Pools
import DeflationaryBank.Laws.Params

/-!
# Where a transfer can overflow

`sdk.Int` arithmetic panics past 256 bits. From a state a run reaches, every
balance a transfer credits stays within what the balances and the amounts moved
add up to, which the supply bounds, and every portion stays within the amount it
is taken of. So neither the `Add` of `addCoins` nor the `Dec` product and
truncation of a portion overflow, and neither do the debits and the burn.

Three checks are bounded by nothing the keeper holds: the totals
`ValidateInputsOutputs` adds up from the caller's coins, the net
`amount - burn - liquidity - feeTax` of a taxed coin, whose portions can add up
to three times the amount, and the sum of a pool and a portion, which the pool
update computes and throws away. A transfer whose own coins are non-negative
`sdk.Int`s, and where these three fit, does not panic with Int overflow.
-/

namespace DeflationaryBank

/-! ## Checks on values -/

section Values

theorem except_map_eq_error {ε α β : Type} {f : α → β} {x : Except ε α} {e : ε} :
    f <$> x = .error e ↔ x = .error e := by
  cases x <;> simp [Functor.map, Except.map]

theorem except_bind_eq_error {ε α β : Type} {x : Except ε α} {g : α → Except ε β} {e : ε} :
    x >>= g = .error e ↔ x = .error e ∨ ∃ a, x = .ok a ∧ g a = .error e := by
  cases x <;> simp [Bind.bind, Except.bind]

theorem natAbs_lt_of_bounds {x : Int} (h1 : -2 ^ maxBitLen < x) (h2 : x < 2 ^ maxBitLen) :
    x.natAbs < 2 ^ maxBitLen := by
  unfold maxBitLen at *
  omega

theorem neg_lt_of_natAbs_lt {x : Int} (h : x.natAbs < 2 ^ maxBitLen) : -2 ^ maxBitLen < x := by
  unfold maxBitLen at *
  omega

theorem natAbs_sub_lt {x y : Int} (hx : 0 ≤ x ∧ x < 2 ^ maxBitLen) (hy : 0 ≤ y ∧ y < 2 ^ maxBitLen) :
    (x - y).natAbs < 2 ^ maxBitLen :=
  natAbs_lt_of_bounds (by omega) (by omega)

theorem newCoin_ne_overflow (d : String) (x : Int) : newCoin d x ≠ .error .intOverflow := by
  unfold newCoin
  split <;> simp

theorem Coin.add_ne_overflow {a b : Coin} (h : (a.amount + b.amount).natAbs < 2 ^ maxBitLen) :
    a.add b ≠ .error .intOverflow := by
  unfold Coin.add SdkInt.add SdkInt.checked
  split_ifs <;> simp [Functor.map, Except.map]

theorem Coin.sub_ne_overflow {a b : Coin} (h : (a.amount - b.amount).natAbs < 2 ^ maxBitLen) :
    a.sub b ≠ .error .intOverflow := by
  unfold Coin.sub SdkInt.sub SdkInt.checked
  by_cases hd : a.denom = b.denom <;> by_cases hn : a.amount - b.amount < 0 <;>
    simp [hd, hn, h, Bind.bind, Except.bind, MonadExcept.throw, throwThe, MonadExceptOf.throw,
      Pure.pure, Except.pure]

namespace Coins

/-- The merge adds only a coin of the first list to one of the second of the same
denomination, so it cannot overflow when no two such coins overflow. -/
theorem safeAdd_ne_overflow :
    ∀ (as bs : Coins), (∀ a ∈ as, ∀ b ∈ bs, a.denom = b.denom →
      (a.amount + b.amount).natAbs < 2 ^ maxBitLen) → safeAdd as bs ≠ .error .intOverflow
  | [], bs, _ => by simp [safeAdd]
  | a :: as, bs, h => by
    induction bs with
    | nil => simp [safeAdd, safeAddFrom]
    | cons b bs ihb =>
      rw [safeAdd, safeAddFrom]
      split_ifs with hlt heq
      · rw [Ne, except_map_eq_error]
        exact safeAdd_ne_overflow as (b :: bs) fun x hx y hy => h x (List.mem_cons_of_mem _ hx) y hy
      · have hab : a.add b = .ok ⟨a.denom, a.amount + b.amount⟩ := Coin.add_eq_ok_iff.2
          ⟨heq, h a (List.mem_cons_self _ _) b (List.mem_cons_self _ _) heq, rfl⟩
        simp only [hab, Bind.bind, Except.bind]
        rw [Ne, except_map_eq_error]
        exact safeAdd_ne_overflow as bs fun x hx y hy =>
          h x (List.mem_cons_of_mem _ hx) y (List.mem_cons_of_mem _ hy)
      · rw [Ne, except_map_eq_error]
        exact ihb fun x hx y hy => h x hx y (List.mem_cons_of_mem _ hy)

/-- `Coins.Add` of non-negative coins whose totals fit in every denomination. -/
theorem add_ne_overflow {as bs : Coins} (ha : ∀ c ∈ as, 0 ≤ c.amount) (hb : ∀ c ∈ bs, 0 ≤ c.amount)
    (h : ∀ d, as.amountSum d + bs.amountSum d < 2 ^ maxBitLen) : as.add bs ≠ .error .intOverflow :=
  safeAdd_ne_overflow as bs fun a hA b hB hd => by
    have h1 := amount_le_amountSum ha hA
    have h2 := amount_le_amountSum hb hB
    have := h a.denom
    have := ha a hA
    have := hb b hB
    rw [← hd] at h2
    exact natAbs_lt_of_bounds (by omega) (by omega)

/-- `SafeSub` of one coin from another of its denomination. -/
theorem safeSub_single_ne_overflow {a b : Coin} (hd : a.denom = b.denom)
    (h : (a.amount - b.amount).natAbs < 2 ^ maxBitLen) : safeSub [a] [b] ≠ .error .intOverflow := by
  have hab : a.add ⟨b.denom, -b.amount⟩ = .ok ⟨a.denom, a.amount + -b.amount⟩ :=
    Coin.add_eq_ok_iff.2 ⟨hd, by rwa [← sub_eq_add_neg], rfl⟩
  simp [safeSub, negative, safeAdd, safeAddFrom, hd, stringLt_irrefl, hab, Bind.bind, Except.bind,
    Functor.map, Except.map, Pure.pure, Except.pure]

theorem isEqualPairs_ne_overflow : ∀ l l' : Coins, isEqualPairs l l' ≠ .error .intOverflow
  | [], _ => by simp [isEqualPairs]
  | _ :: _, [] => by simp [isEqualPairs]
  | c :: cs, d :: ds => by
    unfold isEqualPairs Coin.isEqual
    split_ifs
    · simp [Bind.bind, Except.bind]
    · cases hb : decide (c.amount = d.amount) <;>
        simp [hb, Bind.bind, Except.bind, Pure.pure, Except.pure, isEqualPairs_ne_overflow cs ds]

/-- `Coins.IsEqual` panics only on two denominations at one index. -/
theorem isEqual_ne_overflow (l l' : Coins) : l.isEqual l' ≠ .error .intOverflow := by
  unfold isEqual
  split
  · simp
  · exact isEqualPairs_ne_overflow _ _

end Coins

end Values

/-! ## Sequencing and loops -/

section Sequencing

variable {α β γ : Type} {p : Panic}

theorem BankM.bind_ne_panic {m : BankM α} {f : α → BankM β} {s : BankState} (hm : m s ≠ .panic p)
    (hf : ∀ a s', m s = .ok a s' → f a s' ≠ .panic p) : (m >>= f) s ≠ .panic p := by
  rw [BankM.bind_apply]
  rcases h : m s with ⟨a, s'⟩ | ⟨e, s'⟩ | q
  · exact hf a s' h
  · simp
  · rw [h] at hm
    simpa using hm

theorem BankM.liftPanic_ne_panic {x : Except Panic α} (h : x ≠ .error p) (s : BankState) :
    liftPanic x s ≠ .panic p := by
  rwa [Ne, BankM.liftPanic_eq_panic]

theorem BankM.liftPanic_bind_ne_panic {x : Except Panic α} {f : α → BankM β} {s : BankState}
    (hx : x ≠ .error p) (hf : ∀ a, x = .ok a → f a s ≠ .panic p) : (liftPanic x >>= f) s ≠ .panic p :=
  BankM.bind_ne_panic (BankM.liftPanic_ne_panic hx s) fun a _ h => by
    obtain ⟨hx, rfl⟩ := BankM.liftPanic_eq_ok.1 h
    exact hf a hx

/-- A loop does not panic with `p` when no iteration does, from the states an
invariant of the elements still to come describes. -/
theorem forM_ne_panic {f : β → BankM Unit} (I : List β → BankState → Prop)
    (hf : ∀ x xs s, I (x :: xs) s → f x s ≠ .panic p ∧ ∀ s', f x s = .ok () s' → I xs s') :
    ∀ (xs : List β) (s : BankState), I xs s → xs.forM f s ≠ .panic p
  | [], _, _ => by simp [forM_nil']
  | x :: xs, s, hi => by
    rw [forM_cons']
    exact BankM.bind_ne_panic (hf x xs s hi).1 fun _ s' h => forM_ne_panic I hf xs s' ((hf x xs s hi).2 s' h)

/-- The same for a loop with an accumulator. -/
theorem foldlM_ne_panic {f : γ → β → BankM γ} (I : γ → List β → BankState → Prop)
    (hf : ∀ acc x xs s, I acc (x :: xs) s →
      f acc x s ≠ .panic p ∧ ∀ acc' s', f acc x s = .ok acc' s' → I acc' xs s') :
    ∀ (xs : List β) (acc : γ) (s : BankState), I acc xs s → xs.foldlM f acc s ≠ .panic p
  | [], _, _, _ => by simp
  | x :: xs, acc, s, hi => by
    rw [List.foldlM_cons]
    exact BankM.bind_ne_panic (hf acc x xs s hi).1 fun acc' s' h =>
      foldlM_ne_panic I hf xs acc' s' ((hf acc x xs s hi).2 acc' s' h)

theorem parseAddress_ne_panic (a : String) (s : BankState) : parseAddress a s ≠ .panic p := by
  unfold parseAddress
  cases accAddressFromBech32 a <;> simp

theorem validateBasic_ne_panic (a : String) (coins : Coins) (s : BankState) :
    validateBasic a coins s ≠ .panic p := by
  refine BankM.bind_ne_panic (parseAddress_ne_panic a s) fun _ s' _ => ?_
  split
  · simp
  · split <;> simp

end Sequencing

/-! ## What a transfer keeps -/

/-- What every write of a transfer keeps of the state `s₀` the call starts in:
its parameters and pools, non-negative balances, and each supply between zero
and what it was. -/
structure Steady (s₀ s : BankState) : Prop where
  params : s.params = s₀.params
  pools : ∀ d, PoolsAre d (s₀.liquidityPool.amount d) (s₀.feeTaxPool.amount d) s
  balancesPos : s.balances.AllPos
  supply : ∀ d, 0 ≤ s.supplyOf d ∧ s.supplyOf d ≤ s₀.supplyOf d

theorem Steady.refl {s : BankState} (hpos : s.balances.AllPos) (hS : ∀ d, 0 ≤ s.supplyOf d) :
    Steady s s :=
  ⟨rfl, fun _ => ⟨rfl, rfl⟩, hpos, fun d => ⟨hS d, le_rfl⟩⟩

theorem steady_stable (s₀ : BankState) : TransferStable (Steady s₀) fun _ => True where
  putBalance t a c h _ hc := ⟨(paramsAre_stable _).putBalance t a c h.params trivial hc,
    fun d => (poolsAre_stable d _ _).putBalance t a c (h.pools d) trivial hc,
    balancesPos_stable.putBalance t a c h.balancesPos trivial hc, h.supply⟩
  lowerSupply t c h h0 hle := ⟨(paramsAre_stable _).lowerSupply t c h.params h0 hle,
    fun d => (poolsAre_stable d _ _).lowerSupply t c (h.pools d) h0 hle,
    balancesPos_stable.lowerSupply t c h.balancesPos h0 hle, fun d => by
      rw [BankState.supplyOf_putDenom]
      split_ifs with hd
      · obtain ⟨-, rfl⟩ := hd
        exact ⟨h0, hle.trans (h.supply _).2⟩
      · exact h.supply d⟩
  writeBack t w d h hw := ⟨(paramsAre_stable _).writeBack t w d h.params hw,
    fun d' => (poolsAre_stable d' _ _).writeBack t w d (h.pools d') hw,
    balancesPos_stable.writeBack t w d h.balancesPos hw, fun d' => by
      rw [BankState.supplyOf_putDenom, if_neg fun hs => hw hs.1]
      exact h.supply d'⟩
  account _ _ h := ⟨h.params, h.pools, h.balancesPos, h.supply⟩

theorem BankState.totalBalance_nonneg {s : BankState} (h : s.balances.AllPos) (d : String) :
    0 ≤ s.totalBalance d :=
  (h.amount_nonneg _).trans (BankState.balanceOf_le_totalBalance h "" d)

/-- A balance with `x` more credited stays below `2^256` when the sum of the
balances of its denomination does. -/
theorem BankState.balanceOf_add_lt {s : BankState} (h : s.balances.AllPos) {x : Int} {d : String}
    (hT : s.totalBalance d + x < 2 ^ maxBitLen) (a : AccAddress) :
    0 ≤ s.balanceOf a d ∧ s.balanceOf a d + x < 2 ^ maxBitLen := by
  have := BankState.balanceOf_le_totalBalance h a d
  exact ⟨h.amount_nonneg _, by omega⟩

theorem BankState.balanceOf_lt {s : BankState} (h : s.balances.AllPos) {d : String}
    (hT : s.totalBalance d < 2 ^ maxBitLen) (a : AccAddress) :
    0 ≤ s.balanceOf a d ∧ s.balanceOf a d < 2 ^ maxBitLen := by
  have := BankState.balanceOf_le_totalBalance h a d
  exact ⟨h.amount_nonneg _, by omega⟩

theorem BankState.balanceOf_putBalance (s : BankState) (a : AccAddress) (c : Coin) (a' : AccAddress)
    (d : String) :
    (s.putBalance a c).balanceOf a' d = if a' = a ∧ d = c.denom then c.amount else s.balanceOf a' d := by
  simp only [BankState.balanceOf, BankState.putBalance, KVStore.amount_put, Prod.mk.injEq]

/-- The locked coins the account keeper reports are `sdk.Int`s. -/
def Keeper.LockedFit (k : Keeper) : Prop := ∀ a, ∀ c ∈ k.lockedCoins a, c.amount < 2 ^ maxBitLen

theorem Keeper.LockedFit.amountOf_lt {k : Keeper} (hk : k.LockedFit) (a : AccAddress) (d : String) :
    (k.lockedCoins a).amountOf d < 2 ^ maxBitLen := by
  unfold Coins.amountOf
  split
  · rename_i c hc
    exact hk a c (List.mem_of_find?_eq_some hc)
  · exact pow_pos two_pos _

/-! ## Debit, credit, burn -/

section Steps

variable {k : Keeper} {s : BankState} {addr : AccAddress}

theorem subUnlockedCoin_ne_overflow {locked : Coins} {coin : Coin}
    (hb : 0 ≤ s.balanceOf addr coin.denom ∧ s.balanceOf addr coin.denom < 2 ^ maxBitLen)
    (hl : locked.amountOf coin.denom < 2 ^ maxBitLen) (hc : 0 ≤ coin.amount ∧ coin.amount < 2 ^ maxBitLen) :
    subUnlockedCoin addr locked coin s ≠ .panic .intOverflow := by
  unfold subUnlockedCoin
  rw [getBalance_bind]
  refine BankM.liftPanic_bind_ne_panic (newCoin_ne_overflow _ _) fun lc hlc => ?_
  obtain ⟨-, hl0, rfl⟩ := newCoin_eq_ok.1 hlc
  refine BankM.liftPanic_bind_ne_panic (Coin.sub_ne_overflow (natAbs_sub_lt hb ⟨hl0, hl⟩)) fun sp hsp => ?_
  obtain ⟨-, -, hsp0, rfl⟩ := Coin.sub_eq_ok.1 hsp
  refine BankM.liftPanic_bind_ne_panic (Coins.safeSub_single_ne_overflow rfl
    (natAbs_sub_lt ⟨hsp0, by dsimp only; omega⟩ hc)) fun r _ => ?_
  obtain ⟨_, neg⟩ := r
  dsimp only
  split
  · simp [BankM.throw]
  · refine BankM.liftPanic_bind_ne_panic (Coin.sub_ne_overflow (natAbs_sub_lt hb hc)) fun _ _ => ?_
    rw [setBalance_apply]
    split <;> simp

/-- The debit of `amt` from `addr`, whose balances and locked coins are
`sdk.Int`s, does not overflow: each balance only goes down, to zero or above. -/
theorem subUnlockedCoins_ne_overflow {amt : Coins} (hk : k.LockedFit)
    (hb : ∀ d, 0 ≤ s.balanceOf addr d ∧ s.balanceOf addr d < 2 ^ maxBitLen)
    (hc : ∀ c ∈ amt, c.amount < 2 ^ maxBitLen) :
    subUnlockedCoins k addr amt s ≠ .panic .intOverflow := by
  unfold subUnlockedCoins
  split
  · simp [BankM.throw]
  · rename_i hv
    have hpos := Coins.amount_nonneg_of_isValid (by simpa using hv)
    refine forM_ne_panic (fun (xs : Coins) t => (∀ d, 0 ≤ t.balanceOf addr d ∧
        t.balanceOf addr d < 2 ^ maxBitLen) ∧ ∀ c ∈ xs, 0 ≤ c.amount ∧ c.amount < 2 ^ maxBitLen)
      (fun c cs t ⟨hbt, hcs⟩ => ?_) amt s ⟨hb, fun c h => ⟨hpos c h, hc c h⟩⟩
    obtain ⟨hc0, hcs⟩ := List.forall_mem_cons.1 hcs
    refine ⟨subUnlockedCoin_ne_overflow (hbt _) (hk.amountOf_lt addr _) hc0,
      fun t' h => ⟨fun d => ?_, hcs⟩⟩
    obtain ⟨rfl, hv'⟩ := subUnlockedCoin_ok h
    have hnew := Coin.amount_nonneg_of_isValid hv'
    rw [BankState.balanceOf_putBalance]
    split_ifs with hd
    · obtain ⟨-, rfl⟩ := hd
      have := hbt c.denom
      exact ⟨hnew, by dsimp only; omega⟩
    · exact hbt d

theorem addCoin_ne_overflow {coin : Coin}
    (h : (s.balanceOf addr coin.denom + coin.amount).natAbs < 2 ^ maxBitLen) :
    addCoin addr coin s ≠ .panic .intOverflow := by
  unfold addCoin
  rw [getBalance_bind]
  refine BankM.liftPanic_bind_ne_panic (Coin.add_ne_overflow h) fun _ _ => ?_
  rw [setBalance_apply]
  split <;> simp

/-- The credit of `amt` to `addr` does not overflow when the balances of `addr`
and `amt` add up below `2^256` in every denomination. -/
theorem addCoins_ne_overflow {amt : Coins}
    (hb : ∀ d, 0 ≤ s.balanceOf addr d ∧ s.balanceOf addr d + amt.amountSum d < 2 ^ maxBitLen) :
    addCoins addr amt s ≠ .panic .intOverflow := by
  unfold addCoins
  split
  · simp [BankM.throw]
  · rename_i hv
    have hpos := Coins.amount_nonneg_of_isValid (by simpa using hv)
    refine forM_ne_panic (fun (xs : Coins) t => (∀ c ∈ xs, 0 ≤ c.amount) ∧
        ∀ d, 0 ≤ t.balanceOf addr d ∧ t.balanceOf addr d + xs.amountSum d < 2 ^ maxBitLen)
      (fun c cs t ⟨hcs, hbt⟩ => ?_) amt s ⟨hpos, hb⟩
    obtain ⟨hc0, hcs⟩ := List.forall_mem_cons.1 hcs
    have hrest := Coins.amountSum_nonneg hcs
    have hc := hbt c.denom
    rw [Coins.amountSum_cons, if_pos rfl] at hc
    have := hrest c.denom
    refine ⟨addCoin_ne_overflow (natAbs_lt_of_bounds (by omega) (by omega)),
      fun t' h => ⟨hcs, fun d => ?_⟩⟩
    obtain ⟨rfl, -⟩ := addCoin_ok h
    have hd := hbt d
    have := hrest d
    rw [Coins.amountSum_cons] at hd
    rw [BankState.balanceOf_putBalance]
    by_cases hcd : c.denom = d
    · subst hcd
      rw [if_pos rfl] at hd
      rw [if_pos ⟨rfl, rfl⟩]
      obtain ⟨hd0, hd1⟩ := hd
      exact ⟨by dsimp only; omega, by dsimp only; omega⟩
    · rw [if_neg hcd] at hd
      rw [if_neg fun h => hcd h.2.symm]
      exact ⟨hd.1, by omega⟩

theorem burnSupply_ne_overflow {coin : Coin}
    (hs : 0 ≤ s.supplyOf coin.denom ∧ s.supplyOf coin.denom < 2 ^ maxBitLen)
    (hc : 0 ≤ coin.amount ∧ coin.amount < 2 ^ maxBitLen) : burnSupply coin s ≠ .panic .intOverflow := by
  unfold burnSupply getSupply
  rw [getDenomCoin_bind]
  exact BankM.liftPanic_bind_ne_panic (Coin.sub_ne_overflow (natAbs_sub_lt hs hc)) fun _ _ => by
    simp [setSupply, setDenomCoin, modify]

/-- A burn from a module account whose balances are `sdk.Int`s, of coins that
are, on supplies that are: the debit only lowers balances, and each supply
stays at or above zero. -/
theorem burnCoins_ne_overflow {name : String} {amounts : Coins} (hk : k.LockedFit)
    (hb : ∀ a d, 0 ≤ s.balanceOf a d ∧ s.balanceOf a d < 2 ^ maxBitLen)
    (hs : ∀ d, 0 ≤ s.supplyOf d ∧ s.supplyOf d < 2 ^ maxBitLen)
    (hc : ∀ c ∈ amounts, c.amount < 2 ^ maxBitLen) : burnCoins k name amounts s ≠ .panic .intOverflow := by
  unfold burnCoins
  rcases k.getModuleAccount name with _ | acc
  · simp [BankM.abort]
  · dsimp only
    split
    · simp [BankM.abort]
    · refine BankM.bind_ne_panic (subUnlockedCoins_ne_overflow hk (hb acc.address) hc) fun _ s1 h1 => ?_
      have hpos := Coins.amount_nonneg_of_isValid (subUnlockedCoins_ok k h1).1
      refine forM_ne_panic (fun (xs : Coins) t => (∀ d, 0 ≤ t.supplyOf d ∧ t.supplyOf d < 2 ^ maxBitLen) ∧
          ∀ c ∈ xs, 0 ≤ c.amount ∧ c.amount < 2 ^ maxBitLen) (fun c cs t ⟨hst, hcs⟩ => ?_) amounts s1
        ⟨fun d => (subUnlockedCoins_totals d h1).2 ▸ hs d, fun c h => ⟨hpos c h, hc c h⟩⟩
      obtain ⟨hc0, hcs⟩ := List.forall_mem_cons.1 hcs
      refine ⟨burnSupply_ne_overflow (hst _) hc0, fun t' h => ⟨fun d => ?_, hcs⟩⟩
      obtain ⟨rfl, hn⟩ := burnSupply_ok h
      rw [BankState.supplyOf_putDenom]
      split_ifs with hd
      · obtain ⟨-, rfl⟩ := hd
        have := hst c.denom
        exact ⟨hn, by dsimp only; omega⟩
      · exact hst d

theorem addToPool_ne_overflow {w : DenomStore} {d : String} {x : Int}
    (h : 0 < x → ((s.denomStore w).amount d + x).natAbs < 2 ^ maxBitLen) :
    addToPool w d x s ≠ .panic .intOverflow := by
  unfold addToPool
  split
  · rename_i hx
    rw [getDenomCoin_bind]
    refine BankM.liftPanic_bind_ne_panic ?_ fun _ _ => by simp [setDenomCoin, modify]
    simp [SdkInt.add, SdkInt.checked, h hx]
  · simp

theorem createAccountIfMissing_ne_panic {p : Panic} (a : AccAddress) (s : BankState) :
    createAccountIfMissing a s ≠ .panic p := by
  simp [createAccountIfMissing, modify]

end Steps

/-! ## The split -/

/-- The split of `coin` sent from `fromAddr` to `toAddr` in the state `s` fits
in `sdk.Int` where nothing the keeper holds bounds it: the last `Sub` of the
net, and each positive portion added to its pool. -/
def SplitFits (s : BankState) (fromAddr toAddr : AccAddress) (coin : Coin) : Prop :=
  match deflationaryMatch s.params.supportDeflationary coin fromAddr toAddr with
  | .ok (some (burnAmount, liquidityAmount, feeTarAmount)) =>
    (coin.amount - burnAmount - liquidityAmount - feeTarAmount).natAbs < 2 ^ maxBitLen ∧
      (0 < liquidityAmount →
        (s.liquidityPool.amount coin.denom + liquidityAmount).natAbs < 2 ^ maxBitLen) ∧
      (0 < feeTarAmount → (s.feeTaxPool.amount coin.denom + feeTarAmount).natAbs < 2 ^ maxBitLen)
  | _ => True

instance splitFitsDecidable (s : BankState) (f t : AccAddress) (coin : Coin) :
    Decidable (SplitFits s f t coin) :=
  match h : deflationaryMatch s.params.supportDeflationary coin f t with
  | .ok (some (b, l, fe)) => decidable_of_iff ((coin.amount - b - l - fe).natAbs < 2 ^ maxBitLen ∧
      (0 < l → (s.liquidityPool.amount coin.denom + l).natAbs < 2 ^ maxBitLen) ∧
      (0 < fe → (s.feeTaxPool.amount coin.denom + fe).natAbs < 2 ^ maxBitLen)) (by rw [SplitFits, h])
  | .ok none => isTrue (by rw [SplitFits, h]; trivial)
  | .error _ => isTrue (by rw [SplitFits, h]; trivial)

theorem SplitFits.of_steady {s₀ s : BankState} (h : Steady s₀ s) {f t : AccAddress} {coin : Coin}
    (hfit : SplitFits s₀ f t coin) : SplitFits s f t coin := by
  unfold SplitFits
  rw [h.params, (h.pools coin.denom).1, (h.pools coin.denom).2]
  exact hfit

/-- Every coin a split holds is non-negative. -/
def Split.Nonneg (sp : Split) : Prop :=
  (∀ c ∈ sp.amt, 0 ≤ c.amount) ∧ (∀ c ∈ sp.burnCoins, 0 ≤ c.amount) ∧
    (∀ c ∈ sp.liquidityCoins, 0 ≤ c.amount) ∧ ∀ c ∈ sp.feeTarCoins, 0 ≤ c.amount

/-- `burnCoins.Add(liquidityCoins).Add(feeTarCoins)` of non-negative coins whose
totals fit. -/
theorem Coins.add_add_ne_overflow {as bs cs : Coins} (ha : ∀ c ∈ as, 0 ≤ c.amount)
    (hb : ∀ c ∈ bs, 0 ≤ c.amount) (hc : ∀ c ∈ cs, 0 ≤ c.amount)
    (h : ∀ d, as.amountSum d + bs.amountSum d + cs.amountSum d < 2 ^ maxBitLen) :
    (as.add bs >>= (·.add cs)) ≠ .error .intOverflow := by
  rw [Ne, except_bind_eq_error]
  rintro (h1 | ⟨m, hm, h2⟩)
  · exact Coins.add_ne_overflow ha hb (fun d => by have := Coins.amountSum_nonneg hc d; have := h d; omega) h1
  · exact Coins.add_ne_overflow (Coins.add_nonneg hm ha hb) hc
      (fun d => by rw [Coins.amountSum_add hm]; exact h d) h2

theorem Coins.amountSum_add_add {as bs cs r : Coins} (h : (as.add bs >>= (·.add cs)) = .ok r)
    (d : String) : r.amountSum d = as.amountSum d + bs.amountSum d + cs.amountSum d := by
  obtain ⟨m, hm, hr⟩ := except_bind_eq_ok.1 h
  rw [Coins.amountSum_add hr, Coins.amountSum_add hm]

section Split

variable {params : Params} {f t : AccAddress}

theorem deflationaryMatch_le (hv : validateSupportDeflationaryParams params.supportDeflationary = .ok ())
    {coin : Coin} (ha : 0 ≤ coin.amount ∧ coin.amount < 2 ^ maxBitLen) :
    ∃ res, deflationaryMatch params.supportDeflationary coin f t = .ok res ∧ PortionsLe coin.amount res := by
  obtain ⟨res, hres, hle, -⟩ := foldlM_deflationaryStep_le (f := f) (t := t) ha.1 ha.2
    (fun r hr => (validateSupportDeflationary_ok (((validateSupportDeflationaryParams_eq_ok _).1 hv).1 r hr)).2)
    (show PortionsLe _ none from trivial)
  exact ⟨res, hres, hle⟩

theorem deflationaryMatch_of_taxCoin {coin sent bc lc fc : Coin}
    (h : taxCoin params f t coin = .ok (some (sent, bc, lc, fc))) :
    deflationaryMatch params.supportDeflationary coin f t = .ok (some (bc.amount, lc.amount, fc.amount)) := by
  simp only [taxCoin] at h
  obtain ⟨r, hr, h⟩ := except_bind_eq_ok.1 h
  rcases r with _ | ⟨b, l, fa⟩
  · simp [Pure.pure, Except.pure] at h
  obtain ⟨_, hb, h⟩ := except_bind_eq_ok.1 h
  obtain ⟨_, hl, h⟩ := except_bind_eq_ok.1 h
  obtain ⟨_, hf, h⟩ := except_bind_eq_ok.1 h
  obtain ⟨_, -, h⟩ := except_bind_eq_ok.1 h
  obtain ⟨_, -, h⟩ := except_bind_eq_ok.1 h
  obtain ⟨-, -, rfl⟩ := newCoin_eq_ok.1 hb
  obtain ⟨-, -, rfl⟩ := newCoin_eq_ok.1 hl
  obtain ⟨-, -, rfl⟩ := newCoin_eq_ok.1 hf
  simp only [Pure.pure, Except.pure, Except.ok.injEq, Option.some.injEq, Prod.mk.injEq] at h
  obtain ⟨-, rfl, rfl, rfl⟩ := h
  exact hr

variable {s : BankState} (hv : validateSupportDeflationaryParams params.supportDeflationary = .ok ())
include hv

/-- Under validated rules the split of a coin within `sdk.Int` overflows only in
the last `Sub` of its net. -/
theorem taxCoin_ne_overflow (hp : s.params = params) {coin : Coin}
    (ha : 0 ≤ coin.amount ∧ coin.amount < 2 ^ maxBitLen) (hfit : SplitFits s f t coin) :
    taxCoin params f t coin ≠ .error .intOverflow := by
  obtain ⟨res, hm, hle⟩ := deflationaryMatch_le (f := f) (t := t) hv ha
  rw [SplitFits, hp, hm] at hfit
  rcases res with _ | ⟨b, l, fe⟩
  · simp [taxCoin, hm, bind, Except.bind, pure, Except.pure]
  · by_cases hd : validateDenom coin.denom = true
    · rw [taxCoin_eq_of_match ha.2 hd hm hle]
      split_ifs with h1 h2
      · simp
      · simp
      · exact absurd (neg_lt_of_natAbs_lt hfit.1) h2
    · simp [taxCoin, hm, newCoin, Coin.isValid, hd, bind, Except.bind]

/-- One coin of the split: its net, then each positive portion added to its
pool, the pools being those of the state whose split fits. -/
theorem deflationaryCoin_ne_overflow (hp : s.params = params) {coin : Coin}
    (ha : 0 ≤ coin.amount ∧ coin.amount < 2 ^ maxBitLen) (hfit : SplitFits s f t coin) :
    deflationaryCoin params f t coin s ≠ .panic .intOverflow := by
  unfold deflationaryCoin
  refine BankM.liftPanic_bind_ne_panic (taxCoin_ne_overflow hv hp ha hfit) fun r hr => ?_
  rcases r with _ | ⟨sent, bc, lc, fc⟩
  · simp
  · obtain ⟨-, -, -, hs, -⟩ := taxCoin_eq_some hr
    rw [SplitFits, hp, deflationaryMatch_of_taxCoin hr] at hfit
    obtain ⟨-, hliq, hfee⟩ := hfit
    dsimp only
    refine BankM.bind_ne_panic (addToPool_ne_overflow (by rwa [hs])) fun _ s1 h1 => ?_
    refine BankM.bind_ne_panic (addToPool_ne_overflow ?_) fun _ _ _ => by simp
    rw [addToPool_ok h1]
    split_ifs <;> simpa [hs] using hfee

/-- The coin loop of the split, from a state steady since `s₀`, over coins
within `sdk.Int` whose splits fit in `s₀`. -/
theorem deflationaryLoop_ne_overflow {s₀ : BankState} (hp : s₀.params = params) :
    ∀ {amt : Coins} {s : BankState}, Steady s₀ s → (∀ c ∈ amt, 0 ≤ c.amount ∧ c.amount < 2 ^ maxBitLen) →
      (∀ c ∈ amt, SplitFits s₀ f t c) → deflationaryLoop params f t amt s ≠ .panic .intOverflow
  | [], _, _, _, _ => by simp [deflationaryLoop]
  | coin :: rest, s, hst, hc, hfit => by
    rw [deflationaryLoop]
    refine BankM.bind_ne_panic (deflationaryCoin_ne_overflow hv (hst.params.trans hp)
      (hc coin (List.mem_cons_self _ _)) ((hfit coin (List.mem_cons_self _ _)).of_steady hst))
      fun _ s1 h1 => BankM.bind_ne_panic ?_ fun _ _ _ => by simp
    exact deflationaryLoop_ne_overflow hp
      (((deflationaryCoin_keeps (steady_stable s₀).writeBack params f t coin) s hst).1 _ _ h1)
      (fun c h => hc c (List.mem_cons_of_mem _ h)) fun c h => hfit c (List.mem_cons_of_mem _ h)

omit hv in
theorem deflationaryLoop_nonneg :
    ∀ {amt : Coins} {sp : Split} {s s' : BankState}, deflationaryLoop params f t amt s = .ok sp s' →
      (∀ c ∈ amt, 0 ≤ c.amount) → sp.Nonneg
  | [], _, s, s', h, _ => by
    cases h
    simp [Split.Nonneg]
  | coin :: rest, _, s, s', h, ha => by
    obtain ⟨one, s1, h1, h⟩ := BankM.bind_eq_ok.1 h
    obtain ⟨more, s2, h2, h⟩ := BankM.bind_eq_ok.1 h
    cases h
    obtain ⟨r, hr, rfl⟩ := deflationaryCoin_ok h1
    obtain ⟨h₁, h₂, h₃, h₄⟩ := deflationaryLoop_nonneg h2 fun c hc => ha c (List.mem_cons_of_mem _ hc)
    have h0 := ha coin (List.mem_cons_self _ _)
    rcases r with _ | ⟨sent, bc, lc, fc⟩
    · simp_all [Split.Nonneg, Split.ofTax]
    · obtain ⟨-, -, -, -, -, hb, hl, hf, hs⟩ := taxCoin_eq_some hr
      simp_all [Split.Nonneg, Split.ofTax]

omit hv in
/-- The portions a split of non-negative coins diverts add up to at most the
coins, the nets being non-negative. -/
theorem deflationaryLoop_portions_le {amt : Coins} {sp : Split} {s s' : BankState}
    (h : deflationaryLoop params f t amt s = .ok sp s') (hamt : ∀ c ∈ amt, 0 ≤ c.amount) (d : String) :
    sp.burnCoins.amountSum d + sp.liquidityCoins.amountSum d + sp.feeTarCoins.amountSum d ≤
      amt.amountSum d := by
  have := deflationaryLoop_balanced h d
  have := Coins.amountSum_nonneg (deflationaryLoop_nonneg h hamt).1 d
  omega

end Split

/-! ## Transfers -/

section Transfers

variable {k : Keeper} {s : BankState} {f t : AccAddress}

/-- The split of non-negative coins whose splits fit, from a state whose
balances, with `amt` more, and whose supplies are `sdk.Int`s: the portions add
up to at most `amt`, so neither their sum nor the credit and burn of it
overflow. -/
theorem deflationaryCoins_ne_overflow (hk : k.LockedFit) {amt : Coins}
    (hv : validateSupportDeflationaryParams s.params.supportDeflationary = .ok ())
    (hpos : s.balances.AllPos) (hS : ∀ d, 0 ≤ s.supplyOf d ∧ s.supplyOf d < 2 ^ maxBitLen)
    (hamt : ∀ c ∈ amt, 0 ≤ c.amount) (hT : ∀ d, s.totalBalance d + amt.amountSum d < 2 ^ maxBitLen)
    (hfit : ∀ c ∈ amt, SplitFits s f t c) :
    deflationaryCoins k f t amt s ≠ .panic .intOverflow := by
  have hA (d : String) : amt.amountSum d < 2 ^ maxBitLen := by
    have := BankState.totalBalance_nonneg hpos d
    have := hT d
    omega
  have hst := Steady.refl hpos fun d => (hS d).1
  unfold deflationaryCoins
  rw [getParams_bind]
  refine BankM.bind_ne_panic (deflationaryLoop_ne_overflow hv rfl hst
    (fun c hc => ⟨hamt c hc, (Coins.amount_le_amountSum hamt hc).trans_lt (hA _)⟩) hfit) fun sp s1 h1 => ?_
  have hst1 := ((deflationaryLoop_keeps (steady_stable s).writeBack _ f t amt) s hst).1 _ _ h1
  obtain ⟨-, hn₂, hn₃, hn₄⟩ := deflationaryLoop_nonneg h1 hamt
  have hsplit := deflationaryLoop_portions_le h1 hamt
  rcases k.getModuleAccount moduleName with _ | acc
  · simp [BankM.abort]
  dsimp only
  refine BankM.liftPanic_bind_ne_panic (Coins.add_add_ne_overflow hn₂ hn₃ hn₄
    fun d => (hsplit d).trans_lt (hA d)) fun tc htc => ?_
  split
  · simp
  refine BankM.bind_ne_panic (addCoins_ne_overflow fun d => BankState.balanceOf_add_lt hst1.balancesPos
    (by rw [(deflationaryLoop_totals d h1).1, Coins.amountSum_add_add htc]
        have := hsplit d; have := hT d; omega) _) fun _ s2 h2 => ?_
  split
  · simp
  have hst2 := ((addCoins_keeps (steady_stable s) trivial tc) s1 hst1).1 _ _ h2
  have hT2 (d : String) : s2.totalBalance d < 2 ^ maxBitLen := by
    rw [(addCoins_totals d h2).1, (deflationaryLoop_totals d h1).1, Coins.amountSum_add_add htc]
    have := hsplit d
    have := hT d
    omega
  refine BankM.bind_ne_panic (burnCoins_ne_overflow hk (fun a d => BankState.balanceOf_lt hst2.balancesPos (hT2 d) a)
    (fun d => ⟨(hst2.supply d).1, (hst2.supply d).2.trans_lt (hS d).2⟩) fun c hc => ?_) fun _ _ _ => by simp
  have := Coins.amount_le_amountSum hn₂ hc
  have := hsplit c.denom
  have := Coins.amountSum_nonneg hn₃ c.denom
  have := Coins.amountSum_nonneg hn₄ c.denom
  have := hA c.denom
  omega

/-- After the split, the coins it returns fit on any balance: the balances lost
`amt` and gained only the portions, which the returned coins complete to `amt`. -/
theorem deflationaryCoins_room {amt sent : Coins} {s' : BankState} (hpos : s.balances.AllPos)
    (hT : ∀ d, s.totalBalance d + amt.amountSum d < 2 ^ maxBitLen)
    (h : deflationaryCoins k f t amt s = .ok sent s') (a : AccAddress) (d : String) :
    0 ≤ s'.balanceOf a d ∧ s'.balanceOf a d + sent.amountSum d < 2 ^ maxBitLen := by
  have e := (deflationaryCoins_totals d h).1
  have := burnCoinsOf_nonneg s.params f t d amt
  have hpos' := ((deflationaryCoins_keeps balancesPos_stable k (fun _ _ => trivial) f t amt) s hpos).1 _ _ h
  exact BankState.balanceOf_add_lt hpos' (by have := hT d; omega) a

/-- `SendCoins` from a state whose amounts are bounded, of coins that are
`sdk.Int`s and whose splits fit: the debit, the split and the credit stay
within the supply. -/
theorem sendCoins_ne_overflow (hk : k.LockedFit) (hb : AmountsBounded s)
    (hv : validateSupportDeflationaryParams s.params.supportDeflationary = .ok ()) {amt : Coins}
    (hc : ∀ c ∈ amt, c.amount < 2 ^ maxBitLen) (hfit : ∀ c ∈ amt, SplitFits s f t c) :
    sendCoins k f t amt s ≠ .panic .intOverflow := by
  refine BankM.bind_ne_panic (subUnlockedCoins_ne_overflow hk (fun d => ⟨(hb.balance_le f d).1,
    (hb.balance_le f d).2.1.trans_lt (hb.supplyLt d)⟩) hc) fun _ s1 h1 => ?_
  have hst1 := ((subUnlockedCoins_keeps (steady_stable s) k trivial amt) s
    (Steady.refl hb.balancesPos fun d => (hb.balance_le "" d).1.trans (hb.balance_le "" d).2.1)).1 _ _ h1
  have hT1 (d : String) : s1.totalBalance d + amt.amountSum d < 2 ^ maxBitLen := by
    have := (subUnlockedCoins_totals d h1).1
    have := (hb.totalLe d).trans_lt (hb.supplyLt d)
    omega
  refine BankM.bind_ne_panic (deflationaryCoins_ne_overflow hk (hst1.params ▸ hv) hst1.balancesPos
    (fun d => ⟨(hst1.supply d).1, (hst1.supply d).2.trans_lt (hb.supplyLt d)⟩)
    (Coins.amount_nonneg_of_isValid (subUnlockedCoins_ok k h1).1) hT1
    fun c hc' => (hfit c hc').of_steady hst1) fun sent s2 h2 => ?_
  exact BankM.bind_ne_panic (addCoins_ne_overflow (deflationaryCoins_room hst1.balancesPos hT1 h2 t))
    fun _ s3 _ => createAccountIfMissing_ne_panic t s3

/-- Coins below non-negative coins are non-negative. -/
theorem forall₂_coinBelow_nonneg {l' l : Coins} (h : List.Forall₂ CoinBelow l' l)
    (hl : ∀ c ∈ l, 0 ≤ c.amount) : ∀ c ∈ l', 0 ≤ c.amount := by
  induction h with
  | nil => simp
  | cons hc _ ih =>
    simp only [List.forall_mem_cons] at hl ⊢
    exact ⟨hc.2.2 hl.1, ih hl.2⟩

/-- One of the two folds of `ValidateInputsOutputs`, over non-negative coins
whose total fits in every denomination: each partial total stays below it. -/
theorem foldlM_validateBasic_ne_overflow {β : Type} (address : β → String) (coins : β → Coins)
    {xs : List β} (hpos : ∀ x ∈ xs, ∀ c ∈ coins x, 0 ≤ c.amount)
    (hsum : ∀ d, (xs.map fun x => (coins x).amountSum d).sum < 2 ^ maxBitLen) (s : BankState) :
    List.foldlM (fun (total : Coins) x => (do
      validateBasic (address x) (coins x)
      BankM.liftPanic (total.add (coins x)) : BankM Coins)) [] xs s ≠ .panic .intOverflow := by
  refine foldlM_ne_panic (fun (acc : Coins) (ys : List β) _ => (∀ c ∈ acc, 0 ≤ c.amount) ∧
      (∀ y ∈ ys, ∀ c ∈ coins y, 0 ≤ c.amount) ∧
      ∀ d, acc.amountSum d + (ys.map fun y => (coins y).amountSum d).sum < 2 ^ maxBitLen)
    (fun acc y ys t ⟨hacc, hys, hd⟩ => ?_) xs [] s ⟨by simp, hpos, by simpa using hsum⟩
  obtain ⟨hy, hys⟩ := List.forall_mem_cons.1 hys
  have hrest (d : String) : 0 ≤ (ys.map fun y => (coins y).amountSum d).sum :=
    List.sum_nonneg fun _ hx => by
      obtain ⟨y', hy', rfl⟩ := List.mem_map.1 hx
      exact Coins.amountSum_nonneg (hys y' hy') d
  refine ⟨BankM.bind_ne_panic (validateBasic_ne_panic _ _ t) fun _ t' _ =>
    BankM.liftPanic_ne_panic (Coins.add_ne_overflow hacc hy fun d => ?_) t', fun acc' t' h => ?_⟩
  · have h1 := hd d
    rw [List.map_cons, List.sum_cons] at h1
    have := hrest d
    omega
  · obtain ⟨_, t1, -, h⟩ := BankM.bind_eq_ok.1 h
    obtain ⟨hadd, -⟩ := BankM.liftPanic_eq_ok.1 h
    refine ⟨Coins.add_nonneg hadd hacc hy, hys, fun d => ?_⟩
    have h1 := hd d
    rw [List.map_cons, List.sum_cons] at h1
    rw [Coins.amountSum_add hadd]
    omega

/-- `ValidateInputsOutputs` of non-negative coins whose inputs' and outputs'
totals fit: the two folds of `Coins.Add` stay below their totals, and
`Coins.IsEqual` does not overflow. -/
theorem validateInputsOutputs_ne_overflow {inputs : List Input} {outputs : List Output}
    {mem : List Coin} (hin : ∀ i ∈ inputs, ∀ c ∈ i.coins, 0 ≤ c.amount)
    (hout : ∀ o ∈ outputs, ∀ c ∈ o.coins.read mem, 0 ≤ c.amount)
    (hsum : ∀ d, (inputs.map fun i => i.coins.amountSum d).sum < 2 ^ maxBitLen ∧
      (outputs.map fun o => (o.coins.read mem).amountSum d).sum < 2 ^ maxBitLen) (s : BankState) :
    validateInputsOutputs inputs outputs mem s ≠ .panic .intOverflow := by
  unfold validateInputsOutputs
  refine BankM.bind_ne_panic (foldlM_validateBasic_ne_overflow _ _ hin (fun d => (hsum d).1) s)
    fun _ s1 _ => BankM.bind_ne_panic
      (foldlM_validateBasic_ne_overflow _ _ hout (fun d => (hsum d).2) s1) fun _ s2 _ => ?_
  refine BankM.liftPanic_bind_ne_panic (Coins.isEqual_ne_overflow _ _) fun _ _ => ?_
  split <;> simp [BankM.throw]

/-- The input loop of a multi-send, from a state whose balances are non-negative
and sum below `2^256`, over inputs whose coins are non-negative `sdk.Int`s. -/
theorem inputs_ne_overflow (hk : k.LockedFit) {inputs : List Input}
    (hin : ∀ i ∈ inputs, ∀ c ∈ i.coins, 0 ≤ c.amount ∧ c.amount < 2 ^ maxBitLen)
    (hpos : s.balances.AllPos) (hT : ∀ d, s.totalBalance d < 2 ^ maxBitLen) :
    (inputs.forM fun input => do
      let inAddress ← parseAddress input.address
      subUnlockedCoins k inAddress input.coins : BankM Unit) s ≠ .panic .intOverflow := by
  refine forM_ne_panic (fun (ys : List Input) u => u.balances.AllPos ∧
      (∀ d, u.totalBalance d < 2 ^ maxBitLen) ∧ ∀ i ∈ ys, ∀ c ∈ i.coins, 0 ≤ c.amount ∧ c.amount < 2 ^ maxBitLen)
    (fun i is u ⟨hu, hTu, his⟩ => ?_) inputs s ⟨hpos, hT, hin⟩
  obtain ⟨hi, his⟩ := List.forall_mem_cons.1 his
  refine ⟨BankM.bind_ne_panic (parseAddress_ne_panic _ u) fun a u1 h1 => ?_, fun u' h => ⟨?_, fun d => ?_, his⟩⟩
  · obtain ⟨rfl, rfl⟩ := parseAddress_ok h1
    exact subUnlockedCoins_ne_overflow hk (fun d => BankState.balanceOf_lt hu (hTu d) _) fun c hc => (hi c hc).2
  · exact (((parseAddress_keeps _).bind fun _ => subUnlockedCoins_keeps balancesPos_stable k trivial i.coins)
      u hu).1 _ _ h
  · have := (inputCoins_totals d h).1
    have := Coins.amountSum_nonneg (fun c hc => (hi c hc).1) d
    have := hTu d
    omega

/-- One output of a multi-send, from a state steady since `s₀`, whose balances
with the coins its slice holds sum below `2^256`. -/
theorem outputCoins_ne_overflow (hk : k.LockedFit) {s₀ : BankState}
    (hv : validateSupportDeflationaryParams s₀.params.supportDeflationary = .ok ())
    (hS : ∀ d, s₀.supplyOf d < 2 ^ maxBitLen) (hst : Steady s₀ s) {out : Output} {mem : List Coin}
    (hamt : ∀ c ∈ out.coins.read mem, 0 ≤ c.amount)
    (hT : ∀ d, s.totalBalance d + (out.coins.read mem).amountSum d < 2 ^ maxBitLen)
    (hfit : ∀ c ∈ out.coins.read mem, SplitFits s₀ "" out.address c) :
    outputCoins k mem out s ≠ .panic .intOverflow := by
  unfold outputCoins
  refine BankM.bind_ne_panic (parseAddress_ne_panic _ s) fun a s1 h1 => ?_
  obtain ⟨rfl, rfl⟩ := parseAddress_ok h1
  refine BankM.bind_ne_panic (deflationaryCoins_ne_overflow hk (hst.params ▸ hv) hst.balancesPos
    (fun d => ⟨(hst.supply d).1, (hst.supply d).2.trans_lt (hS d)⟩) hamt hT
    fun c hc => (hfit c hc).of_steady hst) fun sent s2 h2 => ?_
  exact BankM.bind_ne_panic (addCoins_ne_overflow (deflationaryCoins_room hst.balancesPos hT h2 _))
    fun _ s3 _ => BankM.bind_ne_panic (createAccountIfMissing_ne_panic _ s3) fun _ _ _ => by simp

/-- The output loop of a multi-send: each output splits what its slice holds
after the earlier write-backs, and the balances with what the outputs still to
come read stay below `2^256`. -/
theorem outputs_ne_overflow (hk : k.LockedFit) {s₀ : BankState}
    (hv : validateSupportDeflationaryParams s₀.params.supportDeflationary = .ok ())
    (hS : ∀ d, s₀.supplyOf d < 2 ^ maxBitLen) :
    ∀ {outputs : List Output} {mem : List Coin} {s : BankState}, Steady s₀ s →
      (∀ x ∈ outputReads s₀.params outputs mem, ∀ c ∈ x.2, 0 ≤ c.amount ∧ SplitFits s₀ "" x.1.address c) →
      (∀ d, s.totalBalance d +
        ((outputReads s₀.params outputs mem).map fun x => x.2.amountSum d).sum < 2 ^ maxBitLen) →
      outputs.foldlM (outputCoins k) mem s ≠ .panic .intOverflow
  | [], _, _, _, _, _ => by simp
  | o :: os, mem, s, hst, hx, hT => by
    rw [List.foldlM_cons]
    simp only [outputReads, List.forall_mem_cons, List.map_cons, List.sum_cons] at hx hT
    have hrest (d : String) : 0 ≤ ((outputReads s₀.params os (o.coins.write mem
        (netCoinsOf s₀.params "" o.address (o.coins.read mem)))).map fun x => x.2.amountSum d).sum :=
      List.sum_nonneg fun _ hm => by
        obtain ⟨y, hy, rfl⟩ := List.mem_map.1 hm
        exact Coins.amountSum_nonneg (fun c hc => (hx.2 y hy c hc).1) d
    refine BankM.bind_ne_panic (outputCoins_ne_overflow hk hv hS hst (fun c hc => (hx.1 c hc).1)
      (fun d => by have := hT d; have := hrest d; omega) fun c hc => (hx.1 c hc).2) fun m1 s1 h1 => ?_
    obtain ⟨-, -, -, rfl⟩ := outputCoins_totals "" h1
    rw [hst.params]
    refine outputs_ne_overflow hk hv hS
      (((outputCoins_keeps (steady_stable s₀) k trivial (fun _ _ => trivial) mem) s hst).1 _ _ h1) hx.2
      fun d => ?_
    have := (outputCoins_totals d h1).1
    have := burnCoinsOf_nonneg s.params "" o.address d (o.coins.read mem)
    have := hT d
    omega

/-- `InputOutputCoins` from a state whose amounts are bounded, of non-negative
coins whose inputs' and outputs' totals fit and whose splits fit: the debits
take what the outputs then read, which the write-backs only lower. -/
theorem inputOutputCoins_ne_overflow (hk : k.LockedFit) (hb : AmountsBounded s)
    (hv : validateSupportDeflationaryParams s.params.supportDeflationary = .ok ())
    {inputs : List Input} {outputs : List Output} {mem : List Coin}
    (hin : ∀ i ∈ inputs, ∀ c ∈ i.coins, 0 ≤ c.amount)
    (hout : ∀ o ∈ outputs, ∀ c ∈ o.coins.read mem, 0 ≤ c.amount)
    (hsum : ∀ d, (inputs.map fun i => i.coins.amountSum d).sum < 2 ^ maxBitLen ∧
      (outputs.map fun o => (o.coins.read mem).amountSum d).sum < 2 ^ maxBitLen)
    (hfit : ∀ x ∈ outputReads s.params outputs mem, ∀ c ∈ x.2, SplitFits s "" x.1.address c) :
    inputOutputCoins k inputs outputs mem s ≠ .panic .intOverflow := by
  have hT (d : String) : s.totalBalance d < 2 ^ maxBitLen := (hb.totalLe d).trans_lt (hb.supplyLt d)
  have hst := Steady.refl hb.balancesPos fun d => (hb.balance_le "" d).1.trans (hb.balance_le "" d).2.1
  unfold inputOutputCoins
  refine BankM.bind_ne_panic (validateInputsOutputs_ne_overflow hin hout hsum s) fun _ s1 h1 => ?_
  obtain ⟨e1, hio⟩ := validateInputsOutputs_ok h1
  rw [e1]
  refine BankM.bind_ne_panic (inputs_ne_overflow hk (fun i hi c hc => ⟨hin i hi c hc, ?_⟩) hb.balancesPos hT)
    fun _ s2 h2 => ?_
  · calc c.amount ≤ i.coins.amountSum c.denom := Coins.amount_le_amountSum (hin i hi) hc
      _ ≤ (inputs.map fun i => i.coins.amountSum c.denom).sum :=
        List.single_le_sum (fun _ hx => by
          obtain ⟨j, hj, rfl⟩ := List.mem_map.1 hx
          exact Coins.amountSum_nonneg (hin j hj) _) _ (List.mem_map_of_mem _ hi)
      _ < 2 ^ maxBitLen := (hsum c.denom).1
  have hbelow := outputReads_below s.params outputs (List.forall₂_same.2 fun c _ => CoinBelow.refl c :
    List.Forall₂ CoinBelow mem mem)
  have hst2 : Steady s s2 := ((Keeps.forM fun (i : Input) _ => (parseAddress_keeps _).bind fun _ =>
    subUnlockedCoins_keeps (steady_stable s) k trivial i.coins) s hst).1 _ _ h2
  refine outputs_ne_overflow hk hv hb.supplyLt hst2
    (fun x hx c hc => ⟨forall₂_coinBelow_nonneg (hbelow x hx) (hout x.1 (by
      rw [← outputReads_fst s.params outputs mem]
      exact List.mem_map_of_mem _ hx)) c hc, hfit x hx c hc⟩) fun d => ?_
  have := (inputs_totals d h2).1
  have := hio d
  have := Call.lost_nonneg s.params d (.inputOutputCoins inputs outputs mem)
  simp only [Call.lost] at this
  have := hT d
  omega

end Transfers

/-! ## Every call from a reachable state -/

/-- The coins a transfer's caller passes are `sdk.Int`s: for a multi-send, the
inputs' and the outputs' coins are non-negative, and neither their total of a
denomination, which `ValidateInputsOutputs` adds up from them before it looks
at any store, reaches `2^256`. -/
def Call.CoinsFit : Call → Prop
  | .sendCoins _ _ amt => ∀ c ∈ amt, c.amount < 2 ^ maxBitLen
  | .inputOutputCoins inputs outputs mem =>
    (∀ i ∈ inputs, ∀ c ∈ i.coins, 0 ≤ c.amount) ∧ (∀ o ∈ outputs, ∀ c ∈ o.coins.read mem, 0 ≤ c.amount) ∧
      ∀ d, (inputs.map fun i => i.coins.amountSum d).sum < 2 ^ maxBitLen ∧
        (outputs.map fun o => (o.coins.read mem).amountSum d).sum < 2 ^ maxBitLen

/-- The split of every coin a transfer sends fits in the state `s` it starts
in; a multi-send splits what each output reads after the earlier write-backs,
as sent from the empty address. -/
def Call.SplitsFit (s : BankState) : Call → Prop
  | .sendCoins f t amt => ∀ c ∈ amt, SplitFits s f t c
  | .inputOutputCoins _ outputs mem =>
    ∀ x ∈ outputReads s.params outputs mem, ∀ c ∈ x.2, SplitFits s "" x.1.address c

theorem Call.run_ne_overflow {k : Keeper} {s : BankState} (hk : k.LockedFit) (hb : AmountsBounded s)
    (hv : validateSupportDeflationaryParams s.params.supportDeflationary = .ok ()) :
    ∀ c : Call, c.CoinsFit → c.SplitsFit s → c.run k s ≠ .panic .intOverflow
  | .sendCoins _ _ _, hc, hf => sendCoins_ne_overflow hk hb hv hc hf
  | .inputOutputCoins _ _ _, ⟨hin, hout, hsum⟩, hf =>
    BankM.bind_ne_panic (inputOutputCoins_ne_overflow hk hb hv hin hout hsum hf) fun _ _ _ => by simp

/-- `InitGenesis` leaves the genesis parameters in the store. -/
theorem initGenesis_params {k : Keeper} {gen : GenesisState} {s s' : BankState}
    (h : initGenesis k gen s = .ok () s') : s'.params = gen.params := by
  obtain ⟨total, s2, h2, total', -, s3, s4, s5, h6, h7, h8, accounts, rfl⟩ := initGenesis_ok h
  have hw (w : DenomStore) (coins : Coins) :
      Keeps (fun t : BankState => t.params = gen.params) (coins.forM (setDenomCoin w)) :=
    Keeps.forM fun _ _ => Keeps.modify fun t ht => by simpa using ht
  have p2 := ((initGenesisBalances_keeps (P := fun t => t.params = gen.params)
    (fun _ _ _ ht _ _ => ht) _) _ rfl).1 _ _ h2
  have p3 := ((hw .supply total') s2 p2).1 _ _ h6
  have p4 := ((hw .feeTaxPool gen.feeTaxPool) s3 p3).1 _ _ h7
  have p5 := ((hw .liquidityPool gen.liquidityPool) s4 p4).1 _ _ h8
  exact p5

/-- Along every run the rules are those `InitGenesis` validated. -/
theorem Reachable.rules_valid {k : Keeper} {G : GenesisState → Prop} {A : Call → Prop} {s : BankState}
    (h : Reachable k G A s) : validateSupportDeflationaryParams s.params.supportDeflationary = .ok () :=
  h.inv (I := fun t => validateSupportDeflationaryParams t.params.supportDeflationary = .ok ())
    (fun gen s _ hi => by
      dsimp only
      rw [initGenesis_params hi]
      by_contra hne
      rw [initGenesis_eq_panic_of_rules k _ hne] at hi
      cases hi)
    fun c s s' _ hs hc => by
      dsimp only at hs ⊢
      rwa [((Call.run_keeps (paramsAre_stable s.params) c) s rfl).1 _ _ hc]

/-- Overflow: from a genesis of distinct `sdk.Int` balances, along every run of
transfers that return nil, every balance of a denomination lies between zero and
its supply, which is below `2^256`, and a portion of any amount up to the supply
returns, between zero and the amount. So a later transfer, whose caller passes
`sdk.Int`s and whose locked coins are `sdk.Int`s, panics with Int overflow only
where nothing the keeper holds bounds the value: the totals
`ValidateInputsOutputs` adds up from the caller's coins, the last `Sub` of the
net of a taxed coin, or the sum of a pool and a positive portion. -/
theorem reachable_overflow_sites {k : Keeper} {s : BankState} (hk : k.LockedFit)
    (h : Reachable k GenesisBounded (fun _ => True) s) :
    (∀ a d, 0 ≤ s.balanceOf a d ∧ s.balanceOf a d ≤ s.supplyOf d ∧ s.supplyOf d < 2 ^ maxBitLen) ∧
      (∀ d a (p : Dec), 0 ≤ a → a ≤ s.supplyOf d → validateSdkDec p = .ok () →
        ∃ v, portion a p = .ok v ∧ 0 ≤ v ∧ v ≤ a) ∧
      ∀ c : Call, c.CoinsFit → c.SplitsFit s → c.run k s ≠ .panic .intOverflow := by
  obtain ⟨h1, h2⟩ := reachable_amounts_bounded h
  exact ⟨h1, h2, Call.run_ne_overflow hk h.amountsBounded h.rules_valid⟩

/-- The state after the test's taxed transfer of 50 foo. -/
def taxedSendState : BankState :=
  (sendCoins testKeeper "addr1" "addr2" [⟨"foo", 50⟩] (testGenesisState [testRule "foo"])).okState?.getD
    BankState.empty

theorem taxedSendState_overflow_sites :
    (∀ a d, 0 ≤ taxedSendState.balanceOf a d ∧ taxedSendState.balanceOf a d ≤ taxedSendState.supplyOf d ∧
        taxedSendState.supplyOf d < 2 ^ maxBitLen) ∧
      (∀ d a (p : Dec), 0 ≤ a → a ≤ taxedSendState.supplyOf d → validateSdkDec p = .ok () →
        ∃ v, portion a p = .ok v ∧ 0 ≤ v ∧ v ≤ a) ∧
      ∀ c : Call, c.CoinsFit → c.SplitsFit taxedSendState →
        c.run testKeeper taxedSendState ≠ .panic .intOverflow :=
  reachable_overflow_sites (fun _ c hc => by simp [testKeeper] at hc)
    (.call (.sendCoins "addr1" "addr2" [⟨"foo", 50⟩]) trivial
      (.genesis (by decide) (Outcome.eq_ok_of_isSome (by decide))) (Outcome.eq_ok_of_isSome (by decide)))

/-- `addr1` holds `2^255` foo, an `sdk.Int`, under a validated rule whose
percentages are all 1. -/
def bigGenesis : GenesisState :=
  ⟨⟨[], true, [fullRule]⟩, [⟨"addr1", [⟨"foo", ((2 ^ 255 : Nat) : Int)⟩]⟩], [], [], []⟩

/-- The test's funds and rule, with a liquidity pool of `2^256 - 1` foo, which
`InitGenesis` stores as given. -/
def fullPoolGenesis : GenesisState :=
  ⟨⟨[], true, [testRule "foo"]⟩, [⟨"addr1", [⟨"bar", 50⟩, ⟨"foo", 100⟩]⟩], [],
    [⟨"foo", ((2 ^ 256 - 1 : Nat) : Int)⟩], []⟩

/-- Each of the three sites overflows after a genesis of distinct `sdk.Int`
balances that `InitGenesis` accepts. Sending all of `bigGenesis`'s `2^255` foo
takes three portions of `2^255`, within their bounds, and the net
`2^255 - 3 * 2^255 = -2^256` overflows the last `Sub`. Sending 50 foo after
`fullPoolGenesis` takes a liquidity portion of 2, which the pool update adds to
`2^256 - 1`. A multi-send whose two inputs each name `2^255` foo overflows the
inputs' total before any balance is read. -/
theorem intOverflow_sites_reached :
    GenesisBounded bigGenesis ∧ (initGenesis testKeeper bigGenesis BankState.empty).okState?.isSome ∧
      ((initGenesis testKeeper bigGenesis >>= fun _ =>
        sendCoins testKeeper "addr1" "addr2" [⟨"foo", ((2 ^ 255 : Nat) : Int)⟩]) BankState.empty).panic? =
          some .intOverflow ∧
    GenesisBounded fullPoolGenesis ∧ (initGenesis testKeeper fullPoolGenesis BankState.empty).okState?.isSome ∧
      ((initGenesis testKeeper fullPoolGenesis >>= fun _ =>
        sendCoins testKeeper "addr1" "addr2" [⟨"foo", 50⟩]) BankState.empty).panic? = some .intOverflow ∧
    ((Call.inputOutputCoins [⟨"addr1", [⟨"foo", ((2 ^ 255 : Nat) : Int)⟩]⟩,
        ⟨"addr1", [⟨"foo", ((2 ^ 255 : Nat) : Int)⟩]⟩] [⟨"addr2", ⟨0, 1⟩⟩] [⟨"foo", 1⟩]).run testKeeper
          (testGenesisState [])).panic? = some .intOverflow := by
  decide

end DeflationaryBank
