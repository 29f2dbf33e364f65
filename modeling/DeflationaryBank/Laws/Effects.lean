import DeflationaryBank.Laws.Monad
import DeflationaryBank.Keeper.Send
import DeflationaryBank.Types.CoinAlgebra

/-!
# What each keeper operation does to the stores

One lemma per operation, stated on the `BankState` it returns in: reads are
pure, `setBalance` and the three denomination setters are single `put`s, and a
coin step of a loop is a `put` of the amount read plus or minus the coin. The
frame, total and refinement laws of the later modules are built on these. Last, the
caller's memory a multi-send writes its nets into: a slice reads what a write
through another slice left exactly where the two share cells.
-/

namespace DeflationaryBank

variable {α β : Type} {s s' : BankState}

/-! ## Reads and lifted values -/

@[simp] theorem getBalance_bind (a : AccAddress) (d : String) (f : Coin → BankM β) :
    (getBalance a d >>= f) s = f ⟨d, s.balanceOf a d⟩ s := rfl

@[simp] theorem getDenomCoin_bind (w : DenomStore) (d : String) (f : Coin → BankM β) :
    (getDenomCoin w d >>= f) s = f ⟨d, (s.denomStore w).amount d⟩ s := rfl

@[simp] theorem getParams_bind (f : Params → BankM β) : (getParams >>= f) s = f s.params s := rfl

theorem liftPanic_bind_eq_ok {x : Except Panic α} {f : α → BankM β} {b : β} :
    (BankM.liftPanic x >>= f) s = .ok b s' ↔ ∃ a, x = .ok a ∧ f a s = .ok b s' := by
  cases x <;> simp [BankM.bind_apply, BankM.liftPanic]

theorem liftPanic_bind_eq_err {x : Except Panic α} {f : α → BankM β} {e : BankError} :
    (BankM.liftPanic x >>= f) s = .err e s' ↔ ∃ a, x = .ok a ∧ f a s = .err e s' := by
  cases x <;> simp [BankM.bind_apply, BankM.liftPanic]

/-! ## Coin arithmetic -/

theorem SdkInt.checked_eq_ok {x y : Int} : SdkInt.checked x = .ok y ↔ x.natAbs < 2 ^ maxBitLen ∧ y = x := by
  unfold SdkInt.checked; split_ifs with h <;> simp [h, eq_comm]

/-- An integer strictly within `2 ^ maxBitLen` of zero passes the bit check. -/
theorem SdkInt.checked_of_lt {x : Int} (h1 : -2 ^ maxBitLen < x) (h2 : x < 2 ^ maxBitLen) :
    SdkInt.checked x = .ok x := by
  have hpow : ((2 : Int) ^ maxBitLen).natAbs = 2 ^ maxBitLen := Int.natAbs_pow 2 maxBitLen
  refine SdkInt.checked_eq_ok.2 ⟨?_, rfl⟩
  rcases Int.le_total 0 x with h | h
  · exact hpow ▸ Int.natAbs_lt_natAbs_of_nonneg_of_lt h h2
  · rw [← Int.natAbs_neg]
    exact hpow ▸ Int.natAbs_lt_natAbs_of_nonneg_of_lt (Int.neg_nonneg_of_nonpos h) (by omega)

/-- An integer `2 ^ maxBitLen` or more below zero fails the bit check. -/
theorem SdkInt.checked_of_le {x : Int} (h : x ≤ -2 ^ maxBitLen) : SdkInt.checked x = .error .intOverflow := by
  unfold SdkInt.checked
  rw [if_neg (by unfold maxBitLen at h ⊢; omega)]

theorem Coin.sub_eq_ok {a b r : Coin} :
    a.sub b = .ok r ↔ a.denom = b.denom ∧ (a.amount - b.amount).natAbs < 2 ^ maxBitLen ∧
      0 ≤ a.amount - b.amount ∧ r = ⟨a.denom, a.amount - b.amount⟩ := by
  unfold Coin.sub SdkInt.sub SdkInt.checked
  by_cases hd : a.denom = b.denom <;>
    by_cases hb : (a.amount - b.amount).natAbs < 2 ^ maxBitLen <;>
    by_cases hn : a.amount - b.amount < 0 <;>
    simp [hd, hb, hn, Bind.bind, Except.bind, MonadExcept.throw, throwThe, MonadExceptOf.throw,
      Pure.pure, Except.pure, eq_comm] <;> omega

theorem Coin.add_eq_ok_iff {a b r : Coin} :
    a.add b = .ok r ↔ a.denom = b.denom ∧ (a.amount + b.amount).natAbs < 2 ^ maxBitLen ∧
      r = ⟨a.denom, a.amount + b.amount⟩ := by
  unfold Coin.add SdkInt.add SdkInt.checked
  by_cases hd : a.denom = b.denom <;>
    by_cases hb : (a.amount + b.amount).natAbs < 2 ^ maxBitLen <;>
    simp [hd, hb, Functor.map, Except.map, eq_comm]

theorem newCoin_eq_ok {d : String} {x : Int} {c : Coin} :
    newCoin d x = .ok c ↔ validateDenom d = true ∧ 0 ≤ x ∧ c = ⟨d, x⟩ := by
  unfold newCoin Coin.isValid
  by_cases h1 : validateDenom d = true <;> by_cases h2 : 0 ≤ x <;> simp [h1, h2, eq_comm]

/-! ## Single writes -/

theorem setBalance_apply (a : AccAddress) (c : Coin) (s : BankState) :
    setBalance a c s = if c.isValid then .ok () (s.putBalance a c) else .err (.invalidCoins [c]) s := by
  unfold setBalance; cases c.isValid <;> rfl

/-! ## One coin of a loop -/

section OneCoin

variable {addr : AccAddress} {coin : Coin} {e : BankError} {u : Unit}

/-- A covered coin lowers the balance by its amount, to a valid coin. -/
theorem subUnlockedCoin_ok {locked : Coins} (h : subUnlockedCoin addr locked coin s = .ok u s') :
    s' = s.putBalance addr ⟨coin.denom, s.balanceOf addr coin.denom - coin.amount⟩ ∧
      (⟨coin.denom, s.balanceOf addr coin.denom - coin.amount⟩ : Coin).isValid := by
  simp only [subUnlockedCoin, getBalance_bind, liftPanic_bind_eq_ok] at h
  obtain ⟨_, -, _, -, ⟨_, hasNeg⟩, -, h⟩ := h
  cases hasNeg
  · simp only [Bool.false_eq_true, if_false, liftPanic_bind_eq_ok] at h
    obtain ⟨nb, hnb, h⟩ := h
    obtain ⟨-, -, -, rfl⟩ := Coin.sub_eq_ok.1 hnb
    rw [setBalance_apply] at h
    split at h <;> cases h
    exact ⟨rfl, ‹_›⟩
  · simp at h

/-- The only error of one coin is its funds check, before any write. -/
theorem subUnlockedCoin_err {locked : Coins} (h : subUnlockedCoin addr locked coin s = .err e s') :
    s' = s := by
  simp only [subUnlockedCoin, getBalance_bind, liftPanic_bind_eq_err] at h
  obtain ⟨_, -, _, -, ⟨_, hasNeg⟩, -, h⟩ := h
  cases hasNeg
  · simp only [Bool.false_eq_true, if_false, liftPanic_bind_eq_err] at h
    obtain ⟨nb, -, h⟩ := h
    rw [setBalance_apply] at h
    split at h <;> cases h
    rfl
  · simp only [if_true, BankM.throw_apply, Outcome.err.injEq] at h
    exact h.2.symm

/-- A credit raises the balance by the coin's amount, to a valid coin. -/
theorem addCoin_ok (h : addCoin addr coin s = .ok u s') :
    s' = s.putBalance addr ⟨coin.denom, s.balanceOf addr coin.denom + coin.amount⟩ ∧
      (⟨coin.denom, s.balanceOf addr coin.denom + coin.amount⟩ : Coin).isValid := by
  simp only [addCoin, getBalance_bind, liftPanic_bind_eq_ok] at h
  obtain ⟨nb, hnb, h⟩ := h
  obtain ⟨-, -, rfl⟩ := Coin.add_eq_ok_iff.1 hnb
  rw [setBalance_apply] at h
  split at h <;> cases h
  exact ⟨rfl, ‹_›⟩

/-- A credit fails only when the new balance is not a valid coin, before any write. -/
theorem addCoin_err (h : addCoin addr coin s = .err e s') : s' = s := by
  simp only [addCoin, getBalance_bind, liftPanic_bind_eq_err] at h
  obtain ⟨nb, -, h⟩ := h
  rw [setBalance_apply] at h
  split at h <;> cases h
  rfl

/-- One coin of the burn lowers the supply, to a non-negative amount. -/
theorem burnSupply_ok (h : burnSupply coin s = .ok u s') :
    s' = s.putDenom .supply ⟨coin.denom, s.supplyOf coin.denom - coin.amount⟩ ∧
      0 ≤ s.supplyOf coin.denom - coin.amount := by
  simp only [burnSupply, getSupply, getDenomCoin_bind, liftPanic_bind_eq_ok] at h
  obtain ⟨nb, hnb, h⟩ := h
  obtain ⟨-, -, hn, rfl⟩ := Coin.sub_eq_ok.1 hnb
  cases h
  exact ⟨rfl, hn⟩

theorem burnSupply_ne_err : burnSupply coin s ≠ .err e s' := by
  simp only [burnSupply, getSupply, getDenomCoin_bind, ne_eq, liftPanic_bind_eq_err]
  rintro ⟨_, -, h⟩
  cases h

/-- A pool update writes a positive portion's pool back with the amount it read. -/
theorem addToPool_ok {w : DenomStore} {d : String} {x : Int} (h : addToPool w d x s = .ok u s') :
    s' = if 0 < x then s.putDenom w ⟨d, (s.denomStore w).amount d⟩ else s := by
  unfold addToPool at h
  split at h
  · simp only [getDenomCoin_bind, liftPanic_bind_eq_ok] at h
    obtain ⟨_, -, h⟩ := h
    cases h
    simp [*]
  · cases h
    simp [*]

theorem addToPool_ne_err {w : DenomStore} {d : String} {x : Int} : addToPool w d x s ≠ .err e s' := by
  unfold addToPool
  split
  · simp only [getDenomCoin_bind, ne_eq, liftPanic_bind_eq_err]
    rintro ⟨_, -, h⟩
    cases h
  · simp

end OneCoin

/-! ## Loops over coins -/

section Loops

variable (k : Keeper) {addr : AccAddress} {amt : Coins}

theorem subUnlockedCoins_ok (h : subUnlockedCoins k addr amt s = .ok () s') :
    amt.isValid ∧ amt.forM (subUnlockedCoin addr (k.lockedCoins addr)) s = .ok () s' := by
  unfold subUnlockedCoins at h
  split at h
  · cases h
  · rename_i hv
    exact ⟨by simpa using hv, h⟩

theorem addCoins_ok (h : addCoins addr amt s = .ok () s') :
    amt.isValid ∧ amt.forM (addCoin addr) s = .ok () s' := by
  unfold addCoins at h
  split at h
  · cases h
  · rename_i hv
    exact ⟨by simpa using hv, h⟩

/-- A burn that returns found the module account, debited it and lowered the supply. -/
theorem burnCoins_ok {name : String} {amounts : Coins} (h : burnCoins k name amounts s = .ok () s') :
    ∃ acc, k.getModuleAccount name = some acc ∧ ∃ s1,
      subUnlockedCoins k acc.address amounts s = .ok () s1 ∧ amounts.forM burnSupply s1 = .ok () s' := by
  unfold burnCoins at h
  rcases hacc : k.getModuleAccount name with _ | acc <;> simp only [hacc] at h
  · cases h
  · split at h
    · cases h
    · obtain ⟨_, s1, h1, h2⟩ := BankM.bind_eq_ok.1 h
      exact ⟨acc, rfl, s1, h1, h2⟩

end Loops

/-! ## The split -/

/-- What one taxed coin becomes: the net and the three portions, all of the
coin's denomination and non-negative, the net being the amount less the portions. -/
theorem taxCoin_eq_some {params : Params} {f t : AccAddress} {coin sent bc lc fc : Coin}
    (h : taxCoin params f t coin = .ok (some (sent, bc, lc, fc))) :
    bc.denom = coin.denom ∧ lc.denom = coin.denom ∧ fc.denom = coin.denom ∧ sent.denom = coin.denom ∧
      sent.amount = coin.amount - bc.amount - lc.amount - fc.amount ∧
      0 ≤ bc.amount ∧ 0 ≤ lc.amount ∧ 0 ≤ fc.amount ∧ 0 ≤ sent.amount := by
  simp only [taxCoin] at h
  obtain ⟨r, -, h⟩ := except_bind_eq_ok.1 h
  rcases r with _ | ⟨b, l, fa⟩
  · simp [Pure.pure, Except.pure] at h
  obtain ⟨_, hb, h⟩ := except_bind_eq_ok.1 h
  obtain ⟨_, hl, h⟩ := except_bind_eq_ok.1 h
  obtain ⟨_, hf, h⟩ := except_bind_eq_ok.1 h
  obtain ⟨x, hx, h⟩ := except_bind_eq_ok.1 h
  obtain ⟨_, hs, h⟩ := except_bind_eq_ok.1 h
  obtain ⟨-, hb0, rfl⟩ := newCoin_eq_ok.1 hb
  obtain ⟨-, hl0, rfl⟩ := newCoin_eq_ok.1 hl
  obtain ⟨-, hf0, rfl⟩ := newCoin_eq_ok.1 hf
  obtain ⟨-, hs0, rfl⟩ := newCoin_eq_ok.1 hs
  simp only [Pure.pure, Except.pure, Except.ok.injEq, Option.some.injEq, Prod.mk.injEq] at h
  obtain ⟨rfl, rfl, rfl, rfl⟩ := h
  obtain ⟨y, hy, hx⟩ := except_bind_eq_ok.1 hx
  obtain ⟨z, hz, hy⟩ := except_bind_eq_ok.1 hy
  simp only [SdkInt.sub, SdkInt.checked_eq_ok] at hx hy hz
  exact ⟨rfl, rfl, rfl, rfl, by rw [hx.2, hy.2, hz.2], hb0, hl0, hf0, hs0⟩

/-- The split of one coin, given what `taxCoin` computed for it. -/
def Split.ofTax (coin : Coin) : Option (Coin × Coin × Coin × Coin) → Split
  | none => ⟨[coin], [], [], []⟩
  | some (sent, bc, lc, fc) => ⟨[sent], [bc], [lc], [fc]⟩

/-- The coins a split sends on and the portions it diverts add up, per
denomination, to the coins split. -/
def Split.Balanced (sp : Split) (amt : Coins) : Prop :=
  ∀ d, sp.amt.amountSum d + sp.burnCoins.amountSum d + sp.liquidityCoins.amountSum d +
    sp.feeTarCoins.amountSum d = amt.amountSum d

theorem Split.ofTax_balanced {params : Params} {f t : AccAddress} {coin : Coin}
    {r : Option (Coin × Coin × Coin × Coin)} (h : taxCoin params f t coin = .ok r) :
    (Split.ofTax coin r).Balanced [coin] := by
  intro d
  rcases r with _ | ⟨sent, bc, lc, fc⟩
  · simp [Split.ofTax]
  · obtain ⟨hb, hl, hf, hs, ha, -⟩ := taxCoin_eq_some h
    simp only [Split.ofTax, Coins.amountSum_cons, Coins.amountSum_nil, hb, hl, hf, hs, ha]
    split_ifs <;> omega

theorem Split.Balanced.append {sp sp' : Split} {amt amt' : Coins} (h : sp.Balanced amt)
    (h' : sp'.Balanced amt') :
    Split.Balanced ⟨sp.amt ++ sp'.amt, sp.burnCoins ++ sp'.burnCoins,
      sp.liquidityCoins ++ sp'.liquidityCoins, sp.feeTarCoins ++ sp'.feeTarCoins⟩ (amt ++ amt') := by
  intro d
  have := h d
  have := h' d
  simp only [Coins.amountSum_append]
  omega

section Split

variable {params : Params} {f t : AccAddress} {sp : Split}

/-- One coin of the split: its value is what `taxCoin` computed; the pools are
only written back. -/
theorem deflationaryCoin_ok {coin : Coin} (h : deflationaryCoin params f t coin s = .ok sp s') :
    ∃ r, taxCoin params f t coin = .ok r ∧ sp = Split.ofTax coin r := by
  simp only [deflationaryCoin, liftPanic_bind_eq_ok] at h
  obtain ⟨r, hr, h⟩ := h
  refine ⟨r, hr, ?_⟩
  rcases r with _ | ⟨sent, bc, lc, fc⟩
  · cases h; rfl
  · obtain ⟨_, _, -, h⟩ := BankM.bind_eq_ok.1 h
    obtain ⟨_, _, -, h⟩ := BankM.bind_eq_ok.1 h
    cases h; rfl

theorem deflationaryLoop_balanced :
    ∀ {amt : Coins} {sp : Split} {s s' : BankState},
      deflationaryLoop params f t amt s = .ok sp s' → sp.Balanced amt
  | [], _, s, s', h => by
    cases h
    intro d; simp
  | coin :: rest, _, s, s', h => by
    obtain ⟨one, s1, h1, h⟩ := BankM.bind_eq_ok.1 h
    obtain ⟨more, s2, h2, h⟩ := BankM.bind_eq_ok.1 h
    cases h
    obtain ⟨r, hr, rfl⟩ := deflationaryCoin_ok h1
    exact (Split.ofTax_balanced hr).append (deflationaryLoop_balanced h2)

end Split

/-! ## The caller's memory -/

namespace CoinSlice

end CoinSlice

/-- `c'` is of `c`'s denomination with at most its amount, and not negative
where `c` is not: what the net of a split is to the coin split. -/
def CoinBelow (c' c : Coin) : Prop :=
  c'.denom = c.denom ∧ c'.amount ≤ c.amount ∧ (0 ≤ c.amount → 0 ≤ c'.amount)

theorem CoinBelow.refl (c : Coin) : CoinBelow c c := ⟨rfl, le_rfl, id⟩

theorem CoinBelow.trans {a b c : Coin} (h₁ : CoinBelow a b) (h₂ : CoinBelow b c) : CoinBelow a c :=
  ⟨h₁.1.trans h₂.1, h₁.2.1.trans h₂.2.1, fun h => h₁.2.2 (h₂.2.2 h)⟩

theorem forall₂_coinBelow_trans : ∀ {l₁ l₂ l₃ : List Coin}, List.Forall₂ CoinBelow l₁ l₂ →
    List.Forall₂ CoinBelow l₂ l₃ → List.Forall₂ CoinBelow l₁ l₃
  | _, _, _, .nil, .nil => .nil
  | _, _, _, .cons h₁ t₁, .cons h₂ t₂ => .cons (h₁.trans h₂) (forall₂_coinBelow_trans t₁ t₂)

theorem Coins.amountSum_le_of_forall₂ {l' l : Coins} (h : List.Forall₂ CoinBelow l' l) (d : String) :
    l'.amountSum d ≤ l.amountSum d := by
  induction h with
  | nil => exact le_rfl
  | cons hc _ ih =>
    rw [Coins.amountSum_cons, Coins.amountSum_cons, hc.1]
    have := hc.2.1
    split_ifs <;> omega

theorem overwrite_forall₂ : ∀ (mem : List Coin) (off : Nat) (cs : Coins),
    List.Forall₂ CoinBelow cs ((mem.drop off).take cs.length) →
      List.Forall₂ CoinBelow (overwrite mem off cs) mem
  | mem, _, [], _ => by
    rw [overwrite]
    exact List.forall₂_same.2 fun c _ => CoinBelow.refl c
  | [], _, _ :: _, _ => by
    rw [overwrite]
    exact .nil
  | _ :: ms, 0, c :: cs, .cons hc ht => .cons hc (overwrite_forall₂ ms 0 cs ht)
  | m :: ms, off + 1, c :: cs, h => .cons (CoinBelow.refl m) (overwrite_forall₂ ms off (c :: cs) h)

/-- Writing coins each below the one it replaces leaves every cell below what
it held. -/
theorem CoinSlice.write_forall₂ {sl : CoinSlice} {mem : List Coin} {coins : Coins}
    (h : List.Forall₂ CoinBelow coins (sl.read mem)) : List.Forall₂ CoinBelow (sl.write mem coins) mem := by
  have hlen := h.length_eq
  have htake : coins.take sl.len = coins :=
    List.take_of_length_le (hlen ▸ List.length_take_le _ _)
  refine overwrite_forall₂ _ _ _ ?_
  rw [htake, hlen]
  convert h using 1
  exact List.take_eq_take.2 (by simp [CoinSlice.read])

theorem CoinSlice.read_forall₂ (sl : CoinSlice) {mem' mem : List Coin}
    (h : List.Forall₂ CoinBelow mem' mem) : List.Forall₂ CoinBelow (sl.read mem') (sl.read mem) :=
  List.forall₂_take _ (List.forall₂_drop _ h)

/-- `deflationaryCoins` returns what its coin loop sends on. -/
theorem deflationaryCoins_sent {k : Keeper} {f t : AccAddress} {amt sent : Coins} {s s' : BankState}
    (h : deflationaryCoins k f t amt s = .ok sent s') :
    ∃ sp s1, deflationaryLoop s.params f t amt s = .ok sp s1 ∧ sent = sp.amt := by
  unfold deflationaryCoins at h
  rw [getParams_bind] at h
  obtain ⟨sp, s1, h1, h⟩ := BankM.bind_eq_ok.1 h
  refine ⟨sp, s1, h1, ?_⟩
  rcases hacc : k.getModuleAccount moduleName with _ | acc <;> simp only [hacc] at h
  · cases h
  obtain ⟨total, -, h⟩ := liftPanic_bind_eq_ok.1 h
  split at h
  · cases h; rfl
  · obtain ⟨_, s2, -, h⟩ := BankM.bind_eq_ok.1 h
    split at h
    · cases h; rfl
    · obtain ⟨_, s3, -, h⟩ := BankM.bind_eq_ok.1 h
      cases h; rfl

end DeflationaryBank
