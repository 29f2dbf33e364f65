import DeflationaryBank.Laws.Supply

/-!
# The ledger a transfer moves

What the keeper's stores mean, read through their accessors: the amount of each
balance, supply and pool key, the parameters and the accounts. Two states with
the same `Ledger` differ only in the order a store iterates its entries.

Over ledgers a transfer is a handful of moves: coins debited from an address or
credited to one, burnt off the supply, an account opened. `SendCoins` and
`InputOutputCoins` that return nil are such moves, whatever addresses coincide:
each debits what it is given, credits each recipient the coins its split sends
on, credits the bank module account the liquidity and fee-tax portions, and
burns the burn portions; neither pool moves. The split itself is `taxSplit`, the
coin loop of `deflationaryCoins` without its pool writes, which write each pool
back as read.
-/

namespace DeflationaryBank

/-- The stores of a bank state read as functions. -/
@[ext] structure Ledger where
  balance : AccAddress → String → Int
  supply : String → Int
  liquidityPool : String → Int
  feeTaxPool : String → Int
  params : Params
  hasAccount : AccAddress → Bool

/-- The ledger a state holds. -/
def BankState.ledger (s : BankState) : Ledger :=
  ⟨s.balanceOf, s.supplyOf, s.liquidityPool.amount, s.feeTaxPool.amount, s.params,
    fun a => decide (a ∈ s.accounts)⟩

namespace Ledger

/-- `coins` added to the balances of `addr`. -/
def credit (L : Ledger) (addr : AccAddress) (coins : Coins) : Ledger :=
  { L with balance := fun a d => L.balance a d + if a = addr then coins.amountSum d else 0 }

/-- `coins` taken from the balances of `addr`. -/
def debit (L : Ledger) (addr : AccAddress) (coins : Coins) : Ledger :=
  { L with balance := fun a d => L.balance a d - if a = addr then coins.amountSum d else 0 }

/-- `coins` taken off the supply. -/
def burn (L : Ledger) (coins : Coins) : Ledger :=
  { L with supply := fun d => L.supply d - coins.amountSum d }

/-- An account for `addr`. -/
def openAccount (L : Ledger) (addr : AccAddress) : Ledger :=
  { L with hasAccount := fun a => L.hasAccount a || decide (a = addr) }

/-- A split delivered to `toAddr`: the bank module account `moduleAddr` gains the
liquidity and fee-tax portions, the burn portions leave the supply, `toAddr`
gains the coins sent on and gets an account. -/
def deliver (L : Ledger) (moduleAddr toAddr : AccAddress) (sp : Split) : Ledger :=
  ((((L.credit moduleAddr sp.liquidityCoins).credit moduleAddr sp.feeTarCoins).burn
    sp.burnCoins).credit toAddr sp.amt).openAccount toAddr

/-- The transfer of `amt` from `fromAddr` to `toAddr` split as `sp`. -/
def transfer (L : Ledger) (moduleAddr fromAddr toAddr : AccAddress) (amt : Coins) (sp : Split) :
    Ledger :=
  (L.debit fromAddr amt).deliver moduleAddr toAddr sp

@[simp] theorem debit_nil (L : Ledger) (addr : AccAddress) : L.debit addr [] = L := by
  ext <;> simp [debit]

@[simp] theorem credit_nil (L : Ledger) (addr : AccAddress) : L.credit addr [] = L := by
  ext <;> simp [credit]

@[simp] theorem burn_nil (L : Ledger) : L.burn [] = L := by
  ext <;> simp [burn]

theorem debit_cons (L : Ledger) (addr : AccAddress) (c : Coin) (cs : Coins) :
    (L.debit addr [c]).debit addr cs = L.debit addr (c :: cs) := by
  ext <;> simp only [debit, Coins.amountSum_cons, Coins.amountSum_nil]
  split_ifs <;> omega

theorem credit_cons (L : Ledger) (addr : AccAddress) (c : Coin) (cs : Coins) :
    (L.credit addr [c]).credit addr cs = L.credit addr (c :: cs) := by
  ext <;> simp only [credit, Coins.amountSum_cons, Coins.amountSum_nil]
  split_ifs <;> omega

theorem burn_cons (L : Ledger) (c : Coin) (cs : Coins) : (L.burn [c]).burn cs = L.burn (c :: cs) := by
  ext <;> simp only [burn, Coins.amountSum_cons, Coins.amountSum_nil]
  omega

/-! ## Moves

Each of the moves above adds fixed amounts to balances and to the supply and
opens fixed accounts, whatever the ledger holds. So a move is a translation of
the ledger, moves compose by adding them, and any two commute. -/

/-- What a move adds to a ledger: an amount per balance key and per supply
denomination, and the accounts it opens. -/
@[ext] structure Move where
  balance : AccAddress → String → Int
  supply : String → Int
  opened : AccAddress → Bool

/-- The ledger moved by `m`. -/
def shift (L : Ledger) (m : Move) : Ledger :=
  { L with
    balance := fun a d => L.balance a d + m.balance a d
    supply := fun d => L.supply d + m.supply d
    hasAccount := fun a => L.hasAccount a || m.opened a }

namespace Move

instance : Zero Move := ⟨⟨fun _ _ => 0, fun _ => 0, fun _ => false⟩⟩

instance : Add Move :=
  ⟨fun m m' => ⟨fun a d => m.balance a d + m'.balance a d, fun d => m.supply d + m'.supply d,
    fun a => m.opened a || m'.opened a⟩⟩

@[simp] theorem zero_balance (a : AccAddress) (d : String) : (0 : Move).balance a d = 0 := rfl

@[simp] theorem zero_supply (d : String) : (0 : Move).supply d = 0 := rfl

@[simp] theorem zero_opened (a : AccAddress) : (0 : Move).opened a = false := rfl

@[simp] theorem add_balance (m m' : Move) (a : AccAddress) (d : String) :
    (m + m').balance a d = m.balance a d + m'.balance a d := rfl

@[simp] theorem add_supply (m m' : Move) (d : String) : (m + m').supply d = m.supply d + m'.supply d := rfl

@[simp] theorem add_opened (m m' : Move) (a : AccAddress) : (m + m').opened a = (m.opened a || m'.opened a) :=
  rfl

protected theorem add_comm (m m' : Move) : m + m' = m' + m := by
  ext <;> simp [Int.add_comm, Bool.or_comm]

/-- `coins` added to the balances of `addr`. -/
def credit (addr : AccAddress) (coins : Coins) : Move :=
  ⟨fun a d => if a = addr then coins.amountSum d else 0, fun _ => 0, fun _ => false⟩

/-- `coins` taken from the balances of `addr`. -/
def debit (addr : AccAddress) (coins : Coins) : Move :=
  ⟨fun a d => -if a = addr then coins.amountSum d else 0, fun _ => 0, fun _ => false⟩

/-- `coins` taken off the supply. -/
def burn (coins : Coins) : Move := ⟨fun _ _ => 0, fun d => -coins.amountSum d, fun _ => false⟩

/-- An account for `addr`. -/
def openAccount (addr : AccAddress) : Move := ⟨fun _ _ => 0, fun _ => 0, fun a => decide (a = addr)⟩

/-- The move of `Ledger.deliver`. -/
def deliver (moduleAddr toAddr : AccAddress) (sp : Split) : Move :=
  credit moduleAddr sp.liquidityCoins + credit moduleAddr sp.feeTarCoins + burn sp.burnCoins +
    credit toAddr sp.amt + openAccount toAddr

/-- The move of `Ledger.transfer`. -/
def transfer (moduleAddr fromAddr toAddr : AccAddress) (amt : Coins) (sp : Split) : Move :=
  debit fromAddr amt + deliver moduleAddr toAddr sp

end Move

theorem shift_shift (L : Ledger) (m m' : Move) : (L.shift m).shift m' = L.shift (m + m') := by
  ext <;> simp [shift, Int.add_assoc, Bool.or_assoc]

theorem shift_zero (L : Ledger) : L.shift 0 = L := by
  ext <;> simp [shift]

theorem credit_eq_shift (L : Ledger) (addr : AccAddress) (coins : Coins) :
    L.credit addr coins = L.shift (.credit addr coins) := by
  ext <;> simp [credit, shift, Move.credit]

theorem debit_eq_shift (L : Ledger) (addr : AccAddress) (coins : Coins) :
    L.debit addr coins = L.shift (.debit addr coins) := by
  ext <;> simp [debit, shift, Move.debit, Int.sub_eq_add_neg]

theorem burn_eq_shift (L : Ledger) (coins : Coins) : L.burn coins = L.shift (.burn coins) := by
  ext <;> simp [burn, shift, Move.burn, Int.sub_eq_add_neg]

theorem openAccount_eq_shift (L : Ledger) (addr : AccAddress) :
    L.openAccount addr = L.shift (.openAccount addr) := by
  ext <;> simp only [openAccount, shift, Move.openAccount, Int.add_zero]

theorem deliver_eq_shift (L : Ledger) (moduleAddr toAddr : AccAddress) (sp : Split) :
    L.deliver moduleAddr toAddr sp = L.shift (.deliver moduleAddr toAddr sp) := by
  simp only [deliver, credit_eq_shift, burn_eq_shift, openAccount_eq_shift, shift_shift, Move.deliver]

theorem transfer_eq_shift (L : Ledger) (moduleAddr fromAddr toAddr : AccAddress) (amt : Coins) (sp : Split) :
    L.transfer moduleAddr fromAddr toAddr amt sp = L.shift (.transfer moduleAddr fromAddr toAddr amt sp) := by
  rw [transfer, debit_eq_shift, deliver_eq_shift, shift_shift, Move.transfer]

/-- Moves made one after another are the move of their sum. -/
theorem foldl_shift {α : Type} (g : α → Move) :
    ∀ (xs : List α) (L : Ledger) (m : Move),
      xs.foldl (fun L x => L.shift (g x)) (L.shift m) = L.shift (xs.foldl (fun m x => m + g x) m)
  | [], _, _ => rfl
  | x :: xs, L, m => by rw [List.foldl_cons, List.foldl_cons, shift_shift, foldl_shift g xs]

end Ledger

/-! ## One ledger move per keeper step -/

/-- A loop whose every iteration moves the ledger by `g` of its element moves it
by `g` of each element in turn. -/
theorem forM_ok_foldl {α : Type} {f : α → BankM Unit} (g : Ledger → α → Ledger)
    (hf : ∀ x t t', f x t = .ok () t' → t'.ledger = g t.ledger x) :
    ∀ (xs : List α) {s s' : BankState}, xs.forM f s = .ok () s' → s'.ledger = xs.foldl g s.ledger
  | [], s, s', h => by
    cases h
    rfl
  | x :: xs, s, s', h => by
    rw [forM_cons'] at h
    obtain ⟨_, s1, h1, h2⟩ := BankM.bind_eq_ok.1 h
    rw [forM_ok_foldl g hf xs h2, hf x s s1 h1, List.foldl_cons]

/-- A loop over coins whose every iteration makes the move `op` of its coin
makes the move of all its coins. -/
theorem forM_ok_ledger {f : Coin → BankM Unit} (op : Ledger → Coins → Ledger)
    (hnil : ∀ L, op L [] = L) (hcons : ∀ L c cs, op (op L [c]) cs = op L (c :: cs))
    (hf : ∀ c t t', f c t = .ok () t' → t'.ledger = op t.ledger [c]) (amt : Coins) {s s' : BankState}
    (h : amt.forM f s = .ok () s') : s'.ledger = op s.ledger amt := by
  rw [forM_ok_foldl (op · [·]) hf amt h]
  clear h
  generalize s.ledger = L
  induction amt generalizing L with
  | nil => exact (hnil L).symm
  | cons c cs ih => rw [List.foldl_cons, ih, hcons]

section Steps

variable {k : Keeper} {s s' : BankState} {addr : AccAddress} {u : Unit}

theorem ledger_putBalance_balance (a : AccAddress) (c : Coin) (b : AccAddress) (d : String) :
    (s.putBalance a c).ledger.balance b d = if b = a ∧ c.denom = d then c.amount else s.balanceOf b d := by
  simp [BankState.ledger, BankState.putBalance, BankState.balanceOf, KVStore.amount_put, eq_comm]

theorem subUnlockedCoin_ledger {locked : Coins} {coin : Coin}
    (h : subUnlockedCoin addr locked coin s = .ok u s') : s'.ledger = s.ledger.debit addr [coin] := by
  obtain ⟨rfl, -⟩ := subUnlockedCoin_ok h
  ext a d <;> try rfl
  simp only [ledger_putBalance_balance, Ledger.debit, Coins.amountSum_cons, Coins.amountSum_nil]
  by_cases ha : a = addr <;> by_cases hd : coin.denom = d <;> simp [ha, hd, BankState.ledger]

theorem subUnlockedCoins_ledger {amt : Coins} (h : subUnlockedCoins k addr amt s = .ok () s') :
    s'.ledger = s.ledger.debit addr amt :=
  forM_ok_ledger (·.debit addr ·) (·.debit_nil addr) (·.debit_cons addr) (fun _ _ _ hc => subUnlockedCoin_ledger hc)
    amt (subUnlockedCoins_ok k h).2

theorem addCoin_ledger {coin : Coin} (h : addCoin addr coin s = .ok u s') :
    s'.ledger = s.ledger.credit addr [coin] := by
  obtain ⟨rfl, -⟩ := addCoin_ok h
  ext a d <;> try rfl
  simp only [ledger_putBalance_balance, Ledger.credit, Coins.amountSum_cons, Coins.amountSum_nil]
  by_cases ha : a = addr <;> by_cases hd : coin.denom = d <;> simp [ha, hd, BankState.ledger]

theorem addCoins_ledger {amt : Coins} (h : addCoins addr amt s = .ok () s') :
    s'.ledger = s.ledger.credit addr amt :=
  forM_ok_ledger (·.credit addr ·) (·.credit_nil addr) (·.credit_cons addr) (fun _ _ _ hc => addCoin_ledger hc)
    amt (addCoins_ok h).2

theorem burnSupply_ledger {coin : Coin} (h : burnSupply coin s = .ok u s') :
    s'.ledger = s.ledger.burn [coin] := by
  obtain ⟨rfl, -⟩ := burnSupply_ok h
  ext d <;> try rfl
  simp only [BankState.ledger, Ledger.burn, BankState.supplyOf_putDenom, Coins.amountSum_cons,
    Coins.amountSum_nil]
  by_cases hd : coin.denom = d
  · simp [hd]
  · simp [hd, Ne.symm hd]

/-- A burn that returns debits the module account and lowers the supply alike. -/
theorem burnCoins_ledger {name : String} {amounts : Coins} (h : burnCoins k name amounts s = .ok () s') :
    ∃ acc, k.getModuleAccount name = some acc ∧ s'.ledger = (s.ledger.debit acc.address amounts).burn amounts := by
  obtain ⟨acc, hacc, s1, h1, h2⟩ := burnCoins_ok k h
  refine ⟨acc, hacc, ?_⟩
  rw [forM_ok_ledger (·.burn ·) Ledger.burn_nil Ledger.burn_cons (fun _ _ _ hc => burnSupply_ledger hc) amounts h2,
    subUnlockedCoins_ledger h1]

theorem createAccountIfMissing_ledger (h : createAccountIfMissing addr s = .ok u s') :
    s'.ledger = s.ledger.openAccount addr := by
  cases h
  dsimp only
  split
  · ext a <;> try rfl
    by_cases ha : a = addr <;> simp [BankState.ledger, Ledger.openAccount, ha, *]
  · ext a <;> try rfl
    simp [BankState.ledger, Ledger.openAccount, Bool.or_comm]

/-- A pool written back with the amount it holds leaves the ledger as it was. -/
theorem ledger_putDenom_self (t : BankState) (w : DenomStore) (d : String) :
    (t.putDenom w ⟨d, (t.denomStore w).amount d⟩).ledger = t.ledger := by
  cases w <;> ext <;> simp [BankState.ledger, BankState.putDenom, BankState.setDenomStore,
    BankState.balanceOf, BankState.supplyOf]

end Steps

/-! ## The split -/

/-- The split the coin loop of `deflationaryCoins` computes, without its pool
writes. -/
def taxSplit (params : Params) (fromAddr toAddr : AccAddress) : Coins → Except Panic Split
  | [] => .ok ⟨[], [], [], []⟩
  | coin :: rest => do
    let one := Split.ofTax coin (← taxCoin params fromAddr toAddr coin)
    let more ← taxSplit params fromAddr toAddr rest
    pure ⟨one.amt ++ more.amt, one.burnCoins ++ more.burnCoins,
      one.liquidityCoins ++ more.liquidityCoins, one.feeTarCoins ++ more.feeTarCoins⟩

section Split

variable {params : Params} {f t : AccAddress} {s s' : BankState}

/-- The coin loop moves nothing of the ledger: its pool writes write back what
they read. -/
theorem deflationaryLoop_ledger {amt : Coins} {sp : Split}
    (h : deflationaryLoop params f t amt s = .ok sp s') : s'.ledger = s.ledger :=
  ((deflationaryLoop_keeps (P := (·.ledger = s.ledger)) (fun u w d hu _ => (ledger_putDenom_self u w d).trans hu)
    params f t amt) s rfl).1 _ _ h

/-- The coin loop computes `taxSplit`. -/
theorem deflationaryLoop_taxSplit :
    ∀ {amt : Coins} {sp : Split} {s s' : BankState},
      deflationaryLoop params f t amt s = .ok sp s' → taxSplit params f t amt = .ok sp
  | [], _, s, s', h => by
    cases h
    rfl
  | coin :: rest, _, s, s', h => by
    obtain ⟨one, s1, h1, h⟩ := BankM.bind_eq_ok.1 h
    obtain ⟨more, s2, h2, h⟩ := BankM.bind_eq_ok.1 h
    cases h
    obtain ⟨r, hr, rfl⟩ := deflationaryCoin_ok h1
    simp only [taxSplit, hr, deflationaryLoop_taxSplit h2]
    rfl

end Split

/-- Credits and burns of coins that add up to zero in every denomination move
nothing. -/
theorem Ledger.credit_of_zero (L : Ledger) (addr : AccAddress) {coins : Coins}
    (h : ∀ d, coins.amountSum d = 0) : L.credit addr coins = L := by
  ext <;> simp [Ledger.credit, h]

theorem Ledger.burn_of_zero (L : Ledger) {coins : Coins} (h : ∀ d, coins.amountSum d = 0) :
    L.burn coins = L := by
  ext <;> simp [Ledger.burn, h]

/-! ## Transfers -/

section Transfers

variable {k : Keeper} {f t : AccAddress} {amt : Coins} {s s' : BankState}

/-- `deflationaryCoins` that returns computes `taxSplit`, returns the coins it
sends on, credits the bank module account the liquidity and fee-tax portions and
burns the burn portions; when the portions add up to nothing, or the burn
portions do, it skips the credit or the burn, which would move nothing. -/
theorem deflationaryCoins_ledger {sent : Coins} (h : deflationaryCoins k f t amt s = .ok sent s') :
    ∃ acc sp, k.getModuleAccount moduleName = some acc ∧ taxSplit s.params f t amt = .ok sp ∧ sent = sp.amt ∧
      s'.ledger = ((s.ledger.credit acc.address sp.liquidityCoins).credit acc.address sp.feeTarCoins).burn
        sp.burnCoins := by
  unfold deflationaryCoins at h
  rw [getParams_bind] at h
  obtain ⟨sp, s1, h1, h⟩ := BankM.bind_eq_ok.1 h
  have e1 := deflationaryLoop_ledger h1
  have hnn := fun d => deflationaryLoop_portions_nonneg d h1
  rcases hacc : k.getModuleAccount moduleName with _ | acc <;> simp only [hacc] at h
  · cases h
  refine ⟨acc, sp, rfl, deflationaryLoop_taxSplit h1, ?_⟩
  obtain ⟨total, htot, h⟩ := liftPanic_bind_eq_ok.1 h
  obtain ⟨bl, hbl, hbf⟩ := except_bind_eq_ok.1 htot
  have ht : ∀ d, total.amountSum d = sp.burnCoins.amountSum d + sp.liquidityCoins.amountSum d +
      sp.feeTarCoins.amountSum d := fun d => by rw [Coins.amountSum_add hbf, Coins.amountSum_add hbl]
  split at h
  · rename_i hz
    cases h
    have h0 : ∀ d, sp.burnCoins.amountSum d = 0 ∧ sp.liquidityCoins.amountSum d = 0 ∧
        sp.feeTarCoins.amountSum d = 0 := fun d => by
      have := ht d; have := hnn d; have := Coins.amountSum_of_isZero hz d; omega
    rw [Ledger.credit_of_zero _ _ fun d => (h0 d).2.1, Ledger.credit_of_zero _ _ fun d => (h0 d).2.2,
      Ledger.burn_of_zero _ fun d => (h0 d).1, e1]
    exact ⟨rfl, rfl⟩
  · obtain ⟨_, s2, h2, h⟩ := BankM.bind_eq_ok.1 h
    have e2 := addCoins_ledger h2
    split at h
    · rename_i hz
      cases h
      have hb := fun d => Coins.amountSum_of_isZero hz d
      refine ⟨rfl, ?_⟩
      rw [Ledger.burn_of_zero _ hb, e2, e1]
      ext a d <;> try rfl
      simp only [Ledger.credit, ht, hb]
      split_ifs <;> omega
    · obtain ⟨_, s3, h3, h⟩ := BankM.bind_eq_ok.1 h
      cases h
      obtain ⟨acc', hacc', e3⟩ := burnCoins_ledger h3
      obtain rfl : acc' = acc := Option.some.inj (hacc'.symm.trans hacc)
      refine ⟨rfl, ?_⟩
      rw [e3, e2, e1]
      ext a d <;> try rfl
      simp only [Ledger.credit, Ledger.debit, Ledger.burn, ht]
      split_ifs <;> omega

/-- One output of a multi-send delivers the split, made from the empty address,
of the coins its slice holds, and writes the nets back into the slice. -/
theorem outputCoins_ledger {out : Output} {mem mem' : List Coin}
    (h : outputCoins k mem out s = .ok mem' s') :
    ∃ acc sp, k.getModuleAccount moduleName = some acc ∧
      taxSplit s.params "" out.address (out.coins.read mem) = .ok sp ∧
      mem' = out.coins.write mem sp.amt ∧ s'.ledger = s.ledger.deliver acc.address out.address sp := by
  obtain ⟨a, s1, h1, hsend⟩ := BankM.bind_eq_ok.1 h
  obtain ⟨rfl, rfl⟩ := parseAddress_ok h1
  obtain ⟨sent, s2, h2, hadd⟩ := BankM.bind_eq_ok.1 hsend
  obtain ⟨_, s3, h3, hrest⟩ := BankM.bind_eq_ok.1 hadd
  obtain ⟨_, s4, h4, h5⟩ := BankM.bind_eq_ok.1 hrest
  cases h5
  obtain ⟨acc, sp, hacc, hsp, rfl, e2⟩ := deflationaryCoins_ledger h2
  refine ⟨acc, sp, hacc, hsp, rfl, ?_⟩
  rw [createAccountIfMissing_ledger h4, addCoins_ledger h3, e2]
  rfl

end Transfers

end DeflationaryBank
