import DeflationaryBank.Keeper.State

/-!
# BaseSendKeeper

The send keeper of this fork: the store accessors, the debit and credit of
balances, the burn, the deflationary split, and the two transfer entry points.
A Go `for` loop over coins is a `List.forM`, or a recursion where the loop
accumulates; `if err != nil { return err }` is the sequencing of `BankM`.
-/

namespace DeflationaryBank

open BankM

/-! ## Store accessors -/

/-- `GetParams`. -/
def getParams : BankM Params := fun s => .ok s.params s

/-- `GetBalance`: a zero coin when nothing is stored. -/
def getBalance (addr : AccAddress) (denom : String) : BankM Coin := fun s =>
  .ok ⟨denom, s.balanceOf addr denom⟩ s

/-- `setBalance`: an invalid coin is an error; a zero balance deletes the key. -/
def setBalance (addr : AccAddress) (balance : Coin) : BankM Unit :=
  if !balance.isValid then throw (.invalidCoins [balance])
  else modify (·.putBalance addr balance)

/-- `initBalances`: each coin validated, the non-zero ones set; a zero coin
leaves the key as it was. -/
def initBalances (addr : AccAddress) (balances : Coins) : BankM Unit :=
  balances.forM fun balance =>
    if !balance.isValid then throw (.invalidCoins [balance])
    else if !balance.isZero then
      modify fun s => { s with balances := s.balances.set (addr, balance.denom) balance.amount }
    else pure ()

/-- The getter `getSupply`, `getLiquidityPool` and `getFeeTaxPool` share: the
stored amount as a coin of `denom`, zero when absent. -/
def getDenomCoin (which : DenomStore) (denom : String) : BankM Coin := fun s =>
  .ok ⟨denom, (s.denomStore which).amount denom⟩ s

/-- The setter `setSupply`, `setLiquidityPool` and `setFeeTaxPool` share: delete
on zero, set otherwise, whatever the sign ("Bank invariants and IBC requires to
remove zero coins"). -/
def setDenomCoin (which : DenomStore) (coin : Coin) : BankM Unit :=
  modify (·.putDenom which coin)

/-- `getSupply`. -/
def getSupply (denom : String) : BankM Coin := getDenomCoin .supply denom

/-- `setSupply`. -/
def setSupply (coin : Coin) : BankM Unit := setDenomCoin .supply coin

/-- `getLiquidityPool`. -/
def getLiquidityPool (denom : String) : BankM Coin := getDenomCoin .liquidityPool denom

/-- `setLiquidityPool`. -/
def setLiquidityPool (coin : Coin) : BankM Unit := setDenomCoin .liquidityPool coin

/-- `getFeeTaxPool`. -/
def getFeeTaxPool (denom : String) : BankM Coin := getDenomCoin .feeTaxPool denom

/-- `setFeeTaxPool`. -/
def setFeeTaxPool (coin : Coin) : BankM Unit := setDenomCoin .feeTaxPool coin

/-- The paginated total `getPaginatedTotalLiquidityPool` and
`getPaginatedTotalFeeTaxPool` share, at `query.MaxLimit`: every stored entry made
a coin by `sdk.NewCoin` and added into the total. -/
def getPaginatedTotal (which : DenomStore) : BankM Coins := fun s =>
  liftPanic ((s.denomStore which).entries.foldlM
    (fun (pool : Coins) e => newCoin e.1 e.2 >>= fun c => pool.add [c]) []) s

/-- `GetPaginatedTotalSupply` of the SDK, outside the shown sources; the two pool
totals of this keeper are copies of it. -/
def getPaginatedTotalSupply : BankM Coins := getPaginatedTotal .supply

/-- `getPaginatedTotalLiquidityPool`. -/
def getPaginatedTotalLiquidityPool : BankM Coins := getPaginatedTotal .liquidityPool

/-- `getPaginatedTotalFeeTaxPool`. -/
def getPaginatedTotalFeeTaxPool : BankM Coins := getPaginatedTotal .feeTaxPool

/-- "Create account if recipient does not exist." -/
def createAccountIfMissing (addr : AccAddress) : BankM Unit :=
  modify fun s => if addr ∈ s.accounts then s else { s with accounts := addr :: s.accounts }

/-! ## Debit, credit, burn -/

variable (k : Keeper)

/-- One coin of `subUnlockedCoins`: the spendable balance (balance minus locked,
a panic when the lock exceeds the balance) must cover the coin, then the balance
is lowered. -/
def subUnlockedCoin (addr : AccAddress) (lockedCoins : Coins) (coin : Coin) : BankM Unit := do
  let balance ← getBalance addr coin.denom
  let locked ← liftPanic (newCoin coin.denom (lockedCoins.amountOf coin.denom))
  let spendable ← liftPanic (balance.sub locked)
  let (_, hasNeg) ← liftPanic (Coins.safeSub [spendable] [coin])
  if hasNeg then throw (.insufficientFunds spendable coin)
  else
    let newBalance ← liftPanic (balance.sub coin)
    setBalance addr newBalance

/-- `subUnlockedCoins`: `amt` validated, then debited coin by coin; a coin that
is not covered ends the call with the earlier coins already debited. -/
def subUnlockedCoins (addr : AccAddress) (amt : Coins) : BankM Unit :=
  if !amt.isValid then throw (.invalidCoins amt)
  else amt.forM (subUnlockedCoin addr (k.lockedCoins addr))

/-- One coin of `addCoins`. -/
def addCoin (addr : AccAddress) (coin : Coin) : BankM Unit := do
  let balance ← getBalance addr coin.denom
  let newBalance ← liftPanic (balance.add coin)
  setBalance addr newBalance

/-- `addCoins`: `amt` validated, then credited coin by coin. -/
def addCoins (addr : AccAddress) (amt : Coins) : BankM Unit :=
  if !amt.isValid then throw (.invalidCoins amt)
  else amt.forM (addCoin addr)

/-- One coin of the supply loop of `burnCoins`. -/
def burnSupply (amount : Coin) : BankM Unit := do
  let supply ← getSupply amount.denom
  let supply ← liftPanic (supply.sub amount)
  setSupply supply

/-- `burnCoins`: the module account must exist and hold the burner permission
(a panic otherwise); its unlocked coins are debited, then the supply lowered. -/
def burnCoins (moduleName : String) (amounts : Coins) : BankM Unit :=
  match k.getModuleAccount moduleName with
  | none => abort .unknownModuleAccount
  | some acc =>
    if !acc.hasPermission burner then abort .unauthorizedBurn
    else do
      subUnlockedCoins k acc.address amounts
      amounts.forM burnSupply

/-! ## The deflationary split -/

/-- `NewDecFromInt(amount).Mul(percent).TruncateInt()`. -/
def portion (amount : Int) (percent : Dec) : Except Panic Int :=
  (Dec.newDecFromInt amount).mul percent >>= Dec.truncateInt

/-- The burn, liquidity and fee-tax amounts of one matching rule, as the inner
loop computes them: each one from `LiquidityPercent`. -/
def deflationaryAmounts (deflationary : SupportDeflationary) (amount : Int) :
    Except Panic (Int × Int × Int) := do
  let burnAmount ← portion amount deflationary.liquidityPercent
  let liquidityAmount ← portion amount deflationary.liquidityPercent
  let feeTarAmount ← portion amount deflationary.liquidityPercent
  pure (burnAmount, liquidityAmount, feeTarAmount)

/-- The condition of the inner loop: the rule is enabled, for the coin's
denomination, the sender is not on `WhitelistedFrom` and the recipient is on
`WhitelistedTo`. -/
def SupportDeflationary.applies (deflationary : SupportDeflationary) (denom : String)
    (fromAddr toAddr : AccAddress) : Bool :=
  deflationary.enabled && deflationary.denom = denom &&
    !deflationary.isWhitelistedFrom fromAddr && deflationary.isWhitelistedTo toAddr

/-- One iteration of the inner loop over the rules: a matching rule overwrites
the amounts, another leaves them; `none` is `isDeflationary = false`. -/
def deflationaryStep (coin : Coin) (fromAddr toAddr : AccAddress)
    (acc : Option (Int × Int × Int)) (deflationary : SupportDeflationary) :
    Except Panic (Option (Int × Int × Int)) :=
  if deflationary.applies coin.denom fromAddr toAddr then
    some <$> deflationaryAmounts deflationary coin.amount
  else pure acc

/-- The inner loop over the rules. It never breaks, so the last match wins. -/
def deflationaryMatch (rules : List SupportDeflationary) (coin : Coin)
    (fromAddr toAddr : AccAddress) : Except Panic (Option (Int × Int × Int)) :=
  rules.foldlM (deflationaryStep coin fromAddr toAddr) none

/-- What the coin loop of `deflationaryCoins` has built: `amt` with each taxed
coin replaced by its net, and the burn, liquidity and fee-tax coins appended. -/
structure Split where
  amt : Coins
  burnCoins : Coins
  liquidityCoins : Coins
  feeTarCoins : Coins
deriving DecidableEq, Repr

/-- The values one iteration of the coin loop computes before it touches a pool:
`none` when no rule matches (`continue`), else the coin written back into `amt[i]`
and the burn, liquidity and fee-tax coins. `sdk.NewCoin` panics on a negative
portion or net, `Int.Sub` past 256 bits. -/
def taxCoin (params : Params) (fromAddr toAddr : AccAddress) (coin : Coin) :
    Except Panic (Option (Coin × Coin × Coin × Coin)) := do
  match ← deflationaryMatch params.supportDeflationary coin fromAddr toAddr with
  | none => pure none
  | some (burnAmount, liquidityAmount, feeTarAmount) =>
    let burnCoin ← newCoin coin.denom burnAmount
    let liquidityCoin ← newCoin coin.denom liquidityAmount
    let feeTarCoin ← newCoin coin.denom feeTarAmount
    let sendAmount ← SdkInt.sub coin.amount burnAmount >>= (SdkInt.sub · liquidityAmount) >>=
      (SdkInt.sub · feeTarAmount)
    let sent ← newCoin coin.denom sendAmount
    pure (some (sent, burnCoin, liquidityCoin, feeTarCoin))

/-- The pool update of one portion, `if amount.IsPositive() { ... }`: the pool
coin is read and its amount added to the portion, but `Int.Add` returns a new
value that the source discards, so the pool coin is written back as read. -/
def addToPool (which : DenomStore) (denom : String) (amount : Int) : BankM Unit :=
  if 0 < amount then do
    let pool ← getDenomCoin which denom
    let _ ← liftPanic (SdkInt.add pool.amount amount)
    setDenomCoin which pool
  else pure ()

/-- One iteration of the coin loop of `deflationaryCoins`. -/
def deflationaryCoin (params : Params) (fromAddr toAddr : AccAddress) (coin : Coin) :
    BankM Split := do
  match ← liftPanic (taxCoin params fromAddr toAddr coin) with
  | none => pure ⟨[coin], [], [], []⟩
  | some (sent, burnCoin, liquidityCoin, feeTarCoin) =>
    addToPool .liquidityPool sent.denom liquidityCoin.amount
    addToPool .feeTaxPool sent.denom feeTarCoin.amount
    pure ⟨[sent], [burnCoin], [liquidityCoin], [feeTarCoin]⟩

/-- The coin loop of `deflationaryCoins`, coins in order. -/
def deflationaryLoop (params : Params) (fromAddr toAddr : AccAddress) : Coins → BankM Split
  | [] => pure ⟨[], [], [], []⟩
  | coin :: rest => do
    let one ← deflationaryCoin params fromAddr toAddr coin
    let more ← deflationaryLoop params fromAddr toAddr rest
    pure ⟨one.amt ++ more.amt, one.burnCoins ++ more.burnCoins,
      one.liquidityCoins ++ more.liquidityCoins, one.feeTarCoins ++ more.feeTarCoins⟩

/-- `deflationaryCoins`: the split of every coin, then the module account
credited with all portions and the burn portions burnt from it. Returns `amt`
with each taxed coin replaced by its net, which the source writes into the
caller's slice; the callers model where that slice lies. -/
def deflationaryCoins (fromAddr toAddr : AccAddress) (amt : Coins) : BankM Coins := do
  let params ← getParams
  let split ← deflationaryLoop params fromAddr toAddr amt
  match k.getModuleAccount moduleName with
  | none => abort .unknownModuleAccount
  | some recipientAcc =>
    let totalCoins ← liftPanic (split.burnCoins.add split.liquidityCoins >>=
      (·.add split.feeTarCoins))
    if totalCoins.isZero then pure split.amt
    else do
      addCoins recipientAcc.address totalCoins
      if split.burnCoins.isZero then pure split.amt
      else do
        burnCoins k moduleName split.burnCoins
        pure split.amt

/-! ## Transfers -/

/-- `SendCoins`: debit the sender, split, credit the recipient the net, and give
the recipient an account if it has none. -/
def sendCoins (fromAddr toAddr : AccAddress) (amt : Coins) : BankM Unit := do
  subUnlockedCoins k fromAddr amt
  let sendCoins ← deflationaryCoins k fromAddr toAddr amt
  addCoins toAddr sendCoins
  createAccountIfMissing toAddr

/-! ## The caller's coins

`sdk.Coins` is a Go slice: an `Output` that `InputOutputCoins` receives points
into its caller's memory, and `deflationaryCoins` writes the net of each taxed
coin back through it (`amt[i] = sdk.NewCoin(amt[i].Denom, sendAmount)`). The
memory is a list of coin cells and a slice a range of them, so that two slices
share a coin exactly where their ranges overlap. -/

/-- A Go slice of coins: `len` cells of the caller's memory from `off`. -/
structure CoinSlice where
  off : Nat
  len : Nat
deriving DecidableEq, Repr

/-- `mem` with the cells from `off` on replaced by `coins`, as far as both go. -/
def overwrite : List Coin → Nat → Coins → List Coin
  | mem, _, [] => mem
  | [], _, _ :: _ => []
  | _ :: ms, 0, c :: cs => c :: overwrite ms 0 cs
  | m :: ms, off + 1, c :: cs => m :: overwrite ms off (c :: cs)

namespace CoinSlice

/-- The coins the slice holds in `mem`. -/
def read (sl : CoinSlice) (mem : List Coin) : Coins := (mem.drop sl.off).take sl.len

/-- `amt[i] = coins[i]` for every index of the slice. -/
def write (sl : CoinSlice) (mem : List Coin) (coins : Coins) : List Coin :=
  overwrite mem sl.off (coins.take sl.len)

/-- No cell lies in both slices. -/
def Disjoint (sl sl' : CoinSlice) : Prop :=
  sl.len = 0 ∨ sl'.len = 0 ∨ sl.off + sl.len ≤ sl'.off ∨ sl'.off + sl'.len ≤ sl.off

instance disjointDecidable (sl sl' : CoinSlice) : Decidable (sl.Disjoint sl') :=
  inferInstanceAs (Decidable (_ ∨ _))

end CoinSlice

/-- `types.Input`. Its coins are read only before the call writes anything, so
they are taken as the values they hold. -/
structure Input where
  address : String
  coins : Coins
deriving DecidableEq, Repr

/-- `types.Output`: an address and the slice of its coins. -/
structure Output where
  address : String
  coins : CoinSlice
deriving DecidableEq, Repr

/-- `sdk.AccAddressFromBech32` with its error returned. -/
def parseAddress (address : String) : BankM AccAddress :=
  match accAddressFromBech32 address with
  | .ok addr => pure addr
  | .error e => throw (.invalidAddress address e)

/-- `Input.ValidateBasic` and `Output.ValidateBasic` of the SDK, outside the
shown sources: the address decodes, and the coins are valid and all positive,
which no empty list is. -/
def validateBasic (address : String) (coins : Coins) : BankM Unit := do
  let _ ← parseAddress address
  if !coins.isValid then throw (.invalidCoins coins)
  else if !coins.isAllPositive then throw (.invalidCoins coins)
  else pure ()

/-- `types.ValidateInputsOutputs` of the SDK, outside the shown sources: every
input and output passes `ValidateBasic` and is added into the inputs' or the
outputs' total by `Coins.Add`; the two totals must then be equal by
`Coins.IsEqual`, which panics on two coins of different denominations at one
index. The outputs' coins are read from the caller's memory `mem`. -/
def validateInputsOutputs (inputs : List Input) (outputs : List Output) (mem : List Coin) :
    BankM Unit := do
  let totalIn ← inputs.foldlM (fun (total : Coins) input => do
    validateBasic input.address input.coins
    liftPanic (total.add input.coins)) []
  let totalOut ← outputs.foldlM (fun (total : Coins) output => do
    validateBasic output.address (output.coins.read mem)
    liftPanic (total.add (output.coins.read mem))) []
  if !(← liftPanic (totalIn.isEqual totalOut)) then throw .inputOutputMismatch else pure ()

/-- The work on one output of `InputOutputCoins`, on the caller's memory `mem`:
the coins its slice holds now are split as if sent from the empty address
`sdk.AccAddress{}`, and the split writes the net of each taxed coin into the
slice, where a later output sharing the cells reads it (an untaxed coin is
written back as read). Returns the memory after the write. -/
def outputCoins (mem : List Coin) (out : Output) : BankM (List Coin) := do
  let outAddress ← parseAddress out.address
  let sendCoins ← deflationaryCoins k "" outAddress (out.coins.read mem)
  addCoins outAddress sendCoins
  createAccountIfMissing outAddress
  pure (out.coins.write mem sendCoins)

/-- `InputOutputCoins` on the caller's memory `mem` that the outputs point into:
validate, debit every input, then split and credit every output in turn; a
failure stops the call with the earlier work kept. Returns the caller's memory
after the write-backs. -/
def inputOutputCoins (inputs : List Input) (outputs : List Output) (mem : List Coin) :
    BankM (List Coin) := do
  validateInputsOutputs inputs outputs mem
  inputs.forM fun input => do
    let inAddress ← parseAddress input.address
    subUnlockedCoins k inAddress input.coins
  outputs.foldlM (outputCoins k) mem

/-- `IsSendEnabledCoins`: the first coin whose denomination may not be sent is
an error. -/
def isSendEnabledCoins (coins : Coins) : BankM Unit := do
  let params ← getParams
  coins.forM fun coin =>
    if !params.sendEnabledDenom coin.denom then throw (.sendDisabled coin.denom) else pure ()

/-- `IsSendEnabledCoin`. -/
def isSendEnabledCoin (coin : Coin) : BankM Bool := do
  let params ← getParams
  pure (params.sendEnabledDenom coin.denom)

end DeflationaryBank
