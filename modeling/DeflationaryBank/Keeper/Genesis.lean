import DeflationaryBank.Keeper.Send

/-!
# Genesis import and export

`x/bank/keeper/genesis.go` of this fork. `InitGenesis` writes the balances, the
supply they sum to, and the two pools of the genesis, then compares the bank
module account's balance with `moduleHoldingsInt`; `ExportGenesis` reads every
store back. The denomination metadata both carry lives in a store no modelled
call reads, and is left out.
-/

namespace DeflationaryBank

open BankM

/-- `types.Balance`: the coins of one address. -/
structure Balance where
  address : String
  coins : Coins
deriving DecidableEq, Repr

/-- `types.GenesisState`, without the denomination metadata. -/
structure GenesisState where
  params : Params
  balances : List Balance
  supply : Coins
  liquidityPool : Coins
  feeTaxPool : Coins
deriving DecidableEq, Repr

/-- `types.SanitizeGenesisBalances` of the SDK, outside the shown sources: the
balances sorted by address, the coins of each left as given. -/
def sanitizeGenesisBalances (balances : List Balance) : List Balance :=
  balances.insertionSort fun a b => stringLt b.address a.address = false

/-- `SetParams`: `SetParamSet` runs the validator of each pair of
`ParamSetPairs` and panics on an invalid value. -/
def setParams (params : Params) : BankM Unit :=
  if params.paramSetPairs.all (·.2.toBool) then modify fun s => { s with params := params }
  else abort .invalidParams

/-- `GetAllBalances`: the coins stored for `addr`, added up and sorted. -/
def getAllBalances (addr : AccAddress) : BankM Coins := fun s =>
  liftPanic (Coins.sort <$> (s.balances.entries.filter (·.1.1 = addr)).foldlM
    (fun (balances : Coins) e => balances.add [⟨e.1.2, e.2⟩]) []) s

/-- One entry of the iteration in `GetAccountsBalances`: added to the address's
`Balance` when it has one, else a new `Balance` of `sdk.NewCoins(balance)`. -/
def addAccountBalance (balances : List Balance) (e : (AccAddress × String) × Int) :
    Except Panic (List Balance) :=
  let balance : Coin := ⟨e.1.2, e.2⟩
  if balances.any (·.address = e.1.1) then
    balances.mapM fun b =>
      if b.address = e.1.1 then (fun c => { b with coins := c.sort }) <$> b.coins.add [balance]
      else pure b
  else (fun c => balances ++ [⟨e.1.1, c⟩]) <$> Coins.newCoins [balance]

/-- `GetAccountsBalances`: every stored balance, grouped by address. -/
def getAccountsBalances : BankM (List Balance) := fun s =>
  liftPanic (s.balances.entries.foldlM addAccountBalance []) s

variable (k : Keeper)

/-- One balance of the loop of `InitGenesis`: its address decoded and its coins
written by `initBalances` (either failing is a panic), and the coins added into
the total supply. -/
def initGenesisBalance (totalSupply : Coins) (balance : Balance) : BankM Coins :=
  match accAddressFromBech32 balance.address with
  | .error _ => abort .invalidGenesisAddress
  | .ok addr => do
    orAbort (initBalances addr balance.coins) .genesisBalances
    liftPanic (totalSupply.add balance.coins)

/-- The balance loop of `InitGenesis`. -/
def initGenesisBalances (balances : List Balance) : BankM Coins :=
  balances.foldlM initGenesisBalance []

/-- The supply check of `InitGenesis`: a genesis supply that is not empty must
equal the total computed from the balances. -/
def checkGenesisSupply (supply totalSupply : Coins) : BankM Unit := do
  if !supply.empty then
    if !(← liftPanic (supply.isEqual totalSupply)) then abort .incorrectGenesisSupply

/-- The end of `InitGenesis`: the bank module account must exist, is stored when
it holds nothing, and must hold exactly `moduleHoldingsInt`. -/
def checkModuleHoldings (moduleHoldingsInt : Coins) : BankM Unit :=
  match k.getModuleAccount moduleName with
  | none => abort .moduleAccountNotSet
  | some moduleAcc => do
    let balances ← getAllBalances moduleAcc.address
    (if balances.isZero then createAccountIfMissing moduleAcc.address else pure ())
    if !(← liftPanic (balances.isEqual moduleHoldingsInt)) then abort .moduleBalanceMismatch

/-- `InitGenesis`. The sum `moduleHoldingsInt.Add(...).Add(...)` is computed and
discarded, so `moduleHoldingsInt` stays empty: the supply is the balances' total
alone and the module account must hold nothing. -/
def initGenesis (genState : GenesisState) : BankM Unit := do
  setParams genState.params
  let totalSupply ← initGenesisBalances (sanitizeGenesisBalances genState.balances)
  let moduleHoldingsInt : Coins := []
  let _ ← liftPanic (moduleHoldingsInt.add genState.liquidityPool >>= (·.add genState.feeTaxPool))
  let totalSupply ← liftPanic (totalSupply.add moduleHoldingsInt)
  checkGenesisSupply genState.supply totalSupply
  totalSupply.forM setSupply
  genState.feeTaxPool.forM setFeeTaxPool
  genState.liquidityPool.forM setLiquidityPool
  checkModuleHoldings k moduleHoldingsInt

/-- `ExportGenesis`. -/
def exportGenesis : BankM GenesisState := do
  let totalSupply ← getPaginatedTotalSupply
  let totalLiq ← getPaginatedTotalLiquidityPool
  let totalfee ← getPaginatedTotalFeeTaxPool
  let params ← getParams
  let balances ← getAccountsBalances
  pure ⟨params, balances, totalSupply, totalLiq, totalfee⟩

end DeflationaryBank
