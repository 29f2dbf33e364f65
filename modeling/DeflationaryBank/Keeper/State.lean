import DeflationaryBank.Types.Params
import DeflationaryBank.Store

/-!
# Keeper state and the Go calling convention

A keeper method reads and writes the stores of its context and returns an
`error`; a failed check returns the error with every write made before it still
in the store, and a panic aborts the call. `BankM` is that convention: a call on
a `BankState` ends in `ok`, in `err` with the state as the call left it, or in
`panic`.

The account keeper is a collaborator: `Keeper` holds what the bank reads of it
that no bank call changes (module accounts, locked coins of vesting accounts),
and `BankState.accounts` the addresses that have an account.
-/

namespace DeflationaryBank

/-- A module account as `GetModuleAccount` returns it. -/
structure ModuleAccount where
  address : AccAddress
  permissions : List String
deriving DecidableEq, Repr

/-- `authtypes.Burner`. -/
def burner : String := "burner"

/-- `types.ModuleName`. -/
def moduleName : String := "bank"

/-- `ModuleAccount.HasPermission`. -/
def ModuleAccount.hasPermission (acc : ModuleAccount) (permission : String) : Bool :=
  acc.permissions.any (· = permission)

/-- The collaborators of `BaseSendKeeper`, fixed during a call:
`ak.GetModuleAccount` and `LockedCoins`. -/
structure Keeper where
  getModuleAccount : String → Option ModuleAccount
  lockedCoins : AccAddress → Coins

/-- The stores a bank call reads and writes. -/
structure BankState where
  /-- `balance/{address}/{denom}`. -/
  balances : KVStore (AccAddress × String)
  /-- `supply/{denom}`. -/
  supply : KVStore String
  /-- `pool/liquidity/{denom}`. -/
  liquidityPool : KVStore String
  /-- `pool/feetax/{denom}`. -/
  feeTaxPool : KVStore String
  /-- The bank's parameter subspace. -/
  params : Params
  /-- The addresses the account keeper holds an account for. -/
  accounts : List AccAddress

/-- A fresh store: nothing written, default parameters. -/
def BankState.empty : BankState := ⟨.empty, .empty, .empty, .empty, defaultParams, []⟩

/-- The three stores keyed by denomination alone. -/
inductive DenomStore where
  | supply
  | liquidityPool
  | feeTaxPool
deriving DecidableEq, Repr

namespace BankState

/-- The store a `DenomStore` names. -/
def denomStore (s : BankState) : DenomStore → KVStore String
  | .supply => s.supply
  | .liquidityPool => s.liquidityPool
  | .feeTaxPool => s.feeTaxPool

/-- Replace the store a `DenomStore` names. -/
def setDenomStore (s : BankState) : DenomStore → KVStore String → BankState
  | .supply, st => { s with supply := st }
  | .liquidityPool, st => { s with liquidityPool := st }
  | .feeTaxPool, st => { s with feeTaxPool := st }

/-- The amount of `denom` stored for `addr`, zero when absent. -/
def balanceOf (s : BankState) (addr : AccAddress) (denom : String) : Int :=
  s.balances.amount (addr, denom)

/-- The supply of `denom`, zero when absent. -/
def supplyOf (s : BankState) (denom : String) : Int := s.supply.amount denom

/-- The write of `setBalance`: the coin's amount for `addr`, deleted on zero. -/
def putBalance (s : BankState) (addr : AccAddress) (c : Coin) : BankState :=
  { s with balances := s.balances.put (addr, c.denom) c.amount }

/-- The write of `setSupply`, `setLiquidityPool`, `setFeeTaxPool`. -/
def putDenom (s : BankState) (which : DenomStore) (c : Coin) : BankState :=
  s.setDenomStore which ((s.denomStore which).put c.denom c.amount)

@[simp] theorem denomStore_setDenomStore (s : BankState) (w w' : DenomStore) (st : KVStore String) :
    (s.setDenomStore w st).denomStore w' = if w' = w then st else s.denomStore w' := by
  cases w <;> cases w' <;> rfl

@[simp] theorem balances_setDenomStore (s : BankState) (w : DenomStore) (st : KVStore String) :
    (s.setDenomStore w st).balances = s.balances := by cases w <;> rfl

@[simp] theorem params_setDenomStore (s : BankState) (w : DenomStore) (st : KVStore String) :
    (s.setDenomStore w st).params = s.params := by cases w <;> rfl

@[simp] theorem accounts_setDenomStore (s : BankState) (w : DenomStore) (st : KVStore String) :
    (s.setDenomStore w st).accounts = s.accounts := by cases w <;> rfl

@[simp] theorem denomStore_supply (s : BankState) : s.denomStore .supply = s.supply := rfl

@[simp] theorem denomStore_liquidityPool (s : BankState) :
    s.denomStore .liquidityPool = s.liquidityPool := rfl

@[simp] theorem denomStore_feeTaxPool (s : BankState) : s.denomStore .feeTaxPool = s.feeTaxPool := rfl

@[simp] theorem putBalance_supply (s : BankState) (a : AccAddress) (c : Coin) :
    (s.putBalance a c).supply = s.supply := rfl

@[simp] theorem putBalance_denomStore (s : BankState) (a : AccAddress) (c : Coin) (w : DenomStore) :
    (s.putBalance a c).denomStore w = s.denomStore w := by cases w <;> rfl

@[simp] theorem putBalance_params (s : BankState) (a : AccAddress) (c : Coin) :
    (s.putBalance a c).params = s.params := rfl

@[simp] theorem putDenom_balances (s : BankState) (w : DenomStore) (c : Coin) :
    (s.putDenom w c).balances = s.balances := by simp [putDenom]

@[simp] theorem putDenom_params (s : BankState) (w : DenomStore) (c : Coin) :
    (s.putDenom w c).params = s.params := by simp [putDenom]

@[simp] theorem denomStore_putDenom (s : BankState) (w w' : DenomStore) (c : Coin) :
    (s.putDenom w c).denomStore w' =
      if w' = w then (s.denomStore w).put c.denom c.amount else s.denomStore w' := by
  simp [putDenom]

end BankState

/-- A Go `error` the modelled code returns. -/
inductive BankError where
  /-- `sdkerrors.ErrInvalidCoins`, wrapping the coins' text. -/
  | invalidCoins (coins : Coins)
  /-- `sdkerrors.ErrInsufficientFunds`: "%s is smaller than %s". -/
  | insufficientFunds (spendable coin : Coin)
  /-- An address text `AccAddressFromBech32` rejects. -/
  | invalidAddress (address : String) (e : AddressError)
  /-- `types.ErrInputOutputMismatch`: "sum inputs != sum outputs". -/
  | inputOutputMismatch
  /-- `types.ErrSendDisabled`: "%s transfers are currently disabled". -/
  | sendDisabled (denom : String)
deriving DecidableEq, Repr

/-- How a keeper call ends. -/
inductive Outcome (α : Type) where
  /-- It returns, with a nil error. -/
  | ok (a : α) (s : BankState)
  /-- It returns an error; the writes made before the error stay. -/
  | err (e : BankError) (s : BankState)
  /-- It panics. -/
  | panic (p : Panic)

/-- The state a call returned in with a nil error; `none` after an error or a
panic. -/
def Outcome.okState? {α : Type} : Outcome α → Option BankState
  | .ok _ s => some s
  | _ => none

/-- A call that returned with a nil error returned in the state `okState?` names. -/
theorem Outcome.eq_ok_of_isSome {o : Outcome Unit} (h : o.okState?.isSome = true) :
    o = .ok () (o.okState?.getD BankState.empty) := by
  cases o <;> simp_all [Outcome.okState?]

/-- The state a call returned in, with a nil error or with an error; `none`
after a panic. -/
def Outcome.state? {α : Type} : Outcome α → Option BankState
  | .ok _ s => some s
  | .err _ s => some s
  | .panic _ => none

/-- The value a call returned with a nil error; `none` after an error or a panic. -/
def Outcome.value? {α : Type} : Outcome α → Option α
  | .ok a _ => some a
  | _ => none

/-- A call that returned a value with a nil error returned it in the state
`okState?` names. -/
theorem Outcome.eq_ok_of_value? {α : Type} {o : Outcome α} {a : α} (h : o.value? = some a) :
    o = .ok a (o.okState?.getD BankState.empty) := by
  cases o <;> simp_all [Outcome.value?, Outcome.okState?]

/-- The error a call returned; `none` after a nil error or a panic. -/
def Outcome.error? {α : Type} : Outcome α → Option BankError
  | .err e _ => some e
  | _ => none

/-- A call that returned an error returned it in the state `state?` names. -/
theorem Outcome.eq_err_of_error? {α : Type} {o : Outcome α} {e : BankError} (h : o.error? = some e) :
    o = .err e (o.state?.getD BankState.empty) := by
  cases o <;> simp_all [Outcome.error?, Outcome.state?]

/-- Why a call panicked; `none` when it returned. -/
def Outcome.panic? {α : Type} : Outcome α → Option Panic
  | .panic p => some p
  | _ => none

/-- A keeper method on the stores of its context. -/
def BankM (α : Type) : Type := BankState → Outcome α

namespace BankM

variable {α β : Type}

/-- Sequencing: an error or a panic ends the call. -/
def bind (m : BankM α) (f : α → BankM β) : BankM β := fun s =>
  match m s with
  | .ok a s' => f a s'
  | .err e s' => .err e s'
  | .panic p => .panic p

instance : Monad BankM where
  pure a := fun s => .ok a s
  bind := bind

/-- `return err`. -/
def throw (e : BankError) : BankM α := fun s => .err e s

/-- `panic(...)`. -/
def abort (p : Panic) : BankM α := fun _ => .panic p

/-- Read the stores. -/
def read : BankM BankState := fun s => .ok s s

/-- Write the stores. -/
def modify (f : BankState → BankState) : BankM Unit := fun s => .ok () (f s)

/-- A computation on values, which can only panic. -/
def liftPanic (x : Except Panic α) : BankM α := fun s =>
  match x with
  | .ok a => .ok a s
  | .error p => .panic p

instance : MonadLift (Except Panic) BankM := ⟨liftPanic⟩

/-- `if err != nil { panic(...) }`: an error of `m` becomes the panic `p`. -/
def orAbort (m : BankM α) (p : Panic) : BankM α := fun s =>
  match m s with
  | .err _ _ => .panic p
  | o => o

@[simp] theorem pure_apply (a : α) (s : BankState) : (pure a : BankM α) s = .ok a s := rfl

@[simp] theorem throw_apply (e : BankError) (s : BankState) : (throw e : BankM α) s = .err e s := rfl

@[simp] theorem abort_apply (p : Panic) (s : BankState) : (abort p : BankM α) s = .panic p := rfl

@[simp] theorem read_apply (s : BankState) : read s = .ok s s := rfl

@[simp] theorem modify_apply (f : BankState → BankState) (s : BankState) :
    modify f s = .ok () (f s) := rfl

@[simp] theorem liftPanic_ok (a : α) (s : BankState) : liftPanic (.ok a) s = .ok a s := rfl

@[simp] theorem liftPanic_error (p : Panic) (s : BankState) :
    (liftPanic (.error p) : BankM α) s = .panic p := rfl

theorem bind_apply (m : BankM α) (f : α → BankM β) (s : BankState) :
    (m >>= f) s = match m s with
      | .ok a s' => f a s'
      | .err e s' => .err e s'
      | .panic p => .panic p := rfl

theorem bind_ok {m : BankM α} {s s' : BankState} {a : α} (h : m s = .ok a s') (f : α → BankM β) :
    (m >>= f) s = f a s' := by simp [bind_apply, h]

end BankM

end DeflationaryBank
