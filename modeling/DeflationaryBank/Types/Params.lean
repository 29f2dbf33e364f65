import DeflationaryBank.Types.Coin

/-!
# Bank parameters

`x/bank/types/proposal.go`: the send-enabled table, the deflationary rules, their
validators and the lookups the keeper makes. Go's validators take an
`interface{}` and first assert its type; the model is typed, so that assertion
always succeeds and `validateIsBool` always accepts.
-/

namespace DeflationaryBank

/-- `sdk.AccAddress`, identified with its bech32 text `AccAddress.String()`; the
empty address `sdk.AccAddress{}` is the empty text. -/
abbrev AccAddress := String

/-- Why `sdk.AccAddressFromBech32` rejected a text. -/
inductive AddressError where
  /-- "empty address string is not allowed". -/
  | empty
deriving DecidableEq, Repr

/-- `sdk.AccAddressFromBech32` of the SDK, outside the bank sources. It first
rejects a text that `strings.TrimSpace` empties; the model takes every other
text as the well formed bech32 text of an address. -/
def accAddressFromBech32 (address : String) : Except AddressError AccAddress :=
  if address.toList.all Char.isWhitespace then .error .empty else .ok address

/-- `SendEnabled`: whether one denomination may be sent. -/
structure SendEnabled where
  denom : String
  enabled : Bool
deriving DecidableEq, Repr

/-- `NewSendEnabled`. -/
def newSendEnabled (denom : String) (sendEnabled : Bool) : SendEnabled := ⟨denom, sendEnabled⟩

/-- `SupportDeflationary`: the deflationary rule of one denomination. -/
structure SupportDeflationary where
  denom : String
  enabled : Bool
  whitelistedFrom : List String
  whitelistedTo : List String
  burnPercent : Dec
  liquidityPercent : Dec
  feeTaxPercent : Dec
deriving DecidableEq, Repr

/-- `Params` of the bank module. -/
structure Params where
  sendEnabled : List SendEnabled
  defaultSendEnabled : Bool
  supportDeflationary : List SupportDeflationary
deriving DecidableEq, Repr

/-- `NewParams`. -/
def newParams (defaultSendEnabled : Bool) (sendEnabledParams : List SendEnabled)
    (supportDeflationary : List SupportDeflationary) : Params :=
  ⟨sendEnabledParams, defaultSendEnabled, supportDeflationary⟩

/-- `DefaultParams`: everything sendable, no deflationary rule. -/
def defaultParams : Params := ⟨[], true, []⟩

/-! ## Validation -/

/-- The three percentages of a deflationary rule, as the validator's messages
name them. -/
inductive PercentField where
  | burn
  | liquidity
  | feeTax
deriving DecidableEq, Repr

/-- Why `validateSdkDec` rejected a `Dec`. -/
inductive DecError where
  /-- "must be not nil". -/
  | nil
  /-- "must be positive: %s". -/
  | negative
  /-- "too large: %s". -/
  | tooLarge
deriving DecidableEq, Repr

/-- Why a bank parameter failed validation. -/
inductive ParamError where
  /-- "duplicate send enabled parameter found: '%s'". -/
  | duplicateSendEnabled (denom : String)
  /-- `sdk.ValidateDenom`: "invalid denom: %s". -/
  | invalidDenom (denom : String)
  /-- "duplicate support deflationary parameter found: '%s'". -/
  | duplicateSupportDeflationary (denom : String)
  /-- A whitelisted address that `AccAddressFromBech32` rejects. -/
  | invalidAddress (address : String) (e : AddressError)
  /-- "burn percent %s", "liquidity percent %s", "fee tax percent %s". -/
  | percent (field : PercentField) (e : DecError)
deriving DecidableEq, Repr

/-- `validateIsBool`: its type assertion is all it checks. -/
def validateIsBool (_ : Bool) : Except ParamError Unit := .ok ()

/-- `sdk.ValidateDenom` as an error. -/
def checkDenom (denom : String) : Except ParamError Unit :=
  if validateDenom denom then .ok () else .error (.invalidDenom denom)

/-- The loop `validateSendEnabledParams` and `validateSupportDeflationaryParams`
share: a denomination already in `registered` is a duplicate, otherwise the entry
is validated and its denomination registered. -/
def validateRegistered {α : Type} (denomOf : α → String) (validate : α → Except ParamError Unit)
    (duplicate : String → ParamError) (registered : List String) :
    List α → Except ParamError Unit
  | [] => .ok ()
  | p :: ps =>
    if denomOf p ∈ registered then .error (duplicate (denomOf p))
    else do
      validate p
      validateRegistered denomOf validate duplicate (denomOf p :: registered) ps

/-- `validateSendEnabled`. -/
def validateSendEnabled (param : SendEnabled) : Except ParamError Unit := do
  validateIsBool param.enabled
  checkDenom param.denom

/-- `validateSendEnabledParams`: each denomination registered once, each entry valid. -/
def validateSendEnabledParams (params : List SendEnabled) : Except ParamError Unit :=
  validateRegistered SendEnabled.denom validateSendEnabled .duplicateSendEnabled [] params

/-- `validateSdkDec`: not nil, not negative, at most one. -/
def validateSdkDec (v : Dec) : Except DecError Unit :=
  match v.i with
  | none => .error .nil
  | some x =>
    if x < 0 then .error .negative
    else if (Dec.precisionMultiplier : Int) < x then .error .tooLarge
    else .ok ()

/-- Every address of a whitelist decodes. -/
def validateAddresses (addrs : List String) : Except ParamError Unit :=
  addrs.forM fun addr => (accAddressFromBech32 addr).mapError (.invalidAddress addr) *> .ok ()

/-- `validateSupportDeflationary`: each percentage is checked on its own; no bound
on their sum. -/
def validateSupportDeflationary (m : SupportDeflationary) : Except ParamError Unit := do
  validateIsBool m.enabled
  checkDenom m.denom
  validateAddresses m.whitelistedFrom
  validateAddresses m.whitelistedTo
  (validateSdkDec m.burnPercent).mapError (.percent .burn)
  (validateSdkDec m.liquidityPercent).mapError (.percent .liquidity)
  (validateSdkDec m.feeTaxPercent).mapError (.percent .feeTax)

/-- `validateSupportDeflationaryParams`: each denomination registered once, each
rule valid. -/
def validateSupportDeflationaryParams (params : List SupportDeflationary) :
    Except ParamError Unit :=
  validateRegistered SupportDeflationary.denom validateSupportDeflationary
    .duplicateSupportDeflationary [] params

namespace Params

/-- `Params.Validate`: the send-enabled table and the default flag. -/
def validate (p : Params) : Except ParamError Unit := do
  validateSendEnabledParams p.sendEnabled
  validateIsBool p.defaultSendEnabled

/-- `Params.ParamSetPairs`: each parameter key with the verdict of the validator
registered for the field it points to. -/
def paramSetPairs (p : Params) : List (String × Except ParamError Unit) :=
  [("SendEnabled", validateSendEnabledParams p.sendEnabled),
   ("DefaultSendEnabled", validateIsBool p.defaultSendEnabled),
   ("SupportDeflationary", validateSupportDeflationaryParams p.supportDeflationary)]

/-- `Params.SendEnabledDenom`: the first entry for the denomination, else the default. -/
def sendEnabledDenom (p : Params) (denom : String) : Bool :=
  match p.sendEnabled.find? (·.denom = denom) with
  | some pse => pse.enabled
  | none => p.defaultSendEnabled

/-- `Params.SetSendEnabledParam`: every other entry kept in order, the new entry
appended. -/
def setSendEnabledParam (p : Params) (denom : String) (sendEnabled : Bool) : Params :=
  newParams p.defaultSendEnabled
    ((p.sendEnabled.filter (·.denom ≠ denom)).map (fun q => newSendEnabled q.denom q.enabled) ++
      [newSendEnabled denom sendEnabled])
    p.supportDeflationary

end Params

namespace SupportDeflationary

/-- `SupportDeflationary.IsWhitelistedTo`. -/
def isWhitelistedTo (m : SupportDeflationary) (addr : String) : Bool :=
  m.whitelistedTo.any (· = addr)

/-- `SupportDeflationary.IsWhitelistedFrom`. -/
def isWhitelistedFrom (m : SupportDeflationary) (addr : String) : Bool :=
  m.whitelistedFrom.any (· = addr)

end SupportDeflationary

end DeflationaryBank
