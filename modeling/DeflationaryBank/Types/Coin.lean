import Mathlib.Algebra.Order.Ring.Int
import Mathlib.Data.List.Sort

/-!
# sdk.Int, sdk.Dec and sdk.Coins

The value types the bank keeper computes with. They live in the SDK's `types`
package, outside the bank sources, and are modelled from the spec's data model
("Coins: ordered-by-denomination set of Coin with unique denominations ...
arithmetic operations (add/sub) must fail (not wrap)") following the SDK function
each definition names, its panics included:

* an `sdk.Int` is an `Int` whose every operation panics beyond `maxBitLen` bits;
* an `sdk.Dec` is an `Int` counting units of `10^-18`, or nil;
* `Coins.Add` merges two denomination-ordered lists and drops the zero sums.

Every function here is structurally recursive, so that the kernel can run the
model on a concrete transfer.
-/

namespace DeflationaryBank

/-- Why a Go call of the modelled code panicked. A panic aborts the whole call,
so only its cause is kept. -/
inductive Panic where
  /-- `sdk.Int` or `sdk.Dec` arithmetic beyond its bit bound: "Int overflow". -/
  | intOverflow
  /-- `Coin.Sub` below zero: "negative coin amount". -/
  | negativeCoinAmount
  /-- `sdk.NewCoin` or `sdk.NewCoins` on a coin that fails `Validate`. -/
  | invalidCoin
  /-- `Coin.Add`, `Coin.Sub` or `Coin.IsEqual` across two denominations. -/
  | invalidCoinDenominations
  /-- Arithmetic on a nil `sdk.Dec`. -/
  | nilDec
  /-- `burnCoins`, `deflationaryCoins`: "module account %s does not exist". -/
  | unknownModuleAccount
  /-- `burnCoins`: "module account %s does not have permissions to burn tokens". -/
  | unauthorizedBurn
  /-- `SetParamSet`: "value from ParamSetPair is invalid". -/
  | invalidParams
  /-- `InitGenesis`: a balance address that does not decode. -/
  | invalidGenesisAddress
  /-- `InitGenesis`: "error on setting balances". -/
  | genesisBalances
  /-- `InitGenesis`: "genesis supply is incorrect". -/
  | incorrectGenesisSupply
  /-- `InitGenesis`: "%s module account has not been set". -/
  | moduleAccountNotSet
  /-- `InitGenesis`: "module balance does not match the module holdings". -/
  | moduleBalanceMismatch
deriving DecidableEq, Repr

/-- Equality of results is decidable, so that a concrete call can be compared
with its expected result. -/
instance exceptDecidableEq {ε α : Type} [DecidableEq ε] [DecidableEq α] :
    DecidableEq (Except ε α)
  | .ok a, .ok b => decidable_of_iff (a = b) (by simp)
  | .error a, .error b => decidable_of_iff (a = b) (by simp)
  | .ok _, .error _ => isFalse Except.noConfusion
  | .error _, .ok _ => isFalse Except.noConfusion

/-! ## sdk.Int -/

/-- An `sdk.Int` holds at most 256 bits. -/
def maxBitLen : Nat := 256

namespace SdkInt

/-- The check every `sdk.Int` operation ends with: `res.i.BitLen() > maxBitLen`
panics with "Int overflow". -/
def checked (x : Int) : Except Panic Int :=
  if x.natAbs < 2 ^ maxBitLen then .ok x else .error .intOverflow

/-- `Int.Add`. -/
def add (i i2 : Int) : Except Panic Int := checked (i + i2)

/-- `Int.Sub`. -/
def sub (i i2 : Int) : Except Panic Int := checked (i - i2)

end SdkInt

/-! ## sdk.Dec -/

/-- `sdk.Dec`: `i` counts units of `10^-precision`; `none` is the nil `Dec`. -/
structure Dec where
  i : Option Int
deriving DecidableEq, Repr

namespace Dec

/-- `Precision`: the number of decimal places. -/
def precision : Nat := 18

/-- `precisionMultiplier(0)`, that is `10^Precision`. -/
def precisionMultiplier : Nat := 10 ^ precision

/-- `maxDecBitLen = maxBitLen + DecimalPrecisionBits`. -/
def maxDecBitLen : Nat := maxBitLen + 60

/-- `NewDecFromInt`: no bound check, the product is exact. -/
def newDecFromInt (i : Int) : Dec := ⟨some (i * precisionMultiplier)⟩

/-- `NewDecWithPrec(i, prec)`, the value `i * 10^-prec`. -/
def newDecWithPrec (i : Int) (prec : Nat) : Dec :=
  ⟨some (i * (10 ^ (precision - prec) : Nat))⟩

/-- `OneDec`. -/
def oneDec : Dec := ⟨some precisionMultiplier⟩

/-- `chopPrecisionAndRound` on a non-negative integer: drop `precision` digits and
round half to even. -/
def chopNonneg (n : Nat) : Int :=
  let quo := n / precisionMultiplier
  let rem := n % precisionMultiplier
  if rem = 0 then quo
  else if rem < precisionMultiplier / 2 then quo
  else if precisionMultiplier / 2 < rem then quo + 1
  else if quo % 2 = 0 then quo else quo + 1

/-- `chopPrecisionAndRound`: the sign is taken off, the digits chopped, and the
sign put back. -/
def chopPrecisionAndRound (d : Int) : Int :=
  if d < 0 then -chopNonneg (-d).toNat else chopNonneg d.toNat

/-- `Dec.Mul`: the exact product, chopped and rounded, panics beyond
`maxDecBitLen` bits. -/
def mul (d d2 : Dec) : Except Panic Dec :=
  match d.i, d2.i with
  | some x, some y =>
    let chopped := chopPrecisionAndRound (x * y)
    if chopped.natAbs < 2 ^ maxDecBitLen then .ok ⟨some chopped⟩ else .error .intOverflow
  | _, _ => .error .nilDec

/-- `Dec.TruncateInt`: drop the fraction toward zero (`big.Int.Quo`), then
`NewIntFromBigInt`, which panics beyond `maxBitLen` bits. -/
def truncateInt (d : Dec) : Except Panic Int :=
  match d.i with
  | some x => SdkInt.checked (x.tdiv precisionMultiplier)
  | none => .error .nilDec

end Dec

/-! ## sdk.Coin -/

/-- Go's `<` on the characters of two strings: lexicographic by character code,
a proper prefix first. -/
def charsLt : List Char → List Char → Bool
  | [], [] => false
  | [], _ :: _ => true
  | _ :: _, [] => false
  | c :: cs, d :: ds => if c.toNat < d.toNat then true else if c = d then charsLt cs ds else false

/-- Go's `a < b` on strings, as `strings.Compare(a, b) == -1`. -/
def stringLt (a b : String) : Bool := charsLt a.toList b.toList

/-- A character the default denomination pattern admits after the first one. -/
def isDenomChar (c : Char) : Bool :=
  c.isAlphanum || c == '/' || c == ':' || c == '.' || c == '_' || c == '-'

/-- `sdk.ValidateDenom` with the default pattern `[a-zA-Z][a-zA-Z0-9/:._-]{2,127}`. -/
def validateDenom (denom : String) : Bool :=
  match denom.toList with
  | [] => false
  | c :: cs => c.isAlpha && 2 ≤ cs.length && cs.length ≤ 127 && cs.all isDenomChar

/-- `sdk.Coin`. -/
structure Coin where
  denom : String
  amount : Int
deriving DecidableEq, Repr

namespace Coin

/-- `Coin.IsValid`, that is `Coin.Validate() == nil`: a valid denomination and a
non-negative amount. -/
def isValid (coin : Coin) : Bool := validateDenom coin.denom && 0 ≤ coin.amount

def isZero (coin : Coin) : Bool := coin.amount = 0

def isPositive (coin : Coin) : Bool := 0 < coin.amount

def isNegative (coin : Coin) : Bool := coin.amount < 0

/-- `Coin.Add`: same denomination only; the sum panics past 256 bits. -/
def add (coin coinB : Coin) : Except Panic Coin :=
  if coin.denom ≠ coinB.denom then .error .invalidCoinDenominations
  else (⟨coin.denom, ·⟩) <$> SdkInt.add coin.amount coinB.amount

/-- `Coin.Sub`: same denomination only; a negative difference panics. -/
def sub (coin coinB : Coin) : Except Panic Coin := do
  if coin.denom ≠ coinB.denom then throw .invalidCoinDenominations
  let amount ← SdkInt.sub coin.amount coinB.amount
  if amount < 0 then throw .negativeCoinAmount
  pure ⟨coin.denom, amount⟩

/-- `Coin.IsEqual`: same denomination only. -/
def isEqual (coin other : Coin) : Except Panic Bool :=
  if coin.denom ≠ other.denom then .error .invalidCoinDenominations
  else .ok (coin.amount = other.amount)

end Coin

/-- `sdk.NewCoin`: panics unless the coin validates. -/
def newCoin (denom : String) (amount : Int) : Except Panic Coin :=
  if (Coin.mk denom amount).isValid then .ok ⟨denom, amount⟩ else .error .invalidCoin

/-! ## sdk.Coins -/

/-- `sdk.Coins`: a Go slice of coins. Validity is a check, not a type. -/
abbrev Coins := List Coin

namespace Coins

/-- `Coins.IsValid` after its first coin: each further coin has a valid
denomination above `lowDenom` and a positive amount. -/
def isValidAfter (lowDenom : String) : Coins → Bool
  | [] => true
  | coin :: rest =>
    validateDenom coin.denom && stringLt lowDenom coin.denom && coin.isPositive &&
      isValidAfter coin.denom rest

/-- `Coins.IsValid`: valid denominations, positive amounts, denominations
strictly increasing. -/
def isValid : Coins → Bool
  | [] => true
  | coin :: rest => validateDenom coin.denom && coin.isPositive && isValidAfter coin.denom rest

/-- `Coins.IsAllPositive`: at least one coin, and every amount positive. -/
def isAllPositive (coins : Coins) : Bool := !coins.isEmpty && coins.all Coin.isPositive

/-- `Coins.IsZero`: no coin, or only zero coins. -/
def isZero (coins : Coins) : Bool := coins.all Coin.isZero

/-- `Coins.Empty`. -/
def empty (coins : Coins) : Bool := coins.length == 0

/-- `removeZeroCoins`. -/
def removeZeroCoins (coins : Coins) : Coins := coins.filter fun c => !c.isZero

/-- Keep a coin in front of a merge result unless it is zero, as `safeAdd`'s
`if !coin.IsZero() { sum = append(sum, coin) }`. -/
def consNonZero (coin : Coin) (rest : Coins) : Coins :=
  if coin.isZero then rest else coin :: rest

/-- The inner loop of `safeAdd` with `coinA = a` at the head of the first list:
`addRest` continues the merge with the tail `as` of the first list. -/
def safeAddFrom (a : Coin) (as : Coins) (addRest : Coins → Except Panic Coins) :
    Coins → Except Panic Coins
  | [] => .ok (removeZeroCoins (a :: as))
  | b :: bs =>
    if stringLt a.denom b.denom then consNonZero a <$> addRest (b :: bs)
    else if a.denom = b.denom then do
      let res ← a.add b
      consNonZero res <$> addRest bs
    else consNonZero b <$> safeAddFrom a as addRest bs

/-- `Coins.safeAdd`: the merge of two denomination-ordered lists, adding the
amounts of equal denominations and dropping zero coins. -/
def safeAdd : Coins → Coins → Except Panic Coins
  | [], coinsB => .ok (removeZeroCoins coinsB)
  | a :: as, coinsB => safeAddFrom a as (safeAdd as) coinsB

/-- `Coins.Add`. -/
def add (coins coinsB : Coins) : Except Panic Coins := safeAdd coins coinsB

/-- `Coins.AmountOf`: the binary search over an ordered set finds the coin a
scan from the front finds; zero when the denomination is absent. -/
def amountOf (coins : Coins) (denom : String) : Int :=
  match coins.find? (·.denom = denom) with
  | some c => c.amount
  | none => 0

/-- `Coins.negative`. -/
def negative (coins : Coins) : Coins := coins.map fun c => ⟨c.denom, -c.amount⟩

/-- `Coins.IsAnyNegative`. -/
def isAnyNegative (coins : Coins) : Bool := coins.any Coin.isNegative

/-- `Coins.SafeSub`: the difference and whether some amount went negative. -/
def safeSub (coins coinsB : Coins) : Except Panic (Coins × Bool) := do
  let diff ← coins.safeAdd coinsB.negative
  pure (diff, diff.isAnyNegative)

/-- `Coins.Sort`, by denomination. -/
def sort (coins : Coins) : Coins := coins.insertionSort fun a b => stringLt b.denom a.denom = false

/-- The element loop of `Coins.IsEqual`. -/
def isEqualPairs : Coins → Coins → Except Panic Bool
  | c :: cs, d :: ds => do
    if !(← c.isEqual d) then return false
    isEqualPairs cs ds
  | _, _ => .ok true

/-- `Coins.IsEqual`: equal lengths, then the sorted lists compared coin by coin;
two coins of different denominations at one index panic. -/
def isEqual (coins coinsB : Coins) : Except Panic Bool :=
  if coins.length ≠ coinsB.length then .ok false else isEqualPairs coins.sort coinsB.sort

/-- `sdk.NewCoins`: zero coins removed, sorted, then validated. -/
def newCoins (coins : Coins) : Except Panic Coins :=
  let sanitized := (removeZeroCoins coins).sort
  if sanitized.isValid then .ok sanitized else .error .invalidCoin

end Coins

end DeflationaryBank
