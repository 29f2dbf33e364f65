import DeflationaryBank.Laws.Supply

/-!
# A multi-send of one input and one output

`InputOutputCoins([Input{from, amt}], [Output{to, amt}])` validates, debits
`from`, splits and credits `to`: the steps of `SendCoins(from, to, amt)`, in the
same order, except that the split is made as if sent from the empty address
`sdk.AccAddress{}`. The two calls are the same call exactly when the rules see
`from` and the empty address alike on their `WhitelistedFrom` lists, for
addresses whose text decodes and a valid amount.
-/

namespace DeflationaryBank

/-! ## Sequencing laws -/

namespace BankM

variable {α β γ : Type}

end BankM

/-- Every rule puts `fromAddr` and `fromAddr'` both on or both off its
`WhitelistedFrom` list. -/
def WhitelistedFromAlike (params : Params) (fromAddr fromAddr' : AccAddress) : Prop :=
  ∀ r ∈ params.supportDeflationary, r.isWhitelistedFrom fromAddr = r.isWhitelistedFrom fromAddr'

instance whitelistedFromAlikeDecidable (params : Params) (f f' : AccAddress) :
    Decidable (WhitelistedFromAlike params f f') :=
  inferInstanceAs (Decidable (∀ r ∈ params.supportDeflationary, _))

section Congr

variable {params : Params} {f f' t : AccAddress}

end Congr

/-! ## One input, one output -/

section Single

variable {f t : AccAddress} {amt : Coins} {sl : CoinSlice} {mem : List Coin}

end Single

end DeflationaryBank
