import DeflationaryBank.Types.Coin
import DeflationaryBank.Types.Params
import DeflationaryBank.Types.CoinAlgebra
import DeflationaryBank.Store
import DeflationaryBank.Keeper.State
import DeflationaryBank.Keeper.Send
import DeflationaryBank.Keeper.Genesis
import DeflationaryBank.Laws.Monad
import DeflationaryBank.Laws.Effects
import DeflationaryBank.Laws.Frames
import DeflationaryBank.Laws.Runs
import DeflationaryBank.Laws.Pools
import DeflationaryBank.Laws.Split
import DeflationaryBank.Laws.Failures
import DeflationaryBank.Laws.Genesis
import DeflationaryBank.Laws.Positivity
import DeflationaryBank.Laws.Supply
import DeflationaryBank.Laws.Overflow
import DeflationaryBank.Laws.MultiSend
import DeflationaryBank.Laws.Params
import DeflationaryBank.Laws.Ledger
import DeflationaryBank.Laws.Refinement
import DeflationaryBank.Laws.Locked
import DeflationaryBank.Laws.Export
import DeflationaryBank.Laws.RoundTrip
import DeflationaryBank.Laws.NoOverflow
