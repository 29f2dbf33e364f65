import DeflationaryBank.Laws.Frames
import DeflationaryBank.Keeper.Genesis

/-!
# Runs of the bank

A run loads a genesis with `InitGenesis` into a fresh store, then makes
transfers, each a `SendCoins` or an `InputOutputCoins`. `Reachable` collects the
states of runs whose transfers all return nil, `ReachableAny` those of runs
whose transfers may also return an error; a panic ends a run. Each comes with
its induction principle: an invariant holds after every accepted genesis and
survives every transfer.
-/

namespace DeflationaryBank

/-- A transfer of a run; a multi-send names the caller's memory its outputs
point into. -/
inductive Call where
  | sendCoins (fromAddr toAddr : AccAddress) (amt : Coins)
  | inputOutputCoins (inputs : List Input) (outputs : List Output) (mem : List Coin)
deriving DecidableEq, Repr

/-- The keeper method a transfer calls; what a multi-send leaves in its
caller's memory is not part of the stores. -/
def Call.run (k : Keeper) : Call → BankM Unit
  | .sendCoins fromAddr toAddr amt => DeflationaryBank.sendCoins k fromAddr toAddr amt
  | .inputOutputCoins inputs outputs mem => do
    let _ ← DeflationaryBank.inputOutputCoins k inputs outputs mem
    pure ()

/-- No two outputs of a multi-send share a coin of the caller's memory. -/
def Call.Unaliased : Call → Prop
  | .sendCoins .. => True
  | .inputOutputCoins _ outputs _ => outputs.Pairwise fun o o' => o.coins.Disjoint o'.coins

instance callUnaliasedDecidable : (c : Call) → Decidable c.Unaliased
  | .sendCoins .. => isTrue trivial
  | .inputOutputCoins _ outputs _ =>
    inferInstanceAs (Decidable (outputs.Pairwise fun o o' : Output => o.coins.Disjoint o'.coins))

theorem Call.run_inputOutputCoins {k : Keeper} {inputs : List Input} {outputs : List Output}
    {mem : List Coin} {s s' : BankState} :
    (Call.inputOutputCoins inputs outputs mem).run k s = .ok () s' ↔
      ∃ mem', DeflationaryBank.inputOutputCoins k inputs outputs mem s = .ok mem' s' := by
  simp [Call.run, BankM.bind_eq_ok]

variable (k : Keeper) (G : GenesisState → Prop) (A : Call → Prop)

/-- The states of runs from a genesis `G` accepts whose transfers, each one `A`
admits, return nil. -/
inductive Reachable : BankState → Prop
  | genesis {gen : GenesisState} {s : BankState} :
      G gen → initGenesis k gen BankState.empty = .ok () s → Reachable s
  | call {s s' : BankState} (c : Call) :
      A c → Reachable s → c.run k s = .ok () s' → Reachable s'

/-- The states of runs from a genesis `G` accepts whose transfers return nil or
an error. -/
inductive ReachableAny : BankState → Prop
  | genesis {gen : GenesisState} {s : BankState} :
      G gen → initGenesis k gen BankState.empty = .ok () s → ReachableAny s
  | call {s s' : BankState} (c : Call) : ReachableAny s →
      (c.run k s = .ok () s' ∨ ∃ e, c.run k s = .err e s') → ReachableAny s'

variable {k G A} {I : BankState → Prop} {s : BankState}

theorem Reachable.inv
    (h0 : ∀ gen s, G gen → initGenesis k gen BankState.empty = .ok () s → I s)
    (hc : ∀ (c : Call) s s', A c → I s → c.run k s = .ok () s' → I s')
    (h : Reachable k G A s) : I s := by
  induction h with
  | genesis hg hi => exact h0 _ _ hg hi
  | call c ha _ hr ih => exact hc c _ _ ha ih hr

theorem ReachableAny.inv
    (h0 : ∀ gen s, G gen → initGenesis k gen BankState.empty = .ok () s → I s)
    (hc : ∀ c : Call, Keeps I (c.run k)) (h : ReachableAny k G s) : I s := by
  induction h with
  | genesis hg hi => exact h0 _ _ hg hi
  | call c _ hr ih =>
    rcases hr with hr | ⟨e, hr⟩
    · exact (hc c _ ih).1 _ _ hr
    · exact (hc c _ ih).2 _ _ hr

theorem Reachable.any (h : Reachable k G A s) : ReachableAny k G s := by
  induction h with
  | genesis hg hi => exact .genesis hg hi
  | call c _ _ hr ih => exact .call c ih (.inl hr)

/-- A transfer keeps every property stable under the writes of a transfer to
any address. -/
theorem Call.run_keeps {P : BankState → Prop} (hP : TransferStable P fun _ => True) (c : Call) :
    Keeps P (c.run k) := by
  cases c with
  | sendCoins f t amt => exact sendCoins_keeps hP k f t trivial trivial (fun _ _ => trivial) amt
  | inputOutputCoins ins outs mem =>
    exact (inputOutputCoins_keeps hP k (fun _ _ => trivial) (fun _ _ => trivial) fun _ _ => trivial).bind
      fun _ => Keeps.pure _

/-! ## The scenario of `TestSendCoins_deflationaryCoins`

The test registers the bank module account with the burner permission and a
rule on `foo` of burn 10%, liquidity 5% and fee tax 5%. Here the recipient
`addr2` is on the rule's `WhitelistedTo`, so that a transfer to it is taxed. -/

/-- The bank module account at `bankModule` with the burner permission; no
address has locked coins. -/
def testKeeper : Keeper :=
  ⟨fun name => if name = moduleName then some ⟨"bankModule", [burner]⟩ else none, fun _ => []⟩

/-- The test's rule on a denomination, with `addr2` on `WhitelistedTo`. -/
def testRule (denom : String) : SupportDeflationary :=
  ⟨denom, true, [], ["addr2"], Dec.newDecWithPrec 10 2, Dec.newDecWithPrec 5 2,
    Dec.newDecWithPrec 5 2⟩

/-- The test's funds: `addr1` holds 100 foo and 50 bar; the rules are `rules`. -/
def testGenesis (rules : List SupportDeflationary) : GenesisState :=
  ⟨⟨[], true, rules⟩, [⟨"addr1", [⟨"bar", 50⟩, ⟨"foo", 100⟩]⟩], [], [], []⟩

/-- The state `InitGenesis` of the test's funds leaves in a fresh store (a fresh
store if it panics). -/
def testGenesisState (rules : List SupportDeflationary) : BankState :=
  (initGenesis testKeeper (testGenesis rules) BankState.empty).okState?.getD BankState.empty

/-- The state a transfer that fails part-way leaves: 10 bar and 200 foo from
`addr1` with the test's funds, the bar debited before the foo is found not
covered. -/
def failedSendState : BankState :=
  (sendCoins testKeeper "addr1" "addr2" [⟨"bar", 10⟩, ⟨"foo", 200⟩] (testGenesisState [])).state?.getD
    BankState.empty

/-- The run of the genesis and that failed transfer. -/
theorem reachableAny_failedSendState {G : GenesisState → Prop} (hg : G (testGenesis [])) :
    ReachableAny testKeeper G failedSendState :=
  .call (.sendCoins "addr1" "addr2" [⟨"bar", 10⟩, ⟨"foo", 200⟩])
    (.genesis hg (Outcome.eq_ok_of_isSome (by decide)))
    (.inr ⟨_, Outcome.eq_err_of_error? (e := .insufficientFunds ⟨"foo", 100⟩ ⟨"foo", 200⟩) (by decide)⟩)

end DeflationaryBank
