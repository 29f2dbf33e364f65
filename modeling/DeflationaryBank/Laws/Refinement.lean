import DeflationaryBank.Laws.Ledger

/-!
# Transfers as moves of the ledger

The abstract model of a transfer is `Call.move`: the move of the ledger it
makes, computed from the keeper, the parameters and the call alone, never from
the balances. A transfer that returns nil makes exactly its move. Whether it
returns nil depends on the balances; what it does when it does, does not.

Three consequences follow. `SendCoins` refines `Ledger.transfer` and
`InputOutputCoins` refines the multi-send: every input debited in turn, then the
split of every output delivered in turn. And since moves add up, two transfers
that both return nil in either order leave the same ledger.
-/

namespace DeflationaryBank

open Ledger

/-- The splits of a multi-send's outputs in turn, each made from the empty
address of the coins its slice holds when it is reached, its nets written back
into the caller's memory before the next one reads; with the memory they leave. -/
def outputSplits (params : Params) :
    List Output → List Coin → Except Panic (List (Output × Split) × List Coin)
  | [], mem => .ok ([], mem)
  | o :: os, mem => do
    let sp ← taxSplit params "" o.address (o.coins.read mem)
    let (splits, mem') ← outputSplits params os (o.coins.write mem sp.amt)
    pure ((o, sp) :: splits, mem')

/-- The move a transfer makes when it returns nil: `none` when a split panics,
or when the bank module account is missing where a split is delivered. The
splits of a multi-send are `outputSplits`, as `InputOutputCoins` makes them. -/
def Call.move (k : Keeper) (params : Params) : Call → Option Move
  | .sendCoins fromAddr toAddr amt => do
    let acc ← k.getModuleAccount moduleName
    let sp ← (taxSplit params fromAddr toAddr amt).toOption
    pure (.transfer acc.address fromAddr toAddr amt sp)
  | .inputOutputCoins inputs outputs mem => do
    let (splits, _) ← (outputSplits params outputs mem).toOption
    splits.foldlM
      (fun m x => (k.getModuleAccount moduleName).map fun acc => m + .deliver acc.address x.1.address x.2)
      (inputs.foldl (fun m i => m + .debit i.address i.coins) 0)

theorem except_toOption_eq_some {ε α : Type} {e : Except ε α} {a : α} :
    e.toOption = some a ↔ e = .ok a := by
  cases e <;> simp [Except.toOption]

section Moves

variable {k : Keeper} {s s' : BankState}

/-- `SendCoins` that returns nil makes its move. -/
theorem sendCoins_shift {f t : AccAddress} {amt : Coins} (h : sendCoins k f t amt s = .ok () s') :
    ∃ m, (Call.sendCoins f t amt).move k s.params = some m ∧ s'.ledger = s.ledger.shift m := by
  obtain ⟨_, s1, h1, h⟩ := BankM.bind_eq_ok.1 h
  obtain ⟨sent, s2, h2, h⟩ := BankM.bind_eq_ok.1 h
  obtain ⟨_, s3, h3, h4⟩ := BankM.bind_eq_ok.1 h
  have hp : s1.params = s.params :=
    ((subUnlockedCoins_keeps (paramsAre_stable _) k trivial amt) s rfl).1 _ _ h1
  obtain ⟨acc, sp, hacc, hsp, rfl, e2⟩ := deflationaryCoins_ledger h2
  refine ⟨.transfer acc.address f t amt sp, by simp [Call.move, hacc, ← hp, hsp, Except.toOption], ?_⟩
  rw [createAccountIfMissing_ledger h4, addCoins_ledger h3, e2, subUnlockedCoins_ledger h1,
    ← transfer_eq_shift]
  rfl

/-- The output loop of a multi-send makes the deliveries `Call.move` adds up. -/
theorem outputs_shift :
    ∀ {outputs : List Output} {mem mem' : List Coin} {s s' : BankState},
      outputs.foldlM (outputCoins k) mem s = .ok mem' s' →
      ∀ (L : Ledger) (m₀ : Move), s.ledger = L.shift m₀ →
      ∃ splits m, outputSplits s.params outputs mem = .ok (splits, mem') ∧
        splits.foldlM (fun m x => (k.getModuleAccount moduleName).map fun acc =>
          m + .deliver acc.address x.1.address x.2) m₀ = some m ∧ s'.ledger = L.shift m
  | [], mem, mem', s, s', h, L, m₀, e => by
    cases h
    exact ⟨[], m₀, rfl, rfl, e⟩
  | o :: os, mem, mem', s, s', h, L, m₀, e => by
    rw [List.foldlM_cons] at h
    obtain ⟨m1, s1, h1, h2⟩ := BankM.bind_eq_ok.1 h
    obtain ⟨acc, sp, hacc, hsp, rfl, e1⟩ := outputCoins_ledger h1
    obtain ⟨splits, m, hsplits, hm, e2⟩ := outputs_shift h2 L (m₀ + .deliver acc.address o.address sp)
      (by rw [e1, e, deliver_eq_shift, shift_shift])
    rw [show s1.params = s.params from congrArg Ledger.params e1] at hsplits
    refine ⟨(o, sp) :: splits, m, by simp [outputSplits, hsp, hsplits, bind, Except.bind, pure,
      Except.pure], ?_, e2⟩
    simpa [hacc] using hm

/-- `InputOutputCoins` that returns nil makes its move. -/
theorem inputOutputCoins_shift {inputs : List Input} {outputs : List Output} {mem mem' : List Coin}
    (h : inputOutputCoins k inputs outputs mem s = .ok mem' s') :
    ∃ splits m, outputSplits s.params outputs mem = .ok (splits, mem') ∧
      (Call.inputOutputCoins inputs outputs mem).move k s.params = some m ∧
      s'.ledger = s.ledger.shift m := by
  obtain ⟨_, s1, h1, h⟩ := BankM.bind_eq_ok.1 h
  obtain ⟨_, s2, h2, h3⟩ := BankM.bind_eq_ok.1 h
  obtain ⟨rfl, -⟩ := validateInputsOutputs_ok h1
  have e2 := forM_ok_foldl (fun L i => L.debit i.address i.coins) (fun i t t' hi => by
    obtain ⟨_, t1, ha, hs⟩ := BankM.bind_eq_ok.1 hi
    obtain ⟨rfl, rfl⟩ := parseAddress_ok ha
    exact subUnlockedCoins_ledger hs) inputs h2
  simp only [debit_eq_shift] at e2
  rw [← shift_zero s1.ledger, foldl_shift] at e2
  have hp : s2.params = s1.params := congrArg Ledger.params e2
  obtain ⟨splits, m, hsplits, hm, e3⟩ := outputs_shift h3 s1.ledger _ e2
  rw [hp] at hsplits
  refine ⟨splits, m, hsplits, ?_, e3⟩
  simp only [Call.move, hsplits]
  exact hm

/-- A transfer that returns nil makes its move. -/
theorem Call.run_shift (c : Call) (h : c.run k s = .ok () s') :
    ∃ m, c.move k s.params = some m ∧ s'.ledger = s.ledger.shift m := by
  cases c with
  | sendCoins f t amt => exact sendCoins_shift h
  | inputOutputCoins inputs outputs mem =>
    obtain ⟨mem', h⟩ := Call.run_inputOutputCoins.1 h
    obtain ⟨-, m, -, hm, e⟩ := inputOutputCoins_shift h
    exact ⟨m, hm, e⟩

end Moves

/-! ## The refinements -/

section Refinement

variable {k : Keeper} {s s' : BankState}

/-- `SendCoins` refines the abstract transfer: when it returns nil, its split is
`taxSplit` of the parameters, and its ledger is the transfer of `amt` from
`fromAddr` to `toAddr` split so, with the bank module account keeping the
liquidity and fee-tax portions; this holds whichever of the three addresses
coincide. -/
theorem sendCoins_refines_transfer {f t : AccAddress} {amt : Coins} (h : sendCoins k f t amt s = .ok () s') :
    ∃ acc sp, k.getModuleAccount moduleName = some acc ∧ taxSplit s.params f t amt = .ok sp ∧
      s'.ledger = s.ledger.transfer acc.address f t amt sp := by
  obtain ⟨m, hm, e⟩ := sendCoins_shift h
  simp only [Call.move, Option.bind_eq_bind, Option.bind_eq_some, except_toOption_eq_some] at hm
  obtain ⟨acc, hacc, sp, hsp, hm⟩ := hm
  cases hm
  exact ⟨acc, sp, hacc, hsp, e.trans (transfer_eq_shift ..).symm⟩

theorem testGenesis_sendCoins_refines_transfer :
    ∃ acc sp, testKeeper.getModuleAccount moduleName = some acc ∧
      taxSplit (testGenesisState [testRule "foo"]).params "addr1" "addr2" [⟨"foo", 50⟩] = .ok sp ∧
      ((sendCoins testKeeper "addr1" "addr2" [⟨"foo", 50⟩] (testGenesisState [testRule "foo"])).okState?.getD
          BankState.empty).ledger =
        (testGenesisState [testRule "foo"]).ledger.transfer acc.address "addr1" "addr2" [⟨"foo", 50⟩] sp :=
  sendCoins_refines_transfer (Outcome.eq_ok_of_isSome (by decide))

/-- Transfers commute on the ledger: two transfers that return nil in either
order leave the same balances, supply, pools, parameters and accounts. The
stores may list their entries in another order. -/
theorem transfers_commute {c₁ c₂ : Call} {s₁ s₂ : BankState}
    (h₁ : (c₁.run k >>= fun _ => c₂.run k) s = .ok () s₁)
    (h₂ : (c₂.run k >>= fun _ => c₁.run k) s = .ok () s₂) : s₁.ledger = s₂.ledger := by
  obtain ⟨⟨⟩, t₁, ha, hb⟩ := BankM.bind_eq_ok.1 h₁
  obtain ⟨⟨⟩, t₂, hc, hd⟩ := BankM.bind_eq_ok.1 h₂
  obtain ⟨m₁, hm₁, e₁⟩ := c₁.run_shift ha
  obtain ⟨m₂, hm₂, e₂⟩ := c₂.run_shift hc
  obtain ⟨m₂', hm₂', e₃⟩ := c₂.run_shift hb
  obtain ⟨m₁', hm₁', e₄⟩ := c₁.run_shift hd
  rw [show t₁.params = s.params from congrArg Ledger.params e₁, hm₂, Option.some_inj] at hm₂'
  rw [show t₂.params = s.params from congrArg Ledger.params e₂, hm₁, Option.some_inj] at hm₁'
  subst hm₁' hm₂'
  rw [e₃, e₁, e₄, e₂, shift_shift, shift_shift, Move.add_comm]

/-- A taxed transfer of foo to `addr2` and an untaxed one of bar to `addr3`,
both from `addr1`. -/
theorem testGenesis_transfers_commute :
    ((((Call.sendCoins "addr1" "addr2" [⟨"foo", 50⟩]).run testKeeper >>= fun _ =>
        (Call.sendCoins "addr1" "addr3" [⟨"bar", 10⟩]).run testKeeper)
        (testGenesisState [testRule "foo"])).okState?.getD BankState.empty).ledger =
      ((((Call.sendCoins "addr1" "addr3" [⟨"bar", 10⟩]).run testKeeper >>= fun _ =>
        (Call.sendCoins "addr1" "addr2" [⟨"foo", 50⟩]).run testKeeper)
        (testGenesisState [testRule "foo"])).okState?.getD BankState.empty).ledger :=
  transfers_commute (Outcome.eq_ok_of_isSome (by decide)) (Outcome.eq_ok_of_isSome (by decide))

end Refinement

end DeflationaryBank
