import DeflationaryBank.Laws.Split
import DeflationaryBank.Laws.Genesis

/-!
# Bank parameters

The two list validators of `x/bank/types/proposal.go` share one registration
loop, which accepts exactly the lists of valid entries with distinct
denominations (`validateRegistered_eq_ok`). From that:

* `Params.Validate` runs the validators of `SendEnabled` and
  `DefaultSendEnabled` but not the one `ParamSetPairs` registers for
  `SupportDeflationary`, so it accepts rule lists that `SetParams` panics on;
* `SetSendEnabledParam` is an update of the map `SendEnabledDenom` reads, and
  keeps a valid send-enabled table valid, so `SetParams` stores it and
  `IsSendEnabledCoins` then reads the switched flag;
* the rule loop of `deflationaryCoins`, which overwrites on every match, picks
  on a validated rule list the rule a first-match lookup picks, since at most
  one rule of such a list matches a coin.
-/

namespace DeflationaryBank

/-! ## The send-enabled validator -/

theorem validateSendEnabled_eq_ok (param : SendEnabled) :
    validateSendEnabled param = .ok () ↔ validateDenom param.denom = true := by
  unfold validateSendEnabled validateIsBool checkDenom
  cases validateDenom param.denom <;> simp [bind, Except.bind]

/-- `validateSendEnabledParams` accepts exactly the tables of valid denominations,
each at most once. -/
theorem validateSendEnabledParams_eq_ok (params : List SendEnabled) :
    validateSendEnabledParams params = .ok () ↔
      (∀ q ∈ params, validateDenom q.denom = true) ∧ (params.map (·.denom)).Nodup := by
  simp [validateSendEnabledParams, validateRegistered_eq_ok, validateSendEnabled_eq_ok]

/-! ## `Params.Validate` against `ParamSetPairs` -/

namespace Params

theorem validate_eq_ok (p : Params) :
    p.validate = .ok () ↔ validateSendEnabledParams p.sendEnabled = .ok () := by
  unfold validate validateIsBool
  cases validateSendEnabledParams p.sendEnabled <;> simp [bind, Except.bind]

/-- The validators `ParamSetPairs` registers all accept exactly when `Validate`
accepts and the rule list passes `validateSupportDeflationaryParams`, which
`Validate` never runs. -/
theorem paramSetPairs_ok_iff (p : Params) :
    (∀ pair ∈ p.paramSetPairs, pair.2 = .ok ()) ↔
      p.validate = .ok () ∧ validateSupportDeflationaryParams p.supportDeflationary = .ok () := by
  simp [paramSetPairs, validate_eq_ok, validateIsBool]

end Params

/-- `SetParams` stores the parameters when every registered validator accepts,
and panics otherwise. -/
theorem setParams_apply (p : Params) (s : BankState) :
    setParams p s = if ∀ pair ∈ p.paramSetPairs, pair.2 = .ok () then .ok () { s with params := p }
      else .panic .invalidParams := by
  have hall : p.paramSetPairs.all (·.2.toBool) = true ↔ ∀ pair ∈ p.paramSetPairs, pair.2 = .ok () := by
    simp only [List.all_eq_true]
    exact forall₂_congr fun pair _ => by cases pair.2 <;> simp [Except.toBool]
  unfold setParams
  by_cases h : ∀ pair ∈ p.paramSetPairs, pair.2 = .ok ()
  · rw [if_pos (hall.2 h), if_pos h]; rfl
  · rw [if_neg (mt hall.1 h), if_neg h]; rfl

/-- `InitGenesis` panics on every genesis whose rule list fails its validator,
whether `Params.Validate` accepts its parameters or not. -/
theorem initGenesis_eq_panic_of_rules (k : Keeper) {gen : GenesisState} (s : BankState)
    (h : validateSupportDeflationaryParams gen.params.supportDeflationary ≠ .ok ()) :
    initGenesis k gen s = .panic .invalidParams := by
  unfold initGenesis
  rw [BankM.bind_apply, setParams_apply, if_neg fun hp => h ((Params.paramSetPairs_ok_iff _).1 hp).2]

/-- Two rules on `foo`, each valid on its own: `Params.Validate` accepts the
parameters, the validator of `SupportDeflationary` reports the duplicate, and
`InitGenesis` panics in `SetParams`. -/
theorem dupRules_validate_ok_initGenesis_panics :
    (testGenesis [testRule "foo", testRule "foo"]).params.validate = .ok () ∧
      validateSupportDeflationaryParams [testRule "foo", testRule "foo"] =
        .error (.duplicateSupportDeflationary "foo") ∧
      (initGenesis testKeeper (testGenesis [testRule "foo", testRule "foo"]) BankState.empty).panic? =
        some .invalidParams := by
  decide

/-! ## The send-enabled table -/

namespace Params

section SendEnabled

variable (p : Params) (denom : String) (sendEnabled : Bool)

/-- The table `SetSendEnabledParam` writes: the other entries in order, then the
new one. -/
theorem setSendEnabledParam_sendEnabled :
    (p.setSendEnabledParam denom sendEnabled).sendEnabled =
      p.sendEnabled.filter (·.denom ≠ denom) ++ [⟨denom, sendEnabled⟩] := by
  simp [setSendEnabledParam, newParams, newSendEnabled]

@[simp] theorem setSendEnabledParam_defaultSendEnabled :
    (p.setSendEnabledParam denom sendEnabled).defaultSendEnabled = p.defaultSendEnabled := rfl

@[simp] theorem setSendEnabledParam_supportDeflationary :
    (p.setSendEnabledParam denom sendEnabled).supportDeflationary = p.supportDeflationary := rfl

/-- `SendEnabledDenom` after `SetSendEnabledParam`: the new flag for the
denomination set, the old lookup for every other. -/
theorem sendEnabledDenom_setSendEnabledParam (d : String) :
    (p.setSendEnabledParam denom sendEnabled).sendEnabledDenom d =
      if d = denom then sendEnabled else p.sendEnabledDenom d := by
  simp only [sendEnabledDenom, setSendEnabledParam_sendEnabled, List.find?_append, List.find?_filter]
  by_cases hd : d = denom
  · subst hd
    simp [List.find?_eq_none.2 fun _ _ => Bool.false_ne_true]
  · have hq : ∀ q : SendEnabled, (q.denom ≠ denom ∧ q.denom = d) ↔ q.denom = d :=
      fun q => and_iff_right_of_imp fun h => h ▸ hd
    simp only [ne_eq, decide_eq_true_eq, hq, if_neg hd]
    cases p.sendEnabled.find? (·.denom = d) <;> simp [Ne.symm hd]

/-- The new table names the denomination set exactly once. -/
theorem count_setSendEnabledParam :
    ((p.setSendEnabledParam denom sendEnabled).sendEnabled.map (·.denom)).count denom = 1 := by
  rw [setSendEnabledParam_sendEnabled, List.map_append, List.count_append]
  simp [List.count_eq_zero]

/-- `SetSendEnabledParam` of a valid denomination keeps a valid table valid. -/
theorem validateSendEnabledParams_setSendEnabledParam
    (hv : validateSendEnabledParams p.sendEnabled = .ok ()) (hd : validateDenom denom = true) :
    validateSendEnabledParams (p.setSendEnabledParam denom sendEnabled).sendEnabled = .ok () := by
  rw [validateSendEnabledParams_eq_ok] at hv ⊢
  rw [setSendEnabledParam_sendEnabled, List.map_append, List.nodup_append]
  refine ⟨fun q hq => ?_, hv.2.sublist ((List.filter_sublist _).map _), List.nodup_singleton _, ?_⟩
  · rcases List.mem_append.1 hq with hq | hq
    · exact hv.1 q (List.mem_filter.1 hq).1
    · rw [List.mem_singleton.1 hq]
      exact hd
  · simp [List.disjoint_singleton]

end SendEnabled

/-- `SetSendEnabledParam` is a map update: `SendEnabledDenom` reads the new flag
for the denomination set and the old one for every other, the default and the
rules stay, and a valid table updated at a valid denomination is valid and names
that denomination once. -/
theorem setSendEnabledParam_map_update (p : Params) (d : String) (b : Bool) :
    (∀ d', (p.setSendEnabledParam d b).sendEnabledDenom d' = if d' = d then b else p.sendEnabledDenom d') ∧
      (p.setSendEnabledParam d b).defaultSendEnabled = p.defaultSendEnabled ∧
      (p.setSendEnabledParam d b).supportDeflationary = p.supportDeflationary ∧
      (validateSendEnabledParams p.sendEnabled = .ok () → validateDenom d = true →
        validateSendEnabledParams (p.setSendEnabledParam d b).sendEnabled = .ok () ∧
          ((p.setSendEnabledParam d b).sendEnabled.map (·.denom)).count d = 1) :=
  ⟨sendEnabledDenom_setSendEnabledParam p d b, rfl, rfl, fun hv hd =>
    ⟨validateSendEnabledParams_setSendEnabledParam p d b hv hd, count_setSendEnabledParam p d b⟩⟩

theorem sendTable_setSendEnabledParam_map_update :
    validateSendEnabledParams [⟨"bar", false⟩, ⟨"foo", true⟩] = .ok () ∧ validateDenom "foo" = true ∧
      validateSendEnabledParams
          ((⟨[⟨"bar", false⟩, ⟨"foo", true⟩], true, []⟩ : Params).setSendEnabledParam "foo" false).sendEnabled =
        .ok () ∧
      (((⟨[⟨"bar", false⟩, ⟨"foo", true⟩], true, []⟩ : Params).setSendEnabledParam "foo" false).sendEnabled.map
        (·.denom)).count "foo" = 1 :=
  have hv : validateSendEnabledParams [⟨"bar", false⟩, ⟨"foo", true⟩] = .ok () := by decide
  have hd : validateDenom "foo" = true := by decide
  ⟨hv, hd, (setSendEnabledParam_map_update ⟨[⟨"bar", false⟩, ⟨"foo", true⟩], true, []⟩ "foo" false).2.2.2 hv hd⟩

end Params

/-! ## The rule a coin falls under -/

/-- Modelled from the spec: the rule of a transfer looked up first-match, the
first rule of the list that is enabled, for the denomination, with the sender
off its `WhitelistedFrom` and the recipient on its `WhitelistedTo`. -/
def firstMatchRule (rules : List SupportDeflationary) (denom : String) (fromAddr toAddr : AccAddress) :
    Option SupportDeflationary :=
  rules.find? fun r =>
    r.enabled && r.denom = denom && !r.isWhitelistedFrom fromAddr && r.isWhitelistedTo toAddr

/-- On rules of distinct denominations at most one applies to a transfer. -/
theorem filter_applies_length_le_one {rules : List SupportDeflationary}
    (h : (rules.map (·.denom)).Nodup) (denom : String) (f t : AccAddress) :
    (rules.filter (·.applies denom f t)).length ≤ 1 := by
  induction rules with
  | nil => simp
  | cons r rs ih =>
    obtain ⟨hr, hnd⟩ := List.nodup_cons.1 h
    by_cases ha : r.applies denom f t
    · have hnil : rs.filter (·.applies denom f t) = [] :=
        List.filter_eq_nil_iff.2 fun q hq hqa => hr (List.mem_map.2 ⟨q, hq,
          (SupportDeflationary.denom_of_applies hqa).trans (SupportDeflationary.denom_of_applies ha).symm⟩)
      simp [List.filter_cons, ha, hnil]
    · simpa [List.filter_cons, ha] using ih hnd

section RuleLoop

variable {coin : Coin} {f t : AccAddress}

/-- A rule loop in which no rule applies keeps its accumulator. -/
theorem foldlM_deflationaryStep_of_none (acc : Option (Int × Int × Int)) :
    ∀ {rules : List SupportDeflationary}, (∀ r ∈ rules, r.applies coin.denom f t = false) →
      rules.foldlM (deflationaryStep coin f t) acc = .ok acc
  | [], _ => rfl
  | r :: rs, h => by
    rw [List.foldlM_cons, deflationaryStep, if_neg (by simp [h r (List.mem_cons_self _ _)])]
    exact foldlM_deflationaryStep_of_none acc fun q hq => h q (List.mem_cons_of_mem _ hq)

/-- The rule loop overwrites on every match; when at most one rule applies it
ends with that rule's amounts, or with its accumulator when none does. -/
theorem foldlM_deflationaryStep_of_le_one (acc : Option (Int × Int × Int)) :
    ∀ {rules : List SupportDeflationary}, (rules.filter (·.applies coin.denom f t)).length ≤ 1 →
      rules.foldlM (deflationaryStep coin f t) acc =
        match rules.find? (·.applies coin.denom f t) with
        | none => .ok acc
        | some r => some <$> deflationaryAmounts r coin.amount
  | [], _ => rfl
  | r :: rs, h => by
    by_cases ha : r.applies coin.denom f t
    · have hnone : ∀ q ∈ rs, q.applies coin.denom f t = false := by
        simpa [List.filter_cons, ha, List.filter_eq_nil_iff] using h
      rw [List.foldlM_cons, deflationaryStep, if_pos ha,
        List.find?_cons_of_pos (p := fun x : SupportDeflationary => x.applies coin.denom f t) _ ha]
      dsimp only
      cases deflationaryAmounts r coin.amount with
      | error e => rfl
      | ok v => exact foldlM_deflationaryStep_of_none (some v) hnone
    · rw [List.foldlM_cons, deflationaryStep, if_neg ha,
        List.find?_cons_of_neg (p := fun x : SupportDeflationary => x.applies coin.denom f t) _ ha]
      exact foldlM_deflationaryStep_of_le_one acc (by simpa [List.filter_cons, ha] using h)

end RuleLoop

/-- Rule selection: on a rule list `validateSupportDeflationaryParams` accepts,
at most one rule applies to a coin, and the rule loop of `deflationaryCoins`,
which overwrites on every match and never breaks, ends with the amounts of the
rule a first-match lookup finds, and with none when it finds none. -/
theorem deflationaryMatch_eq_firstMatchRule {rules : List SupportDeflationary}
    (hv : validateSupportDeflationaryParams rules = .ok ()) (coin : Coin) (f t : AccAddress) :
    (rules.filter (·.applies coin.denom f t)).length ≤ 1 ∧
      deflationaryMatch rules coin f t =
        match firstMatchRule rules coin.denom f t with
        | none => .ok none
        | some r => some <$> deflationaryAmounts r coin.amount := by
  have h1 := filter_applies_length_le_one ((validateSupportDeflationaryParams_eq_ok rules).1 hv).2
    coin.denom f t
  exact ⟨h1, foldlM_deflationaryStep_of_le_one none h1⟩

theorem testRules_deflationaryMatch_eq_firstMatchRule :
    validateSupportDeflationaryParams [testRule "bar", testRule "foo"] = .ok () ∧
      ([testRule "bar", testRule "foo"].filter (·.applies "foo" "addr1" "addr2")).length ≤ 1 ∧
      deflationaryMatch [testRule "bar", testRule "foo"] ⟨"foo", 50⟩ "addr1" "addr2" =
        match firstMatchRule [testRule "bar", testRule "foo"] "foo" "addr1" "addr2" with
        | none => .ok none
        | some r => some <$> deflationaryAmounts r 50 :=
  have hv : validateSupportDeflationaryParams [testRule "bar", testRule "foo"] = .ok () := by decide
  ⟨hv, deflationaryMatch_eq_firstMatchRule hv ⟨"foo", 50⟩ "addr1" "addr2"⟩

/-! ## The send-enabled gate -/

/-- `IsSendEnabledCoins` writes nothing and returns the `ErrSendDisabled` of the
first coin whose denomination may not be sent. -/
theorem isSendEnabledCoins_apply (coins : Coins) (s : BankState) :
    isSendEnabledCoins coins s =
      match coins.find? (fun c => !s.params.sendEnabledDenom c.denom) with
      | some c => .err (.sendDisabled c.denom) s
      | none => .ok () s := by
  unfold isSendEnabledCoins
  rw [BankM.bind_ok (rfl : getParams s = .ok s.params s)]
  induction coins with
  | nil => rfl
  | cons c cs ih =>
    rw [forM_cons', List.find?_cons]
    cases s.params.sendEnabledDenom c.denom
    · rfl
    · exact (BankM.bind_ok rfl _).trans ih

/-- Switching one denomination: on a state whose parameters pass every
validator `SetParams` runs, `SetParams` of the parameters with a valid
denomination switched to `b` succeeds and writes nothing else; afterwards
`IsSendEnabledCoins` stops at the first coin whose flag is off, reading the new
flag for that denomination and the old one for every other, and
`IsSendEnabledCoin` reads the same flags. -/
theorem setSendEnabledParam_gates_sends {s : BankState}
    (hp : ∀ pair ∈ s.params.paramSetPairs, pair.2 = .ok ()) {d : String} (hd : validateDenom d = true)
    (b : Bool) :
    ∃ s', setParams (s.params.setSendEnabledParam d b) s = .ok () s' ∧
      s' = { s with params := s.params.setSendEnabledParam d b } ∧
      (∀ coins : Coins, isSendEnabledCoins coins s' =
        match coins.find? (fun c => !(if c.denom = d then b else s.params.sendEnabledDenom c.denom)) with
        | some c => .err (.sendDisabled c.denom) s'
        | none => .ok () s') ∧
      ∀ c : Coin, isSendEnabledCoin c s' = .ok (if c.denom = d then b else s.params.sendEnabledDenom c.denom) s' := by
  have hv : ∀ pair ∈ (s.params.setSendEnabledParam d b).paramSetPairs, pair.2 = .ok () := by
    rw [Params.paramSetPairs_ok_iff] at hp ⊢
    refine ⟨(Params.validate_eq_ok _).2 (Params.validateSendEnabledParams_setSendEnabledParam _ _ _
      ((Params.validate_eq_ok _).1 hp.1) hd), ?_⟩
    rw [Params.setSendEnabledParam_supportDeflationary]
    exact hp.2
  refine ⟨_, by rw [setParams_apply, if_pos hv], rfl, fun coins => ?_, fun c => ?_⟩
  · rw [isSendEnabledCoins_apply]
    simp only [Params.sendEnabledDenom_setSendEnabledParam]
  · show Outcome.ok ((s.params.setSendEnabledParam d b).sendEnabledDenom c.denom) _ = _
    rw [Params.sendEnabledDenom_setSendEnabledParam]

theorem testGenesis_disable_foo :
    ∃ s', setParams ((testGenesisState []).params.setSendEnabledParam "foo" false) (testGenesisState []) =
        .ok () s' ∧
      s' = { testGenesisState [] with params := (testGenesisState []).params.setSendEnabledParam "foo" false } ∧
      (∀ coins : Coins, isSendEnabledCoins coins s' =
        match coins.find? (fun c =>
          !(if c.denom = "foo" then false else (testGenesisState []).params.sendEnabledDenom c.denom)) with
        | some c => .err (.sendDisabled c.denom) s'
        | none => .ok () s') ∧
      ∀ c : Coin, isSendEnabledCoin c s' =
        .ok (if c.denom = "foo" then false else (testGenesisState []).params.sendEnabledDenom c.denom) s' :=
  setSendEnabledParam_gates_sends (by decide) (by decide) false

end DeflationaryBank
