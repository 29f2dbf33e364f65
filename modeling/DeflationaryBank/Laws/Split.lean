import DeflationaryBank.Laws.Runs

/-!
# The deflationary split

What `deflationaryCoins` takes from a taxed coin. The inner loop computes the
burn, liquidity and fee-tax amounts all three as
`NewDecFromInt(amount).Mul(LiquidityPercent).TruncateInt()`: `BurnPercent` and
`FeeTaxPercent` are validated but never read. A validated percentage lies in
`[0, 1]`, so each portion of an amount lies between zero and the amount; the
validator bounds no sum, and the split of a coin panics exactly when its
portions add up to more than the coin.
-/

namespace DeflationaryBank

/-- A natural-number literal below `2 ^ maxBitLen` is an amount within `sdk.Int`. -/
theorem SdkInt.natCast_lt {n : Nat} (h : n < 2 ^ maxBitLen) : (n : Int) < 2 ^ maxBitLen := by
  exact_mod_cast h

/-! ## Validated rules -/

/-- The loop of `validateSendEnabledParams` and `validateSupportDeflationaryParams`
accepts exactly the lists of valid entries whose denominations are distinct and
not registered before. -/
theorem validateRegistered_eq_ok {α : Type} {denomOf : α → String}
    {validate : α → Except ParamError Unit} {duplicate : String → ParamError} :
    ∀ {registered : List String} {ps : List α},
      validateRegistered denomOf validate duplicate registered ps = .ok () ↔
        (∀ p ∈ ps, validate p = .ok ()) ∧ (ps.map denomOf).Nodup ∧ ∀ p ∈ ps, denomOf p ∉ registered
  | _, [] => by simp [validateRegistered]
  | registered, p :: ps => by
    unfold validateRegistered
    by_cases hp : denomOf p ∈ registered
    · simp [hp]
    · cases hv : validate p <;>
        simp [hp, hv, bind, Except.bind, validateRegistered_eq_ok, forall_and, imp_and, not_or,
          and_assoc, and_left_comm]

/-- `validateSupportDeflationaryParams` accepts exactly the lists of valid rules of
distinct denominations. -/
theorem validateSupportDeflationaryParams_eq_ok (rules : List SupportDeflationary) :
    validateSupportDeflationaryParams rules = .ok () ↔
      (∀ r ∈ rules, validateSupportDeflationary r = .ok ()) ∧ (rules.map (·.denom)).Nodup := by
  simp [validateSupportDeflationaryParams, validateRegistered_eq_ok]

theorem SupportDeflationary.denom_of_applies {r : SupportDeflationary} {denom : String}
    {f t : AccAddress} (h : r.applies denom f t = true) : r.denom = denom := by
  simp only [SupportDeflationary.applies, Bool.and_eq_true, decide_eq_true_eq] at h
  exact h.1.1.2

theorem mapError_eq_ok {ε ε' : Type} {f : ε → ε'} {x : Except ε Unit} :
    x.mapError f = .ok () ↔ x = .ok () := by
  cases x <;> simp [Except.mapError]

/-- A validated rule has a valid denomination and a valid `LiquidityPercent`. -/
theorem validateSupportDeflationary_ok {m : SupportDeflationary}
    (h : validateSupportDeflationary m = .ok ()) :
    validateDenom m.denom = true ∧ validateSdkDec m.liquidityPercent = .ok () := by
  simp only [validateSupportDeflationary, validateIsBool] at h
  obtain ⟨⟨⟩, -, h⟩ := except_bind_eq_ok.1 h
  obtain ⟨⟨⟩, hd, h⟩ := except_bind_eq_ok.1 h
  obtain ⟨⟨⟩, -, h⟩ := except_bind_eq_ok.1 h
  obtain ⟨⟨⟩, -, h⟩ := except_bind_eq_ok.1 h
  obtain ⟨⟨⟩, -, h⟩ := except_bind_eq_ok.1 h
  obtain ⟨⟨⟩, hl, -⟩ := except_bind_eq_ok.1 h
  refine ⟨?_, mapError_eq_ok.1 hl⟩
  unfold checkDenom at hd
  split at hd
  · assumption
  · cases hd

theorem validateSdkDec_ok {v : Dec} (h : validateSdkDec v = .ok ()) :
    ∃ x, v.i = some x ∧ 0 ≤ x ∧ x ≤ Dec.precisionMultiplier := by
  unfold validateSdkDec at h
  split at h
  · cases h
  · rename_i x hx
    split_ifs at h with h1 h2
    exact ⟨x, hx, by omega, by omega⟩

/-! ## One portion -/

theorem Dec.chopNonneg_mul (m : Nat) : Dec.chopNonneg (m * Dec.precisionMultiplier) = m := by
  have hP : 0 < Dec.precisionMultiplier := by decide
  simp [Dec.chopNonneg, Nat.mul_mod_left, Nat.mul_div_cancel _ hP]

/-- Chopping the precision off an exact multiple of `10^18` is exact. -/
theorem Dec.chopPrecisionAndRound_mul (n : Int) :
    Dec.chopPrecisionAndRound (n * Dec.precisionMultiplier) = n := by
  unfold Dec.chopPrecisionAndRound
  obtain ⟨m, hm⟩ : ∃ m : Nat, n = m ∨ n = -(m : Int) := ⟨n.natAbs, Int.natAbs_eq n⟩
  rcases hm with rfl | rfl
  · rw [← Int.ofNat_mul, if_neg (Int.not_lt.2 (Int.natCast_nonneg _)), Int.toNat_ofNat,
      Dec.chopNonneg_mul]
  · rcases Nat.eq_zero_or_pos m with rfl | hm
    · simp [Dec.chopNonneg]
    · have hP : 0 < Dec.precisionMultiplier := by decide
      have h0 : (0 : Int) < ((m * Dec.precisionMultiplier : Nat) : Int) :=
        Int.ofNat_pos.2 (Nat.mul_pos hm hP)
      rw [Int.neg_mul, ← Int.ofNat_mul, if_pos (by omega), Int.neg_neg, Int.toNat_ofNat,
        Dec.chopNonneg_mul]

/-- The portion of a non-negative amount at a validated percentage `x / 10^18`:
the exact product, truncated, between zero and the amount. -/
theorem portion_le {a : Int} {p : Dec} (ha : 0 ≤ a) (ha' : a < 2 ^ maxBitLen)
    (hp : validateSdkDec p = .ok ()) : ∃ v, portion a p = .ok v ∧ 0 ≤ v ∧ v ≤ a := by
  obtain ⟨x, hx, hx0, hxP⟩ := validateSdkDec_ok hp
  have hP : (0 : Int) < Dec.precisionMultiplier := by decide
  have hax : 0 ≤ a * x := Int.mul_nonneg ha hx0
  have haxP : a * x ≤ a * Dec.precisionMultiplier := Int.mul_le_mul_of_nonneg_left hxP ha
  have hbound : (a * x).natAbs < 2 ^ Dec.maxDecBitLen := by
    have h60 : (Dec.precisionMultiplier : Int) ≤ 2 ^ 60 := by decide
    have : a * x < 2 ^ Dec.maxDecBitLen :=
      calc a * x ≤ a * 2 ^ 60 := Int.le_trans haxP (Int.mul_le_mul_of_nonneg_left h60 ha)
        _ < 2 ^ maxBitLen * 2 ^ 60 := Int.mul_lt_mul_of_pos_right ha' (by decide)
        _ = 2 ^ Dec.maxDecBitLen := (pow_add 2 maxBitLen 60).symm
    exact Int.natAbs_pow 2 Dec.maxDecBitLen ▸ Int.natAbs_lt_natAbs_of_nonneg_of_lt hax this
  have hv0 : 0 ≤ a * x / Dec.precisionMultiplier := Int.ediv_nonneg hax hP.le
  have hva : a * x / Dec.precisionMultiplier ≤ a := Int.ediv_le_of_le_mul hP haxP
  have hc : SdkInt.checked (a * x / Dec.precisionMultiplier) = .ok (a * x / Dec.precisionMultiplier) :=
    SdkInt.checked_of_lt (by omega) (by omega)
  refine ⟨a * x / Dec.precisionMultiplier, ?_, hv0, hva⟩
  simp only [portion, Dec.newDecFromInt, Dec.mul, hx, bind, Except.bind]
  rw [Int.mul_right_comm, Dec.chopPrecisionAndRound_mul, if_pos hbound]
  simp only [Dec.truncateInt, Int.tdiv_eq_ediv hax hP.le, hc]

/-- The three amounts of a matching rule are one portion taken three times. -/
theorem deflationaryAmounts_eq (deflationary : SupportDeflationary) (amount : Int) :
    deflationaryAmounts deflationary amount =
      (fun p => (p, p, p)) <$> portion amount deflationary.liquidityPercent := by
  unfold deflationaryAmounts
  cases portion amount deflationary.liquidityPercent <;> rfl

/-! ## The rule loop and the net -/

/-- The amounts the rule loop holds lie between zero and the amount `a`. -/
def PortionsLe (a : Int) : Option (Int × Int × Int) → Prop
  | none => True
  | some (b, l, fe) => 0 ≤ b ∧ b ≤ a ∧ 0 ≤ l ∧ l ≤ a ∧ 0 ≤ fe ∧ fe ≤ a

section RuleLoop

variable {coin : Coin} {f t : AccAddress} (ha : 0 ≤ coin.amount) (ha' : coin.amount < 2 ^ maxBitLen)
include ha ha'

theorem deflationaryStep_le {r : SupportDeflationary} (hr : validateSdkDec r.liquidityPercent = .ok ())
    {acc : Option (Int × Int × Int)} (hacc : PortionsLe coin.amount acc) :
    ∃ acc', deflationaryStep coin f t acc r = .ok acc' ∧ PortionsLe coin.amount acc' ∧
      (r.applies coin.denom f t = true ∨ acc.isSome → acc'.isSome) := by
  unfold deflationaryStep
  split
  · obtain ⟨v, hv, h0, hva⟩ := portion_le ha ha' hr
    exact ⟨some (v, v, v), by simp [deflationaryAmounts_eq, hv, Functor.map, Except.map],
      ⟨h0, hva, h0, hva, h0, hva⟩, by simp⟩
  · exact ⟨acc, rfl, hacc, by simp_all⟩

/-- Over validated percentages the rule loop keeps its amounts between zero and
the amount, and ends with amounts once a rule has matched. -/
theorem foldlM_deflationaryStep_le :
    ∀ {rules : List SupportDeflationary}, (∀ r ∈ rules, validateSdkDec r.liquidityPercent = .ok ()) →
      ∀ {acc}, PortionsLe coin.amount acc → ∃ res,
        rules.foldlM (deflationaryStep coin f t) acc = .ok res ∧ PortionsLe coin.amount res ∧
          ((∃ r ∈ rules, r.applies coin.denom f t = true) ∨ acc.isSome → res.isSome)
  | [], _, acc, hacc => ⟨acc, rfl, hacc, by simp⟩
  | r :: rules, hv, acc, hacc => by
    obtain ⟨acc', h1, h2, h3⟩ := deflationaryStep_le ha ha' (f := f) (t := t)
      (hv r (List.mem_cons_self _ _)) hacc
    obtain ⟨res, hres, hle, hsome⟩ :=
      foldlM_deflationaryStep_le (fun r' hr' => hv r' (List.mem_cons_of_mem _ hr')) h2
    refine ⟨res, by rw [List.foldlM_cons, h1]; exact hres, hle, fun h => hsome ?_⟩
    rcases h with ⟨r', hr', happ⟩ | h
    · rcases List.mem_cons.1 hr' with rfl | hr'
      · exact .inr (h3 (.inl happ))
      · exact .inl ⟨r', hr', happ⟩
    · exact .inr (h3 (.inr h))

omit ha in
/-- The split of a coin whose amounts lie between zero and the amount: the net
and the three portions when the portions add up to at most the amount; else the
panic of `sdk.NewCoin` on the negative net, or of the last `Int.Sub` when the
net is `-2^256` or below. -/
theorem taxCoin_eq_of_match {params : Params} {b l fe : Int} (hd : validateDenom coin.denom = true)
    (hm : deflationaryMatch params.supportDeflationary coin f t = .ok (some (b, l, fe)))
    (hle : PortionsLe coin.amount (some (b, l, fe))) :
    taxCoin params f t coin = if b + l + fe ≤ coin.amount then
        .ok (some (⟨coin.denom, coin.amount - b - l - fe⟩, ⟨coin.denom, b⟩, ⟨coin.denom, l⟩,
          ⟨coin.denom, fe⟩))
      else .error (if -2 ^ maxBitLen < coin.amount - b - l - fe then .invalidCoin else .intOverflow) := by
  obtain ⟨hb0, hba, hl0, hla, hf0, hfa⟩ := hle
  have hcheck : ∀ x : Int, -2 ^ maxBitLen < x → x ≤ coin.amount → SdkInt.checked x = .ok x :=
    fun x h1 h2 => SdkInt.checked_of_lt h1 (by omega)
  have e1 : SdkInt.sub coin.amount b = .ok (coin.amount - b) := hcheck _ (by omega) (by omega)
  have e2 : SdkInt.sub (coin.amount - b) l = .ok (coin.amount - b - l) := hcheck _ (by omega) (by omega)
  simp only [taxCoin, hm, newCoin_eq_ok.2 ⟨hd, hb0, rfl⟩, newCoin_eq_ok.2 ⟨hd, hl0, rfl⟩,
    newCoin_eq_ok.2 ⟨hd, hf0, rfl⟩, e1, e2, bind, Except.bind]
  split_ifs with hsum hlow
  · simp only [show SdkInt.sub (coin.amount - b - l) fe = .ok _ from hcheck _ (by omega) (by omega),
      newCoin_eq_ok.2 ⟨hd, (by omega : 0 ≤ coin.amount - b - l - fe), rfl⟩]
    rfl
  · have hneg : newCoin coin.denom (coin.amount - b - l - fe) = .error .invalidCoin := by
      simp [newCoin, Coin.isValid, show ¬0 ≤ coin.amount - b - l - fe by omega]
    simp only [show SdkInt.sub (coin.amount - b - l) fe = .ok _ from hcheck _ hlow (by omega), hneg]
  · rw [show SdkInt.sub (coin.amount - b - l) fe = .error .intOverflow from SdkInt.checked_of_le (by omega)]

end RuleLoop

/-- For validated rules and a coin within `sdk.Int` that a rule taxes, each of
the three amounts deflationaryCoins subtracts lies between zero and the coin's
amount, and the split of the coin is, when they add up to at most the amount,
the net `amount - burn - liquidity - feeTax` and the three portions as coins of
its denomination; else a panic, of `sdk.NewCoin` on the negative net or of the
last `Int.Sub` when the net is `-2^256` or below. -/
theorem taxCoin_ok_iff_portions_le (params : Params) (f t : AccAddress) (coin : Coin)
    (hv : validateSupportDeflationaryParams params.supportDeflationary = .ok ())
    (htax : ∃ r ∈ params.supportDeflationary, r.applies coin.denom f t = true)
    (ha : 0 ≤ coin.amount) (ha' : coin.amount < 2 ^ maxBitLen) :
    ∃ b l fe, deflationaryMatch params.supportDeflationary coin f t = .ok (some (b, l, fe)) ∧
      0 ≤ b ∧ b ≤ coin.amount ∧ 0 ≤ l ∧ l ≤ coin.amount ∧ 0 ≤ fe ∧ fe ≤ coin.amount ∧
      taxCoin params f t coin = if b + l + fe ≤ coin.amount then
          .ok (some (⟨coin.denom, coin.amount - b - l - fe⟩, ⟨coin.denom, b⟩, ⟨coin.denom, l⟩,
            ⟨coin.denom, fe⟩))
        else .error (if -2 ^ maxBitLen < coin.amount - b - l - fe then .invalidCoin else .intOverflow) := by
  have hrules := ((validateSupportDeflationaryParams_eq_ok _).1 hv).1
  obtain ⟨res, hres, hle, hsome⟩ := foldlM_deflationaryStep_le (f := f) (t := t) ha ha'
    (fun r hr => (validateSupportDeflationary_ok (hrules r hr)).2) (show PortionsLe _ none from trivial)
  obtain ⟨⟨b, l, fe⟩, rfl⟩ := Option.isSome_iff_exists.1 (hsome (.inl htax))
  obtain ⟨r, hr, happ⟩ := htax
  have hd : validateDenom coin.denom = true :=
    SupportDeflationary.denom_of_applies happ ▸ (validateSupportDeflationary_ok (hrules r hr)).1
  obtain ⟨h1, h2, h3, h4, h5, h6⟩ := hle
  exact ⟨b, l, fe, hres, h1, h2, h3, h4, h5, h6, taxCoin_eq_of_match ha' hd hres ⟨h1, h2, h3, h4, h5, h6⟩⟩

theorem taxCoin_ok_iff_portions_le_testRule :
    ∃ b l fe, deflationaryMatch [testRule "foo"] ⟨"foo", 50⟩ "addr1" "addr2" =
        .ok (some (b, l, fe)) ∧
      0 ≤ b ∧ b ≤ 50 ∧ 0 ≤ l ∧ l ≤ 50 ∧ 0 ≤ fe ∧ fe ≤ 50 ∧
      taxCoin ⟨[], true, [testRule "foo"]⟩ "addr1" "addr2" ⟨"foo", 50⟩ = if b + l + fe ≤ 50 then
          .ok (some (⟨"foo", 50 - b - l - fe⟩, ⟨"foo", b⟩, ⟨"foo", l⟩, ⟨"foo", fe⟩))
        else .error (if -2 ^ maxBitLen < 50 - b - l - fe then .invalidCoin else .intOverflow) :=
  taxCoin_ok_iff_portions_le ⟨[], true, [testRule "foo"]⟩ "addr1" "addr2" ⟨"foo", 50⟩ (by decide)
    ⟨_, List.mem_singleton_self _, by decide⟩ (by decide) (SdkInt.natCast_lt (by decide))

/-- A rule of three validated percentages of one each: the validator accepts it,
and the split of one foo panics on its net of minus two. -/
def fullRule : SupportDeflationary :=
  ⟨"foo", true, [], ["addr2"], Dec.oneDec, Dec.oneDec, Dec.oneDec⟩

theorem fullRule_taxCoin_panics :
    validateSupportDeflationaryParams [fullRule] = .ok () ∧
      deflationaryMatch [fullRule] ⟨"foo", 1⟩ "addr1" "addr2" = .ok (some (1, 1, 1)) ∧
      taxCoin ⟨[], true, [fullRule]⟩ "addr1" "addr2" ⟨"foo", 1⟩ = .error .invalidCoin := by
  decide

/-- The test's transfer of 50 foo to `addr2` under burn 10%, liquidity 5% and
fee tax 5%: 2 foo burnt, 2 foo each kept for liquidity and fee tax, 44 foo
credited. -/
theorem sendCoins_testRule_split :
    ((initGenesis testKeeper (testGenesis [testRule "foo"]) >>= fun _ =>
      sendCoins testKeeper "addr1" "addr2" [⟨"foo", 50⟩]) BankState.empty).okState?.map
      (fun s => (s.balanceOf "addr1" "foo", s.balanceOf "addr2" "foo",
        s.balanceOf "bankModule" "foo", s.supplyOf "foo")) = some (50, 44, 4, 98) := by
  decide

end DeflationaryBank
