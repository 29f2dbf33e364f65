import DeflationaryBank.Laws.Positivity

/-!
# ExportGenesis reads every store back

`ExportGenesis` makes each denomination store a coin list by
`getPaginatedTotal*`, and the balance store one `Balance` per address by
`GetAccountsBalances`. Both loops add the stored entries one at a time, each by
`Coins.Add` of a one-coin list. A key occurs once in a store, so every coin
added has a denomination the list does not hold yet: the addition never meets
two amounts of one denomination, cannot overflow, and puts the coin in its
place. On a state whose stores hold positive amounts of valid denominations the
export therefore never panics, and every coin list it returns is valid and holds
exactly the stored amounts (`exportGenesis_ok`).

Both conditions hold along every run from a genesis of valid coins: positivity
is `reachableAny_storesPos`, and no write of `InitGenesis` or of a transfer
stores a denomination that does not validate (`denomsValid_stable`).

A valid coin list is fixed by its totals (`Coins.eq_of_isValid`): this is what
lets a later proof compare an exported list with the one written.
-/

namespace DeflationaryBank

/-! ## Valid coin lists -/

namespace Coins

theorem amountSum_pos {l : Coins} (hp : ∀ c ∈ l, 0 < c.amount) {x : Coin} (hx : x ∈ l) :
    0 < l.amountSum x.denom := by
  have hle := List.single_le_sum (fun y hy => by
      obtain ⟨c, hc, rfl⟩ := List.mem_map.1 hy
      split
      · exact (hp c hc).le
      · exact le_rfl)
    _ (List.mem_map_of_mem (fun c => if c.denom = x.denom then c.amount else 0) hx)
  simp only [if_true] at hle
  exact lt_of_lt_of_le (hp x hx) hle

/-- `Coins.Add` of one coin whose denomination the list does not hold never
panics. -/
theorem safeAdd_singleton_fresh {c : Coin} : ∀ {as : Coins}, (∀ x ∈ as, x.denom ≠ c.denom) →
    ∃ r, safeAdd as [c] = .ok r
  | [], _ => ⟨_, rfl⟩
  | a :: as, h => by
    obtain ⟨ha, has⟩ := List.forall_mem_cons.1 h
    obtain ⟨r, hr⟩ := safeAdd_singleton_fresh has
    rw [safeAdd, safeAddFrom, if_neg ha]
    split
    · exact ⟨_, by rw [hr]; rfl⟩
    · exact ⟨_, rfl⟩

/-- The step of both export loops: a positive coin of a valid denomination that
a valid list does not hold is added without a panic, and the sum is valid. -/
theorem add_singleton_fresh {as : Coins} {c : Coin} (hv : as.isValid = true)
    (hc : validateDenom c.denom = true ∧ 0 < c.amount) (hf : as.amountSum c.denom = 0) :
    ∃ r, as.add [c] = .ok r ∧ r.isValid = true ∧
      ∀ d, r.amountSum d = as.amountSum d + if c.denom = d then c.amount else 0 := by
  obtain ⟨hva, hsa⟩ := (isValid_iff as).1 hv
  have hfresh : ∀ x ∈ as, x.denom ≠ c.denom := fun x hx he => by
    have := amountSum_pos (fun y hy => (hva y hy).2) hx
    rw [he, hf] at this
    exact lt_irrefl _ this
  obtain ⟨r, hr⟩ := safeAdd_singleton_fresh hfresh
  refine ⟨r, hr, (isValid_iff r).2 ⟨safeAdd_forall (fun x => validateDenom x.denom = true ∧ 0 < x.amount)
    (fun ⟨h1, h2⟩ ⟨_, h4⟩ h => ?_) as [c] hr hva (by simpa using hc),
    safeAdd_sorted as [c] hr hsa (List.pairwise_singleton _ _)⟩, fun d => by simp [amountSum_add hr]⟩
  obtain ⟨-, hd, ha⟩ := Coin.add_eq_ok h
  rw [hd, ha]
  exact ⟨h1, by omega⟩

/-- `Coins.Sort` leaves an ordered list as it is. -/
theorem sort_eq_self {l : Coins} (h : l.Sorted) : l.sort = l :=
  List.Sorted.insertionSort_eq (h.imp stringLt_asymm)

/-- `sdk.NewCoins` of one positive coin of a valid denomination is that coin. -/
theorem newCoins_singleton {c : Coin} (hc : validateDenom c.denom = true ∧ 0 < c.amount) :
    newCoins [c] = .ok [c] := by
  have hz : removeZeroCoins [c] = [c] := by simp [removeZeroCoins, Coin.isZero, hc.2.ne']
  simp [newCoins, hz, sort, isValid, isValidAfter, hc.1, Coin.isPositive, hc.2]

end Coins

/-! ## Store entries -/

/-- The amount a list of store entries holds for `key`, every entry counted. -/
def entriesAmount {κ : Type} [DecidableEq κ] (es : List (κ × Int)) (key : κ) : Int :=
  (es.map fun e => if e.1 = key then e.2 else 0).sum

section Entries

variable {κ : Type} [DecidableEq κ]

@[simp] theorem entriesAmount_nil (key : κ) : entriesAmount [] key = 0 := rfl

@[simp] theorem entriesAmount_cons (e : κ × Int) (es : List (κ × Int)) (key : κ) :
    entriesAmount (e :: es) key = (if e.1 = key then e.2 else 0) + entriesAmount es key := by
  simp [entriesAmount]

@[simp] theorem entriesAmount_append (es es' : List (κ × Int)) (key : κ) :
    entriesAmount (es ++ es') key = entriesAmount es key + entriesAmount es' key := by
  simp [entriesAmount]

theorem entriesAmount_eq_zero {es : List (κ × Int)} {key : κ} (h : key ∉ es.map Prod.fst) :
    entriesAmount es key = 0 :=
  List.sum_eq_zero fun x hx => by
    obtain ⟨e, he, rfl⟩ := List.mem_map.1 hx
    exact if_neg fun hk => h (List.mem_map.2 ⟨e, he, hk⟩)

theorem exists_entry_of_entriesAmount_ne_zero {es : List (κ × Int)} {key : κ}
    (h : entriesAmount es key ≠ 0) : ∃ e ∈ es, e.1 = key := by
  by_contra hn
  exact h (entriesAmount_eq_zero fun hm => hn (by simpa using hm))

/-- A store reads as the sum of its entries. -/
theorem KVStore.amount_eq_entriesAmount (st : KVStore κ) (key : κ) :
    st.amount key = entriesAmount st.entries key := by
  have h := st.sumBy_delete (fun k v => if k = key then v else 0) key (by simp)
  have h0 : (st.delete key).sumBy (fun k v => if k = key then v else 0) = 0 :=
    entriesAmount_eq_zero (by simp [KVStore.delete])
  rw [h0, zero_add] at h
  simpa [KVStore.sumBy, entriesAmount] using h.symm

theorem KVStore.exists_entry_of_amount_ne_zero {st : KVStore κ} {key : κ} (h : st.amount key ≠ 0) :
    ∃ e ∈ st.entries, e.1 = key :=
  exists_entry_of_entriesAmount_ne_zero (st.amount_eq_entriesAmount key ▸ h)

theorem KVStore.mem_set {st : KVStore κ} {key : κ} {v : Int} {e : κ × Int}
    (he : e ∈ (st.set key v).entries) : e ∈ st.entries ∨ e = (key, v) := by
  rcases List.mem_cons.1 he with rfl | he
  · exact .inr rfl
  · exact .inl (List.mem_filter.1 he).1

/-- A write leaves the old entries, and a new one only when it is not zero. -/
theorem KVStore.mem_put {st : KVStore κ} {key : κ} {v : Int} {e : κ × Int}
    (he : e ∈ (st.put key v).entries) : e ∈ st.entries ∨ (e = (key, v) ∧ v ≠ 0) := by
  unfold KVStore.put at he
  split at he
  · exact .inl (List.mem_filter.1 he).1
  · exact (KVStore.mem_set he).imp_right fun h => ⟨h, ‹_›⟩

end Entries

/-! ## The denomination stores -/

/-- The loop of `getPaginatedTotal` over entries of distinct, valid
denominations and positive amounts, none of which the start list holds. -/
theorem foldlM_denomEntries_ok : ∀ (es : List (String × Int)) {acc : Coins}, acc.isValid = true →
    (∀ e ∈ es, validateDenom e.1 = true ∧ 0 < e.2) → (es.map Prod.fst).Nodup →
    (∀ e ∈ es, acc.amountSum e.1 = 0) →
    ∃ r, es.foldlM (fun (pool : Coins) e => newCoin e.1 e.2 >>= fun c => pool.add [c]) acc = .ok r ∧
      r.isValid = true ∧ ∀ d, r.amountSum d = acc.amountSum d + entriesAmount es d
  | [], acc, hv, _, _, _ => ⟨acc, rfl, hv, fun d => by simp⟩
  | e :: es, acc, hv, hes, hnd, hf => by
    obtain ⟨he, hes⟩ := List.forall_mem_cons.1 hes
    obtain ⟨hf1, hf⟩ := List.forall_mem_cons.1 hf
    simp only [List.map_cons, List.nodup_cons, List.mem_map] at hnd
    obtain ⟨r1, hr1, hv1, hs1⟩ := Coins.add_singleton_fresh (c := ⟨e.1, e.2⟩) hv he hf1
    obtain ⟨r, hr, hv', hs⟩ := foldlM_denomEntries_ok es hv1 hes hnd.2 fun e' he' => by
      rw [hs1, hf e' he', if_neg fun h => hnd.1 ⟨e', he', h.symm⟩, add_zero]
    have hc : newCoin e.1 e.2 = .ok ⟨e.1, e.2⟩ := by simp [newCoin, Coin.isValid, he.1, he.2.le]
    refine ⟨r, ?_, hv', fun d => ?_⟩
    · rw [List.foldlM_cons, hc]
      change acc.add [⟨e.1, e.2⟩] >>= _ = _
      rw [hr1]
      exact hr
    · rw [hs, hs1, entriesAmount_cons]
      dsimp only
      omega

/-- `getPaginatedTotal` of a store of positive amounts of valid denominations
returns a valid list holding exactly the stored amounts. -/
theorem getPaginatedTotal_ok {s : BankState} (w : DenomStore) (hpos : (s.denomStore w).AllPos)
    (hden : ∀ e ∈ (s.denomStore w).entries, validateDenom e.1 = true) :
    ∃ c, getPaginatedTotal w s = .ok c s ∧ c.isValid = true ∧
      ∀ d, c.amountSum d = (s.denomStore w).amount d := by
  obtain ⟨r, hr, hv, hs⟩ := foldlM_denomEntries_ok (s.denomStore w).entries
    (show Coins.isValid [] = true from rfl) (fun e he => ⟨hden e he, hpos e he⟩)
    (s.denomStore w).nodup fun _ _ => rfl
  refine ⟨r, by simp only [getPaginatedTotal, hr, BankM.liftPanic_ok], hv, fun d => ?_⟩
  rw [hs, KVStore.amount_eq_entriesAmount, Coins.amountSum_nil, zero_add]

/-! ## The balance store -/

section Lists

variable {α β ε : Type} {R : α → β → Prop}

theorem mapM_ok_forall₂ {f : α → Except ε β} :
    ∀ {l : List α}, (∀ a ∈ l, ∃ b, f a = .ok b ∧ R a b) → ∃ l', l.mapM f = .ok l' ∧ List.Forall₂ R l l'
  | [], _ => ⟨[], rfl, .nil⟩
  | a :: l, h => by
    obtain ⟨b, hb, hR⟩ := h a (List.mem_cons_self _ _)
    obtain ⟨l', hl', hF⟩ := mapM_ok_forall₂ fun x hx => h x (List.mem_cons_of_mem _ hx)
    exact ⟨b :: l', by rw [List.mapM_cons, hb, hl']; rfl, .cons hR hF⟩

theorem forall₂_exists_left {l₁ : List α} {l₂ : List β} (h : List.Forall₂ R l₁ l₂) {a : α}
    (ha : a ∈ l₁) : ∃ b ∈ l₂, R a b := by
  induction h with
  | nil => cases ha
  | cons hab _ ih =>
    rcases List.mem_cons.1 ha with rfl | ha
    · exact ⟨_, List.mem_cons_self _ _, hab⟩
    · obtain ⟨b, hb, hR⟩ := ih ha
      exact ⟨b, List.mem_cons_of_mem _ hb, hR⟩

theorem forall₂_exists_right {l₁ : List α} {l₂ : List β} (h : List.Forall₂ R l₁ l₂) {b : β}
    (hb : b ∈ l₂) : ∃ a ∈ l₁, R a b := by
  induction h with
  | nil => cases hb
  | cons hab _ ih =>
    rcases List.mem_cons.1 hb with rfl | hb
    · exact ⟨_, List.mem_cons_self _ _, hab⟩
    · obtain ⟨a, ha, hR⟩ := ih hb
      exact ⟨a, List.mem_cons_of_mem _ ha, hR⟩

theorem forall₂_map_eq {γ : Type} {f : α → γ} {g : β → γ} {l₁ : List α} {l₂ : List β}
    (h : List.Forall₂ R l₁ l₂) (hfg : ∀ a b, R a b → f a = g b) : l₁.map f = l₂.map g := by
  induction h with
  | nil => rfl
  | cons hab _ ih => rw [List.map_cons, List.map_cons, hfg _ _ hab, ih]

end Lists

/-- What the loop of `GetAccountsBalances` has built from the entries `done` of
the balance store: one `Balance` per address, its coins a valid list that is not
empty and holds exactly the amounts `done` has at that address, and a `Balance`
for every address of `done`. -/
structure BalancesRead (done : List ((AccAddress × String) × Int)) (bs : List Balance) : Prop where
  nodup : (bs.map (·.address)).Nodup
  valid : ∀ b ∈ bs, b.coins.isValid = true ∧ b.coins ≠ []
  amounts : ∀ b ∈ bs, ∀ d, b.coins.amountSum d = entriesAmount done (b.address, d)
  present : ∀ e ∈ done, ∃ b ∈ bs, b.address = e.1.1

namespace BalancesRead

variable {done : List ((AccAddress × String) × Int)} {bs : List Balance}
  {e : (AccAddress × String) × Int}

/-- An address without a `Balance` has nothing in the entries read so far. -/
theorem entriesAmount_absent (h : BalancesRead done bs) {a : AccAddress}
    (ha : ∀ b ∈ bs, b.address ≠ a) (d : String) : entriesAmount done (a, d) = 0 :=
  entriesAmount_eq_zero fun hm => by
    obtain ⟨e', he', hk⟩ := List.mem_map.1 hm
    obtain ⟨b, hb, hba⟩ := h.present e' he'
    exact ha b hb (hba.trans (congrArg Prod.fst hk))

/-- The step for an address that has a `Balance`: the mapped list adds the coin to
that address's coins. -/
theorem addAccountBalance_present (h : BalancesRead done bs)
    (he : validateDenom e.1.2 = true ∧ 0 < e.2) (hfresh : e.1 ∉ done.map Prod.fst)
    (hany : bs.any (·.address = e.1.1) = true) :
    ∃ bs', addAccountBalance bs e = .ok bs' ∧ BalancesRead (done ++ [e]) bs' := by
  have step : ∀ b ∈ bs, ∃ b', (if b.address = e.1.1 then
      (fun c => { b with coins := c.sort }) <$> b.coins.add [⟨e.1.2, e.2⟩] else pure b) = .ok b' ∧
      (b'.address = b.address ∧ (b'.coins.isValid = true ∧ b'.coins ≠ []) ∧
        ∀ d, b'.coins.amountSum d = b.coins.amountSum d + if e.1 = (b.address, d) then e.2 else 0) := by
    intro b hb
    by_cases hba : b.address = e.1.1
    · have hf : b.coins.amountSum e.1.2 = 0 := by
        rw [h.amounts b hb, hba]
        exact entriesAmount_eq_zero hfresh
      obtain ⟨r, hr, hv, hs⟩ := Coins.add_singleton_fresh (c := ⟨e.1.2, e.2⟩) (h.valid b hb).1 he hf
      refine ⟨{ b with coins := r }, ?_, rfl, ⟨hv, fun hr0 => ?_⟩, fun d => ?_⟩
      · rw [if_pos hba, hr]
        exact congrArg (fun c => Except.ok { b with coins := c }) (Coins.sort_eq_self ((Coins.isValid_iff r).1 hv).2)
      · have := hs e.1.2
        change r = [] at hr0
        simp only [hr0, Coins.amountSum_nil, hf, if_true, zero_add] at this
        exact he.2.ne this
      · rw [hs d]
        simp only [hba, Prod.ext_iff, true_and]
    · refine ⟨b, by rw [if_neg hba]; rfl, rfl, h.valid b hb, fun d => ?_⟩
      rw [if_neg fun he' => hba (congrArg Prod.fst he').symm, add_zero]
  obtain ⟨bs', hbs', hR⟩ := mapM_ok_forall₂ step
  refine ⟨bs', by simp only [addAccountBalance, hany, if_true]; exact hbs', ?_, ?_, ?_, ?_⟩
  · rw [← forall₂_map_eq hR fun _ _ r => r.1.symm]
    exact h.nodup
  · intro b' hb'
    obtain ⟨b, -, hR⟩ := forall₂_exists_right hR hb'
    exact hR.2.1
  · intro b' hb' d
    obtain ⟨b, hb, hba, -, hs⟩ := forall₂_exists_right hR hb'
    rw [hs d, h.amounts b hb d, hba]
    simp
  · intro e' he'
    rcases List.mem_append.1 he' with he' | he'
    · obtain ⟨b, hb, hba⟩ := h.present e' he'
      obtain ⟨b', hb', hR⟩ := forall₂_exists_left hR hb
      exact ⟨b', hb', hR.1.trans hba⟩
    · obtain ⟨b, hb, hba⟩ := List.any_eq_true.1 hany
      obtain ⟨b', hb', hR⟩ := forall₂_exists_left hR hb
      rw [List.mem_singleton.1 he']
      exact ⟨b', hb', hR.1.trans (of_decide_eq_true hba)⟩

/-- The step for a new address: a `Balance` of the one coin is appended. -/
theorem addAccountBalance_absent (h : BalancesRead done bs)
    (he : validateDenom e.1.2 = true ∧ 0 < e.2) (hany : ¬bs.any (·.address = e.1.1) = true) :
    ∃ bs', addAccountBalance bs e = .ok bs' ∧ BalancesRead (done ++ [e]) bs' := by
  have hne : ∀ b ∈ bs, b.address ≠ e.1.1 := by simpa using hany
  refine ⟨bs ++ [⟨e.1.1, [⟨e.1.2, e.2⟩]⟩], ?_, ?_, ?_, ?_, ?_⟩
  · simp only [addAccountBalance, hany, if_false]
    rw [Coins.newCoins_singleton he]
    rfl
  · simpa [List.nodup_append] using ⟨h.nodup, hne⟩
  · simp only [List.mem_append, List.mem_singleton]
    rintro b (hb | rfl)
    · exact h.valid b hb
    · exact ⟨by simp [Coins.isValid, Coins.isValidAfter, he.1, Coin.isPositive, he.2], List.cons_ne_nil _ _⟩
  · simp only [List.mem_append, List.mem_singleton]
    rintro b (hb | rfl) d
    · rw [h.amounts b hb, entriesAmount_append, entriesAmount_cons,
        if_neg fun he' => hne b hb (congrArg Prod.fst he').symm]
      simp
    · rw [entriesAmount_append, h.entriesAmount_absent hne]
      simp [Prod.ext_iff]
  · intro e' he'
    rcases List.mem_append.1 he' with he' | he'
    · obtain ⟨b, hb, hba⟩ := h.present e' he'
      exact ⟨b, List.mem_append_left _ hb, hba⟩
    · rw [List.mem_singleton.1 he']
      exact ⟨_, List.mem_append_right _ (List.mem_singleton_self _), rfl⟩

theorem addAccountBalance_ok (h : BalancesRead done bs)
    (he : validateDenom e.1.2 = true ∧ 0 < e.2) (hfresh : e.1 ∉ done.map Prod.fst) :
    ∃ bs', addAccountBalance bs e = .ok bs' ∧ BalancesRead (done ++ [e]) bs' :=
  if hany : bs.any (·.address = e.1.1) = true then h.addAccountBalance_present he hfresh hany
  else h.addAccountBalance_absent he hany

end BalancesRead

/-- The loop of `GetAccountsBalances` over entries of distinct keys, valid
denominations and positive amounts. -/
theorem foldlM_addAccountBalance_ok : ∀ (es : List ((AccAddress × String) × Int))
    {done : List ((AccAddress × String) × Int)} {bs : List Balance}, BalancesRead done bs →
    (∀ e ∈ es, validateDenom e.1.2 = true ∧ 0 < e.2) → ((done ++ es).map Prod.fst).Nodup →
    ∃ r, es.foldlM addAccountBalance bs = .ok r ∧ BalancesRead (done ++ es) r
  | [], _, bs, h, _, _ => ⟨bs, rfl, by simpa using h⟩
  | e :: es, done, bs, h, hes, hnd => by
    obtain ⟨he, hes⟩ := List.forall_mem_cons.1 hes
    have hfresh : e.1 ∉ done.map Prod.fst := fun hm => by
      rw [List.map_append, List.map_cons] at hnd
      exact List.disjoint_of_nodup_append hnd hm (List.mem_cons_self _ _)
    obtain ⟨bs1, h1, hr1⟩ := h.addAccountBalance_ok he hfresh
    obtain ⟨r, hr, hread⟩ := foldlM_addAccountBalance_ok es hr1 hes (by simpa using hnd)
    exact ⟨r, by rw [List.foldlM_cons, h1]; exact hr, by simpa using hread⟩

/-- `GetAccountsBalances` of a balance store of positive amounts of valid
denominations reads every entry. -/
theorem getAccountsBalances_ok {s : BankState} (hpos : s.balances.AllPos)
    (hden : ∀ e ∈ s.balances.entries, validateDenom e.1.2 = true) :
    ∃ bs, getAccountsBalances s = .ok bs s ∧ BalancesRead s.balances.entries bs := by
  obtain ⟨r, hr, hread⟩ := foldlM_addAccountBalance_ok s.balances.entries
    (⟨List.nodup_nil, by simp, by simp, by simp⟩ : BalancesRead [] [])
    (fun e he => ⟨hden e he, hpos e he⟩) (by simpa using s.balances.nodup)
  exact ⟨r, by simp only [getAccountsBalances, hr, BankM.liftPanic_ok], by simpa using hread⟩

/-! ## ExportGenesis -/

/-- Every denomination a store of the bank holds passes `ValidateDenom`. -/
structure DenomsValid (s : BankState) : Prop where
  balances : ∀ e ∈ s.balances.entries, validateDenom e.1.2 = true
  denoms : ∀ w, ∀ e ∈ (s.denomStore w).entries, validateDenom e.1 = true

/-- The genesis coin list each denomination store is exported to. -/
def GenesisState.denomCoins (gen : GenesisState) : DenomStore → Coins
  | .supply => gen.supply
  | .liquidityPool => gen.liquidityPool
  | .feeTaxPool => gen.feeTaxPool

/-- A genesis that reads back the stores of `s`: the parameters; for each
denomination store a valid coin list of exactly its amounts; one `Balance` per
address, valid, not empty, of exactly that address's amounts, and one for
every address that holds something. -/
structure ReadsBack (s : BankState) (gen : GenesisState) : Prop where
  params : gen.params = s.params
  denomValid : ∀ w, (gen.denomCoins w).isValid = true
  denomAmounts : ∀ w d, (gen.denomCoins w).amountSum d = (s.denomStore w).amount d
  nodup : (gen.balances.map (·.address)).Nodup
  balancesValid : ∀ b ∈ gen.balances, b.coins.isValid = true ∧ b.coins ≠ []
  balanceAmounts : ∀ b ∈ gen.balances, ∀ d, b.coins.amountSum d = s.balanceOf b.address d
  balancesPresent : ∀ a d, s.balanceOf a d ≠ 0 → ∃ b ∈ gen.balances, b.address = a

/-- `ExportGenesis` of a state whose stores hold positive amounts of valid
denominations never panics, writes nothing, and reads every store back. -/
theorem exportGenesis_ok {s : BankState} (hp : StoresPos s) (hd : DenomsValid s) :
    ∃ gen, exportGenesis s = .ok gen s ∧ ReadsBack s gen := by
  obtain ⟨sup, h1, v1, a1⟩ := getPaginatedTotal_ok .supply (hp.denoms _) (hd.denoms _)
  obtain ⟨liq, h2, v2, a2⟩ := getPaginatedTotal_ok .liquidityPool (hp.denoms _) (hd.denoms _)
  obtain ⟨fee, h3, v3, a3⟩ := getPaginatedTotal_ok .feeTaxPool (hp.denoms _) (hd.denoms _)
  obtain ⟨bs, h4, hread⟩ := getAccountsBalances_ok hp.balances hd.balances
  refine ⟨⟨s.params, bs, sup, liq, fee⟩, ?_, rfl, fun w => ?_, fun w => ?_, hread.nodup,
    hread.valid, fun b hb d => ?_, fun a d had => ?_⟩
  · simp only [exportGenesis, getPaginatedTotalSupply, getPaginatedTotalLiquidityPool,
      getPaginatedTotalFeeTaxPool, BankM.bind_ok h1, BankM.bind_ok h2, BankM.bind_ok h3,
      BankM.bind_ok (rfl : getParams s = .ok s.params s), BankM.bind_ok h4]
    rfl
  · cases w <;> assumption
  · cases w <;> assumption
  · rw [hread.amounts b hb d, BankState.balanceOf, KVStore.amount_eq_entriesAmount]
  · rw [BankState.balanceOf, KVStore.amount_eq_entriesAmount] at had
    obtain ⟨e, he, hk⟩ := exists_entry_of_entriesAmount_ne_zero had
    obtain ⟨b, hb, hba⟩ := hread.present e he
    exact ⟨b, hb, hba.trans (congrArg Prod.fst hk)⟩

/-! ## Along every run -/

theorem Coin.validateDenom_of_isValid {c : Coin} (h : c.isValid = true) :
    validateDenom c.denom = true := by
  simp only [Coin.isValid, Bool.and_eq_true] at h
  exact h.1

namespace DenomsValid

variable {t : BankState}

theorem setBalance (h : DenomsValid t) {key : AccAddress × String} (v : Int)
    (hk : validateDenom key.2 = true) : DenomsValid { t with balances := t.balances.set key v } := by
  refine ⟨fun e he => ?_, h.denoms⟩
  rcases KVStore.mem_set he with he | rfl
  · exact h.balances e he
  · exact hk

theorem putBalance (h : DenomsValid t) (a : AccAddress) {c : Coin} (hc : c.isValid = true) :
    DenomsValid (t.putBalance a c) := by
  refine ⟨fun e he => ?_, fun w => by simpa using h.denoms w⟩
  rcases KVStore.mem_put he with he | ⟨rfl, -⟩
  · exact h.balances e he
  · exact Coin.validateDenom_of_isValid hc

/-- A denomination-store write keeps the property when a coin it stores, one
that is not zero, has a valid denomination. -/
theorem putDenom (h : DenomsValid t) (w : DenomStore) {c : Coin}
    (hc : c.amount ≠ 0 → validateDenom c.denom = true) : DenomsValid (t.putDenom w c) := by
  refine ⟨by simpa using h.balances, fun w' e he => ?_⟩
  rw [BankState.denomStore_putDenom] at he
  split at he
  · rcases KVStore.mem_put he with he | ⟨rfl, hv⟩
    · exact h.denoms w e he
    · exact hc hv
  · exact h.denoms w' e he

/-- A write of an amount the store holds for a denomination it holds. -/
theorem putDenom_held (h : DenomsValid t) (w : DenomStore) {c : Coin}
    (hc : c.amount ≠ 0 → (t.denomStore w).amount c.denom ≠ 0) : DenomsValid (t.putDenom w c) :=
  h.putDenom w fun h0 => by
    obtain ⟨e, he, hk⟩ := KVStore.exists_entry_of_amount_ne_zero (hc h0)
    exact hk ▸ h.denoms w e he

end DenomsValid

/-- No transfer writes a denomination that does not validate. -/
theorem denomsValid_stable : TransferStable DenomsValid fun _ => True where
  putBalance _ a _ h _ hc := h.putBalance a hc
  lowerSupply _ _ h hc hle := h.putDenom_held .supply fun h0 => by
    unfold BankState.supplyOf at hle
    rw [BankState.denomStore_supply]
    omega
  writeBack _ w _ h _ := h.putDenom_held w id
  account _ _ h := ⟨h.balances, h.denoms⟩

/-- The total the balance loop of `InitGenesis` returns has valid denominations. -/
theorem initGenesisBalances_denoms {balances : List Balance} {total : Coins} {s s' : BankState}
    (h : initGenesisBalances balances s = .ok total s') : ∀ c ∈ total, validateDenom c.denom = true :=
  foldlM_ok_inv (fun acc _ _ => ∀ c ∈ acc, validateDenom c.denom = true) (fun _ _ _ _ _ _ hi hb => by
    obtain ⟨hinit, hadd⟩ := initGenesisBalance_ok hb
    exact Coins.safeAdd_denom (validateDenom · = true) hadd hi fun c hc =>
      Coin.validateDenom_of_isValid (initBalances_valid hinit c hc)) (by simp) h

theorem setDenomCoins_keeps_denomsValid (w : DenomStore) {coins : Coins}
    (h : ∀ c ∈ coins, validateDenom c.denom = true) : Keeps DenomsValid (coins.forM (setDenomCoin w)) :=
  Keeps.forM fun c hc => Keeps.modify fun _ ht => ht.putDenom w fun _ => h c hc

/-- `InitGenesis` stores only valid denominations when the genesis pools have
valid denominations. -/
theorem initGenesis_denomsValid {k : Keeper} {gen : GenesisState} {s : BankState}
    (hliq : ∀ c ∈ gen.liquidityPool, validateDenom c.denom = true)
    (hfee : ∀ c ∈ gen.feeTaxPool, validateDenom c.denom = true)
    (h : initGenesis k gen BankState.empty = .ok () s) : DenomsValid s := by
  obtain ⟨total, s2, h2, total', h3, s3, s4, s5, h6, h7, h8, accounts, rfl⟩ := initGenesis_ok h
  have p1 : DenomsValid { BankState.empty with params := gen.params } :=
    ⟨by simp [BankState.empty, KVStore.empty], fun w => by cases w <;> simp [BankState.empty, KVStore.empty]⟩
  have p2 := (initGenesisBalances_keeps (fun t a c ht hc _ => ht.setBalance _
    (Coin.validateDenom_of_isValid hc)) _ _ p1).1 _ _ h2
  have htot : ∀ c ∈ total', validateDenom c.denom = true :=
    Coins.safeAdd_denom (validateDenom · = true) h3 (initGenesisBalances_denoms h2) (by simp)
  have p3 := (setDenomCoins_keeps_denomsValid .supply htot s2 p2).1 _ _ h6
  have p4 := (setDenomCoins_keeps_denomsValid .feeTaxPool hfee s3 p3).1 _ _ h7
  have p5 := (setDenomCoins_keeps_denomsValid .liquidityPool hliq s4 p4).1 _ _ h8
  exact ⟨p5.balances, p5.denoms⟩

/-- From a genesis of valid coins, along every run of transfers, whatever each
returns, `ExportGenesis` never panics and reads every store back. -/
theorem reachableAny_exportGenesis_ok {k : Keeper} {s : BankState}
    (h : ReachableAny k GenesisCoinsValid s) : ∃ gen, exportGenesis s = .ok gen s ∧ ReadsBack s gen :=
  exportGenesis_ok (reachableAny_storesPos h)
    (h.inv (fun _ _ hg hi => initGenesis_denomsValid
        (fun c hc => (((Coins.isValid_iff _).1 hg.2.2.1).1 c hc).1)
        (fun c hc => (((Coins.isValid_iff _).1 hg.2.2.2).1 c hc).1) hi)
      (Call.run_keeps denomsValid_stable))

/-- After the test's transfer that fails part-way. -/
theorem testGenesis_exportGenesis_ok :
    ∃ gen, exportGenesis failedSendState = .ok gen failedSendState ∧ ReadsBack failedSendState gen :=
  reachableAny_exportGenesis_ok (reachableAny_failedSendState (by decide))

end DeflationaryBank
