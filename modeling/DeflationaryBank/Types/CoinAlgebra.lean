import DeflationaryBank.Types.Coin
import Mathlib.Algebra.Order.BigOperators.Group.List

/-!
# Coin algebra

What the keeper proofs use of `sdk.Coins`: Go's string order is a strict total
order; `Coins.Add` adds amounts per denomination on every pair of lists, and
keeps two ordered lists ordered; `Coins.IsValid` is "valid denominations,
positive amounts, strictly ordered".

The per-denomination total `amountSum` is the bookkeeping quantity of the
supply proofs: unlike `AmountOf` it is additive under `Coins.Add` whatever the
order of the lists.
-/

namespace DeflationaryBank

variable {α β ε : Type}

theorem except_map_eq_ok {f : α → β} {x : Except ε α} {b : β} :
    f <$> x = .ok b ↔ ∃ a, x = .ok a ∧ f a = b := by
  cases x <;> simp [Functor.map, Except.map]

theorem except_bind_eq_ok {x : Except ε α} {f : α → Except ε β} {b : β} :
    x >>= f = .ok b ↔ ∃ a, x = .ok a ∧ f a = .ok b := by
  cases x <;> simp [bind, Except.bind]

/-! ## Go's string order -/

theorem charsLt_cons_cons (c d : Char) (cs ds : List Char) :
    charsLt (c :: cs) (d :: ds) = true ↔ c.toNat < d.toNat ∨ (c = d ∧ charsLt cs ds = true) := by
  rw [charsLt.eq_4]
  by_cases h : c.toNat < d.toNat
  · simp [h]
  · by_cases h' : c = d <;> simp [h, h']

theorem char_eq_of_toNat_eq {c d : Char} (h : c.toNat = d.toNat) : c = d :=
  Char.ext (UInt32.eq_of_val_eq (Fin.ext h))

theorem charsLt_irrefl : ∀ l : List Char, charsLt l l = false
  | [] => rfl
  | c :: cs => by simp [charsLt, charsLt_irrefl cs]

theorem charsLt_trans {a b c : List Char} (h1 : charsLt a b = true) (h2 : charsLt b c = true) :
    charsLt a c = true := by
  induction a generalizing b c with
  | nil => cases b <;> cases c <;> simp_all [charsLt]
  | cons x xs ih =>
    cases b with
    | nil => simp [charsLt] at h1
    | cons y ys =>
      cases c with
      | nil => simp [charsLt] at h2
      | cons z zs =>
        rw [charsLt_cons_cons] at *
        rcases h1 with h1 | ⟨rfl, h1⟩ <;> rcases h2 with h2 | ⟨rfl, h2⟩
        · exact .inl (by omega)
        · exact .inl h1
        · exact .inl h2
        · exact .inr ⟨rfl, ih h1 h2⟩

theorem charsLt_total {a b : List Char} (h : a ≠ b) : charsLt a b = true ∨ charsLt b a = true := by
  induction a generalizing b with
  | nil => cases b with
    | nil => exact absurd rfl h
    | cons => exact .inl rfl
  | cons x xs ih =>
    cases b with
    | nil => exact .inr rfl
    | cons y ys =>
      simp only [charsLt_cons_cons]
      rcases Nat.lt_trichotomy x.toNat y.toNat with hxy | hxy | hxy
      · exact .inl (.inl hxy)
      · obtain rfl := char_eq_of_toNat_eq hxy
        rcases ih (fun e => h (e ▸ rfl)) with h' | h'
        · exact .inl (.inr ⟨rfl, h'⟩)
        · exact .inr (.inr ⟨rfl, h'⟩)
      · exact .inr (.inl hxy)

theorem stringLt_irrefl (a : String) : stringLt a a = false := charsLt_irrefl _

theorem stringLt_trans {a b c : String} (h1 : stringLt a b = true) (h2 : stringLt b c = true) :
    stringLt a c = true := charsLt_trans h1 h2

theorem stringLt_ne {a b : String} (h : stringLt a b = true) : a ≠ b := by
  rintro rfl; simp [stringLt_irrefl] at h

theorem stringLt_asymm {a b : String} (h : stringLt a b = true) : stringLt b a = false := by
  cases h' : stringLt b a
  · rfl
  · simpa [stringLt_irrefl] using stringLt_trans h h'

theorem stringLt_total {a b : String} (h : a ≠ b) : stringLt a b = true ∨ stringLt b a = true :=
  charsLt_total fun e => h (String.ext e)

/-! ## Per-denomination totals -/

namespace Coins

/-- The total of `denom` over a coin list, every occurrence counted. -/
def amountSum (coins : Coins) (denom : String) : Int :=
  (coins.map fun c => if c.denom = denom then c.amount else 0).sum

@[simp] theorem amountSum_nil (denom : String) : amountSum [] denom = 0 := rfl

@[simp] theorem amountSum_cons (c : Coin) (coins : Coins) (denom : String) :
    amountSum (c :: coins) denom = (if c.denom = denom then c.amount else 0) + amountSum coins denom := by
  simp [amountSum]

@[simp] theorem amountSum_append (l l' : Coins) (denom : String) :
    amountSum (l ++ l') denom = amountSum l denom + amountSum l' denom := by
  simp [amountSum, List.sum_append]

theorem amountSum_eq_zero {coins : Coins} {denom : String} (h : ∀ c ∈ coins, c.denom ≠ denom) :
    amountSum coins denom = 0 := by
  induction coins with
  | nil => rfl
  | cons c cs ih =>
    simp only [List.mem_cons, forall_eq_or_imp] at h
    simp [h.1, ih h.2]

theorem amountSum_nonneg {coins : Coins} (h : ∀ c ∈ coins, 0 ≤ c.amount) (denom : String) :
    0 ≤ amountSum coins denom :=
  List.sum_nonneg fun x hx => by
    obtain ⟨c, hc, rfl⟩ := List.mem_map.1 hx
    split_ifs
    · exact h c hc
    · exact le_rfl

/-- Among non-negative coins one amount is at most the total of its denomination. -/
theorem amount_le_amountSum {coins : Coins} (h : ∀ c ∈ coins, 0 ≤ c.amount) {x : Coin}
    (hx : x ∈ coins) : x.amount ≤ amountSum coins x.denom := by
  induction coins with
  | nil => cases hx
  | cons c cs ih =>
    obtain ⟨hc, hcs⟩ := List.forall_mem_cons.1 h
    have := amountSum_nonneg hcs x.denom
    rw [amountSum_cons]
    rcases List.mem_cons.1 hx with rfl | hx
    · rw [if_pos rfl]; omega
    · have := ih hcs hx
      split_ifs <;> omega

theorem amountSum_of_isZero {coins : Coins} (h : coins.isZero = true) (denom : String) :
    amountSum coins denom = 0 := by
  induction coins with
  | nil => rfl
  | cons c cs ih =>
    simp only [isZero, List.all_cons, Bool.and_eq_true, Coin.isZero, decide_eq_true_eq] at h
    simp [h.1, ih h.2]

@[simp] theorem amountSum_removeZeroCoins (coins : Coins) (denom : String) :
    amountSum (removeZeroCoins coins) denom = amountSum coins denom := by
  induction coins with
  | nil => rfl
  | cons c cs ih =>
    by_cases hz : c.amount = 0
    · simp [removeZeroCoins, Coin.isZero, hz] at ih ⊢; exact ih
    · simp [removeZeroCoins, Coin.isZero, hz] at ih ⊢; rw [ih]

@[simp] theorem amountSum_consNonZero (c : Coin) (coins : Coins) (denom : String) :
    amountSum (consNonZero c coins) denom =
      (if c.denom = denom then c.amount else 0) + amountSum coins denom := by
  unfold consNonZero
  by_cases hz : c.amount = 0 <;> simp [Coin.isZero, hz]

end Coins

theorem Coin.amount_nonneg_of_isValid {c : Coin} (h : c.isValid = true) : 0 ≤ c.amount := by
  simp only [Coin.isValid, Bool.and_eq_true, decide_eq_true_eq] at h
  exact h.2

theorem Coin.add_eq_ok {a b r : Coin} (h : a.add b = .ok r) :
    a.denom = b.denom ∧ r.denom = a.denom ∧ r.amount = a.amount + b.amount := by
  unfold Coin.add at h
  split_ifs at h with hd
  obtain ⟨x, hx, rfl⟩ := except_map_eq_ok.1 h
  unfold SdkInt.add SdkInt.checked at hx
  split_ifs at hx
  cases hx
  exact ⟨not_not.1 hd, rfl, rfl⟩

namespace Coins

/-- What one step of the merge of `Coins.Add` on two non-empty lists does: it
takes the head of lower denomination, or adds the two heads of one denomination,
and merges the rest. -/
theorem safeAdd_cons_cons {a b : Coin} {as bs r : Coins} (h : safeAdd (a :: as) (b :: bs) = .ok r) :
    (stringLt a.denom b.denom = true ∧ ∃ r', safeAdd as (b :: bs) = .ok r' ∧ r = consNonZero a r') ∨
      (a.denom = b.denom ∧ ∃ res r', a.add b = .ok res ∧ safeAdd as bs = .ok r' ∧
        r = consNonZero res r') ∨
      (stringLt b.denom a.denom = true ∧ ∃ r', safeAdd (a :: as) bs = .ok r' ∧ r = consNonZero b r') := by
  simp only [safeAdd, safeAddFrom] at h
  split_ifs at h with h1 h2
  · obtain ⟨r', hr', rfl⟩ := except_map_eq_ok.1 h
    exact .inl ⟨h1, r', hr', rfl⟩
  · obtain ⟨res, hres, h'⟩ := except_bind_eq_ok.1 h
    obtain ⟨r', hr', rfl⟩ := except_map_eq_ok.1 h'
    exact .inr (.inl ⟨h2, res, r', hres, hr', rfl⟩)
  · obtain ⟨r', hr', rfl⟩ := except_map_eq_ok.1 h
    exact .inr (.inr ⟨(stringLt_total h2).resolve_left h1, r', hr', rfl⟩)

/-- `Coins.Add` adds the totals of every denomination, on any two lists. -/
theorem amountSum_safeAdd (denom : String) :
    ∀ (as bs : Coins) {r : Coins}, safeAdd as bs = .ok r →
      r.amountSum denom = as.amountSum denom + bs.amountSum denom
  | [], bs, r, h => by
    cases h; simp
  | a :: as, bs, r, h => by
    induction bs generalizing r with
    | nil => cases h; simp
    | cons b bs ihb =>
      rcases safeAdd_cons_cons h with ⟨-, r', hr', rfl⟩ | ⟨hab, res, r', hres, hr', rfl⟩ | ⟨-, r', hr', rfl⟩
      · rw [amountSum_consNonZero, amountSum_safeAdd denom as (b :: bs) hr']
        simp only [amountSum_cons]; omega
      · obtain ⟨-, hd, ha⟩ := Coin.add_eq_ok hres
        rw [amountSum_consNonZero, amountSum_safeAdd denom as bs hr', hd, ha]
        simp only [amountSum_cons, hab]
        split_ifs <;> omega
      · rw [amountSum_consNonZero, ihb _ hr']
        simp only [amountSum_cons]; omega

/-- `Coins.Add` adds the totals of every denomination. -/
theorem amountSum_add {as bs r : Coins} (h : as.add bs = .ok r) (denom : String) :
    r.amountSum denom = as.amountSum denom + bs.amountSum denom :=
  amountSum_safeAdd denom as bs h


/-! ## Ordered lists -/

/-- Denominations strictly increasing in Go's string order. -/
def Sorted (coins : Coins) : Prop := coins.Pairwise fun a b => stringLt a.denom b.denom = true

theorem isValidAfter_iff (low : String) (l : Coins) :
    isValidAfter low l = true ↔
      (∀ c ∈ l, validateDenom c.denom = true ∧ 0 < c.amount ∧ stringLt low c.denom = true) ∧
        Sorted l := by
  induction l generalizing low with
  | nil => simp [isValidAfter, Sorted]
  | cons c rest ih =>
    simp only [isValidAfter, Bool.and_eq_true, ih, Sorted, List.pairwise_cons, List.mem_cons,
      forall_eq_or_imp, Coin.isPositive, decide_eq_true_eq]
    constructor
    · rintro ⟨⟨⟨hd, hlt⟩, hp⟩, hall, hs⟩
      exact ⟨⟨⟨hd, hp, hlt⟩, fun x hx => ⟨(hall x hx).1, (hall x hx).2.1,
        stringLt_trans hlt (hall x hx).2.2⟩⟩, fun x hx => (hall x hx).2.2, hs⟩
    · rintro ⟨⟨⟨hd, hp, hlt⟩, hall⟩, hlow, hs⟩
      exact ⟨⟨⟨hd, hlt⟩, hp⟩, fun x hx => ⟨(hall x hx).1, (hall x hx).2.1, hlow x hx⟩, hs⟩

/-- `Coins.IsValid` is: valid denominations, positive amounts, strictly ordered. -/
theorem isValid_iff (l : Coins) :
    l.isValid = true ↔ (∀ c ∈ l, validateDenom c.denom = true ∧ 0 < c.amount) ∧ Sorted l := by
  cases l with
  | nil => simp [isValid, Sorted]
  | cons c rest =>
    simp only [isValid, Bool.and_eq_true, isValidAfter_iff, Sorted, List.pairwise_cons,
      List.mem_cons, forall_eq_or_imp, Coin.isPositive, decide_eq_true_eq]
    exact ⟨fun ⟨⟨hd, hp⟩, hall, hs⟩ => ⟨⟨⟨hd, hp⟩, fun x hx => ⟨(hall x hx).1, (hall x hx).2.1⟩⟩,
        fun x hx => (hall x hx).2.2, hs⟩,
      fun ⟨⟨⟨hd, hp⟩, hall⟩, hlow, hs⟩ => ⟨⟨hd, hp⟩, fun x hx => ⟨(hall x hx).1, (hall x hx).2, hlow x hx⟩, hs⟩⟩

theorem amount_nonneg_of_isValid {coins : Coins} (h : coins.isValid = true) :
    ∀ c ∈ coins, 0 ≤ c.amount :=
  fun c hc => (((isValid_iff coins).1 h).1 c hc).2.le

theorem mem_removeZeroCoins {c : Coin} {l : Coins} (h : c ∈ removeZeroCoins l) : c ∈ l :=
  (List.mem_filter.1 h).1

theorem forall_mem_consNonZero {Q : Coin → Prop} {x : Coin} {l : Coins} (hx : Q x)
    (hl : ∀ c ∈ l, Q c) : ∀ c ∈ consNonZero x l, Q c := by
  unfold consNonZero
  split_ifs
  · exact hl
  · exact List.forall_mem_cons.2 ⟨hx, hl⟩

/-- A property of coins that `Coin.Add` keeps holds of every coin of a sum of
coins that have it. -/
theorem safeAdd_forall (Q : Coin → Prop) (hQ : ∀ {a b c : Coin}, Q a → Q b → a.add b = .ok c → Q c) :
    ∀ (as bs : Coins) {r : Coins}, safeAdd as bs = .ok r →
      (∀ c ∈ as, Q c) → (∀ c ∈ bs, Q c) → ∀ c ∈ r, Q c
  | [], bs, r, h, _, hb => by
    cases h; exact fun c hc => hb c (mem_removeZeroCoins hc)
  | a :: as, bs, r, h, ha, hb => by
    induction bs generalizing r with
    | nil => cases h; exact fun c hc => ha c (mem_removeZeroCoins hc)
    | cons b bs ihb =>
      obtain ⟨ha1, ha2⟩ := List.forall_mem_cons.1 ha
      obtain ⟨hb1, hb2⟩ := List.forall_mem_cons.1 hb
      rcases safeAdd_cons_cons h with ⟨-, r', hr', rfl⟩ | ⟨-, res, r', hres, hr', rfl⟩ | ⟨-, r', hr', rfl⟩
      · exact forall_mem_consNonZero ha1 (safeAdd_forall Q hQ as (b :: bs) hr' ha2 hb)
      · exact forall_mem_consNonZero (hQ ha1 hb1 hres) (safeAdd_forall Q hQ as bs hr' ha2 hb2)
      · exact forall_mem_consNonZero hb1 (ihb _ hr' hb2)

/-- Every denomination of a sum is the denomination of a coin of a summand. -/
theorem safeAdd_denom (P : String → Prop) {as bs r : Coins} (h : safeAdd as bs = .ok r)
    (ha : ∀ c ∈ as, P c.denom) (hb : ∀ c ∈ bs, P c.denom) : ∀ c ∈ r, P c.denom :=
  safeAdd_forall (P ·.denom) (fun ha _ h => by dsimp only at ha ⊢; rw [(Coin.add_eq_ok h).2.1]; exact ha) as bs h ha hb

/-- A sum of coins with non-negative amounts has non-negative amounts. -/
theorem add_nonneg {as bs r : Coins} (h : as.add bs = .ok r) (ha : ∀ c ∈ as, 0 ≤ c.amount)
    (hb : ∀ c ∈ bs, 0 ≤ c.amount) : ∀ c ∈ r, 0 ≤ c.amount :=
  safeAdd_forall (0 ≤ ·.amount) (fun ha hb h => by
    dsimp only at ha hb ⊢; rw [(Coin.add_eq_ok h).2.2]; omega) as bs h ha hb

theorem Sorted.nodup_denoms {l : Coins} (h : l.Sorted) : (l.map (·.denom)).Nodup :=
  List.pairwise_map.2 (h.imp stringLt_ne)

/-- On distinct denominations the total of one is the amount of at most one coin. -/
theorem amountSum_lt {l : Coins} {bound : Int} (hnd : (l.map (·.denom)).Nodup) (hb : 0 < bound)
    (h : ∀ c ∈ l, c.amount < bound) (denom : String) : l.amountSum denom < bound := by
  induction l with
  | nil => simpa using hb
  | cons c cs ih =>
    simp only [List.map_cons, List.nodup_cons, List.mem_map] at hnd
    rw [amountSum_cons]
    split_ifs with hd
    · rw [amountSum_eq_zero fun x hx he => hnd.1 ⟨x, hx, he.trans hd.symm⟩, add_zero]
      exact h c (List.mem_cons_self _ _)
    · simpa using ih hnd.2 fun x hx => h x (List.mem_cons_of_mem _ hx)

theorem Sorted.removeZeroCoins {l : Coins} (h : l.Sorted) : (removeZeroCoins l).Sorted :=
  h.sublist (List.filter_sublist _)

theorem Sorted.consNonZero {x : Coin} {l : Coins} (h : l.Sorted)
    (hx : ∀ c ∈ l, stringLt x.denom c.denom = true) : (consNonZero x l).Sorted := by
  unfold Coins.consNonZero
  split_ifs
  · exact h
  · exact List.pairwise_cons.2 ⟨hx, h⟩

/-- `Coins.Add` of two ordered lists is ordered. -/
theorem safeAdd_sorted :
    ∀ (as bs : Coins) {r : Coins}, safeAdd as bs = .ok r → as.Sorted → bs.Sorted → r.Sorted
  | [], bs, r, h, _, hb => by
    cases h; exact hb.removeZeroCoins
  | a :: as, bs, r, h, ha, hb => by
    induction bs generalizing r with
    | nil => cases h; exact ha.removeZeroCoins
    | cons b bs ihb =>
      have ha' := List.pairwise_cons.1 ha
      have hb' := List.pairwise_cons.1 hb
      rcases safeAdd_cons_cons h with ⟨hab, r', hr', rfl⟩ | ⟨hab, res, r', hres, hr', rfl⟩ |
        ⟨hba, r', hr', rfl⟩
      · refine (safeAdd_sorted as (b :: bs) hr' ha'.2 hb).consNonZero ?_
        refine safeAdd_denom (stringLt a.denom · = true) hr' ha'.1 ?_
        simp only [List.mem_cons, forall_eq_or_imp]
        exact ⟨hab, fun c hc => stringLt_trans hab (hb'.1 c hc)⟩
      · refine (safeAdd_sorted as bs hr' ha'.2 hb'.2).consNonZero ?_
        rw [(Coin.add_eq_ok hres).2.1]
        exact safeAdd_denom (stringLt a.denom · = true) hr' ha'.1 (hab ▸ hb'.1)
      · refine (ihb _ hr' hb'.2).consNonZero ?_
        refine safeAdd_denom (stringLt b.denom · = true) hr' ?_ hb'.1
        simp only [List.mem_cons, forall_eq_or_imp]
        exact ⟨hba, fun c hc => stringLt_trans hba (ha'.1 c hc)⟩

end Coins

end DeflationaryBank
