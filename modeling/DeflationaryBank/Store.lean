import Mathlib.Algebra.Order.BigOperators.Group.List
import Mathlib.Algebra.Order.Ring.Int

/-!
# Prefix stores

A `prefix.Store` of the bank's KV store maps a key to one encoded amount, and
every bank setter deletes the key instead of writing a zero ("Bank invariants
require to not store zero balances"): absence reads as zero. The model keeps the
entries as a list whose keys are unique, the newest write first; iteration
follows the list. `put` is the setters' write-or-delete.
-/

namespace DeflationaryBank

/-- A prefix store: each key at most once. -/
structure KVStore (κ : Type) [DecidableEq κ] where
  entries : List (κ × Int)
  nodup : (entries.map Prod.fst).Nodup

namespace KVStore

variable {κ : Type} [DecidableEq κ]

theorem nodup_filter (l : List (κ × Int)) (h : (l.map Prod.fst).Nodup) (key : κ) :
    ((l.filter fun e => e.1 ≠ key).map Prod.fst).Nodup :=
  h.sublist ((List.filter_sublist _).map _)

/-- The store with nothing in it. -/
def empty : KVStore κ := ⟨[], List.nodup_nil⟩

/-- `Get`: the stored value, `none` when the key is absent. -/
def get (st : KVStore κ) (key : κ) : Option Int :=
  (st.entries.find? (·.1 = key)).map (·.2)

/-- The stored value read as an amount: an absent key reads as zero. -/
def amount (st : KVStore κ) (key : κ) : Int := (st.get key).getD 0

/-- `Delete`. -/
def delete (st : KVStore κ) (key : κ) : KVStore κ :=
  ⟨st.entries.filter (·.1 ≠ key), nodup_filter _ st.nodup key⟩

/-- `Set`: the new entry in front, the key's old entry removed. -/
def set (st : KVStore κ) (key : κ) (value : Int) : KVStore κ :=
  ⟨(key, value) :: st.entries.filter (·.1 ≠ key), by
    refine List.nodup_cons.2 ⟨?_, nodup_filter _ st.nodup key⟩
    simp [List.mem_filter]⟩

/-- What every bank setter does: delete on zero, set otherwise. -/
def put (st : KVStore κ) (key : κ) (value : Int) : KVStore κ :=
  if value = 0 then st.delete key else st.set key value

/-- The sum over the stored entries of a weight of each entry. -/
def sumBy (st : KVStore κ) (w : κ → Int → Int) : Int :=
  (st.entries.map fun e => w e.1 e.2).sum

/-- Every stored value is positive. -/
def AllPos (st : KVStore κ) : Prop := ∀ e ∈ st.entries, 0 < e.2

theorem ext {s t : KVStore κ} (h : s.entries = t.entries) : s = t := by
  cases s; cases t; cases h; rfl

/-! ## Reads after writes -/

theorem find?_filter_ne (l : List (κ × Int)) (key k : κ) (hk : k ≠ key) :
    (l.filter fun e => e.1 ≠ key).find? (·.1 = k) = l.find? (·.1 = k) := by
  rw [List.find?_filter]
  congr 1
  funext e
  by_cases h : e.1 = k
  · simp [h, hk]
  · simp [h]

theorem find?_filter_self (l : List (κ × Int)) (key : κ) :
    (l.filter fun e => e.1 ≠ key).find? (·.1 = key) = none := by
  simp [List.find?_eq_none, List.mem_filter]

@[simp] theorem get_empty (key : κ) : (empty : KVStore κ).get key = none := rfl

@[simp] theorem get_delete_self (st : KVStore κ) (key : κ) : (st.delete key).get key = none := by
  simp [get, delete, find?_filter_self]

theorem get_delete_ne (st : KVStore κ) {key k : κ} (hk : k ≠ key) :
    (st.delete key).get k = st.get k := by
  simp only [get, delete]
  rw [find?_filter_ne _ _ _ hk]

@[simp] theorem get_set_self (st : KVStore κ) (key : κ) (v : Int) :
    (st.set key v).get key = some v := by
  simp [get, set]

theorem get_set_ne (st : KVStore κ) {key k : κ} (v : Int) (hk : k ≠ key) :
    (st.set key v).get k = st.get k := by
  simp only [get, set]
  rw [List.find?_cons_of_neg _ (by simpa using fun h => hk h.symm), find?_filter_ne _ _ _ hk]

theorem get_put (st : KVStore κ) (key k : κ) (v : Int) :
    (st.put key v).get k = if k = key then (if v = 0 then none else some v) else st.get k := by
  by_cases hk : k = key
  · subst hk; by_cases hv : v = 0 <;> simp [put, hv]
  · by_cases hv : v = 0 <;> simp [put, hv, hk, get_delete_ne, get_set_ne]

@[simp] theorem amount_empty (key : κ) : (empty : KVStore κ).amount key = 0 := rfl

theorem amount_put (st : KVStore κ) (key k : κ) (v : Int) :
    (st.put key v).amount k = if k = key then v else st.amount k := by
  by_cases hk : k = key
  · by_cases hv : v = 0 <;> simp [amount, get_put, hk, hv]
  · simp [amount, get_put, hk]

@[simp] theorem amount_put_self (st : KVStore κ) (key : κ) (v : Int) :
    (st.put key v).amount key = v := by
  simp [amount_put]

theorem amount_put_ne (st : KVStore κ) {key k : κ} (v : Int) (hk : k ≠ key) :
    (st.put key v).amount k = st.amount k := by
  simp [amount_put, hk]

/-- Writing back the amount a key holds changes no amount. -/
@[simp] theorem amount_put_amount (st : KVStore κ) (key k : κ) :
    (st.put key (st.amount key)).amount k = st.amount k := by
  rw [amount_put]; split <;> simp_all


/-! ## Sums -/

theorem sumBy_set (st : KVStore κ) (w : κ → Int → Int) (key : κ) (v : Int) :
    (st.set key v).sumBy w = (st.delete key).sumBy w + w key v := by
  simp [sumBy, set, delete, add_comm]

/-- Removing a key takes its one entry out of the sum. -/
theorem sumBy_delete (st : KVStore κ) (w : κ → Int → Int) (key : κ)
    (hw : w key 0 = 0) : st.sumBy w = (st.delete key).sumBy w + w key (st.amount key) := by
  obtain ⟨l, hl⟩ := st
  simp only [sumBy, delete, amount, get]
  induction l with
  | nil => simp [hw]
  | cons e l ih =>
    obtain ⟨k, v⟩ := e
    simp only [List.map_cons, List.nodup_cons, List.mem_map] at hl
    by_cases hk : k = key
    · subst hk
      have hnone : (l.filter fun e => e.1 ≠ k) = l :=
        List.filter_eq_self.2 fun e he => by simpa using fun h => hl.1 ⟨e, he, h⟩
      rw [List.filter_cons_of_neg (by simp), hnone, List.find?_cons_of_pos _ (by simp)]
      simp [add_comm]
    · rw [List.filter_cons_of_pos (by simpa using hk), List.find?_cons_of_neg _ (by simpa using hk)]
      simp only [List.map_cons, List.sum_cons, ih hl.2]
      omega

theorem sumBy_put (st : KVStore κ) (w : κ → Int → Int) (key : κ) (v : Int)
    (hw : w key 0 = 0) :
    (st.put key v).sumBy w = st.sumBy w - w key (st.amount key) + w key v := by
  have hd := sumBy_delete st w key hw
  by_cases hv : v = 0
  · simp only [put, hv, if_true, hw]; omega
  · simp only [put, hv, if_false, sumBy_set]; omega

/-! ## Positivity -/

@[simp] theorem allPos_empty : (empty : KVStore κ).AllPos := by simp [AllPos, empty]

theorem AllPos.delete {st : KVStore κ} (h : st.AllPos) (key : κ) : (st.delete key).AllPos :=
  fun e he => h e (List.mem_filter.1 he).1

/-- A write of a non-negative amount keeps every stored value positive. -/
theorem AllPos.put {st : KVStore κ} (h : st.AllPos) (key : κ) {v : Int} (hv : 0 ≤ v) :
    (st.put key v).AllPos := by
  unfold KVStore.put
  split
  · exact h.delete key
  · intro e he
    rcases List.mem_cons.1 he with rfl | he
    · show 0 < v; omega
    · exact h e (List.mem_filter.1 he).1

theorem AllPos.set {st : KVStore κ} (h : st.AllPos) (key : κ) {v : Int} (hv : 0 < v) :
    (st.set key v).AllPos := by
  intro e he
  rcases List.mem_cons.1 he with rfl | he
  · exact hv
  · exact h e (List.mem_filter.1 he).1

theorem AllPos.amount_nonneg {st : KVStore κ} (h : st.AllPos) (key : κ) : 0 ≤ st.amount key := by
  unfold amount get
  cases hf : st.entries.find? (·.1 = key) with
  | none => simp
  | some e => simpa using (h e (List.mem_of_find?_eq_some hf)).le

/-- A weight that is non-negative on positive values sums to at least its value
at any one key. -/
theorem AllPos.le_sumBy {st : KVStore κ} (h : st.AllPos) {w : κ → Int → Int} (hw0 : ∀ k, w k 0 = 0)
    (hw : ∀ k v, 0 ≤ v → 0 ≤ w k v) (key : κ) : w key (st.amount key) ≤ st.sumBy w := by
  rw [sumBy_delete st w key (hw0 key)]
  have : 0 ≤ (st.delete key).sumBy w := List.sum_nonneg fun x hx => by
    obtain ⟨e, he, rfl⟩ := List.mem_map.1 hx
    exact hw _ _ (h e (List.mem_filter.1 he).1).le
  omega

end KVStore

end DeflationaryBank
