import DeflationaryBank.Keeper.State

/-!
# Reasoning about keeper calls

Inversion of sequencing, the two loop shapes the keeper uses (`List.forM` and
`List.foldlM`), and `Keeps`: an invariant that holds in every state a call
returns in, with a nil error or with an error. Panics abort the call and are
not returns.
-/

namespace DeflationaryBank

namespace BankM

variable {α β γ : Type} {m : BankM α} {f : α → BankM β} {s s'' : BankState}

theorem bind_eq_ok {b : β} :
    (m >>= f) s = .ok b s'' ↔ ∃ a s', m s = .ok a s' ∧ f a s' = .ok b s'' := by
  rw [bind_apply]; rcases m s with ⟨a, s'⟩ | ⟨e, s'⟩ | p <;> simp [and_assoc]

theorem bind_eq_err {e : BankError} :
    (m >>= f) s = .err e s'' ↔ m s = .err e s'' ∨ ∃ a s', m s = .ok a s' ∧ f a s' = .err e s'' := by
  rw [bind_apply]; rcases m s with ⟨a, s'⟩ | ⟨e', s'⟩ | p <;> simp [and_assoc]

@[simp] theorem liftPanic_eq_ok {x : Except Panic α} {a : α} :
    liftPanic x s = .ok a s'' ↔ x = .ok a ∧ s'' = s := by
  cases x <;> simp [liftPanic, eq_comm]

@[simp] theorem liftPanic_ne_err {x : Except Panic α} {e : BankError} : liftPanic x s ≠ .err e s'' := by
  cases x <;> simp [liftPanic]

@[simp] theorem liftPanic_eq_panic {x : Except Panic α} {p : Panic} :
    liftPanic x s = .panic p ↔ x = .error p := by
  cases x <;> simp [liftPanic]

@[simp] theorem monadLift_eq (x : Except Panic α) : (monadLift x : BankM α) = liftPanic x := rfl

@[simp] theorem orAbort_ne_err {p : Panic} {e : BankError} : orAbort m p s ≠ .err e s'' := by
  unfold orAbort; split <;> simp_all

theorem orAbort_eq_ok {p : Panic} {a : α} : orAbort m p s = .ok a s'' ↔ m s = .ok a s'' := by
  unfold orAbort; split <;> simp_all

end BankM

open BankM

theorem forM_nil' {α : Type} (f : α → BankM Unit) : List.forM [] f = pure () := rfl

theorem forM_cons' {α : Type} (f : α → BankM Unit) (x : α) (xs : List α) :
    List.forM (x :: xs) f = f x >>= fun _ => List.forM xs f := rfl

/-! ## Loops -/

section Loops

variable {α : Type}

/-- A loop whose every iteration changes a quantity `Q` by `δ` of its element
changes `Q` by the sum of `δ` over the list. -/
theorem forM_ok_additive {f : α → BankM Unit} (Q : BankState → Int) (δ : α → Int)
    (hf : ∀ x s s', f x s = .ok () s' → Q s' = Q s + δ x) :
    ∀ (xs : List α) {s s' : BankState}, xs.forM f s = .ok () s' → Q s' = Q s + (xs.map δ).sum
  | [], s, s', h => by
    simp only [forM_nil', pure_apply, Outcome.ok.injEq, true_and] at h
    subst h; simp
  | x :: xs, s, s', h => by
    rw [forM_cons'] at h
    obtain ⟨_, s1, h1, h2⟩ := bind_eq_ok.1 h
    rw [forM_ok_additive Q δ hf xs h2, hf x s s1 h1]
    simp [add_assoc]

/-- A loop whose every iteration leaves a quantity `Q` unchanged leaves it
unchanged. -/
theorem forM_ok_frame {f : α → BankM Unit} {γ : Type} (Q : BankState → γ)
    (hf : ∀ x s s', f x s = .ok () s' → Q s' = Q s) :
    ∀ (xs : List α) {s s' : BankState}, xs.forM f s = .ok () s' → Q s' = Q s
  | [], s, s', h => by
    simp only [forM_nil', pure_apply, Outcome.ok.injEq, true_and] at h
    rw [h]
  | x :: xs, s, s', h => by
    rw [forM_cons'] at h
    obtain ⟨_, s1, h1, h2⟩ := bind_eq_ok.1 h
    rw [forM_ok_frame Q hf xs h2, hf x s s1 h1]

/-- A loop returns only when every iteration returned. -/
theorem forM_ok_mem {f : α → BankM Unit} {Q : α → Prop}
    (hf : ∀ x s s', f x s = .ok () s' → Q x) :
    ∀ {xs : List α} {s s' : BankState}, xs.forM f s = .ok () s' → ∀ x ∈ xs, Q x
  | [], _, _, _ => by simp
  | x :: xs, s, s', h => by
    rw [forM_cons'] at h
    obtain ⟨_, s1, h1, h2⟩ := bind_eq_ok.1 h
    intro y hy
    rcases List.mem_cons.1 hy with rfl | hy
    · exact hf y s s1 h1
    · exact forM_ok_mem hf h2 y hy

/-- An invariant of the accumulator, the state and the elements still to come
that each iteration of a fold keeps holds when the fold returns. -/
theorem foldlM_ok_inv {β γ : Type} {f : γ → β → BankM γ} (I : γ → List β → BankState → Prop)
    (hf : ∀ acc x xs s acc' s', I acc (x :: xs) s → f acc x s = .ok acc' s' → I acc' xs s') :
    ∀ {xs : List β} {acc acc' : γ} {s s' : BankState},
      I acc xs s → xs.foldlM f acc s = .ok acc' s' → I acc' [] s'
  | [], acc, acc', s, s', hi, h => by
    simp only [List.foldlM_nil, pure_apply, Outcome.ok.injEq] at h
    obtain ⟨rfl, rfl⟩ := h
    exact hi
  | x :: xs, acc, acc', s, s', hi, h => by
    rw [List.foldlM_cons] at h
    obtain ⟨a, s1, h1, h2⟩ := bind_eq_ok.1 h
    exact foldlM_ok_inv I hf (hf acc x xs s a s1 hi h1) h2

end Loops

/-! ## Invariants of every return -/

/-- `m` keeps `P`: from a state satisfying `P`, every state `m` returns in, with a
nil error or with an error, satisfies `P`. -/
def Keeps {α : Type} (P : BankState → Prop) (m : BankM α) : Prop :=
  ∀ s, P s → (∀ a s', m s = .ok a s' → P s') ∧ (∀ e s', m s = .err e s' → P s')

namespace Keeps

variable {α β : Type} {P : BankState → Prop}

theorem pure (a : α) : Keeps P (pure a : BankM α) := fun _ hs =>
  ⟨fun _ _ h => (by cases h; exact hs), fun _ _ h => (by cases h)⟩

theorem throw (e : BankError) : Keeps P (throw e : BankM α) := fun _ hs =>
  ⟨fun _ _ h => (by cases h), fun _ _ h => (by cases h; exact hs)⟩

theorem abort (p : Panic) : Keeps P (abort p : BankM α) := fun _ _ =>
  ⟨fun _ _ h => (by cases h), fun _ _ h => (by cases h)⟩

theorem liftPanic (x : Except Panic α) : Keeps P (liftPanic x) := fun _ hs =>
  ⟨fun _ _ h => (by rw [(liftPanic_eq_ok.1 h).2]; exact hs), fun _ _ h => absurd h liftPanic_ne_err⟩

theorem modify {f : BankState → BankState} (hf : ∀ s, P s → P (f s)) : Keeps P (modify f) :=
  fun s hs => ⟨fun _ _ h => (by cases h; exact hf s hs), fun _ _ h => (by cases h)⟩

theorem ite {c : Prop} [Decidable c] {m m' : BankM α} (hm : Keeps P m) (hm' : Keeps P m') :
    Keeps P (if c then m else m') := by
  split
  · exact hm
  · exact hm'

/-- Each branch need only keep `P` under its own condition. -/
theorem ite_of {c : Prop} [Decidable c] {m m' : BankM α} (hm : c → Keeps P m)
    (hm' : ¬c → Keeps P m') : Keeps P (if c then m else m') := by
  split
  · exact hm ‹_›
  · exact hm' ‹_›

/-- The continuation need only keep `P` for the values `m` can return. -/
theorem bind_of_ok {m : BankM α} {f : α → BankM β} {Q : α → Prop} (hm : Keeps P m)
    (hq : ∀ s a s', m s = .ok a s' → Q a) (hf : ∀ a, Q a → Keeps P (f a)) : Keeps P (m >>= f) :=
  fun s hs => by
  refine ⟨fun b s'' h => ?_, fun e s'' h => ?_⟩
  · obtain ⟨a, s', h1, h2⟩ := bind_eq_ok.1 h
    exact (hf a (hq s a s' h1) s' ((hm s hs).1 a s' h1)).1 b s'' h2
  · rcases bind_eq_err.1 h with h1 | ⟨a, s', h1, h2⟩
    · exact (hm s hs).2 e s'' h1
    · exact (hf a (hq s a s' h1) s' ((hm s hs).1 a s' h1)).2 e s'' h2

theorem bind {m : BankM α} {f : α → BankM β} (hm : Keeps P m) (hf : ∀ a, Keeps P (f a)) :
    Keeps P (m >>= f) :=
  hm.bind_of_ok (Q := fun _ => True) (fun _ _ _ _ => trivial) fun a _ => hf a

theorem forM {f : β → BankM Unit} :
    ∀ {xs : List β}, (∀ x ∈ xs, Keeps P (f x)) → Keeps P (xs.forM f)
  | [], _ => Keeps.pure ()
  | x :: xs, hf => by
    rw [forM_cons']
    exact (hf x (List.mem_cons_self x xs)).bind fun _ =>
      forM fun y hy => hf y (List.mem_cons_of_mem x hy)

theorem foldlM {f : γ → β → BankM γ} :
    ∀ {xs : List β}, (∀ acc, ∀ x ∈ xs, Keeps P (f acc x)) → ∀ init : γ, Keeps P (xs.foldlM f init)
  | [], _, init => Keeps.pure init
  | x :: xs, hf, init => by
    rw [List.foldlM_cons]
    exact (hf init x (List.mem_cons_self x xs)).bind fun acc =>
      foldlM (fun acc y hy => hf acc y (List.mem_cons_of_mem x hy)) acc

theorem orAbort {m : BankM α} (hm : Keeps P m) (p : Panic) : Keeps P (orAbort m p) := fun s hs =>
  ⟨fun a s' h => (hm s hs).1 a s' (orAbort_eq_ok.1 h), fun _ _ h => absurd h orAbort_ne_err⟩

end Keeps

end DeflationaryBank
