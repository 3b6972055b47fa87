import Mathlib.Tactic.Common

/-! # Inversion of computations that may fail

When a computation in `Except` succeeds, each of its steps does. These lemmas take such a success
apart, one step at a time.

* **`bind_eq_ok_iff`**, **`map_eq_ok_iff`**: of a sequence both parts succeed.
* **`ite_throw_bind_eq_ok_iff`**: a guard lets a computation pass that goes on as if it were not
  there.
* **`any_toOption_iff`**: a test of the value of a computation that succeeds.
* **`mapM_eq_ok_of_forall`**: computations over a list.
* **`run_bind_run`**: a sequence that changes a state besides. -/

namespace Straightedge

variable {ε α β : Type}

/-- A sequence succeeds exactly if its first part does and the second does on its value. -/
theorem bind_eq_ok_iff {x : Except ε α} {f : α → Except ε β} {b : β} :
    x >>= f = .ok b ↔ ∃ a, x = .ok a ∧ f a = .ok b := by
  cases x <;> simp [bind, Except.bind]

/-- A value is made of the value of a computation that succeeds. -/
theorem map_eq_ok_iff {x : Except ε α} {f : α → β} {b : β} :
    x.map f = .ok b ↔ ∃ a, x = .ok a ∧ f a = b := by
  cases x <;> simp [Except.map]

/-- A given value is the value. -/
theorem pure_eq_ok_iff {a b : α} : (pure a : Except ε α) = .ok b ↔ b = a := by
  simp [pure, Except.pure, eq_comm]

/-- An error that is raised is not a success. -/
theorem throw_ne_ok {e : ε} {b : α} : (throw e : Except ε α) ≠ .ok b := by
  simp [throw, throwThe, MonadExceptOf.throw]

/-- A computed value passes a test exactly if the computation succeeds with such a value. -/
theorem any_toOption_iff {x : Except ε α} {p : α → Bool} :
    x.toOption.any p = true ↔ ∃ a, x = .ok a ∧ p a = true := by
  cases x <;> simp [Except.toOption]

/-- A guard in front of a computation that succeeds lets it pass. -/
theorem ite_throw_bind_eq_ok_iff {c : Prop} [Decidable c] {e : ε} {f : β → Except ε α}
    {x : Except ε α} {b : α} :
    (if c then throw e >>= f else x) = .ok b ↔ ¬c ∧ x = .ok b := by
  split
  · simp [*, bind, Except.bind, throw, throwThe, MonadExceptOf.throw]
  · simp [*]

/-- Where each step succeeds, another computation with the same values succeeds as well. -/
theorem mapM_eq_ok_of_forall {f g : α → Except ε β} (hfg : ∀ a b, f a = .ok b → g a = .ok b)
    {as : List α} {bs : List β} (h : as.mapM f = .ok bs) : as.mapM g = .ok bs := by
  induction as generalizing bs with
  | nil => exact h
  | cons a as ih =>
    simp only [List.mapM_cons, bind_eq_ok_iff, pure_eq_ok_iff] at h ⊢
    obtain ⟨b, hb, rest, hrest, rfl⟩ := h
    exact ⟨b, hfg a b hb, rest, ih hrest, rfl⟩

/-- A computation that changes a state goes on from the state that its first part leaves, unless
that part fails. -/
theorem run_bind_run {σ : Type} (x : ExceptT ε (StateM σ) α) (f : α → ExceptT ε (StateM σ) β)
    (s : σ) :
    Id.run ((x >>= f).run.run s) = match Id.run (x.run.run s) with
      | (.ok a, s') => Id.run ((f a).run.run s')
      | (.error e, s') => (.error e, s') := by
  unfold ExceptT.run StateT.run Id.run
  simp only [bind, ExceptT.bind, ExceptT.mk, StateT.bind, ExceptT.bindCont]
  rcases x s with ⟨_ | _, _⟩ <;> rfl

end Straightedge
