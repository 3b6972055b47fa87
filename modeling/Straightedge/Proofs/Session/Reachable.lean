import Straightedge.Proofs.Inversion
import Straightedge.Proofs.Registry.Index
import Straightedge.Script.Evaluation

/-! # Runs of operations

What an operation does to a session is to enact the changes of its plan, one after another, until
one of them fails. This is the step from which all runs are made.

* **`Session.enact`**: changes made one after another; an error keeps those made before it.
* **`Session.perform_of_ok`**: an operation that can be planned enacts its plan.
* **`Session.after`**, **`Session.Reachable`**: the sessions that operations lead to.
* **`Session.forall_after_take_iff`**: from one operation to all operations of a run.
* **`Session.Reachable.indexed`**: in all of them the index of the registry is right.
* **`Script.exists_run_session`**: scripts lead to no others. -/

namespace Straightedge

variable {α : Type}

/-! ## Changes one after another -/

namespace Session

/-- Makes changes one after another: whether all of them were made, and the session with those that
were. -/
def enact (s : Session α) : List (Change α) → Except ConstructionError Unit × Session α
  | [] => (.ok (), s)
  | c :: cs =>
    match s.change c with
    | .ok s' => s'.enact cs
    | .error e => (.error e, s)

@[simp] theorem enact_nil (s : Session α) : s.enact [] = (.ok (), s) := rfl

/-- A change that is made leads on to the next one. -/
theorem enact_cons_of_ok {s s' : Session α} {c : Change α} (h : s.change c = .ok s')
    (cs : List (Change α)) : s.enact (c :: cs) = s'.enact cs := by
  simp only [enact, h]

/-- A change that fails is the last one. -/
theorem enact_cons_of_error {s : Session α} {c : Change α} {e : ConstructionError}
    (h : s.change c = .error e) (cs : List (Change α)) : s.enact (c :: cs) = (.error e, s) := by
  simp only [enact, h]

/-- Making a change leaves the changed session, or the error and the session as it was. -/
theorem run_make (s : Session α) (c : Change α) :
    Id.run ((make c).run.run s) = match s.change c with
      | .ok s' => (.ok (), s')
      | .error e => (.error e, s) := by
  -- `make` looks at the session once; the match on its change is moved to the front
  rw [make, run_bind_run]
  show Id.run (StateT.run (ExceptT.run (match s.change c with
    | .ok s' => set s'
    | .error e => throw e : Construct α Unit)) s) = _
  cases s.change c <;> rfl

/-- Making the changes of a list is enacting them. -/
theorem run_forM_make (s : Session α) (cs : List (Change α)) :
    Id.run ((cs.forM make).run.run s) = s.enact cs := by
  induction cs generalizing s with
  | nil => rfl
  | cons c cs ih =>
    rw [show (c :: cs).forM make = (make c >>= fun _ => cs.forM make) from rfl,
      run_bind_run, run_make]
    cases hc : s.change c with
    | ok s' => rw [enact_cons_of_ok hc]; exact ih s'
    | error e => rw [enact_cons_of_error hc]

/-- What every change keeps, a run of changes keeps, whether it ends early or not. -/
theorem enact_induction {motive : Session α → Prop}
    (hstep : ∀ s s' c, motive s → s.change c = .ok s' → motive s') {s : Session α} (h : motive s)
    (cs : List (Change α)) : motive (s.enact cs).2 := by
  induction cs generalizing s with
  | nil => exact h
  | cons c cs ih =>
    cases hc : s.change c with
    | ok s' => rw [enact_cons_of_ok hc]; exact ih (hstep s s' c h hc)
    | error e => rw [enact_cons_of_error hc]; exact h

/-! ## What a change keeps -/

/-- No change touches the settings. -/
theorem settings_change {s s' : Session α} {c : Change α} (h : s.change c = .ok s') :
    s'.settings = s.settings := by
  cases c <;> simp only [change, bind_eq_ok_iff, pure_eq_ok_iff] at h
  case add => obtain ⟨r, -, rfl⟩ := h; rfl
  case replace => obtain ⟨r, -, rfl⟩ := h; rfl
  case rename => obtain ⟨r, -, rfl⟩ := h; rfl
  case setTitle => rw [h]
  case setLimits => rw [h]
  case showAxes => rw [h]

/-- **Every change keeps the index of the registry right.** -/
theorem indexed_change {s s' : Session α} {c : Change α} (hs : s.registry.Indexed)
    (h : s.change c = .ok s') : s'.registry.Indexed := by
  cases c <;> simp only [change, bind_eq_ok_iff, pure_eq_ok_iff] at h
  case add => obtain ⟨r, hr, rfl⟩ := h; exact hs.insert hr
  case replace => obtain ⟨r, hr, rfl⟩ := h; exact hs.update hr
  case rename => obtain ⟨r, hr, rfl⟩ := h; exact hs.rename hr
  case setTitle => rw [h]; exact hs
  case setLimits => rw [h]; exact hs
  case showAxes => rw [h]; exact hs

/-! ## Operations -/

variable [Scalar α] [Numeral α]

/-- An operation is planned first; the plan is carried out, or its error is the answer. -/
theorem perform_eq (s : Session α) (op : Operation α) :
    s.perform op = match op.plan s with
      | .ok plan => Id.run ((carryOut plan).run.run s)
      | .error e => (.error e, s) := by
  rw [perform, Operation.perform, run_bind_run]
  show Id.run (StateT.run (ExceptT.run (match op.plan s with
    | .ok plan => carryOut plan
    | .error e => throw e : Construct α (Value α))) s) = _
  cases op.plan s <;> rfl

/-- An operation that cannot be planned leaves the session as it is. -/
theorem perform_of_error {s : Session α} {op : Operation α} {e : ConstructionError}
    (h : op.plan s = .error e) : s.perform op = (.error e, s) := by
  rw [perform_eq, h]

/-- An operation that can be planned enacts the changes of its plan and gives back its value. -/
theorem perform_of_ok {s : Session α} {op : Operation α} {plan : Plan α}
    (h : op.plan s = .ok plan) :
    s.perform op = ((s.enact plan.changes).1.map fun _ => plan.value,
      (s.enact plan.changes).2) := by
  rw [perform_eq, h]
  show Id.run ((plan.changes.forM make >>= fun _ => pure plan.value :
    Construct α (Value α)).run.run s) = _
  rw [run_bind_run, run_forM_make]
  rcases s.enact plan.changes with ⟨_ | _, _⟩ <;> rfl

/-- What every change keeps, an operation keeps. -/
theorem perform_induction {motive : Session α → Prop}
    (hstep : ∀ s s' c, motive s → s.change c = .ok s' → motive s') {s : Session α} (h : motive s)
    (op : Operation α) : motive (s.perform op).2 := by
  cases hplan : op.plan s with
  | error e => rw [perform_of_error hplan]; exact h
  | ok plan => rw [perform_of_ok hplan]; exact enact_induction hstep h plan.changes

/-- No operation touches the settings. -/
@[simp] theorem settings_perform (s : Session α) (op : Operation α) :
    (s.perform op).2.settings = s.settings :=
  perform_induction (motive := fun s' => s'.settings = s.settings)
    (fun _ _ _ h hc => (settings_change hc).trans h) rfl op

/-! ## Reachable sessions -/

/-- The session after operations one after another, failed ones included. -/
def after (s : Session α) : List (Operation α) → Session α
  | [] => s
  | op :: ops => (s.perform op).2.after ops

@[simp] theorem after_nil (s : Session α) : s.after [] = s := rfl

@[simp] theorem after_cons (s : Session α) (op : Operation α) (ops : List (Operation α)) :
    s.after (op :: ops) = (s.perform op).2.after ops := rfl

/-- A run of operations may be cut anywhere. -/
theorem after_append (s : Session α) (first second : List (Operation α)) :
    s.after (first ++ second) = (s.after first).after second := by
  induction first generalizing s with
  | nil => rfl
  | cons op first ih => exact ih _

/-- No run touches the settings. -/
@[simp] theorem settings_after (s : Session α) (ops : List (Operation α)) :
    (s.after ops).settings = s.settings := by
  induction ops generalizing s with
  | nil => rfl
  | cons op ops ih => rw [after_cons, ih, settings_perform]

/-- One more operation of a run. -/
theorem after_take_succ (s : Session α) {ops : List (Operation α)} {k : Nat} {op : Operation α}
    (h : ops[k]? = some op) :
    s.after (ops.take (k + 1)) = ((s.after (ops.take k)).perform op).2 := by
  rw [List.take_add_one, h, after_append]
  rfl

/-- What every operation of a run keeps holds throughout the run. -/
theorem after_take_induction {motive : Session α → Prop} {s : Session α} (h : motive s)
    {ops : List (Operation α)}
    (hstep : ∀ k op, ops[k]? = some op → motive (s.after (ops.take k)) →
      motive ((s.after (ops.take k)).perform op).2) (k : Nat) : motive (s.after (ops.take k)) := by
  induction k with
  | zero => exact h
  | succ k ih =>
    cases hop : ops[k]? with
    | some op =>
      rw [after_take_succ s hop]
      exact hstep k op hop ih
    | none =>
      -- the run is over
      have hlength : ops.length ≤ k := List.getElem?_eq_none_iff.1 hop
      rw [List.take_of_length_le hlength] at ih
      rwa [List.take_of_length_le (Nat.le_succ_of_le hlength)]

/-- **What an operation keeps exactly under a condition holds throughout a run exactly if all
operations of the run meet the condition.** -/
theorem forall_after_take_iff {P : Session α → Prop} {Q : Session α → Operation α → Prop}
    {s : Session α} (h : P s) {ops : List (Operation α)}
    (hstep : ∀ k op, P (s.after (ops.take k)) →
      (P ((s.after (ops.take k)).perform op).2 ↔ Q (s.after (ops.take k)) op)) :
    (∀ k, P (s.after (ops.take k))) ↔ ∀ k op, ops[k]? = some op → Q (s.after (ops.take k)) op := by
  constructor
  · intro hall k op hop
    exact (hstep k op (hall k)).1 (after_take_succ s hop ▸ hall (k + 1))
  · intro hall
    exact after_take_induction h fun k op hop hk => (hstep k op hk).2 (hall k op hop)

/-- **Sessions that operations lead to**, from a new session with any settings. -/
inductive Reachable : Session α → Prop
  | new (settings : Settings α) : Reachable (new settings)
  | perform {s : Session α} (h : Reachable s) (op : Operation α) : Reachable (s.perform op).2

namespace Reachable

/-- A run of operations leads from a reachable session to a reachable session. -/
theorem after {s : Session α} (h : s.Reachable) (ops : List (Operation α)) :
    (s.after ops).Reachable := by
  induction ops generalizing s with
  | nil => exact h
  | cons op ops ih => exact ih (h.perform op)

/-- Resetting a session makes it a new one. -/
theorem reset (s : Session α) : s.reset.Reachable := .new s.settings

/-- **In every reachable session the index of the registry is right.** -/
theorem indexed {s : Session α} (h : s.Reachable) : s.registry.Indexed := by
  induction h with
  | new settings => exact Registry.indexed_empty
  | perform h op ih =>
    exact perform_induction (motive := fun s => s.registry.Indexed)
      (fun _ _ _ hs hc => indexed_change hs hc) ih op

end Reachable

end Session

/-! ## Scripts -/

namespace Script

variable [Scalar α] [Numeral α]

/-- A command performs one operation or leaves the session as it is. -/
theorem exists_attempt_session (s : Session α) (bindings : Bindings α) (c : ResolvedCommand α) :
    ∃ ops, (attempt s bindings c).2 = s.after ops := by
  unfold attempt
  split
  · exact ⟨[], rfl⟩
  · rename_i op _
    refine ⟨[op], ?_⟩
    rw [Session.after_cons, Session.after_nil]
    split <;> simp only [*]

/-- **A script leads where operations lead.** -/
theorem exists_run_session (s : Session α) (bindings : Bindings α)
    (commands : List (ResolvedCommand α)) :
    ∃ ops, (run s bindings commands).session = s.after ops := by
  induction commands generalizing s bindings with
  | nil => exact ⟨[], rfl⟩
  | cons c cs ih =>
    obtain ⟨first, hfirst⟩ := exists_attempt_session s bindings c
    unfold run
    -- the first command either gives a value to bind or an error
    split
    · rename_i value s' hattempt
      obtain ⟨rest, hrest⟩ := ih s' (bindResult bindings c.command value)
      refine ⟨first ++ rest, ?_⟩
      rw [Session.after_append, ← hfirst, hattempt]
      exact hrest
    · rename_i e s' hattempt
      split
      -- a strict run ends here
      · exact ⟨first, by rw [← hfirst, hattempt]⟩
      · obtain ⟨rest, hrest⟩ := ih s' bindings
        refine ⟨first ++ rest, ?_⟩
        rw [Session.after_append, ← hfirst, hattempt]
        exact hrest

end Script

/-- An evaluation leaves a session that operations lead to from a new one. -/
theorem Session.exists_evaluate_session [Scalar α] [Numeral α] (s : Session α) (source : String)
    (limits : Option (AxisLimits α)) :
    ∃ ops, (s.evaluate source limits).2 = s.reset.after ops := by
  unfold evaluate
  split
  · exact ⟨[], rfl⟩
  · rename_i commands _
    obtain ⟨ops, hops⟩ := Script.exists_run_session s.reset [] commands
    refine ⟨ops, ?_⟩
    rw [← hops]
    simp only
    split <;> rfl

end Straightedge
