import Straightedge.Chart.Basic
import Straightedge.Proofs.Session.Reachable

/-! # Operations under different policies

The policy for failing commands is kept among the settings of a session, but only scripts look at
it: operations and charts are the same under either policy.

* **`Session.withPolicy`**: the session under another policy.
* **`Session.perform_withPolicy`**: an operation gives the same answer and leaves the same session.
* **`Session.render_withPolicy`**: the chart is the same. -/

namespace Straightedge.Session

variable {α : Type}

/-- The session under another policy for failing commands. -/
def withPolicy (s : Session α) (policy : ErrorPolicy) : Session α :=
  { s with settings := { s.settings with onError := policy } }

@[simp] theorem registry_withPolicy (s : Session α) (policy : ErrorPolicy) :
    (s.withPolicy policy).registry = s.registry := rfl

@[simp] theorem onError_withPolicy (s : Session α) (policy : ErrorPolicy) :
    (s.withPolicy policy).settings.onError = policy := rfl

@[simp] theorem withPolicy_withPolicy (s : Session α) (first second : ErrorPolicy) :
    (s.withPolicy first).withPolicy second = s.withPolicy second := rfl

@[simp] theorem reset_withPolicy (s : Session α) (policy : ErrorPolicy) :
    (s.withPolicy policy).reset = s.reset.withPolicy policy := rfl

/-! ## Changes -/

/-- A change is made under either policy or under none. -/
theorem change_withPolicy (s : Session α) (policy : ErrorPolicy) (c : Change α) :
    (s.withPolicy policy).change c = (s.change c).map (·.withPolicy policy) := by
  -- the registry alone decides whether a change can be made
  cases c with
  | add name figure =>
    show (s.registry.insert name figure >>= _) = Except.map _ (s.registry.insert name figure >>= _)
    cases s.registry.insert name figure <;> rfl
  | replace name figure =>
    show (s.registry.update name _ >>= _) = Except.map _ (s.registry.update name _ >>= _)
    cases s.registry.update name _ <;> rfl
  | rename old new =>
    show (s.registry.rename old new >>= _) = Except.map _ (s.registry.rename old new >>= _)
    cases s.registry.rename old new <;> rfl
  | setTitle title => rfl
  | setLimits limits => rfl
  | showAxes visible => rfl

/-- So is a run of changes. -/
theorem enact_withPolicy (s : Session α) (policy : ErrorPolicy) (cs : List (Change α)) :
    (s.withPolicy policy).enact cs = ((s.enact cs).1, (s.enact cs).2.withPolicy policy) := by
  induction cs generalizing s with
  | nil => rfl
  | cons c cs ih =>
    have hpolicy := change_withPolicy s policy c
    cases hc : s.change c with
    | ok s' =>
      rw [hc] at hpolicy
      rw [enact_cons_of_ok hc, enact_cons_of_ok hpolicy]
      exact ih s'
    | error e =>
      rw [hc] at hpolicy
      rw [enact_cons_of_error hc, enact_cons_of_error hpolicy]

/-! ## Operations and charts -/

variable [Scalar α] [Numeral α]

/-- No plan looks at the policy. -/
theorem plan_withPolicy (s : Session α) (policy : ErrorPolicy) (op : Operation α) :
    op.plan (s.withPolicy policy) = op.plan s := by
  cases op <;> rfl

/-- **An operation gives the same answer and leaves the same session under either policy.** -/
theorem perform_withPolicy (s : Session α) (policy : ErrorPolicy) (op : Operation α) :
    (s.withPolicy policy).perform op =
      ((s.perform op).1, (s.perform op).2.withPolicy policy) := by
  have hpolicy := plan_withPolicy s policy op
  cases hplan : op.plan s with
  | error e => rw [perform_of_error hplan, perform_of_error (hpolicy.trans hplan)]
  | ok plan =>
    rw [perform_of_ok hplan, perform_of_ok (hpolicy.trans hplan), enact_withPolicy]

/-- The chart is the same under either policy. -/
@[simp] theorem render_withPolicy (s : Session α) (policy : ErrorPolicy)
    (limits : Option (AxisLimits α)) :
    (s.withPolicy policy).render limits = s.render limits := rfl

end Straightedge.Session
