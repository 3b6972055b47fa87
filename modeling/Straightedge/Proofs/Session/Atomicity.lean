import Straightedge.Binary64
import Straightedge.Proofs.Session.Additions

/-! # Failed operations change nothing

The figures of a plan are added one after another, and an error keeps the figures added before it.
No such error exists: a plan that adds several figures adds all of them.

* **`Session.Effect.enact_ok_or_single`**: plans of several changes do not fail.
* **`Session.session_perform_of_error`**: an operation that fails changes nothing.
* **`Session.perform_atomic`**: an operation does all that it planned or nothing. -/

namespace Straightedge

variable {α : Type}

namespace Session

/-- A run of changes goes on after its first part, if that was made. -/
theorem enact_append_of_ok {s : Session α} {first : List (Change α)}
    (h : (s.enact first).1 = .ok ()) (second : List (Change α)) :
    s.enact (first ++ second) = (s.enact first).2.enact second := by
  induction first generalizing s with
  | nil => rfl
  | cons c first ih =>
    cases hc : s.change c with
    | ok s' =>
      rw [enact_cons_of_ok hc] at h ⊢
      rw [List.cons_append, enact_cons_of_ok hc]
      exact ih h
    | error e =>
      rw [enact_cons_of_error hc] at h
      cases h

/-- One change that fails leaves the session as it was. -/
theorem enact_single_of_error {s : Session α} {c : Change α} {e : ConstructionError}
    (h : (s.enact [c]).1 = .error e) : (s.enact [c]).2 = s := by
  cases hc : s.change c with
  | ok s' =>
    rw [enact_cons_of_ok hc] at h
    cases h
  | error e => rw [enact_cons_of_error hc]

variable [Scalar α] [Numeral α]

/-- **A plan makes all its changes, or it has only one.** -/
theorem Effect.enact_ok_or_single {s : Session α} {op : Operation α} {plan : Plan α}
    (h : s.Effect op plan) : (s.enact plan.changes).1 = .ok () ∨ ∃ c, plan.changes = [c] := by
  cases h with
  | adds entries value hfree hnodup hdrawn => exact .inl (enact_additions entries hfree hnodup).1
  | moves _ _ _ => exact .inr ⟨_, rfl⟩
  | recolors _ => exact .inr ⟨_, rfl⟩
  | renames _ _ => exact .inr ⟨_, rfl⟩
  | entitles _ => exact .inr ⟨_, rfl⟩
  | limits _ => exact .inr ⟨_, rfl⟩
  | shows _ => exact .inr ⟨_, rfl⟩

/-- An operation that fails leaves a session with a right index as it was. -/
theorem session_perform_of_error {s : Session α} (hs : s.registry.Indexed) {op : Operation α}
    {e : ConstructionError} (h : (s.perform op).1 = .error e) : (s.perform op).2 = s := by
  cases hplan : op.plan s with
  | error e' => rw [perform_of_error hplan]
  | ok plan =>
    rw [perform_of_ok hplan] at h ⊢
    -- the value of the plan is given back unless one of its changes fails
    cases henact : (s.enact plan.changes).1 with
    | ok u => rw [henact] at h; cases h
    | error e' =>
      rcases (effect_of_plan hs hplan).enact_ok_or_single with hok | ⟨c, hc⟩
      · rw [hok] at henact; cases henact
      · rw [hc] at henact ⊢; exact enact_single_of_error henact

/-- **An operation does all that it planned or nothing.** In every session that operations lead to,
an operation that fails leaves the session as it was; and once the first change of a plan has been
made, none of the others can fail. -/
theorem perform_atomic {s : Session α} (hs : s.Reachable) (op : Operation α) :
    (∀ e, (s.perform op).1 = .error e → (s.perform op).2 = s) ∧
      ∀ plan, op.plan s = .ok plan → ∀ made next later, plan.changes = made ++ next :: later →
        made ≠ [] → (s.enact made).1 = .ok () → ∃ s', (s.enact made).2.change next = .ok s' := by
  constructor
  · intro e he
    -- an operation that is not planned makes no change
    cases hplan : op.plan s with
    | error e' => rw [perform_of_error hplan]
    | ok plan =>
      rw [perform_of_ok hplan] at he ⊢
      -- several changes are all made, so only a single one can have failed
      rcases (effect_of_plan hs.indexed hplan).enact_ok_or_single with hok | ⟨c, hc⟩
      · rw [hok] at he
        cases he
      · rw [hc] at he ⊢
        cases hone : (s.enact [c]).1 with
        | ok u => rw [hone] at he; cases he
        | error e' => exact enact_single_of_error hone
  · intro plan hplan made next later hchanges hmade hok
    rcases (effect_of_plan hs.indexed hplan).enact_ok_or_single with hall | ⟨c, hc⟩
    -- all changes are made, the next one after these too
    · rw [hchanges, enact_append_of_ok hok] at hall
      cases hnext : (s.enact made).2.change next with
      | ok s' => exact ⟨s', rfl⟩
      | error e =>
        rw [enact_cons_of_error hnext] at hall
        cases hall
    · -- a single change has none before it
      rw [hc] at hchanges
      have hlength := congrArg List.length hchanges
      have hpos := List.length_pos_iff.2 hmade
      simp only [List.length_append, List.length_cons, List.length_nil] at hlength
      omega

/-- Behind a point and a line, a segment from a point that does not exist is not drawn, and both
stay as they are; a segment from a position is drawn with its ends, once its start is. -/
theorem perform_atomic_of_unknown_point :
    let s : Session Float := (new .standard).after [.point (.position ⟨3, 4⟩) (some "P"),
      .line (.position ⟨0, 0⟩) (.position ⟨1, 0⟩) (some "AB")]
    let unknown : Operation Float := .segment (.name "A") (.number 2) (some "CD")
    let known : Operation Float := .segment (.position ⟨0, 0⟩) (.number 2) (some "CD")
    s.Reachable ∧ s.registry.names = ["P", "AB"] ∧
      (s.perform unknown).1 = .error (.notFound "A") ∧ (s.perform unknown).2 = s ∧
      ∃ start curve finish, known.plan s = .ok ⟨[start, curve, finish], .name "CD"⟩ ∧
        (s.enact [start]).1 = .ok () ∧ ∃ s', (s.enact [start]).2.change curve = .ok s' := by
  intro s unknown known
  have hs : s.Reachable := (Reachable.new .standard).after _
  have hzero : (⟨0, 0⟩ : Coord Float).isFinite = true := by decide +kernel
  obtain ⟨-, hlist⟩ := after_new_of_draws .standard (.cons (Operation.draws_point
    (p := (⟨3, 4⟩ : Coord Float)) (by decide +kernel) "P") (.cons (Operation.draws_line hzero
      (q := ⟨1, 0⟩) (by decide +kernel) "AB") .nil)) (by decide) (by decide)
  have hnames : s.registry.names = ["P", "AB"] := congrArg (List.map Prod.fst) hlist
  have hunknown : (s.perform unknown).1 = .error (.notFound "A") := by
    have hnone : s.registry.get? "A" = none := by
      refine Option.eq_none_iff_forall_ne_some.2 fun figure hfigure => ?_
      have hmem : "A" ∈ s.registry.names :=
        List.mem_map_of_mem ((hs.indexed.get?_eq_some_iff "A" figure).1 hfigure)
      rw [hnames] at hmem
      exact absurd hmem (by decide)
    rw [perform_of_error (e := .notFound "A")]
    simp only [unknown, Operation.plan, segment, Registry.position, Registry.find, hnone]
    rfl
  have hfree : s.registry.requireFree "CD" = .ok () :=
    hs.indexed.requireFree_of_not_mem (by decide) (by rw [hnames]; decide)
  obtain ⟨start, curve, finish, hplan⟩ := exists_plan_segment (x := 2) hzero
    (by decide +kernel) (by decide +kernel) hfree
  obtain ⟨herror, hlater⟩ := perform_atomic hs unknown
  -- the first of the three figures has a name that is free
  have hstart : (s.enact [.add (s.registry.freshVariant ("P_start_" ++ "CD")) start]).1 =
      .ok () := by
    obtain ⟨_, -, hchange⟩ := exists_change_add start
      (hs.indexed.requireFree_freshVariant (show "P_start_" ++ "CD" ≠ "" by decide))
    rw [enact_cons_of_ok hchange]
    rfl
  exact ⟨hs, hnames, hunknown, herror _ hunknown, _, _, _, hplan, hstart,
    (perform_atomic hs known).2 _ hplan [_] _ [_] rfl (List.cons_ne_nil _ _) hstart⟩

end Session

end Straightedge
