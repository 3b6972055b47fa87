import Straightedge.Proofs.Session.Figures

/-! # Finite figures

Whether all stored positions stay finite depends on four operations only, which store a position as
they compute it. All others look positions up or check them.

* **`Session.AllFinite`**: every stored position is finite.
* **`Session.KeepsFinite`**: the position that an operation stores as it is, if any, is finite.
* **`Session.allFinite_perform_iff`**: what one operation does to finite figures.
* **`Session.allFinite_after_iff`**: when all figures of a run are finite. -/

namespace Straightedge

variable {α : Type}

/-- The positions of a registry are those of its figures. -/
theorem Registry.mem_coords {r : Registry α} {p : Coord α} :
    p ∈ r.coords ↔ ∃ entry ∈ r.toList, p ∈ entry.2.coords :=
  List.mem_flatMap

variable [Scalar α]

/-- Whether every position of a figure is finite. -/
theorem Figure.isFinite_iff {figure : Figure α} :
    figure.isFinite = true ↔ ∀ p ∈ figure.coords, p.isFinite = true :=
  List.all_eq_true

/-- Closing a ring adds no position. -/
theorem Ring.mem_close_iff {tol : Tolerance α} {vertices : List (Coord α)} {p : Coord α} :
    p ∈ close tol vertices ↔ p ∈ vertices := by
  cases vertices with
  | nil => rfl
  | cons first rest =>
    simp only [close]
    split
    · rfl
    · simp only [List.cons_append, List.mem_cons, List.mem_append, List.not_mem_nil, or_false]
      tauto

/-- A change brings in no position that is not finite. -/
def Change.Finite : Change α → Prop
  | .add _ figure => figure.isFinite = true
  | .replace _ figure => figure.isFinite = true
  | _ => True

namespace Session

/-! ## Finite sessions -/

/-- **Every stored position is finite.** -/
def AllFinite (s : Session α) : Prop := ∀ p ∈ s.registry.coords, p.isFinite = true

/-- A session is finite if its figures are. -/
theorem allFinite_iff {s : Session α} :
    s.AllFinite ↔ ∀ entry ∈ s.registry.toList, entry.2.isFinite = true := by
  constructor
  · intro h entry hentry
    rw [Figure.isFinite_iff]
    intro p hp
    exact h p (Registry.mem_coords.2 ⟨entry, hentry, hp⟩)
  · intro h p hp
    obtain ⟨entry, hentry, hp⟩ := Registry.mem_coords.1 hp
    exact Figure.isFinite_iff.1 (h entry hentry) p hp

/-- A new session has no figures. -/
theorem allFinite_new (settings : Settings α) : (new settings).AllFinite := by
  rw [allFinite_iff]
  intro entry hentry
  cases hentry

/-- Being finite is a property of each figure. -/
theorem AllFinite.each {s : Session α} (hfinite : s.AllFinite) :
    s.registry.Each fun _ figure => figure.isFinite = true :=
  allFinite_iff.1 hfinite

/-- The position that a reference denotes is finite: given positions are checked, and those of
points are stored. -/
theorem AllFinite.position [Numeral α] {s : Session α} (hfinite : s.AllFinite)
    (hs : s.registry.Indexed) {r : Reference α} {p : Coord α}
    (h : s.registry.position r = .ok p) : p.isFinite = true := by
  -- given positions are checked, points are stored, and nothing else is a position
  cases r with
  | position q =>
    simp only [Registry.position] at h
    split at h
    · rename_i hq
      cases h
      exact hq
    · cases h
  | name n =>
    simp only [Registry.position, bind_eq_ok_iff] at h
    obtain ⟨figure, hfind, h⟩ := h
    have hfigure := Figure.isFinite_iff.1 (hfinite.each.find hs hfind)
    cases figure with
    | point m =>
      cases h
      exact hfigure _ (List.mem_singleton_self _)
    | curve _ => cases h
    | label _ => cases h
  | number _ => cases h
  | direction _ => cases h

/-! ## Changes -/

/-- Changes that bring in finite positions keep all of them finite, even if one of them fails. -/
theorem AllFinite.enact {s : Session α} (hfinite : s.AllFinite) (hs : s.registry.Indexed)
    {cs : List (Change α)} (hcs : ∀ c ∈ cs, c.Finite) : (s.enact cs).2.AllFinite := by
  refine allFinite_iff.2 (hfinite.each.enact hs ?_ fun c hc => ?_)
  · intro old new figure hfigure
    rw [Figure.isFinite_iff, Figure.coords_retitle]
    exact Figure.isFinite_iff.1 hfigure
  · cases c <;> exact hcs _ hc

/-! ## Operations -/

variable [Numeral α]

/-- **The position that an operation stores as it is, if any, is finite.** -/
def KeepsFinite (s : Session α) (op : Operation α) : Prop :=
  ∀ v p, (s.perform op).1 = .ok v → op.placed s = some p → p.isFinite = true

/-- The figures that an operation adds are finite, unless it places one where it is not. -/
theorem Drawn.isFinite {s : Session α} (hfinite : s.AllFinite) (hs : s.registry.Indexed)
    {op : Operation α} (hplaced : ∀ p, op.placed s = some p → p.isFinite = true) {name : String}
    {figure : Figure α} (h : s.Drawn op name figure) : figure.isFinite = true := by
  -- wherever the positions of points and labels come from, they are finite
  have hsupplied : ∀ p, s.Supplied op p → p.isFinite = true := by
    intro p hp
    cases hp with
    | finite hp => exact hp
    | resolved hp => exact hfinite.position hs hp
    | placed hp => exact hplaced p hp
  rw [Figure.isFinite_iff]
  -- curves and copies were checked when they were made
  cases h with
  | marker h =>
    intro p hp
    obtain rfl := List.mem_singleton.1 hp
    exact hsupplied _ h
  | label h =>
    intro p hp
    obtain rfl := List.mem_singleton.1 hp
    exact hsupplied _ h
  | ruler h =>
    obtain ⟨hvertices, rfl⟩ := Curve.polyline_eq_ok_iff.1 h
    exact (Curve.requireVertices_eq_ok_iff.1 hvertices).2
  | polyline h =>
    obtain ⟨hvertices, rfl⟩ := Curve.polyline_eq_ok_iff.1 h
    exact (Curve.requireVertices_eq_ok_iff.1 hvertices).2
  | ring h =>
    obtain ⟨hvertices, rfl⟩ := Curve.ring_eq_ok_iff.1 h
    intro p hp
    exact (Curve.requireVertices_eq_ok_iff.1 hvertices).2 p (Ring.mem_close_iff.1 hp)
  | copy _ _ hmoved =>
    rw [Figure.coords_retitle]
    exact Figure.isFinite_iff.1 hmoved

/-- The position that an operation stores as it is is one of a figure that it adds. -/
theorem exists_add_of_placed {s : Session α} {op : Operation α} {plan : Plan α} {p : Coord α}
    (hplan : op.plan s = .ok plan) (hp : op.placed s = some p) :
    ∃ name figure, .add name figure ∈ plan.changes ∧ p ∈ figure.coords := by
  -- only four operations place a position as it is
  cases op <;> simp only [Operation.placed, reduceCtorEq] at hp
  case midpoint refs name =>
    simp only [Operation.plan, midpoint, bind_eq_ok_iff, pure_eq_ok_iff] at hplan
    obtain ⟨q, hq, n, -, rfl⟩ := hplan
    rw [hq] at hp
    cases hp
    exact ⟨n, _, List.mem_singleton_self _, List.mem_singleton_self _⟩
  case intersection first second name =>
    simp only [Operation.plan, intersection, bind_eq_ok_iff, pure_eq_ok_iff] at hplan
    obtain ⟨l, hl, m, hm, q, hq, n, -, rfl⟩ := hplan
    have hcrossing : s.crossing first second = .ok q :=
      bind_eq_ok_iff.2 ⟨l, hl, bind_eq_ok_iff.2 ⟨m, hm, hq⟩⟩
    rw [hcrossing] at hp
    cases hp
    exact ⟨n, _, List.mem_singleton_self _, List.mem_singleton_self _⟩
  case distance first second =>
    simp only [Operation.plan, measureDistance, bind_eq_ok_iff, pure_eq_ok_iff] at hplan
    obtain ⟨a, ha, b, hb, ruler, -, rfl⟩ := hplan
    rw [ha, hb] at hp
    cases hp
    exact ⟨_, _, List.mem_cons_of_mem _ (List.mem_singleton_self _), List.mem_singleton_self _⟩
  case angle first vertex second name =>
    simp only [Operation.plan, measureAngle, ↓ite_throw_bind_eq_ok_iff, bind_eq_ok_iff,
      pure_eq_ok_iff] at hplan
    obtain ⟨a, ha, b, hb, c, hc, -, base, -, -, -, arc, -, rfl⟩ := hplan
    rw [ha, hb, hc] at hp
    cases hp
    exact ⟨_, _, List.mem_cons_of_mem _ (List.mem_singleton_self _), List.mem_singleton_self _⟩

/-- **An operation keeps finite figures finite exactly if the position that it stores as it is, if
any, is finite.** -/
theorem allFinite_perform_iff {s : Session α} (hs : s.registry.Indexed) (hfinite : s.AllFinite)
    (op : Operation α) : (s.perform op).2.AllFinite ↔ s.KeepsFinite op := by
  -- an operation that is not planned stores nothing
  cases hplan : op.plan s with
  | error e =>
    rw [KeepsFinite, perform_of_error hplan]
    exact ⟨fun _ v p hv => (nomatch hv), fun _ => hfinite⟩
  | ok plan =>
    rw [KeepsFinite, perform_of_ok hplan]
    constructor
    · intro hafter v p _ hp
      -- the figure with the placed position is in the registry afterwards
      obtain ⟨name, figure, hadd, hmem⟩ := exists_add_of_placed hplan hp
      cases effect_of_plan hs hplan with
      | adds entries value hfree hnodup hdrawn =>
        obtain ⟨entry, hentry, heq⟩ := List.mem_map.1 hadd
        cases heq
        rw [allFinite_iff, (enact_additions entries hfree hnodup).2] at hafter
        exact Figure.isFinite_iff.1 (hafter entry (List.mem_append_right _ hentry)) p hmem
      | moves _ _ _ => simp at hadd
      | recolors _ => simp at hadd
      | renames _ _ => simp at hadd
      | entitles _ => simp at hadd
      | limits _ => simp at hadd
      | shows _ => simp at hadd
    · intro hkeeps
      refine hfinite.enact hs ?_
      cases effect_of_plan hs hplan with
      | adds entries value hfree hnodup hdrawn =>
        -- the operation succeeds, so the position that it places is finite by assumption
        have hok := (enact_additions entries hfree hnodup).1
        have hplaced : ∀ p, op.placed s = some p → p.isFinite = true :=
          fun p hp => hkeeps value p (by simp only [hok, Except.map]) hp
        intro c hc
        obtain ⟨entry, hentry, rfl⟩ := List.mem_map.1 hc
        exact (hdrawn entry hentry).isFinite hfinite hs hplaced
      | moves _ _ hmoved => simpa [Change.Finite] using hmoved
      | recolors hfind =>
        have hfigure := hfinite.each.find hs hfind
        simpa [Change.Finite, Figure.isFinite] using hfigure
      | renames _ _ => simp [Change.Finite]
      | entitles _ => simp [Change.Finite]
      | limits _ => simp [Change.Finite]
      | shows _ => simp [Change.Finite]

/-! ## Runs -/

/-- From finite figures, all sessions of a run have finite figures exactly if every operation keeps
them finite. -/
theorem allFinite_after_iff_of_allFinite {s : Session α} (hs : s.Reachable) (hfinite : s.AllFinite)
    (ops : List (Operation α)) :
    (∀ k, (s.after (ops.take k)).AllFinite) ↔
      ∀ k op, ops[k]? = some op → (s.after (ops.take k)).KeepsFinite op :=
  forall_after_take_iff hfinite fun _ op h => allFinite_perform_iff (hs.after _).indexed h op

/-- **All sessions of a run have finite figures exactly if every operation keeps them finite**, with
any settings; and scripts lead where operations lead. -/
theorem allFinite_after_iff :
    (∀ (settings : Settings α) (ops : List (Operation α)),
      (∀ k, ((new settings).after (ops.take k)).AllFinite) ↔
        ∀ k op, ops[k]? = some op → ((new settings).after (ops.take k)).KeepsFinite op) ∧
      ∀ (s : Session α) (source : String) (limits : Option (AxisLimits α)),
        ∃ ops, (s.evaluate source limits).2 = (new s.settings).after ops :=
  ⟨fun settings => allFinite_after_iff_of_allFinite (.new settings) (allFinite_new settings),
    exists_evaluate_session⟩

/-- Half-way between two equal positions far out there is no finite position: their sum is too
large. -/
theorem not_allFinite_after_midpoint :
    let far : Reference Float := .position ⟨1.7e308, 0⟩
    ¬((new .standard).after [.midpoint [far, far] none]).AllFinite := by
  intro far
  have hfar : (⟨1.7e308, 0⟩ : Coord Float).isFinite = true := by decide +kernel
  have hmiddle :
      (Straightedge.midpoint (⟨1.7e308, 0⟩ : Coord Float) ⟨1.7e308, 0⟩).isFinite = false := by
    decide +kernel
  let s : Session Float := new .standard
  let op : Operation Float := .midpoint [far, far] none
  have hplaced : op.placed s = some (Straightedge.midpoint ⟨1.7e308, 0⟩ ⟨1.7e308, 0⟩) := by
    simp only [op, far, Operation.placed, center, Registry.position, hfar]
    rfl
  obtain ⟨figure, hplan⟩ :
      ∃ figure, op.plan s = .ok (.addOne (s.registry.freshName "M") figure) := by
    simp only [op, far, Operation.plan, Session.midpoint, center, Registry.position, hfar]
    exact ⟨_, rfl⟩
  have hs : s.registry.Indexed := Registry.indexed_empty
  obtain ⟨r, -, hchange⟩ := exists_change_add figure (hs.requireFree_freshName "M")
  have hok : (s.perform op).1 = .ok (.name (s.registry.freshName "M")) := by
    rw [perform_of_ok hplan]
    simp only [Plan.addOne, enact_cons_of_ok hchange]
    rfl
  intro hfinite
  have hkeeps := (allFinite_perform_iff hs (allFinite_new .standard) op).1 hfinite
  exact absurd (hkeeps _ _ hok hplaced) (by rw [hmiddle]; exact Bool.false_ne_true)

end Session

end Straightedge
