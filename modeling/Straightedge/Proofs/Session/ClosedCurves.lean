import Straightedge.Proofs.Plane.Rings
import Straightedge.Proofs.Session.Figures

/-! # Closed curves

A ring is closed when it is drawn. A map then moves its vertices one by one, and two ends that
coincide within the tolerance need not have images that do: whether closed curves stay closed is
decided by the moves. Ends that are one and the same position have one and the same image, so rings
that are drawn with such ends stay closed for good.

* **`Figure.EndsMeet`**, **`Session.AllClosed`**: closed curves end where they start.
* **`Session.KeepsClosed`**: the ring that an operation moves, if any, has ends that meet again.
* **`Session.allClosed_perform_iff`**: what one operation does to closed curves.
* **`Figure.Sealed`**, **`Session.DrawsSealed`**: rings whose ends are one position.
* **`Session.allClosed_after_iff`**: when all closed curves of a run are closed. -/

namespace Straightedge

variable {α : Type} [Scalar α]

/-! ## Ends of figures -/

namespace Figure

/-- **A closed curve ends where it starts**, within the tolerance. -/
def EndsMeet (tol : Tolerance α) : Figure α → Prop
  | .curve c => c.closed = true → Ring.isClosed tol c.vertices = true
  | _ => True

/-- The ends of a closed curve are one position. -/
def Sealed : Figure α → Prop
  | .curve c => c.closed = true → c.vertices.head? = c.vertices.getLast?
  | _ => True

section

variable {tol : Tolerance α} {figure : Figure α}

@[simp] theorem endsMeet_retitle (old new : String) :
    (figure.retitle old new).EndsMeet tol ↔ figure.EndsMeet tol := by
  cases figure <;> rfl

@[simp] theorem endsMeet_recolor (color : String) :
    (figure.recolor color).EndsMeet tol ↔ figure.EndsMeet tol := by
  cases figure <;> rfl

omit [Scalar α] in
@[simp] theorem sealed_retitle (old new : String) :
    (figure.retitle old new).Sealed ↔ figure.Sealed := by
  cases figure <;> rfl

omit [Scalar α] in
@[simp] theorem sealed_recolor (color : String) :
    (figure.recolor color).Sealed ↔ figure.Sealed := by
  cases figure <;> rfl

/-- One position has one image. -/
theorem Sealed.map (h : figure.Sealed) (f : Affine α) : (figure.map f).Sealed := by
  cases figure with
  | point _ => trivial
  | label _ => trivial
  | curve c =>
    intro hclosed
    show (c.vertices.map f.apply).head? = (c.vertices.map f.apply).getLast?
    rw [List.head?_map, List.getLast?_map, h hclosed]

/-- The moved ends of a ring meet if they are one position and nothing is lost on the way. -/
theorem Sealed.endsMeet_map (h : figure.Sealed) (hmeet : figure.EndsMeet tol) {f : Affine α}
    (hself : ∀ p : Coord α, p.isFinite = true → tol.same p p = true)
    (hfinite : (figure.map f).isFinite = true) : (figure.map f).EndsMeet tol := by
  cases figure with
  | point _ => trivial
  | label _ => trivial
  | curve c =>
    intro hclosed
    have hlength : 2 ≤ c.vertices.length := (Ring.isClosed_iff.1 (hmeet hclosed)).1
    refine Ring.isClosed_of_head?_eq (by simpa [Figure.map] using hlength)
      (h.map f hclosed) fun p hp => hself p ?_
    exact List.all_eq_true.1 hfinite p hp

end

end Figure

namespace Session

/-! ## Sessions with closed curves -/

/-- **All closed curves end where they start**, within the tolerance of the session. -/
def AllClosed (s : Session α) : Prop :=
  s.registry.Each fun _ figure => figure.EndsMeet s.settings.tolerance

/-- In all rings the ends are one position. -/
def AllSealed (s : Session α) : Prop := s.registry.Each fun _ figure => figure.Sealed

variable [Numeral α]

/-- **The ring that an operation moves, if any, has ends that meet again.** -/
def KeepsClosed (s : Session α) (op : Operation α) : Prop :=
  ∀ v element f c, (s.perform op).1 = .ok v → op.motion? s = some (element, f) →
    s.registry.find element = .ok (.curve c) → c.closed = true →
    Ring.isClosed s.settings.tolerance (c.vertices.map f.apply) = true

/-- The rings that an operation draws, not as copies, have ends that are one position. -/
def DrawsSealed (s : Session α) (op : Operation α) : Prop :=
  ∀ plan name figure, op.plan s = .ok plan → op.motion? s = none →
    .add name figure ∈ plan.changes → figure.Sealed

section

variable {s : Session α} {op : Operation α}

/-- A moved figure is in the registry afterwards, in its place or as a copy. -/
theorem exists_mem_of_moved (hs : s.registry.Indexed) {v : Value α}
    (hok : (s.perform op).1 = .ok v) {element : String} {f : Affine α}
    (hmotion : op.motion? s = some (element, f)) {figure : Figure α}
    (hfind : s.registry.find element = .ok figure) :
    (figure.map f).isFinite = true ∧ ∃ entry ∈ (s.perform op).2.registry.toList,
      entry.2 = figure.map f ∨ ∃ name, entry.2 = (figure.map f).retitle element name := by
  cases hplan : op.plan s with
  | error e =>
    rw [perform_of_error hplan] at hok
    cases hok
  | ok plan =>
    obtain ⟨copyName, htransform⟩ := exists_transform_of_motion hmotion hplan
    obtain ⟨_, hfind', hfinite, hcopy⟩ := transform_eq_ok_iff.1 htransform
    cases hfind.symm.trans hfind'
    refine ⟨hfinite, ?_⟩
    cases copyName with
    | some target =>
      obtain ⟨hfree, rfl⟩ := hcopy
      obtain ⟨r, hinsert, hperform⟩ := exists_perform_addOne hplan hfree
      rw [hperform, Registry.toList_insert hinsert]
      exact ⟨_, List.mem_append_right _ (List.mem_singleton_self _), .inr ⟨target, rfl⟩⟩
    | none =>
      subst hcopy
      rw [perform_of_ok hplan] at hok ⊢
      cases hchange : s.change (.replace element (figure.map f)) with
      | error e =>
        rw [enact_cons_of_error hchange] at hok
        cases hok
      | ok s' =>
        rw [enact_cons_of_ok hchange, enact_nil]
        simp only [change, bind_eq_ok_iff, pure_eq_ok_iff] at hchange
        obtain ⟨r, hupdate, rfl⟩ := hchange
        exact ⟨_, hs.mem_toList_update hfind hupdate, .inl rfl⟩

/-- The closed curves that an operation adds are closed, unless it moves a ring whose ends do not
meet again. -/
theorem Drawn.endsMeet
    (hself : ∀ p : Coord α, p.isFinite = true → s.settings.tolerance.same p p = true)
    (hmoved : ∀ element figure f, op.motion? s = some (element, f) →
      s.registry.find element = .ok figure → (figure.map f).EndsMeet s.settings.tolerance)
    {name : String} {figure : Figure α} (h : s.Drawn op name figure) :
    figure.EndsMeet s.settings.tolerance := by
  cases h with
  | marker _ => trivial
  | label _ => trivial
  | ruler h =>
    obtain ⟨-, rfl⟩ := Curve.polyline_eq_ok_iff.1 h
    rintro ⟨⟩
  | polyline h =>
    obtain ⟨-, rfl⟩ := Curve.polyline_eq_ok_iff.1 h
    rintro ⟨⟩
  | ring h =>
    obtain ⟨hvertices, rfl⟩ := Curve.ring_eq_ok_iff.1 h
    obtain ⟨hlength, hfinite⟩ := Curve.requireVertices_eq_ok_iff.1 hvertices
    intro _
    refine Ring.isClosed_close ?_ fun p hp => hself p (hfinite p hp)
    rintro rfl
    cases hlength
  | copy hmotion hfind _ =>
    rw [Figure.endsMeet_retitle]
    exact hmoved _ _ _ hmotion hfind

/-- **An operation keeps closed curves closed exactly if the ring that it moves, if any, has ends
that meet again.** -/
theorem allClosed_perform_iff (hs : s.registry.Indexed)
    (hself : ∀ p : Coord α, p.isFinite = true → s.settings.tolerance.same p p = true)
    (hclosed : s.AllClosed) (op : Operation α) :
    (s.perform op).2.AllClosed ↔ s.KeepsClosed op := by
  constructor
  · -- the moved ring is in the registry afterwards
    intro hafter v element f c hok hmotion hfind hc
    obtain ⟨-, entry, hentry, hmoved⟩ := exists_mem_of_moved hs hok hmotion hfind
    have hmeet := hafter entry hentry
    rw [settings_perform] at hmeet
    obtain hmoved | ⟨name, hmoved⟩ := hmoved
    · rw [hmoved] at hmeet
      exact hmeet hc
    · rw [hmoved, Figure.endsMeet_retitle] at hmeet
      exact hmeet hc
  · intro hkeeps
    cases hanswer : (s.perform op).1 with
    | error e =>
      rw [session_perform_of_error hs hanswer]
      exact hclosed
    | ok v =>
      have hmoved : ∀ element figure f, op.motion? s = some (element, f) →
          s.registry.find element = .ok figure →
          (figure.map f).EndsMeet s.settings.tolerance := by
        intro element figure f hmotion hfind
        cases figure with
        | point _ => trivial
        | label _ => trivial
        | curve c => exact hkeeps v element f c hanswer hmotion hfind
      rw [AllClosed, settings_perform]
      exact hclosed.perform hs (by simp) (by simp)
        (fun _ _ _ _ _ hdrawn => hdrawn.endsMeet hself hmoved) hmoved

/-! ## Rings whose ends are one position -/

/-- Moving and copying keeps the ends of a ring one position, so only drawing matters. -/
theorem AllSealed.perform (hsealed : s.AllSealed) (hs : s.registry.Indexed)
    (hdraws : s.DrawsSealed op) : (s.perform op).2.AllSealed := by
  refine Registry.Each.perform hsealed hs (by simp) (by simp) ?_ fun _ _ f _ hfind =>
    (hsealed.find hs hfind).map f
  intro plan hplan name figure hadd _
  cases hmotion : op.motion? s with
  | none => exact hdraws plan name figure hplan hmotion hadd
  | some moved =>
    -- a transform adds nothing but a moved copy
    obtain ⟨element, f⟩ := moved
    obtain ⟨copyName, htransform⟩ := exists_transform_of_motion hmotion hplan
    obtain ⟨original, hfind, -, hcopy⟩ := transform_eq_ok_iff.1 htransform
    cases copyName with
    | none =>
      subst hcopy
      simp at hadd
    | some target =>
      obtain ⟨-, rfl⟩ := hcopy
      cases List.mem_singleton.1 hadd
      exact (Figure.sealed_retitle element name).2 ((hsealed.find hs hfind).map f)

/-- A moved ring has ends that meet again if they are one position. -/
theorem AllSealed.keepsClosed (hsealed : s.AllSealed) (hs : s.registry.Indexed)
    (hself : ∀ p : Coord α, p.isFinite = true → s.settings.tolerance.same p p = true)
    (hclosed : s.AllClosed) : s.KeepsClosed op := by
  intro v element f c hok hmotion hfind hc
  obtain ⟨hfinite, -⟩ := exists_mem_of_moved hs hok hmotion hfind
  exact (hsealed.find hs hfind).endsMeet_map (hclosed.find hs hfind) hself hfinite hc

end

/-! ## Runs -/

omit [Numeral α] in
/-- A new session has no figures. -/
theorem allClosed_new (settings : Settings α) : (new settings).AllClosed := Registry.each_empty

/-- **All closed curves of a run are closed exactly if every ring that is moved has ends that meet
again**, by the standard tolerance and whatever the other settings are. This is so if every ring is
drawn with ends that are one position. -/
theorem allClosed_after_iff (settings : Settings Float) (ops : List (Operation Float)) :
    let start : Session Float := new { settings with tolerance := .standard }
    ((∀ k, (start.after (ops.take k)).AllClosed) ↔
        ∀ k op, ops[k]? = some op → (start.after (ops.take k)).KeepsClosed op) ∧
      ((∀ k op, ops[k]? = some op → (start.after (ops.take k)).DrawsSealed op) →
        ∀ k, (start.after (ops.take k)).AllClosed) := by
  intro start
  have hs : ∀ k, (start.after (ops.take k)).registry.Indexed :=
    fun k => ((Reachable.new _).after _).indexed
  have hself : ∀ k (p : Coord Float), p.isFinite = true →
      (start.after (ops.take k)).settings.tolerance.same p p = true := by
    intro k p hp
    rw [settings_after]
    exact Binary64.same_self hp
  have hstep : ∀ k op, (start.after (ops.take k)).AllClosed →
      (((start.after (ops.take k)).perform op).2.AllClosed ↔
        (start.after (ops.take k)).KeepsClosed op) :=
    fun k op hclosed => allClosed_perform_iff (hs k) (hself k) hclosed op
  refine ⟨forall_after_take_iff (allClosed_new _) hstep, fun hdraws k => ?_⟩
  -- the invariant is that all rings are closed with ends that are one position
  refine (after_take_induction (motive := fun s => s.AllClosed ∧ s.AllSealed)
    ⟨allClosed_new _, Registry.each_empty⟩ (fun k op hop ⟨hclosed, hsealed⟩ => ?_) k).1
  exact ⟨(hstep k op hclosed).2 (hsealed.keepsClosed (hs k) (hself k) hclosed),
    hsealed.perform (hs k) (hdraws k op hop)⟩

/-- Finite positions given as references denote themselves. -/
theorem positions_map_position (r : Registry α) {ps : List (Coord α)}
    (hfinite : ∀ p ∈ ps, p.isFinite = true) : r.positions (ps.map .position) = .ok ps := by
  induction ps with
  | nil => rfl
  | cons p ps ih =>
    rw [List.forall_mem_cons] at hfinite
    have hrest := ih hfinite.2
    rw [Registry.positions] at hrest ⊢
    rw [List.map_cons, List.mapM_cons, hrest, Registry.position, if_pos hfinite.1]
    rfl

/-- A polygon through a closed ring of finite positions has just these vertices. -/
theorem plan_polygon_of_isClosed {s : Session α} {ring : List (Coord α)} (hlength : 3 ≤ ring.length)
    (hfinite : ∀ p ∈ ring, p.isFinite = true)
    (hclosed : Ring.isClosed s.settings.tolerance ring = true) {name : String}
    (hfree : s.registry.requireFree name = .ok ()) :
    Operation.plan s (.polygon (ring.map .position) (some name)) =
      .ok (.addOne name (.curve ⟨ring, true, polygonStroke, some polygonFill,
        some (Tooltip.write name ["Vertices: " ++ Nat.repr ring.length])⟩)) := by
  have hname : s.nameFor (some name) "Polygon" = .ok name := by
    rw [nameFor, hfree]
    rfl
  have hrequire : Curve.requireVertices ring = .ok () :=
    Curve.requireVertices_eq_ok_iff.2 ⟨Nat.le_of_succ_le hlength, hfinite⟩
  simp only [Operation.plan, polygon, ↓ite_throw_bind_eq_ok_iff, bind_eq_ok_iff, pure_eq_ok_iff]
  refine ⟨by simpa using hlength, ring, positions_map_position _ hfinite, name, hname, _,
    Curve.ring_eq_ok_iff.2 ⟨hrequire, rfl⟩, ?_⟩
  rw [Ring.close_of_isClosed hclosed]

/-- A shifted copy of a figure is added under a free name, if all its positions are finite. -/
theorem plan_translate_of_isFinite {s : Session α} {element target : String} {figure : Figure α}
    {dx dy : α} (hdx : Scalar.isFinite dx = true) (hdy : Scalar.isFinite dy = true)
    (hfind : s.registry.find element = .ok figure)
    (hfinite : (figure.map (.translation dx dy)).isFinite = true)
    (hfree : s.registry.requireFree target = .ok ()) :
    Operation.plan s (.translate element dx dy (some target)) =
      .ok (.addOne target ((figure.map (.translation dx dy)).retitle element target)) := by
  rw [Operation.plan, translate, requireFinite, if_pos hdx, requireFinite, if_pos hdy]
  show s.transform element (.translation dx dy) (some target) = _
  rw [transform_eq_ok_iff]
  exact ⟨figure, hfind, hfinite, hfree, rfl⟩

/-- A ring whose ends are less than the tolerance apart is copied far away, where the next number is
farther than the tolerance: the ends of the copy do not meet. -/
theorem not_allClosed_after_translate :
    let ring : List (Coord Float) := [⟨0, 0⟩, ⟨1, 0⟩, ⟨0, 1⟩, ⟨9.5e-10, 0⟩]
    ¬((new .standard).after [.polygon (ring.map .position) (some "t"),
      .translate "t" 1e7 0 (some "u")]).AllClosed := by
  intro ring hall
  let s : Session Float := new .standard
  let f : Affine Float := .translation 1e7 0
  have hfinite : ∀ p ∈ ring, p.isFinite = true :=
    List.all_eq_true.1 (show ring.all Coord.isFinite = true by decide +kernel)
  have hclosed : Ring.isClosed .standard ring = true := by decide +kernel
  have hmovedFinite : (ring.map f.apply).all Coord.isFinite = true := by decide +kernel
  have hmovedOpen : Ring.isClosed .standard (ring.map f.apply) = false := by decide +kernel
  have hfree : s.registry.requireFree "t" = .ok () := Registry.requireFree_empty (by decide)
  -- the polygon is drawn with the given vertices, and copied
  have hplan := plan_polygon_of_isClosed (s := s) (by decide) hfinite hclosed hfree
  obtain ⟨r, hinsert, hpolygon⟩ := exists_perform_addOne hplan hfree
  have hfree' : r.requireFree "u" = .ok () :=
    Registry.requireFree_of_insert hinsert (by decide) (Registry.requireFree_empty (by decide))
  have hcopy := plan_translate_of_isFinite (s := { s with registry := r }) (by decide +kernel)
    (by decide +kernel) (Registry.indexed_empty.find_insert hinsert) hmovedFinite hfree'
  obtain ⟨r', hinsert', htranslate⟩ := exists_perform_addOne hcopy hfree'
  rw [after_cons, hpolygon, after_cons, htranslate, after_nil] at hall
  -- the copy is the last figure
  have hmeet := hall _ (Registry.toList_insert hinsert' ▸
    List.mem_append_right _ (List.mem_singleton_self _))
  have hring : Ring.isClosed .standard (ring.map f.apply) = true := hmeet rfl
  rw [hmovedOpen] at hring
  cases hring

end Session

end Straightedge
