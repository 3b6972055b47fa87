import Mathlib.Order.Bounds.Basic
import Straightedge.Proofs.Plane.Windows
import Straightedge.Chart.Layout
import Straightedge.Proofs.Session.Accesses
import Straightedge.Proofs.Session.Finiteness

/-! # Square windows

The window of a chart is found in three steps: a box around all positions, room on all sides of it,
and both axes made equally long. In exact arithmetic the steps together give a square around the
middle of the box, with a side that is read off the box.

* **`Window.Bounds`**: the smallest window around positions; `Window.bounds_bounding?` finds it.
* **`Window.around`**: the square around a position.
* **`Window.squared_pad`**: room and equal axes turn a box into the square around its middle.
* **`Window.Frames`**: the least square around the middle that leaves all positions some room.
* **`Registry.chartWindow_frames`**: the window of a chart is that square, under two layers of
  limits, whatever the order of the figures. -/

namespace Straightedge

namespace Window

/-! ## The smallest window around positions -/

/-- **The smallest window around positions**: each side touches a position and has all of them on
its inner side. -/
structure Bounds (b : Window ℝ) (ps : Set (Coord ℝ)) : Prop where
  left : IsLeast (Coord.x '' ps) b.minX
  right : IsGreatest (Coord.x '' ps) b.maxX
  lower : IsLeast (Coord.y '' ps) b.minY
  upper : IsGreatest (Coord.y '' ps) b.maxY

namespace Bounds

variable {b b' : Window ℝ} {ps : Set (Coord ℝ)}

/-- The window of a single position. -/
theorem ofCoord (p : Coord ℝ) : (ofCoord p).Bounds {p} := by
  constructor <;> rw [Set.image_singleton]
  · exact isLeast_singleton
  · exact isGreatest_singleton
  · exact isLeast_singleton
  · exact isGreatest_singleton

/-- One more position moves the sides that it lies beyond. -/
theorem extend (h : b.Bounds ps) (p : Coord ℝ) : (b.extend p).Bounds (insert p ps) := by
  constructor <;> rw [Set.image_insert_eq] <;> simp only [Window.extend]
  · rw [Exact.smaller_eq, min_comm]
    exact h.left.insert p.x
  · rw [Exact.larger_eq, max_comm]
    exact h.right.insert p.x
  · rw [Exact.smaller_eq, min_comm]
    exact h.lower.insert p.y
  · rw [Exact.larger_eq, max_comm]
    exact h.upper.insert p.y

/-- So do any number of positions, one after another. -/
theorem foldl_extend (h : b.Bounds ps) (qs : List (Coord ℝ)) :
    (qs.foldl Window.extend b).Bounds (ps ∪ {q | q ∈ qs}) := by
  induction qs generalizing b ps with
  | nil => simpa using h
  | cons q qs ih =>
    have hstep := ih (h.extend q)
    have hset : insert q ps ∪ {p | p ∈ qs} = ps ∪ {p | p ∈ q :: qs} := by
      ext p
      simp only [Set.mem_union, Set.mem_insert_iff, Set.mem_ofPred_eq, List.mem_cons]
      tauto
    rwa [hset] at hstep

/-- There is one smallest window. -/
theorem unique (h : b.Bounds ps) (h' : b'.Bounds ps) : b = b' := by
  obtain ⟨minX, maxX, minY, maxY⟩ := b
  obtain ⟨minX', maxX', minY', maxY'⟩ := b'
  obtain rfl : minX = minX' := h.left.unique h'.left
  obtain rfl : maxX = maxX' := h.right.unique h'.right
  obtain rfl : minY = minY' := h.lower.unique h'.lower
  obtain rfl : maxY = maxY' := h.upper.unique h'.upper
  rfl

end Bounds

/-- **The window that is found around positions is the smallest one.** -/
theorem bounds_bounding? {ps : List (Coord ℝ)} {b : Window ℝ} (h : bounding? ps = some b) :
    b.Bounds {p | p ∈ ps} := by
  cases ps with
  | nil => cases h
  | cons p ps =>
    rw [bounding?_cons] at h
    cases h
    have hset : {p} ∪ {q | q ∈ ps} = {q | q ∈ p :: ps} := by
      ext q
      simp only [Set.mem_union, Set.mem_singleton_iff, Set.mem_ofPred_eq, List.mem_cons]
    exact hset ▸ (Bounds.ofCoord p).foldl_extend ps

/-- **The order of the positions does not matter.** -/
theorem bounding?_perm {ps qs : List (Coord ℝ)} (h : ps.Perm qs) : bounding? ps = bounding? qs := by
  cases ps with
  | nil => rw [h.nil_eq]
  | cons p ps =>
    obtain ⟨b, hb⟩ := exists_bounding? (List.cons_ne_nil p ps)
    have hne : qs ≠ [] := by
      rintro rfl
      exact List.cons_ne_nil p ps h.eq_nil
    obtain ⟨b', hb'⟩ := exists_bounding? hne
    have hset : {q | q ∈ p :: ps} = {q | q ∈ qs} := Set.ext fun q => h.mem_iff
    have hbounds := bounds_bounding? hb
    rw [hset] at hbounds
    rw [hb, hb', hbounds.unique (bounds_bounding? hb')]

/-! ## The square around the middle -/

/-- The square of the given side around a position. -/
def around {α : Type} [Scalar α] (c : Coord α) (side : α) : Window α :=
  let half := side / Scalar.ofNat 2
  ⟨c.x - half, c.x + half, c.y - half, c.y + half⟩

theorem around_eq (c : Coord ℝ) (side : ℝ) :
    around c side = ⟨c.x - side / 2, c.x + side / 2, c.y - side / 2, c.y + side / 2⟩ := by
  have htwo : (Scalar.ofNat 2 : ℝ) = 2 := Nat.cast_ofNat
  rw [around, htwo]

theorem width_eq (w : Window ℝ) : w.width = w.maxX - w.minX := rfl

theorem height_eq (w : Window ℝ) : w.height = w.maxY - w.minY := rfl

theorem center_x (w : Window ℝ) : w.center.x = (w.minX + w.maxX) / 2 := by
  show (w.minX + w.maxX) / ((2 : ℕ) : ℝ) = _
  rw [Nat.cast_ofNat]

theorem center_y (w : Window ℝ) : w.center.y = (w.minY + w.maxY) / 2 := by
  show (w.minY + w.maxY) / ((2 : ℕ) : ℝ) = _
  rw [Nat.cast_ofNat]

@[simp] theorem width_around (c : Coord ℝ) (side : ℝ) : (around c side).width = side := by
  rw [width_eq, around_eq]
  ring

@[simp] theorem height_around (c : Coord ℝ) (side : ℝ) : (around c side).height = side := by
  rw [height_eq, around_eq]
  ring

@[simp] theorem center_around (c : Coord ℝ) (side : ℝ) : (around c side).center = c := by
  ext
  · rw [center_x, around_eq]
    ring
  · rw [center_y, around_eq]
    ring

/-- Room on both sides makes an axis longer by twice as much. -/
theorem width_pad (w : Window ℝ) (padding : ℝ) : (w.pad padding).width = w.width + 2 * padding := by
  show w.maxX + padding - (w.minX - padding) = w.maxX - w.minX + 2 * padding
  ring

theorem height_pad (w : Window ℝ) (padding : ℝ) :
    (w.pad padding).height = w.height + 2 * padding := by
  show w.maxY + padding - (w.minY - padding) = w.maxY - w.minY + 2 * padding
  ring

/-- The same room on both sides leaves the middle where it is. -/
theorem center_pad (w : Window ℝ) (padding : ℝ) : (w.pad padding).center = w.center := by
  ext
  · rw [center_x, center_x, pad]
    show (w.minX - padding + (w.maxX + padding)) / 2 = (w.minX + w.maxX) / 2
    ring
  · rw [center_y, center_y, pad]
    show (w.minY - padding + (w.maxY + padding)) / 2 = (w.minY + w.maxY) / 2
    ring

/-- **A window with equally long axes is the square around its middle** whose side is the longer
one. -/
theorem squared_eq (w : Window ℝ) : w.squared = around w.center (max w.width w.height) := by
  have hleft : w.minX = w.center.x - w.width / 2 := by rw [center_x, width_eq]; ring
  have hright : w.maxX = w.center.x + w.width / 2 := by rw [center_x, width_eq]; ring
  have hlower : w.minY = w.center.y - w.height / 2 := by rw [center_y, height_eq]; ring
  have hupper : w.maxY = w.center.y + w.height / 2 := by rw [center_y, height_eq]; ring
  have htwo : (Scalar.ofNat 2 : ℝ) = 2 := Nat.cast_ofNat
  unfold squared
  split
  · rename_i hlt
    rw [Exact.lt_iff] at hlt
    rw [max_eq_left hlt.le, around_eq, ← hleft, ← hright, htwo]
  · rename_i hlt
    rw [Exact.lt_iff, not_lt] at hlt
    rw [max_eq_right hlt, around_eq, ← hlower, ← hupper, htwo]

/-- **Room and equal axes turn a box into the square around its middle.** -/
theorem squared_pad (b : Window ℝ) (padding : ℝ) :
    (b.pad padding).squared = around b.center (max b.width b.height + 2 * padding) := by
  rw [squared_eq, center_pad, width_pad, height_pad, max_add_add_right]

/-! ## Room around positions -/

/-- **A window frames positions**, whose smallest window is `b`: it is a square around the middle of
`b` that leaves all of them some room, and no smaller such square does. -/
structure Frames (w b : Window ℝ) (ps : Set (Coord ℝ)) (room : ℝ) : Prop where
  square : w.width = w.height
  clears : ∀ p ∈ ps, w.Clears room p
  centered : w.center = b.center
  side : w.width = max b.width b.height + 2 * room
  least : ∀ w' : Window ℝ, w'.width = w'.height → w'.center = b.center →
    (∀ p ∈ ps, w'.Clears room p) → w.width ≤ w'.width

variable {b : Window ℝ} {ps : Set (Coord ℝ)}

/-- Positions within a box keep their distance from the square around it. -/
theorem Bounds.clears_around (h : b.Bounds ps) (room : ℝ) {p : Coord ℝ} (hp : p ∈ ps) :
    (around b.center (max b.width b.height + 2 * room)).Clears room p := by
  have hleft : b.minX ≤ p.x := h.left.2 ⟨p, hp, rfl⟩
  have hright : p.x ≤ b.maxX := h.right.2 ⟨p, hp, rfl⟩
  have hlower : b.minY ≤ p.y := h.lower.2 ⟨p, hp, rfl⟩
  have hupper : p.y ≤ b.maxY := h.upper.2 ⟨p, hp, rfl⟩
  have hwidth : b.maxX - b.minX ≤ max b.width b.height := le_max_left _ _
  have hheight : b.maxY - b.minY ≤ max b.width b.height := le_max_right _ _
  constructor <;> simp only [around_eq, center_x, center_y] <;> linarith

/-- A window that leaves all positions some room is longer than their box by twice as much, on both
axes. -/
theorem Bounds.add_room_le (h : b.Bounds ps) {w : Window ℝ} {room : ℝ}
    (hw : ∀ p ∈ ps, w.Clears room p) :
    b.width + 2 * room ≤ w.width ∧ b.height + 2 * room ≤ w.height := by
  -- the sides of the box touch positions
  obtain ⟨left, hleft, hminX⟩ := h.left.1
  obtain ⟨right, hright, hmaxX⟩ := h.right.1
  obtain ⟨lower, hlower, hminY⟩ := h.lower.1
  obtain ⟨upper, hupper, hmaxY⟩ := h.upper.1
  have h₁ := (hw left hleft).left
  have h₂ := (hw right hright).right
  have h₃ := (hw lower hlower).lower
  have h₄ := (hw upper hupper).upper
  rw [width_eq, height_eq, width_eq, height_eq, ← hminX, ← hmaxX, ← hminY, ← hmaxY]
  constructor <;> linarith

/-- **The square around a box frames the positions within it.** -/
theorem Bounds.frames_around (h : b.Bounds ps) (room : ℝ) :
    (around b.center (max b.width b.height + 2 * room)).Frames b ps room where
  square := by rw [width_around, height_around]
  clears := fun _ hp => h.clears_around room hp
  centered := center_around _ _
  side := width_around _ _
  least := by
    intro w hsquare _ hclears
    obtain ⟨hwidth, hheight⟩ := h.add_room_le hclears
    rw [← hsquare] at hheight
    rw [width_around, ← max_add_add_right]
    exact max_le hwidth hheight

end Window

/-! ## The window of a chart -/

/-- A figure whose curves have vertices has a position. -/
theorem Figure.TwoVertices.coords_ne_nil {α : Type} {figure : Figure α} (h : figure.TwoVertices) :
    figure.coords ≠ [] := by
  cases figure with
  | point m => exact List.cons_ne_nil _ _
  | label l => exact List.cons_ne_nil _ _
  | curve c =>
    intro hnil
    have hlength : 2 ≤ c.vertices.length := h
    rw [show c.vertices = [] from hnil] at hlength
    cases hlength

/-- **What stands in the place of a side that was computed**: the limit of the session if it has
one, else that of the call if it has one, else the side itself. -/
def AxisLimits.chosen {α : Type} (session call : Option (AxisLimits α))
    (side : AxisLimits α → Option α) (computed : α) : α :=
  ((session.bind side).or (call.bind side)).getD computed

/-- Two layers of limits choose every side on its own. -/
theorem AxisLimits.override_override {α : Type} (session call : Option (AxisLimits α))
    (w : Window α) :
    override session (override call w) =
      ⟨chosen session call minX w.minX, chosen session call maxX w.maxX,
        chosen session call minY w.minY, chosen session call maxY w.maxY⟩ := by
  -- a side of an outer layer that is not given leaves that of the inner one
  have hside : ∀ outer inner : Option α, ∀ x : α,
      outer.getD (inner.getD x) = (outer.or inner).getD x := by
    intro outer inner x
    cases outer <;> rfl
  cases session with
  | none => cases call <;> rfl
  | some own =>
    cases call with
    | none =>
      simp only [override, applyTo, chosen, Option.bind_some, Option.bind_none, Option.or_none]
    | some given => simp only [override, applyTo, chosen, Option.bind_some, hside]

namespace Registry

/-- A registry with figures has positions. -/
theorem coords_ne_nil {r : Registry ℝ} (hne : r.toList ≠ [])
    (hvertices : ∀ entry ∈ r.toList, entry.2.TwoVertices) : r.coords ≠ [] := by
  obtain ⟨entry, hentry⟩ := List.exists_mem_of_ne_nil _ hne
  obtain ⟨p, hp⟩ := List.exists_mem_of_ne_nil _ (hvertices entry hentry).coords_ne_nil
  exact List.ne_nil_of_mem (mem_coords.2 ⟨entry, hentry, hp⟩)

/-- **The window of a chart frames its figures.** Around any figures, whose curves have vertices as
all curves that are drawn do, and with any padding: without limits the window is the square around
the middle of the smallest window of all positions, just large enough to keep them the padding away
from all four sides. The order of the figures does not matter. Under limits each side is that of the
session if it has one, else that of the call if it has one, else that of this square. -/
theorem chartWindow_frames {r : Registry ℝ} (hne : r.toList ≠ [])
    (hvertices : ∀ entry ∈ r.toList, entry.2.TwoVertices) (padding : ℝ) (fallback : Window ℝ) :
    let ps := {p | ∃ entry ∈ r.toList, p ∈ entry.2.coords}
    ∃ b w, b.Bounds ps ∧ w.Frames b ps padding ∧ r.chartWindow padding fallback none none = w ∧
      (∀ r' : Registry ℝ, r'.toList.Perm r.toList → ∀ call session,
        r'.chartWindow padding fallback call session =
          r.chartWindow padding fallback call session) ∧
      ∀ call session, r.chartWindow padding fallback call session =
        { minX := AxisLimits.chosen session call AxisLimits.minX w.minX
          maxX := AxisLimits.chosen session call AxisLimits.maxX w.maxX
          minY := AxisLimits.chosen session call AxisLimits.minY w.minY
          maxY := AxisLimits.chosen session call AxisLimits.maxY w.maxY } := by
  intro ps
  obtain ⟨b, hb⟩ := Window.exists_bounding? (coords_ne_nil hne hvertices)
  have hbounds : b.Bounds ps := by
    have hset : ps = {p | p ∈ r.coords} := Set.ext fun p => mem_coords.symm
    rw [hset]
    exact Window.bounds_bounding? hb
  have hsquared : (r.fittedWindow padding fallback).squared =
      .around b.center (max b.width b.height + 2 * padding) := by
    rw [fittedWindow, hb]
    exact Window.squared_pad b padding
  refine ⟨b, _, hbounds, hbounds.frames_around padding, hsquared, ?_, ?_⟩
  · intro r' hperm call session
    have hcoords : r'.coords.Perm r.coords := hperm.flatMap_right _
    rw [chartWindow, chartWindow, fittedWindow, fittedWindow, Window.bounding?_perm hcoords]
  · intro call session
    rw [chartWindow, hsquared, AxisLimits.override_override]

/-- Two points four apart on the horizontal axis and one on the vertical one, with padding one, are
shown in a square of side six around their middle. -/
theorem chartWindow_frames_of_two_points :
    let entries : Array (String × Figure ℝ) :=
      #[("A", .dot ⟨0, 0⟩ "red"), ("B", .dot ⟨4, 1⟩ "red")]
    let r : Registry ℝ := ⟨entries, indexOf entries⟩
    r.toList ≠ [] ∧ (∀ entry ∈ r.toList, entry.2.TwoVertices) ∧
      (r.chartWindow 1 .standard none none).width = 6 ∧
      (r.chartWindow 1 .standard none none).center = ⟨2, 1 / 2⟩ := by
  intro entries r
  have hne : r.toList ≠ [] := List.cons_ne_nil _ _
  have hvertices : ∀ entry ∈ r.toList, entry.2.TwoVertices := by
    simp only [r, entries, toList, List.forall_mem_cons]
    exact ⟨trivial, trivial, List.forall_mem_nil _⟩
  obtain ⟨b, w, hbounds, hframes, rfl, -⟩ := chartWindow_frames hne hvertices 1 .standard
  -- the box of the two points is found by its sides
  have hcoords : r.coords = [⟨0, 0⟩, ⟨4, 1⟩] := rfl
  have hset : {p | ∃ entry ∈ r.toList, p ∈ entry.2.coords} = {⟨0, 0⟩, ⟨4, 1⟩} := by
    ext p
    rw [Set.mem_ofPred_eq, ← mem_coords, hcoords]
    simp
  have hbox : Window.Bounds ⟨0, 4, 0, 1⟩ ({⟨0, 0⟩, ⟨4, 1⟩} : Set (Coord ℝ)) := by
    constructor
    · exact ⟨⟨⟨0, 0⟩, by simp⟩, by rintro _ ⟨p, rfl | rfl, rfl⟩ <;> norm_num⟩
    · exact ⟨⟨⟨4, 1⟩, by simp⟩, by rintro _ ⟨p, rfl | rfl, rfl⟩ <;> norm_num⟩
    · exact ⟨⟨⟨0, 0⟩, by simp⟩, by rintro _ ⟨p, rfl | rfl, rfl⟩ <;> norm_num⟩
    · exact ⟨⟨⟨4, 1⟩, by simp⟩, by rintro _ ⟨p, rfl | rfl, rfl⟩ <;> norm_num⟩
  rw [hset] at hbounds
  obtain rfl := hbounds.unique hbox
  refine ⟨hne, hvertices, ?_, ?_⟩
  · rw [hframes.side, Window.width_eq, Window.height_eq]
    norm_num
  · rw [hframes.centered]
    ext
    · rw [Window.center_x]
      norm_num
    · rw [Window.center_y]
      norm_num

end Registry

end Straightedge
