import Straightedge.Proofs.Plane.Exact
import Straightedge.Plane.Window

/-! # Positions in windows

* **`Window.exists_bounding?`**: positions have a window around them.
* **`Window.Clears`**: a position keeps its distance from all sides of a window.
* **`Window.Contains`**: a window contains a position.
* **`Window.OnEdge`**: a position on one of the edges of a window.
* **`Window.Clears.apart`**: a position that keeps its distance coincides with none on an edge. -/

namespace Straightedge.Window

/-- Around some positions there is a window. -/
theorem exists_bounding? {α : Type} [Scalar α] {ps : List (Coord α)} (hne : ps ≠ []) :
    ∃ b, bounding? ps = some b := by
  cases ps with
  | nil => exact absurd rfl hne
  | cons p ps => exact ⟨_, bounding?_cons p ps⟩

/-- **A position keeps its distance from all four sides**, from the inside. -/
structure Clears (w : Window ℝ) (room : ℝ) (p : Coord ℝ) : Prop where
  left : w.minX + room ≤ p.x
  right : p.x + room ≤ w.maxX
  lower : w.minY + room ≤ p.y
  upper : p.y + room ≤ w.maxY

/-- **A window contains a position**, be it on one of its sides. -/
def Contains (w : Window ℝ) (p : Coord ℝ) : Prop :=
  (w.minX ≤ p.x ∧ p.x ≤ w.maxX) ∧ w.minY ≤ p.y ∧ p.y ≤ w.maxY

/-- A position on one of the four edges. -/
def OnEdge (w : Window ℝ) (p : Coord ℝ) : Prop :=
  w.Contains p ∧ ((p.x = w.minX ∨ p.x = w.maxX) ∨ p.y = w.minY ∨ p.y = w.maxY)

variable {w : Window ℝ} {p q : Coord ℝ}

theorem spansX_iff {x : ℝ} : w.spansX x = true ↔ w.minX ≤ x ∧ x ≤ w.maxX := by
  rw [spansX, Bool.and_eq_true, Exact.le_iff, Exact.le_iff]

theorem spansY_iff {y : ℝ} : w.spansY y = true ↔ w.minY ≤ y ∧ y ≤ w.maxY := by
  rw [spansY, Bool.and_eq_true, Exact.le_iff, Exact.le_iff]

/-- The standard window in numbers. -/
theorem standard_eq : (standard : Window ℝ) = ⟨-10, 10, -10, 10⟩ := by
  simp [standard, Exact.ofNat_eq]

namespace Clears

/-- A position with some room around it is in the window. -/
theorem contains {room : ℝ} (h : w.Clears room p) (hroom : 0 ≤ room) : w.Contains p :=
  ⟨⟨(le_add_of_nonneg_right hroom).trans h.left, (le_add_of_nonneg_right hroom).trans h.right⟩,
    (le_add_of_nonneg_right hroom).trans h.lower, (le_add_of_nonneg_right hroom).trans h.upper⟩

/-- **A position that keeps its distance from all sides coincides with none on an edge.** -/
theorem apart {tol : Tolerance ℝ} (h : w.Clears tol.coincidence p) (hq : w.OnEdge q) :
    tol.same p q = false := by
  rw [← Bool.not_eq_true, Exact.same_iff]
  rintro ⟨hx, hy⟩
  rw [abs_lt] at hx hy
  rcases hq.2 with (hedge | hedge) | hedge | hedge
  · linarith [h.left]
  · linarith [h.right]
  · linarith [h.lower]
  · linarith [h.upper]

end Clears

end Straightedge.Window
