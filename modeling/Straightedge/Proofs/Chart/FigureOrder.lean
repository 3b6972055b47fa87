import Straightedge.Chart.Layout
import Straightedge.Proofs.Plane.SignedZeros
import Straightedge.Proofs.Plane.Windows

/-! # The order of figures

The window of a chart is found by a walk over all positions, and of two zeros that meet at a side
the walk keeps the one that comes last. Apart from the sign of a zero the order of the figures does
not matter, whatever the positions are: very large, infinite or not numbers.

* **`Window.Same`**: windows whose sides are the same numbers.
* **`Window.places`**: where the sides of a window stand; `Window.places_bounding?` reads them off
  the positions one by one.
* **`Window.same_bounding?`**: the window around positions in two orders.
* **`Window.Same.pad`**, **`Window.Same.squared`**, **`Window.Same.override`**: the further steps
  keep windows the same.
* **`Registry.same_chartWindow`**: the window of a chart with its figures in another order. -/

namespace Straightedge

open Binary64 (rank rank_smaller rank_larger same_refl same_iff_rank)

namespace Window

/-- **Two windows are the same**: so are their sides, as numbers. -/
structure Same {α : Type} [Scalar α] (w w' : Window α) : Prop where
  minX : Scalar.Same w.minX w'.minX
  maxX : Scalar.Same w.maxX w'.maxX
  minY : Scalar.Same w.minY w'.minY
  maxY : Scalar.Same w.maxY w'.maxY

theorem same_self (w : Window Float) : w.Same w :=
  ⟨same_refl _, same_refl _, same_refl _, same_refl _⟩

/-! ## The walk over all positions -/

/-- Where the sides of a window stand. -/
def places (w : Window Float) : Window (Option (List ℤ)) :=
  ⟨rank w.minX, rank w.maxX, rank w.minY, rank w.maxY⟩

theorem same_iff_places {w w' : Window Float} : w.Same w' ↔ w.places = w'.places := by
  constructor
  · intro h
    rw [places, places, same_iff_rank.1 h.minX, same_iff_rank.1 h.maxX, same_iff_rank.1 h.minY,
      same_iff_rank.1 h.maxY]
  · intro h
    obtain ⟨hminX, hmaxX, hminY, hmaxY⟩ := Window.mk.inj h
    exact ⟨same_iff_rank.2 hminX, same_iff_rank.2 hmaxX, same_iff_rank.2 hminY,
      same_iff_rank.2 hmaxY⟩

/-- Places of sides that one more position is to lie between. -/
def reach (w : Window (Option (List ℤ))) (p : Coord Float) : Window (Option (List ℤ)) where
  minX := w.minX.merge min (rank p.x)
  maxX := w.maxX.merge max (rank p.x)
  minY := w.minY.merge min (rank p.y)
  maxY := w.maxY.merge max (rank p.y)

theorem places_ofCoord (p : Coord Float) :
    (ofCoord p).places = reach ⟨none, none, none, none⟩ p := by
  simp only [places, ofCoord, reach, Option.merge_none_left]

theorem places_extend (w : Window Float) (p : Coord Float) :
    (w.extend p).places = reach w.places p := by
  simp only [places, extend, reach, rank_smaller, rank_larger]

/-- Two positions may be reached in either order. -/
theorem reach_right_comm (w : Window (Option (List ℤ))) (p q : Coord Float) :
    reach (reach w p) q = reach (reach w q) p := by
  simp only [reach, mk.injEq]
  exact ⟨RightCommutative.right_comm .., RightCommutative.right_comm ..,
    RightCommutative.right_comm .., RightCommutative.right_comm ..⟩

/-- The walk over positions widens the places of the sides one by one. -/
theorem places_foldl_extend (ps : List (Coord Float)) (w : Window Float) :
    (ps.foldl Window.extend w).places = ps.foldl reach w.places := by
  induction ps generalizing w with
  | nil => rfl
  | cons p ps ih => rw [List.foldl_cons, List.foldl_cons, ih, places_extend]

/-- **Where the sides of the smallest window around positions stand.** -/
theorem places_bounding? {ps : List (Coord Float)} {w : Window Float}
    (h : bounding? ps = some w) : w.places = ps.foldl reach ⟨none, none, none, none⟩ := by
  cases ps with
  | nil => cases h
  | cons p ps =>
    cases h
    rw [places_foldl_extend, places_ofCoord, List.foldl_cons]

/-- **The order of positions does not matter for the smallest window around them.** -/
theorem same_bounding? {ps qs : List (Coord Float)} (h : ps.Perm qs) {w w' : Window Float}
    (hw : bounding? ps = some w) (hw' : bounding? qs = some w') : w.Same w' := by
  rw [same_iff_places, places_bounding? hw, places_bounding? hw']
  exact h.foldl_eq' (fun p _ q _ places => reach_right_comm places p q) _

/-! ## Room, equal axes and limits -/

namespace Same

variable {w w' : Window Float}

/-- Room on all sides. -/
theorem pad (h : w.Same w') (padding : Float) : (w.pad padding).Same (w'.pad padding) where
  minX := Binary64.Same.sub h.minX (same_refl padding)
  maxX := Binary64.Same.add h.maxX (same_refl padding)
  minY := Binary64.Same.sub h.minY (same_refl padding)
  maxY := Binary64.Same.add h.maxY (same_refl padding)

theorem width (h : w.Same w') : Scalar.Same w.width w'.width :=
  Binary64.Same.sub h.maxX h.minX

theorem height (h : w.Same w') : Scalar.Same w.height w'.height :=
  Binary64.Same.sub h.maxY h.minY

theorem center_x (h : w.Same w') : Scalar.Same w.center.x w'.center.x :=
  Binary64.Same.div (Binary64.Same.add h.minX h.maxX) _

theorem center_y (h : w.Same w') : Scalar.Same w.center.y w'.center.y :=
  Binary64.Same.div (Binary64.Same.add h.minY h.maxY) _

/-- Equally long axes. Which one is grown is the same in both windows. -/
theorem squared (h : w.Same w') : w.squared.Same w'.squared := by
  unfold Window.squared
  rw [Binary64.Same.lt_congr h.height h.width]
  split
  · exact {
      minX := h.minX
      maxX := h.maxX
      minY := Binary64.Same.sub h.center_y (Binary64.Same.div h.width _)
      maxY := Binary64.Same.add h.center_y (Binary64.Same.div h.width _) }
  · exact {
      minX := Binary64.Same.sub h.center_x (Binary64.Same.div h.height _)
      maxX := Binary64.Same.add h.center_x (Binary64.Same.div h.height _)
      minY := h.minY
      maxY := h.maxY }

/-- A limit in the place of a side. -/
theorem getD {x x' : Float} (h : Scalar.Same x x') (limit : Option Float) :
    Scalar.Same (limit.getD x) (limit.getD x') := by
  cases limit with
  | none => exact h
  | some y => exact same_refl y

/-- Limits in the place of sides. -/
theorem override (h : w.Same w') (limits : Option (AxisLimits Float)) :
    (AxisLimits.override limits w).Same (AxisLimits.override limits w') := by
  cases limits with
  | none => exact h
  | some l => exact ⟨getD h.minX _, getD h.maxX _, getD h.minY _, getD h.maxY _⟩

end Same

end Window

/-! ## Windows of charts -/

namespace Registry

variable {r r' : Registry Float}

/-- The window around all figures, with its room, in another order. -/
theorem same_fittedWindow (h : r.coords.Perm r'.coords) (padding : Float)
    (fallback : Window Float) :
    (r.fittedWindow padding fallback).Same (r'.fittedWindow padding fallback) := by
  unfold fittedWindow
  by_cases hnil : r.coords = []
  · have hnil' : r'.coords = [] := (hnil ▸ h).nil_eq.symm
    rw [hnil, hnil']
    exact Window.same_self fallback
  · have hnil' : r'.coords ≠ [] := fun hc => hnil (hc ▸ h).eq_nil
    obtain ⟨w, hw⟩ := Window.exists_bounding? hnil
    obtain ⟨w', hw'⟩ := Window.exists_bounding? hnil'
    rw [hw, hw']
    exact (Window.same_bounding? h hw hw').pad padding

/-- **The order of the figures does not matter for the window of a chart.** -/
theorem same_chartWindow (h : r.coords.Perm r'.coords) (padding : Float)
    (fallback : Window Float) (call session : Option (AxisLimits Float)) :
    (r.chartWindow padding fallback call session).Same
      (r'.chartWindow padding fallback call session) :=
  ((same_fittedWindow h padding fallback).squared.override call).override session

end Registry

end Straightedge
