import Straightedge.Binary64
import Straightedge.Plane.Ring

/-! # Closed rings

A ring is closed if its ends coincide within the tolerance. Closing a ring achieves that wherever a
position coincides with itself, and over binary64 numbers every finite position does.

* **`Binary64.sub_self_of_isFinite`**: a finite number differs from itself by zero.
* **`Ring.isClosed_iff`**: when a ring is closed, by its first and its last vertex;
  **`Ring.isClosed_map_range`**: the same for vertices by their numbers.
* **`Ring.isClosed_close`**: a ring is closed once it has been closed.
* **`Ring.length_close`**, **`Ring.dropLast_close`**: what closing adds, and what is left without
  the last vertex. -/

namespace Straightedge

/-! ## Positions and themselves -/

namespace Binary64

open Float.Model

/-- A finite number differs from itself by zero: both significands are the same integer. -/
theorem unpacked_sub_self (spec : Format) {x : UnpackedFloat} (hx : x.isFinite = true) :
    UnpackedFloat.sub spec x x = .zero .positive := by
  cases x with
  | notANumber => cases hx
  | infinity sign => cases hx
  | zero sign => cases sign <;> rfl
  | finite sign mantissa exponent hpos =>
    show UnpackedFloat.normalize spec (sign.apply _ - sign.apply _) _ .positive = _
    rw [Int.sub_self]
    rfl

theorem sub_self_of_isFinite {x : Float} (hx : x.isFinite = true) :
    x - x = Float.ofModel (pack (.zero .positive)) :=
  congrArg (fun y => Float.ofModel (pack y)) (unpacked_sub_self _ hx)

/-- Zero is negligible by the standard tolerance. -/
theorem negligible_sub_self {x : Float} (hx : x.isFinite = true) :
    (Tolerance.standard : Tolerance Float).negligible (x - x) = true := by
  rw [sub_self_of_isFinite hx]
  decide +kernel

/-- **A finite position coincides with itself.** -/
theorem same_self {p : Coord Float} (hp : p.isFinite = true) :
    (Tolerance.standard : Tolerance Float).same p p = true := by
  rw [Coord.isFinite, Bool.and_eq_true] at hp
  rw [Tolerance.same, negligible_sub_self hp.1, negligible_sub_self hp.2]
  rfl

end Binary64

/-! ## First and last vertices -/

namespace Ring

variable {α : Type} [Scalar α] {tol : Tolerance α} {vertices : List (Coord α)}

/-- **A ring is closed if it has several vertices, of which the last coincides with the first.** -/
theorem isClosed_iff :
    isClosed tol vertices = true ↔ 2 ≤ vertices.length ∧
      ∃ first last, vertices.head? = some first ∧ vertices.getLast? = some last ∧
        tol.same first last = true := by
  match vertices with
  | [] => simp
  | [_] => simp
  | first :: second :: rest => simp [isClosed, List.getLast?_eq_some_getLast]

/-- A ring that ends at its first vertex is closed, if that vertex coincides with itself. -/
theorem isClosed_of_head?_eq (hlength : 2 ≤ vertices.length)
    (hends : vertices.head? = vertices.getLast?)
    (hself : ∀ p ∈ vertices, tol.same p p = true) : isClosed tol vertices = true := by
  cases vertices with
  | nil => cases hlength
  | cons first rest =>
    exact isClosed_iff.2 ⟨hlength, first, first, rfl, hends.symm, hself _ (List.mem_cons_self ..)⟩

/-- **Numbered vertices are a closed ring exactly if the first and the last one coincide.** -/
theorem isClosed_map_range (tol : Tolerance α) (vertex : Nat → Coord α) {n : Nat} (hn : 2 ≤ n) :
    isClosed tol ((List.range n).map vertex) = tol.same (vertex 0) (vertex (n - 1)) := by
  have hne : n ≠ 0 := by omega
  have hfirst : ((List.range n).map vertex).head? = some (vertex 0) := by
    rw [List.head?_map, List.head?_range, if_neg hne]
    rfl
  have hlast : ((List.range n).map vertex).getLast? = some (vertex (n - 1)) := by
    rw [List.getLast?_map, List.getLast?_range, if_neg hne]
    rfl
  rw [Bool.eq_iff_iff, isClosed_iff, hfirst, hlast, List.length_map, List.length_range]
  constructor
  · rintro ⟨-, first, last, hf, hl, hsame⟩
    cases hf
    cases hl
    exact hsame
  · exact fun hsame => ⟨hn, _, _, rfl, rfl, hsame⟩

/-- A closed ring stays as it is. -/
theorem close_of_isClosed (h : isClosed tol vertices = true) : close tol vertices = vertices := by
  cases vertices with
  | nil => rfl
  | cons first rest => rw [close, if_pos h]

/-- **A ring is closed once it has been closed**, if its vertices coincide with themselves. -/
theorem isClosed_close (hne : vertices ≠ []) (hself : ∀ p ∈ vertices, tol.same p p = true) :
    isClosed tol (close tol vertices) = true := by
  cases vertices with
  | nil => exact absurd rfl hne
  | cons first rest =>
    rw [close]
    split
    · assumption
    · refine isClosed_iff.2 ⟨by simp, first, first, rfl, ?_, hself _ (List.mem_cons_self ..)⟩
      exact List.getLast?_concat ..

/-! ## The repeated vertex -/

/-- Closing adds a vertex to a ring that is not closed. -/
theorem length_close (tol : Tolerance α) (hne : vertices ≠ []) :
    (close tol vertices).length =
      if isClosed tol vertices then vertices.length else vertices.length + 1 := by
  cases vertices with
  | nil => exact absurd rfl hne
  | cons first rest =>
    rw [close]
    split
    · rfl
    · simp

/-- **A closed ring without its last vertex is the ring that was closed, opened.** -/
theorem dropLast_close : (close tol vertices).dropLast = openRing tol vertices := by
  cases vertices with
  | nil => rfl
  | cons first rest =>
    rw [close, openRing]
    split
    · rfl
    · exact List.dropLast_concat

/-- Opening takes a vertex from a ring that is closed. -/
theorem length_openRing (tol : Tolerance α) (vertices : List (Coord α)) :
    (openRing tol vertices).length =
      if isClosed tol vertices then vertices.length - 1 else vertices.length := by
  rw [openRing]
  split
  · exact List.length_dropLast
  · rfl

/-- A ring that is not closed stays as it is when it is opened. -/
theorem openRing_of_not_isClosed (h : isClosed tol vertices = false) :
    openRing tol vertices = vertices := by
  rw [openRing, h]
  rfl

/-- Opening leaves a vertex. -/
theorem openRing_ne_nil (tol : Tolerance α) (hne : vertices ≠ []) : openRing tol vertices ≠ [] := by
  rw [openRing]
  split
  · rename_i hclosed
    obtain ⟨hlength, -⟩ := isClosed_iff.1 hclosed
    rw [← List.length_pos_iff, List.length_dropLast]
    omega
  · exact hne

/-- **Every ring with a vertex has a center.** -/
theorem exists_centroid?_of_ne_nil (tol : Tolerance α) (hne : vertices ≠ []) :
    ∃ g, centroid? tol vertices = some g := by
  have hopen := openRing_ne_nil tol hne
  unfold centroid?
  cases hring : openRing tol vertices with
  | nil => exact absurd hring hopen
  | cons first rest =>
    dsimp only
    split
    · exact ⟨_, rfl⟩
    · exact ⟨_, rfl⟩

end Ring

end Straightedge
