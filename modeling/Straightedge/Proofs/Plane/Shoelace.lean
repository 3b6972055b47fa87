import Mathlib.Algebra.BigOperators.Group.List.Basic
import Mathlib.Algebra.BigOperators.Ring.List
import Mathlib.Tactic.FieldSimp
import Mathlib.Tactic.LinearCombination
import Straightedge.Plane.Ring
import Straightedge.Proofs.Plane.Exact
import Straightedge.Proofs.Plane.Rings

/-! # Sums over the edges of a ring

Area and center of a ring are sums over its edges, of the triangles that the edges span with the
origin. In exact arithmetic any other position may take the place of the origin: what one edge adds,
the next takes away.

* **`Ring.map_fst_edges`**, **`Ring.map_snd_edges`**: every vertex starts one edge and ends one.
* **`Ring.sum_edges_add_sub`**: a difference along the edges adds up to nothing.
* **`Ring.doubleArea`**, **`Ring.moment`**: twice the area, and six times the moment about an axis.
* **`Ring.doubleArea_eq_fan`**: the same area over the triangles that the edges span with any
  position.
* **`Ring.exists_centroid?`**: a ring whose area is not negligible has a center of gravity, which
  balances the moments.
* **`Ring.centroid?_openRing_eq_iff`**: when a vertex that is repeated twice does not matter. -/

namespace Straightedge

namespace Exact

/-- A difference, by its components. -/
theorem sub_eq (p q : Coord ℝ) : p - q = ⟨p.x - q.x, p.y - q.y⟩ := rfl

/-- A signed area, by the components of its sides. -/
theorem cross_eq (u v : Coord ℝ) : u.cross v = u.x * v.y - u.y * v.x := rfl

end Exact

namespace Ring

/-! ## Edges -/

section

variable {α : Type}

/-- Every vertex starts one edge. -/
theorem map_fst_edges (ring : List (Coord α)) : (edges ring).map Prod.fst = ring := by
  cases ring with
  | nil => rfl
  | cons first rest => exact List.map_fst_zip (by simp)

/-- Every vertex ends one edge. -/
theorem map_snd_edges (ring : List (Coord α)) : (edges ring).map Prod.snd = ring.rotate 1 := by
  cases ring with
  | nil => rfl
  | cons first rest =>
    rw [List.rotate_cons_succ, List.rotate_zero]
    exact List.map_snd_zip (by simp)

/-- An edge goes from a vertex to a vertex. -/
theorem mem_of_mem_edges {ring : List (Coord α)} {e : Coord α × Coord α} (he : e ∈ edges ring) :
    e.1 ∈ ring ∧ e.2 ∈ ring := by
  constructor
  · have hstart := List.mem_map_of_mem (f := Prod.fst) he
    rwa [map_fst_edges] at hstart
  · have hend := List.mem_map_of_mem (f := Prod.snd) he
    rwa [map_snd_edges, List.mem_rotate] at hend

end

/-! ## Sums -/

/-- A sum over edges is the sum of a list. -/
theorem sumEdges_eq (f : Coord ℝ → Coord ℝ → ℝ) (es : List (Coord ℝ × Coord ℝ)) :
    sumEdges f es = (es.map fun e => f e.1 e.2).sum := by
  rw [sumEdges, Exact.zero_eq, List.sum_eq_foldl, List.foldl_map]

/-- The starts of all edges are their ends, in another order. -/
theorem sum_fst_edges (h : Coord ℝ → ℝ) (ring : List (Coord ℝ)) :
    ((edges ring).map fun e => h e.1).sum = ((edges ring).map fun e => h e.2).sum := by
  have hstarts : (edges ring).map (fun e => h e.1) = ring.map h := by
    rw [← Function.comp_def h Prod.fst, ← List.map_map, map_fst_edges]
  have hends : (edges ring).map (fun e => h e.2) = (ring.rotate 1).map h := by
    rw [← Function.comp_def h Prod.snd, ← List.map_map, map_snd_edges]
  rw [hstarts, hends]
  exact ((ring.rotate_perm 1).map h).sum_eq.symm

/-- **A difference along the edges adds up to nothing.** -/
theorem sum_edges_add_sub (f : Coord ℝ × Coord ℝ → ℝ) (h : Coord ℝ → ℝ) (ring : List (Coord ℝ)) :
    ((edges ring).map fun e => f e + (h e.1 - h e.2)).sum = ((edges ring).map f).sum := by
  have hsplit : ((edges ring).map fun e => f e + (h e.1 - h e.2)).sum +
      ((edges ring).map fun e => h e.2).sum =
      ((edges ring).map f).sum + ((edges ring).map fun e => h e.1).sum := by
    rw [← List.sum_map_add, ← List.sum_map_add]
    congr 2
    funext e
    ring
  rw [sum_fst_edges h ring] at hsplit
  exact add_right_cancel hsplit

/-! ## Area and moments -/

/-- Twice the area of a ring: the parallelograms that its edges span with the origin. -/
noncomputable def doubleArea (ring : List (Coord ℝ)) : ℝ :=
  ((edges ring).map fun e => e.1.cross e.2).sum

/-- Six times the moment of a ring about the axis through the origin in the direction of `u`. -/
noncomputable def moment (u : Coord ℝ) (ring : List (Coord ℝ)) : ℝ :=
  ((edges ring).map fun e => e.1.cross e.2 * (u.cross e.1 + u.cross e.2)).sum

/-- **A triangle around another position** is the one around the origin, up to a difference along
its edge; so are its moments, about any axis. -/
theorem fan_eq (o p q u : Coord ℝ) (k : ℝ) :
    (p - o).cross (q - o) * (u.cross o + u.cross p + u.cross q - k) =
      p.cross q * (u.cross p + u.cross q - k) +
        (o.cross p * (u.cross o + u.cross p - k) - o.cross q * (u.cross o + u.cross q - k)) := by
  simp only [Exact.cross_eq, Exact.sub_eq]
  ring

/-- **Any position may take the place of the origin** in the sums over all edges. -/
theorem sum_fan (o u : Coord ℝ) (k : ℝ) (ring : List (Coord ℝ)) :
    ((edges ring).map fun e =>
        (e.1 - o).cross (e.2 - o) * (u.cross o + u.cross e.1 + u.cross e.2 - k)).sum =
      moment u ring - k * doubleArea ring := by
  have hfan : (fun e : Coord ℝ × Coord ℝ =>
      (e.1 - o).cross (e.2 - o) * (u.cross o + u.cross e.1 + u.cross e.2 - k)) = fun e =>
        e.1.cross e.2 * (u.cross e.1 + u.cross e.2 - k) +
          (o.cross e.1 * (u.cross o + u.cross e.1 - k) -
            o.cross e.2 * (u.cross o + u.cross e.2 - k)) :=
    funext fun e => fan_eq o e.1 e.2 u k
  rw [hfan, sum_edges_add_sub (fun e => e.1.cross e.2 * (u.cross e.1 + u.cross e.2 - k))
    fun p => o.cross p * (u.cross o + u.cross p - k), eq_sub_iff_add_eq, moment, doubleArea,
    ← List.sum_map_mul_left, ← List.sum_map_add]
  congr 2
  funext e
  ring

/-- **The area is that of the triangles around any position.** -/
theorem doubleArea_eq_fan (o : Coord ℝ) (ring : List (Coord ℝ)) :
    doubleArea ring = ((edges ring).map fun e => (e.1 - o).cross (e.2 - o)).sum := by
  -- about no axis at all there is no moment
  have hsum := sum_fan o ⟨0, 0⟩ (-1) ring
  simp only [Exact.cross_eq ⟨0, 0⟩, moment, zero_mul, sub_zero, add_zero, mul_zero, zero_sub,
    neg_neg, mul_one, List.map_const', List.sum_replicate, smul_zero, neg_mul, one_mul] at hsum
  exact hsum.symm

/-! ## The center of gravity -/

/-- The area of a ring is that of its vertices without a repeated one. -/
theorem signedArea_eq (tol : Tolerance ℝ) (vertices : List (Coord ℝ)) :
    signedArea tol vertices = doubleArea (openRing tol vertices) / 2 := by
  rw [signedArea, sumEdges_eq]
  rfl

/-- A ring whose area is not negligible has some. -/
theorem doubleArea_ne_zero {tol : Tolerance ℝ} {vertices : List (Coord ℝ)} (hpos : 0 < tol.area)
    (harea : tol.area ≤ |signedArea tol vertices|) : doubleArea (openRing tol vertices) ≠ 0 := by
  intro hzero
  rw [signedArea_eq, hzero, zero_div, abs_zero] at harea
  exact absurd hpos (not_lt.2 harea)

/-- A moment by its two components. -/
theorem moment_eq (u : Coord ℝ) (ring : List (Coord ℝ)) :
    moment u ring = u.x * sumEdges (fun p q => (p.y + q.y) * p.cross q) (edges ring) -
      u.y * sumEdges (fun p q => (p.x + q.x) * p.cross q) (edges ring) := by
  rw [sumEdges_eq, sumEdges_eq, eq_sub_iff_add_eq, moment, ← List.sum_map_mul_left,
    ← List.sum_map_mul_left, ← List.sum_map_add]
  congr 2
  funext e
  show _ + u.y * ((e.1.x + e.2.x) * e.1.cross e.2) = u.x * ((e.1.y + e.2.y) * e.1.cross e.2)
  simp only [Exact.cross_eq]
  ring

/-- **A ring whose area is not negligible has a center of gravity**, which balances the moments
about every axis. -/
theorem exists_centroid? {tol : Tolerance ℝ} {vertices : List (Coord ℝ)} (hpos : 0 < tol.area)
    (harea : tol.area ≤ |signedArea tol vertices|) :
    ∃ g, centroid? tol vertices = some g ∧ ∀ u : Coord ℝ,
      3 * doubleArea (openRing tol vertices) * u.cross g = moment u (openRing tol vertices) := by
  have hne := doubleArea_ne_zero hpos harea
  rw [signedArea_eq] at harea
  have hlt : Scalar.lt (Scalar.abs (sumEdges Coord.cross (edges (openRing tol vertices)) /
      Scalar.ofNat 2)) tol.area = false := by
    rw [Exact.lt_eq_false_iff, sumEdges_eq]
    exact harea
  unfold centroid?
  cases hring : openRing tol vertices with
  | nil =>
    rw [hring] at hne
    exact absurd rfl hne
  | cons first rest =>
    rw [hring] at hne hlt
    refine ⟨_, if_neg (Bool.eq_false_iff.1 hlt), fun u => ?_⟩
    rw [moment_eq, Exact.cross_eq, sumEdges_eq Coord.cross]
    show 3 * doubleArea _ * (u.x * (_ / (((6 : ℕ) : ℝ) * (doubleArea _ / ((2 : ℕ) : ℝ)))) -
      u.y * (_ / (((6 : ℕ) : ℝ) * (doubleArea _ / ((2 : ℕ) : ℝ))))) = _
    push_cast
    field_simp
    ring

/-- A ring whose area is negligible has the mean of its vertices. -/
theorem centroid?_of_negligible {tol : Tolerance ℝ} {vertices : List (Coord ℝ)}
    (h : |signedArea tol vertices| < tol.area) :
    centroid? tol vertices = mean? (openRing tol vertices) := by
  have hlt : Scalar.lt (Scalar.abs (sumEdges Coord.cross (edges (openRing tol vertices)) /
      Scalar.ofNat 2)) tol.area = true := Exact.lt_iff.2 h
  unfold centroid?
  cases hring : openRing tol vertices with
  | nil => rfl
  | cons first rest =>
    rw [hring] at hlt
    exact if_pos hlt

/-- A center that balances the moments about every axis is the only one. -/
theorem eq_of_balances {area : ℝ} (hne : area ≠ 0) {g g' : Coord ℝ}
    (h : ∀ u : Coord ℝ, area * u.cross g = area * u.cross g') : g = g' := by
  have hcross : ∀ u : Coord ℝ, u.cross g = u.cross g' := fun u => mul_left_cancel₀ hne (h u)
  have hx := hcross ⟨0, -1⟩
  have hy := hcross ⟨1, 0⟩
  simp only [Exact.cross_eq, zero_mul, one_mul, zero_sub, sub_zero, neg_mul, neg_neg] at hx hy
  exact Coord.ext hx hy

/-! ## A vertex that is repeated at the end -/

/-- A repeated first vertex adds an edge without a length. -/
theorem edges_append_first {α : Type} (first : Coord α) (rest : List (Coord α)) :
    edges (first :: rest ++ [first]) = edges (first :: rest) ++ [(first, first)] := by
  show (first :: rest ++ [first]).zip (rest ++ [first] ++ [first]) = _
  exact List.zip_append (by simp)

/-- **An edge without a length adds no area and no moment.** -/
theorem doubleArea_append_first (first : Coord ℝ) (rest : List (Coord ℝ)) :
    doubleArea (first :: rest ++ [first]) = doubleArea (first :: rest) ∧
      ∀ u, moment u (first :: rest ++ [first]) = moment u (first :: rest) := by
  have hnone : first.cross first = 0 := by
    rw [Exact.cross_eq]
    ring
  simp only [doubleArea, moment, edges_append_first, List.map_append, List.sum_append,
    List.map_cons, List.map_nil, List.sum_singleton, hnone, zero_mul, add_zero, implies_true,
    and_self]

/-- The sum of positions, by its components. -/
theorem foldl_add_eq (ps : List (Coord ℝ)) (start : Coord ℝ) :
    ps.foldl (· + ·) start =
      ⟨start.x + (ps.map Coord.x).sum, start.y + (ps.map Coord.y).sum⟩ := by
  induction ps generalizing start with
  | nil => simp
  | cons p ps ih =>
    rw [List.foldl_cons, ih]
    show (⟨start.x + p.x + _, start.y + p.y + _⟩ : Coord ℝ) = _
    simp only [List.map_cons, List.sum_cons, add_assoc]

/-- The mean of positions, by its components. -/
theorem mean?_eq {ps : List (Coord ℝ)} (hne : ps ≠ []) :
    mean? ps = some ⟨(ps.map Coord.x).sum / ps.length, (ps.map Coord.y).sum / ps.length⟩ := by
  cases ps with
  | nil => exact absurd rfl hne
  | cons p ps =>
    rw [mean?, foldl_add_eq]
    show some (⟨(((0 : ℕ) : ℝ) + _) / ((ps.length + 1 : ℕ) : ℝ),
      (((0 : ℕ) : ℝ) + _) / ((ps.length + 1 : ℕ) : ℝ)⟩ : Coord ℝ) = _
    rw [Nat.cast_zero, zero_add, zero_add, List.length_cons]

/-- One more number leaves a mean as it is exactly if it is the mean. -/
theorem mean_append_eq_iff {sum x : ℝ} {n : ℕ} (hn : 0 < n) :
    sum / n = (sum + x) / (n + 1 : ℕ) ↔ sum / n = x := by
  have hpos : (0 : ℝ) < n := Nat.cast_pos.2 hn
  rw [Nat.cast_add_one, div_eq_div_iff hpos.ne' (by positivity), div_eq_iff hpos.ne']
  constructor <;> intro h <;> linarith

/-- **A repeated vertex leaves the mean as it is exactly if it lies there.** -/
theorem mean?_append_eq_iff {ps : List (Coord ℝ)} (hne : ps ≠ []) (p : Coord ℝ) :
    mean? ps = mean? (ps ++ [p]) ↔ mean? ps = some p := by
  have hlength := List.length_pos_iff.2 hne
  rw [mean?_eq hne, mean?_eq (List.append_ne_nil_of_left_ne_nil hne _), Option.some.injEq,
    Option.some.injEq, Coord.ext_iff, Coord.ext_iff]
  simp only [List.map_append, List.map_cons, List.map_nil, List.sum_append, List.sum_singleton,
    List.length_append, List.length_singleton, mean_append_eq_iff hlength]

/-- **Opening a ring twice instead of once moves its center exactly if its area is negligible and
its first vertex is not its mean**, if the ring ends at its first vertex twice. -/
theorem centroid?_openRing_eq_iff {tol : Tolerance ℝ} (hcoincidence : 0 < tol.coincidence)
    (hpos : 0 < tol.area) (first : Coord ℝ) (rest : List (Coord ℝ)) :
    let ring := first :: rest
    let points := ring ++ [first] ++ [first]
    centroid? tol (openRing tol points) = centroid? tol points ↔
      tol.area ≤ |signedArea tol points| ∨ mean? ring = some first := by
  intro ring points
  have hsame := Exact.same_self hcoincidence first
  have hopen : ∀ ps : List (Coord ℝ), openRing tol (first :: ps ++ [first]) = first :: ps := by
    intro ps
    have hclosed : isClosed tol (first :: ps ++ [first]) = true :=
      isClosed_iff.2 ⟨by simp, first, first, rfl, List.getLast?_concat .., hsame⟩
    rw [openRing, if_pos hclosed, List.dropLast_concat]
  have honce : openRing tol points = ring ++ [first] := hopen (rest ++ [first])
  have htwice : openRing tol (ring ++ [first]) = ring := hopen rest
  obtain ⟨hdouble, hmoment⟩ := doubleArea_append_first first rest
  have harea : signedArea tol (ring ++ [first]) = signedArea tol points := by
    rw [signedArea_eq, signedArea_eq, honce, htwice, hdouble]
  rw [honce]
  by_cases hlarge : tol.area ≤ |signedArea tol points|
  · -- both centers balance the same moments
    obtain ⟨g, hg, hbalance⟩ := exists_centroid? hpos hlarge
    obtain ⟨g', hg', hbalance'⟩ := exists_centroid? hpos (harea ▸ hlarge)
    have hne := doubleArea_ne_zero hpos hlarge
    rw [honce, hdouble] at hne
    have heq : g' = g := by
      refine eq_of_balances (mul_ne_zero three_ne_zero hne) fun u => ?_
      have h := hbalance u
      have h' := hbalance' u
      rw [honce, hdouble, hmoment] at h
      rw [htwice] at h'
      exact h'.trans h.symm
    rw [hg, hg', heq]
    exact ⟨fun _ => .inl hlarge, fun _ => rfl⟩
  · have hsmall := not_le.1 hlarge
    rw [centroid?_of_negligible hsmall, centroid?_of_negligible (harea ▸ hsmall), honce, htwice,
      mean?_append_eq_iff (List.cons_ne_nil _ _)]
    exact ⟨.inr, fun h => h.resolve_left hlarge⟩

end Ring

end Straightedge
