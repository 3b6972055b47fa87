import Straightedge.Proofs.Plane.Composites
import Straightedge.Proofs.Plane.Shoelace

/-! # Rings as cycles

Area and center of gravity belong to a ring as a closed path: it does not matter where the path
starts, reversing it changes the sign of the area only, and both follow the ring when it is moved.
For they are made of sums over edges, and a ring that is turned or reversed has its edges in another
order or the other way round. What does depend on the first vertex is which vertex repeats it, and
no vertex does in a ring without neighbours that coincide.

* **`Ring.edges_rotate`**, **`Ring.edges_reverse`**, **`Ring.edges_map`**: the edges of a ring that
  is turned, reversed or mapped.
* **`Ring.Balances`**: a position balances the moments of a ring.
* **`Ring.doubleArea_map_apply`**, **`Ring.Balances.map_apply`**: an affine map multiplies the area
  by its determinant and takes the balance along.
* **`Ring.Spread`**: no two neighbours of a ring coincide.
* **`Ring.Spread.centroid?_eq_map`**: when the center of a ring follows that of another.
* **`Ring.area_and_center_of_cycle`**: closing, turning, reversing and moving a ring. -/

namespace Straightedge

namespace Ring

/-! ## Edges -/

section

variable {α : Type}

/-- Every vertex is paired with the next one. -/
theorem edges_eq_zip (ring : List (Coord α)) : edges ring = ring.zip (ring.rotate 1) := by
  cases ring with
  | nil => rfl
  | cons first rest =>
    rw [List.rotate_cons_succ, List.rotate_zero]
    rfl

/-- A ring that is turned has its edges turned. -/
theorem edges_rotate (ring : List (Coord α)) (k : ℕ) :
    edges (ring.rotate k) = (edges ring).rotate k := by
  have hnext : (ring.rotate k).rotate 1 = (ring.rotate 1).rotate k := by
    rw [List.rotate_rotate, List.rotate_rotate, Nat.add_comm]
  rw [edges_eq_zip, edges_eq_zip, hnext]
  exact (List.zipWith_rotate_distrib Prod.mk ring (ring.rotate 1) k (by simp)).symm

/-- A ring that is reversed has its edges turned round, in another order. -/
theorem edges_reverse (ring : List (Coord α)) :
    edges ring.reverse = ((edges ring).map Prod.swap).reverse.rotate 1 := by
  have hturn : (ring.rotate 1).reverse.rotate 1 = ring.reverse := by
    cases ring with
    | nil => rfl
    | cons first rest => simp
  have hzip : edges (ring.rotate 1).reverse = ((edges ring).map Prod.swap).reverse := by
    rw [edges_eq_zip, hturn, edges_eq_zip, List.zip_swap]
    exact (List.reverse_zipWith (by simp)).symm
  rw [← hturn, edges_rotate, hzip]

/-- A ring that is mapped has its edges mapped. -/
theorem edges_map (f : Coord α → Coord α) (ring : List (Coord α)) :
    edges (ring.map f) = (edges ring).map (Prod.map f f) := by
  rw [edges_eq_zip, edges_eq_zip, ← List.map_rotate, List.zip_map]

/-- The last vertex and the first one are neighbours. -/
theorem last_mem_edges {ring : List (Coord α)} {first last : Coord α}
    (hfirst : ring.head? = some first) (hlast : ring.getLast? = some last) :
    (last, first) ∈ edges ring := by
  obtain ⟨front, hfront⟩ := List.getLast?_eq_some_iff.1 hlast
  cases ring with
  | nil => cases hfirst
  | cons head rest =>
    cases hfirst
    have hlength : front.length = rest.length := by
      simpa using (congrArg List.length hfront).symm
    show _ ∈ (first :: rest).zip (rest ++ [first])
    rw [hfront, List.zip_append hlength]
    exact List.mem_append_right _ (List.mem_singleton_self _)

end

/-! ## Areas and moments -/

variable {ring ring' : List (Coord ℝ)} {g : Coord ℝ}

/-- **A position balances the moments of a ring**, about every axis. -/
def Balances (ring : List (Coord ℝ)) (g : Coord ℝ) : Prop :=
  ∀ u : Coord ℝ, 3 * doubleArea ring * u.cross g = moment u ring

/-- The order of the edges does not matter. -/
theorem doubleArea_of_perm (h : (edges ring').Perm (edges ring)) :
    doubleArea ring' = doubleArea ring ∧ ∀ u, moment u ring' = moment u ring :=
  ⟨(h.map _).sum_eq, fun _ => (h.map _).sum_eq⟩

/-- **A ring that is turned has the same area and the same moments.** -/
theorem doubleArea_rotate (ring : List (Coord ℝ)) (k : ℕ) :
    doubleArea (ring.rotate k) = doubleArea ring ∧
      ∀ u, moment u (ring.rotate k) = moment u ring :=
  doubleArea_of_perm (edges_rotate ring k ▸ List.rotate_perm _ k)

/-- A sum over edges, for a function that changes its sign when its edge is turned round. -/
theorem sum_edges_reverse {f : Coord ℝ × Coord ℝ → ℝ} (hf : ∀ e, f e.swap = -1 * f e)
    (ring : List (Coord ℝ)) :
    ((edges ring.reverse).map f).sum = -((edges ring).map f).sum := by
  have hperm : (edges ring.reverse).Perm ((edges ring).map Prod.swap) := by
    rw [edges_reverse]
    exact (List.rotate_perm _ _).trans (List.reverse_perm _)
  rw [(hperm.map f).sum_eq, List.map_map, ← neg_one_mul, ← List.sum_map_mul_left]
  congr 2
  exact funext hf

/-- **A ring that is reversed has the opposite area and the opposite moments.** -/
theorem doubleArea_reverse (ring : List (Coord ℝ)) :
    doubleArea ring.reverse = -doubleArea ring ∧
      ∀ u, moment u ring.reverse = -moment u ring := by
  constructor
  · refine sum_edges_reverse (fun e => ?_) ring
    simp only [Prod.fst_swap, Prod.snd_swap, Exact.cross_eq]
    ring
  · refine fun u => sum_edges_reverse (fun e => ?_) ring
    simp only [Prod.fst_swap, Prod.snd_swap, Exact.cross_eq]
    ring

end Ring

/-! ## Affine maps -/

namespace Affine

variable (f : Affine ℝ)

/-- **An affine map multiplies areas by its determinant.** -/
theorem cross_apply (o p q : Coord ℝ) :
    (f.apply p - f.apply o).cross (f.apply q - f.apply o) =
      f.linear.det * (p - o).cross (q - o) := by
  simp only [apply_eq, Linear.det, Exact.cross_eq, Exact.sub_eq]
  ring

/-- The axis that a map takes to the direction `u`, up to its determinant. -/
def axisBefore (u : Coord ℝ) : Coord ℝ :=
  ⟨u.x * f.linear.m22 - u.y * f.linear.m12, u.y * f.linear.m11 - u.x * f.linear.m21⟩

/-- The area that an image spans with an axis. -/
theorem cross_apply_eq (u p : Coord ℝ) :
    u.cross (f.apply p) = (f.axisBefore u).cross p + u.cross f.shift := by
  simp only [apply_eq, axisBefore, Exact.cross_eq]
  ring

/-- **A map that keeps all directions, or turns all of them round.** -/
def Straight : Prop := f.linear = Linear.identity ∨ f.linear = Linear.identity.neg

theorem straight_translation (dx dy : ℝ) : (translation dx dy).Straight := .inl rfl

theorem straight_reflection (mirror : Coord ℝ) : (reflection mirror).Straight := .inr rfl

namespace Straight

variable {f}

/-- How far two images are apart. -/
theorem sub_apply (h : f.Straight) : ∃ s : ℝ, |s| = 1 ∧ ∀ p q : Coord ℝ,
    (f.apply p).x - (f.apply q).x = s * (p.x - q.x) ∧
      (f.apply p).y - (f.apply q).y = s * (p.y - q.y) := by
  obtain h | h := h
  · refine ⟨1, abs_one, fun p q => ?_⟩
    simp only [apply_eq, h, Linear.identity, Exact.zero_eq, Exact.ofNat_eq]
    push_cast
    constructor <;> ring
  · refine ⟨-1, by rw [abs_neg, abs_one], fun p q => ?_⟩
    simp only [apply_eq, h, Linear.identity, Linear.neg, Exact.zero_eq, Exact.ofNat_eq]
    push_cast
    constructor <;> ring

/-- Images coincide exactly if the positions do. -/
theorem same_apply (h : f.Straight) (tol : Tolerance ℝ) (p q : Coord ℝ) :
    tol.same (f.apply p) (f.apply q) = tol.same p q := by
  obtain ⟨s, hs, hsub⟩ := h.sub_apply
  rw [Bool.eq_iff_iff, Exact.same_iff, Exact.same_iff, (hsub p q).1, (hsub p q).2, abs_mul,
    abs_mul, hs, one_mul, one_mul]

/-- Areas stay as they are. -/
theorem det_eq (h : f.Straight) : f.linear.det = 1 := by
  obtain h | h := h
  · simp only [h, Linear.identity, Linear.det, Exact.zero_eq, Exact.ofNat_eq]
    norm_num
  · simp only [h, Linear.identity, Linear.neg, Linear.det, Exact.zero_eq, Exact.ofNat_eq]
    norm_num

end Straight

end Affine

namespace Ring

variable {ring ring' : List (Coord ℝ)} {g : Coord ℝ}

/-! ## Rings that are mapped -/

/-- **The area of an image** is the area times the determinant. -/
theorem doubleArea_map_apply (f : Affine ℝ) (ring : List (Coord ℝ)) :
    doubleArea (ring.map f.apply) = f.linear.det * doubleArea ring := by
  let o : Coord ℝ := ⟨0, 0⟩
  rw [doubleArea_eq_fan (f.apply o), doubleArea_eq_fan o, edges_map, List.map_map,
    ← List.sum_map_mul_left]
  congr 2
  exact funext fun e => f.cross_apply o e.1 e.2

/-- **The moments of an image** are those about the axis before, shifted. -/
theorem moment_map_apply (f : Affine ℝ) (u : Coord ℝ) (ring : List (Coord ℝ)) :
    moment u (ring.map f.apply) = f.linear.det *
      (moment (f.axisBefore u) ring + 3 * u.cross f.shift * doubleArea ring) := by
  let o : Coord ℝ := ⟨0, 0⟩
  have himage := sum_fan (f.apply o) u 0 (ring.map f.apply)
  have hbefore := sum_fan o (f.axisBefore u) (-(3 * u.cross f.shift)) ring
  rw [zero_mul, sub_zero, edges_map, List.map_map] at himage
  rw [neg_mul, sub_neg_eq_add] at hbefore
  rw [← himage, ← hbefore, ← List.sum_map_mul_left]
  congr 2
  funext e
  simp only [Function.comp_apply, Prod.map_fst, Prod.map_snd, f.cross_apply, f.cross_apply_eq]
  ring

/-- **The image of a balance balances the image.** -/
theorem Balances.map_apply (h : Balances ring g) (f : Affine ℝ) :
    Balances (ring.map f.apply) (f.apply g) := by
  intro u
  rw [doubleArea_map_apply, moment_map_apply, f.cross_apply_eq]
  linear_combination f.linear.det * h (f.axisBefore u)

/-- The mean of images is the image of the mean. -/
theorem mean?_map_apply (f : Affine ℝ) (ring : List (Coord ℝ)) :
    mean? (ring.map f.apply) = (mean? ring).map f.apply := by
  cases ring with
  | nil => rfl
  | cons first rest =>
    have hlength : ((first :: rest).length : ℝ) ≠ 0 :=
      Nat.cast_ne_zero.2 (List.length_pos_of_ne_nil (List.cons_ne_nil _ _)).ne'
    have hsum (a b t : ℝ) :
        ((first :: rest).map fun p : Coord ℝ => a * p.x + b * p.y + t).sum =
          a * ((first :: rest).map Coord.x).sum + b * ((first :: rest).map Coord.y).sum +
            (first :: rest).length * t := by
      rw [List.sum_map_add, List.sum_map_add, List.sum_map_mul_left, List.sum_map_mul_left,
        List.map_const', List.sum_replicate, nsmul_eq_mul]
    rw [mean?_eq (List.cons_ne_nil _ _), mean?_eq (by simp), Option.map_some, List.length_map,
      List.map_map, List.map_map, f.apply_eq]
    congr 1
    ext
    · show ((first :: rest).map fun p : Coord ℝ =>
        f.linear.m11 * p.x + f.linear.m12 * p.y + f.shift.x).sum / _ = _
      rw [hsum]
      field_simp
    · show ((first :: rest).map fun p : Coord ℝ =>
        f.linear.m21 * p.x + f.linear.m22 * p.y + f.shift.y).sum / _ = _
      rw [hsum]
      field_simp

/-- The mean does not depend on the order. -/
theorem mean?_of_perm (h : ring'.Perm ring) : mean? ring' = mean? ring := by
  cases ring with
  | nil => rw [h.eq_nil]
  | cons first rest =>
    have hne : ring' ≠ [] := fun hnil => List.cons_ne_nil first rest (hnil ▸ h).nil_eq.symm
    rw [mean?_eq hne, mean?_eq (List.cons_ne_nil _ _), (h.map Coord.x).sum_eq,
      (h.map Coord.y).sum_eq, h.length_eq]

/-! ## Rings without coinciding neighbours -/

/-- **No two neighbours of a ring coincide.** -/
def Spread (tol : Tolerance ℝ) (ring : List (Coord ℝ)) : Prop :=
  ∀ e ∈ edges ring, tol.same e.1 e.2 = false

namespace Spread

variable {tol : Tolerance ℝ}

/-- Such a ring does not repeat its first vertex. -/
theorem not_isClosed (h : Spread tol ring) : isClosed tol ring = false := by
  rw [← Bool.not_eq_true, isClosed_iff]
  rintro ⟨-, first, last, hfirst, hlast, hsame⟩
  have hapart := h _ (last_mem_edges hfirst hlast)
  rw [Exact.same_comm, hsame] at hapart
  cases hapart

theorem openRing_eq (h : Spread tol ring) : openRing tol ring = ring :=
  openRing_of_not_isClosed h.not_isClosed

theorem rotate (h : Spread tol ring) (k : ℕ) : Spread tol (ring.rotate k) := by
  intro e he
  rw [edges_rotate, List.mem_rotate] at he
  exact h e he

theorem reverse (h : Spread tol ring) : Spread tol ring.reverse := by
  intro e he
  rw [edges_reverse, List.mem_rotate, List.mem_reverse] at he
  obtain ⟨e', he', rfl⟩ := List.mem_map.1 he
  rw [Prod.fst_swap, Prod.snd_swap, Exact.same_comm]
  exact h e' he'

theorem map_apply (h : Spread tol ring) {f : Affine ℝ} (hf : f.Straight) :
    Spread tol (ring.map f.apply) := by
  intro e he
  rw [edges_map] at he
  obtain ⟨e', he', rfl⟩ := List.mem_map.1 he
  rw [Prod.map_fst, Prod.map_snd, hf.same_apply]
  exact h e' he'

end Spread

/-! ## Centers -/

variable {tol : Tolerance ℝ}

/-- **A ring with its area and its center.** -/
def Weighs (tol : Tolerance ℝ) (ring : List (Coord ℝ)) (area : ℝ) (g : Coord ℝ) : Prop :=
  signedArea tol ring = area ∧ centroid? tol ring = some g

/-- The area of a spread ring is that of all its vertices. -/
theorem Spread.signedArea_eq (h : Spread tol ring) : signedArea tol ring = doubleArea ring / 2 := by
  rw [Ring.signedArea_eq, h.openRing_eq]

/-- **The center of a ring follows that of another** if the areas are equally large, the balances
correspond and the means correspond: the two rings are degenerate both or not at all. -/
theorem Spread.centroid?_eq_map (h : Spread tol ring) (h' : Spread tol ring') (hpos : 0 < tol.area)
    {f : Coord ℝ → Coord ℝ} (harea : |doubleArea ring'| = |doubleArea ring|)
    (hbalance : ∀ g, Balances ring g → Balances ring' (f g))
    (hmean : mean? ring' = (mean? ring).map f) :
    centroid? tol ring' = (centroid? tol ring).map f := by
  have hsize : |signedArea tol ring'| = |signedArea tol ring| := by
    rw [h.signedArea_eq, h'.signedArea_eq, abs_div, abs_div, harea]
  by_cases hlarge : tol.area ≤ |signedArea tol ring|
  · obtain ⟨g, hg, hgbalance⟩ := exists_centroid? hpos hlarge
    rw [← hsize] at hlarge
    obtain ⟨g', hg', hgbalance'⟩ := exists_centroid? hpos hlarge
    have hne := doubleArea_ne_zero hpos hlarge
    rw [h.openRing_eq] at hgbalance
    rw [h'.openRing_eq] at hne hgbalance'
    have heq : g' = f g := eq_of_balances (mul_ne_zero three_ne_zero hne) fun u =>
      (hgbalance' u).trans (hbalance g hgbalance u).symm
    rw [hg, hg', heq, Option.map_some]
  · have hsmall := not_le.1 hlarge
    rw [centroid?_of_negligible hsmall, centroid?_of_negligible (hsize ▸ hsmall), h.openRing_eq,
      h'.openRing_eq, hmean]

/-- A ring that is closed opens to the ring that was closed. -/
theorem openRing_close (hcoincidence : 0 < tol.coincidence) (hne : ring ≠ []) :
    openRing tol (close tol ring) = openRing tol ring := by
  have hclosed := isClosed_close hne fun p _ => Exact.same_self hcoincidence p
  rw [openRing, if_pos hclosed, dropLast_close]

namespace Spread

variable {area : ℝ}

/-- Turning a ring changes neither area nor center. -/
theorem weighs_rotate (h : Spread tol ring) (hpos : 0 < tol.area) (hring : Weighs tol ring area g)
    (k : ℕ) : Weighs tol (ring.rotate k) area g := by
  obtain ⟨harea, hmoment⟩ := doubleArea_rotate ring k
  constructor
  · rw [(h.rotate k).signedArea_eq, harea, ← h.signedArea_eq, hring.1]
  · have hcenter : centroid? tol (ring.rotate k) = (centroid? tol ring).map id := by
      refine h.centroid?_eq_map (h.rotate k) hpos (by rw [harea]) (fun g hg u => ?_) ?_
      · rw [harea, hmoment, id_eq, hg u]
      · rw [mean?_of_perm (ring.rotate_perm k), Option.map_id, id_eq]
    rw [hcenter, hring.2, Option.map_some, id_eq]

/-- Reversing a ring changes the sign of its area. -/
theorem weighs_reverse (h : Spread tol ring) (hpos : 0 < tol.area)
    (hring : Weighs tol ring area g) : Weighs tol ring.reverse (-area) g := by
  obtain ⟨harea, hmoment⟩ := doubleArea_reverse ring
  constructor
  · rw [h.reverse.signedArea_eq, harea, neg_div, ← h.signedArea_eq, hring.1]
  · have hcenter : centroid? tol ring.reverse = (centroid? tol ring).map id := by
      refine h.centroid?_eq_map h.reverse hpos (by rw [harea, abs_neg]) (fun g hg u => ?_) ?_
      · rw [harea, hmoment, id_eq, ← hg u]
        ring
      · rw [mean?_of_perm ring.reverse_perm, Option.map_id, id_eq]
    rw [hcenter, hring.2, Option.map_some, id_eq]

/-- A map that keeps directions, or turns all of them round, takes the center along. -/
theorem weighs_map_apply (h : Spread tol ring) (hpos : 0 < tol.area)
    (hring : Weighs tol ring area g) {f : Affine ℝ} (hf : f.Straight) :
    Weighs tol (ring.map f.apply) area (f.apply g) := by
  have harea : doubleArea (ring.map f.apply) = doubleArea ring := by
    rw [doubleArea_map_apply, hf.det_eq, one_mul]
  constructor
  · rw [(h.map_apply hf).signedArea_eq, harea, ← h.signedArea_eq, hring.1]
  · have hcenter := h.centroid?_eq_map (h.map_apply hf) hpos (by rw [harea])
      (fun _ hg => hg.map_apply f) (mean?_map_apply f ring)
    rw [hcenter, hring.2, Option.map_some]

end Spread

/-- **Area and center of gravity belong to a ring as a closed path.** In exact arithmetic, let no
two neighbours of a ring coincide, the last vertex and the first one included. Then the ring has a
center, be it the balance of its moments or, if its area is negligible, the mean of its vertices.
Closing the ring changes neither area nor center, and closing it twice is closing it once. Nor does
it matter with which vertex the ring starts. Reversing it changes the sign of the area only. Shifts
and reflections keep the area and take the center along. -/
theorem area_and_center_of_cycle (hcoincidence : 0 < tol.coincidence) (hpos : 0 < tol.area)
    (hmany : 2 ≤ ring.length) (hspread : Spread tol ring) :
    ∃ area g, Weighs tol ring area g ∧
      (Weighs tol (close tol ring) area g ∧ close tol (close tol ring) = close tol ring) ∧
      (∀ k, Weighs tol (ring.rotate k) area g) ∧
      Weighs tol ring.reverse (-area) g ∧
      (∀ dx dy, let f : Affine ℝ := .translation dx dy
        Weighs tol (ring.map f.apply) area (f.apply g)) ∧
      ∀ mirror, let f : Affine ℝ := .reflection mirror
        Weighs tol (ring.map f.apply) area (f.apply g) := by
  have hne : ring ≠ [] := List.ne_nil_of_length_pos (by omega)
  obtain ⟨g, hg⟩ := exists_centroid?_of_ne_nil tol hne
  have hring : Weighs tol ring (signedArea tol ring) g := ⟨rfl, hg⟩
  have hopen := openRing_close hcoincidence hne
  refine ⟨signedArea tol ring, g, hring, ⟨⟨?_, ?_⟩, ?_⟩,
    fun k => hspread.weighs_rotate hpos hring k, hspread.weighs_reverse hpos hring,
    fun dx dy => ?_, fun mirror => ?_⟩
  · rw [signedArea_eq, signedArea_eq, hopen]
  · rw [← hg, centroid?, centroid?, hopen]
  · exact close_of_isClosed (isClosed_close hne fun p _ => Exact.same_self hcoincidence p)
  · exact hspread.weighs_map_apply hpos hring (Affine.straight_translation dx dy)
  · exact hspread.weighs_map_apply hpos hring (Affine.straight_reflection mirror)

/-- An arrowhead, a ring with a corner that points inwards. -/
theorem area_and_center_of_arrowhead :
    let tol : Tolerance ℝ := .standard
    let ring : List (Coord ℝ) := [⟨0, 0⟩, ⟨4, 0⟩, ⟨1, 1⟩, ⟨0, 4⟩]
    0 < tol.coincidence ∧ 0 < tol.area ∧ 2 ≤ ring.length ∧ Spread tol ring ∧
      ∃ area g, Weighs tol ring area g ∧ Weighs tol ring.reverse (-area) g := by
  intro tol ring
  have hbillionth : (0 : ℝ) < Scalar.ofDecimal 1 (-9) := by
    rw [Exact.ofDecimal_eq]
    positivity
  have hmany : 2 ≤ ring.length := by decide
  have hspread : Spread tol ring := by
    intro e he
    rw [← Bool.not_eq_true, Exact.same_iff, Exact.coincidence_standard]
    simp only [ring, edges, List.cons_append, List.nil_append, List.zip_cons_cons,
      List.zip_nil_left, List.mem_cons, List.not_mem_nil, or_false] at he
    rcases he with rfl | rfl | rfl | rfl <;> norm_num
  obtain ⟨area, g, hring, -, -, hreverse, -⟩ :=
    @area_and_center_of_cycle ring tol hbillionth hbillionth hmany hspread
  exact ⟨hbillionth, hbillionth, hmany, hspread, area, g, hring, hreverse⟩

end Ring

end Straightedge
