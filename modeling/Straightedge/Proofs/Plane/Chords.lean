import Mathlib.Algebra.Order.Group.Pointwise.Interval
import Straightedge.Plane.Line
import Straightedge.Proofs.Inversion
import Straightedge.Proofs.Plane.Intersections
import Straightedge.Proofs.Plane.Windows

/-! # Chords

The chord of a line in a window is the part of the line that the window shows. Its ends are picked
from the positions where the line meets the sides of the window, of which there are up to four: near
a corner of the window two of them may count as one, and then only the earlier one is kept. Nothing
of the chord is lost by that but what coincides with an end.

* **`Line.Thins`**, **`Line.thins_distinct`**: what remains of positions some of which coincide.
* **`Line.Ends`**, **`Line.ends_of_distinct`**: the outermost of the positions that remain.
* **`Line.mem_crossings_iff`**, **`Line.exists_crossings_around`**: where a line meets the sides of a
  window.
* **`Line.Ends.covers`**: a position between the ends, or one that coincides with an end.
* **`Line.Course.direction_cases`**: the direction of a line.
* **`Line.chord_covers_window`**: a chord ends on edges and leaves out nothing of its line. -/

namespace Straightedge.Line

variable {tol : Tolerance ℝ} {w : Window ℝ} {a b c p q v : Coord ℝ} {ps kept : List (Coord ℝ)}
  {m k : ℝ}

/-! ## Positions that coincide -/

/-- **What remains of positions when those are left out that coincide with earlier ones.** -/
structure Thins (tol : Tolerance ℝ) (ps kept : List (Coord ℝ)) : Prop where
  mem : ∀ p ∈ kept, p ∈ ps
  apart : kept.Pairwise fun p q => tol.same p q = false
  near : ∀ p ∈ ps, ∃ q ∈ kept, tol.same q p = true

/-- One more position is left out or kept. -/
theorem Thins.append (h : Thins tol ps kept) (hcoincidence : 0 < tol.coincidence) (p : Coord ℝ) :
    Thins tol (ps ++ [p]) (if kept.any (tol.same · p) then kept else kept ++ [p]) := by
  have hmem : ∀ q ∈ kept, q ∈ ps ++ [p] := fun q hq => List.mem_append_left _ (h.mem q hq)
  by_cases hany : kept.any (tol.same · p) = true
  · rw [if_pos hany]
    refine ⟨hmem, h.apart, fun q hq => ?_⟩
    rcases List.mem_append.1 hq with hq | hq
    · exact h.near q hq
    · obtain rfl := List.mem_singleton.1 hq
      exact List.any_eq_true.1 hany
  · rw [if_neg hany]
    refine ⟨fun q hq => ?_, ?_, fun q hq => ?_⟩
    · rcases List.mem_append.1 hq with hq | hq
      · exact hmem q hq
      · exact List.mem_append_right _ hq
    · refine List.pairwise_append.2 ⟨h.apart, List.pairwise_singleton _ _, fun q hq p' hp' => ?_⟩
      obtain rfl := List.mem_singleton.1 hp'
      rw [← Bool.not_eq_true]
      exact fun hsame => hany (List.any_eq_true.2 ⟨q, hq, hsame⟩)
    · rcases List.mem_append.1 hq with hq | hq
      · obtain ⟨q', hq', hsame⟩ := h.near q hq
        exact ⟨q', List.mem_append_left _ hq', hsame⟩
      · obtain rfl := List.mem_singleton.1 hq
        exact ⟨q, List.mem_append_right _ hq, Exact.same_self hcoincidence q⟩

theorem distinct_append (tol : Tolerance ℝ) (ps : List (Coord ℝ)) (p : Coord ℝ) :
    distinct tol (ps ++ [p]) =
      if (distinct tol ps).any (tol.same · p) then distinct tol ps else distinct tol ps ++ [p] := by
  rw [distinct, List.foldl_append]
  rfl

/-- Of positions that coincide one is kept. -/
theorem thins_distinct (hcoincidence : 0 < tol.coincidence) (ps : List (Coord ℝ)) :
    Thins tol ps (distinct tol ps) := by
  induction ps using List.reverseRecOn with
  | nil => exact ⟨nofun, .nil, nofun⟩
  | append_singleton ps p ih =>
    rw [distinct_append]
    exact ih.append hcoincidence p

/-! ## Outermost positions -/

/-- A fold that goes on with the smaller one of two positions ends with the smallest. -/
theorem foldl_least (size : Coord ℝ → ℝ) {pick : Coord ℝ → Coord ℝ → Coord ℝ}
    (hpick : ∀ p q, pick p q = p ∧ size p ≤ size q ∨ pick p q = q ∧ size q ≤ size p)
    (p : Coord ℝ) (ps : List (Coord ℝ)) :
    ps.foldl pick p ∈ p :: ps ∧ ∀ q ∈ p :: ps, size (ps.foldl pick p) ≤ size q := by
  induction ps generalizing p with
  | nil => simp
  | cons q ps ih =>
    obtain ⟨hmem, hle⟩ := ih (pick p q)
    have hbest := hle _ List.mem_cons_self
    have hrest : ∀ r ∈ ps, size (ps.foldl pick (pick p q)) ≤ size r := fun r hr =>
      hle r (List.mem_cons_of_mem _ hr)
    rw [List.foldl_cons]
    rcases hpick p q with ⟨heq, hsize⟩ | ⟨heq, hsize⟩ <;> rw [heq] at hmem hbest hrest ⊢
    · refine ⟨?_, List.forall_mem_cons.2 ⟨hbest, List.forall_mem_cons.2
        ⟨hbest.trans hsize, hrest⟩⟩⟩
      rcases List.mem_cons.1 hmem with hmem | hmem
      · rw [hmem]
        exact List.mem_cons_self
      · exact List.mem_cons_of_mem _ (List.mem_cons_of_mem _ hmem)
    · exact ⟨List.mem_cons_of_mem _ hmem, List.forall_mem_cons.2 ⟨hbest.trans hsize,
        List.forall_mem_cons.2 ⟨hbest, hrest⟩⟩⟩

/-- The leftmost position is one of the positions, and none lies to its left. -/
theorem leftmost_least (p : Coord ℝ) (ps : List (Coord ℝ)) :
    leftmost p ps ∈ p :: ps ∧ ∀ q ∈ p :: ps, (leftmost p ps).x ≤ q.x := by
  refine foldl_least Coord.x (fun p q => ?_) p ps
  by_cases hlt : q.x < p.x
  · exact .inr ⟨if_pos (Exact.lt_iff.2 hlt), hlt.le⟩
  · exact .inl ⟨if_neg (mt Exact.lt_iff.1 hlt), not_lt.1 hlt⟩

/-- The rightmost position is one of the positions, and none lies to its right. -/
theorem rightmost_greatest (p : Coord ℝ) (ps : List (Coord ℝ)) :
    rightmost p ps ∈ p :: ps ∧ ∀ q ∈ p :: ps, q.x ≤ (rightmost p ps).x := by
  have hpick (p q : Coord ℝ) : ((if Scalar.lt q.x p.x then p else q) = p ∧ -p.x ≤ -q.x) ∨
      ((if Scalar.lt q.x p.x then p else q) = q ∧ -q.x ≤ -p.x) := by
    by_cases hlt : q.x < p.x
    · exact .inl ⟨if_pos (Exact.lt_iff.2 hlt), neg_le_neg hlt.le⟩
    · exact .inr ⟨if_neg (mt Exact.lt_iff.1 hlt), neg_le_neg (not_lt.1 hlt)⟩
  obtain ⟨hmem, hle⟩ := foldl_least (fun p => -p.x) hpick p ps
  exact ⟨hmem, fun q hq => neg_le_neg_iff.1 (hle q hq)⟩

/-- **The ends of positions on a line**: two of the positions that do not coincide. No position lies
beyond an end unless it coincides with one that does not. -/
structure Ends (tol : Tolerance ℝ) (ps : List (Coord ℝ)) (a b : Coord ℝ) : Prop where
  left_mem : a ∈ ps
  right_mem : b ∈ ps
  lt : a.x < b.x
  apart : tol.same a b = false
  left : ∀ p ∈ ps, ∃ q ∈ ps, tol.same q p = true ∧ a.x ≤ q.x
  right : ∀ p ∈ ps, ∃ q ∈ ps, tol.same q p = true ∧ q.x ≤ b.x

/-- **The outermost ones of the positions that remain are the ends.** -/
theorem ends_of_distinct (hcoincidence : 0 < tol.coincidence) {first second : Coord ℝ}
    {rest : List (Coord ℝ)} (hline : ∀ p ∈ ps, p.y = m * p.x + k)
    (h : distinct tol ps = first :: second :: rest) :
    Ends tol ps (leftmost first (second :: rest)) (rightmost first (second :: rest)) := by
  have hthins := thins_distinct hcoincidence ps
  rw [h] at hthins
  obtain ⟨ha, hleft⟩ := leftmost_least first (second :: rest)
  obtain ⟨hb, hright⟩ := rightmost_greatest first (second :: rest)
  have hfirst : first ∈ first :: second :: rest := List.mem_cons_self
  have hsecond : second ∈ first :: second :: rest := List.mem_cons_of_mem _ List.mem_cons_self
  have hlt : (leftmost first (second :: rest)).x < (rightmost first (second :: rest)).x := by
    by_contra hge
    -- Otherwise all positions lie above each other, so the line has only one of them.
    have hle := not_lt.1 hge
    have hx : first.x = second.x :=
      (((hright first hfirst).trans hle).trans (hleft second hsecond)).antisymm
        (((hright second hsecond).trans hle).trans (hleft first hfirst))
    have hy : first.y = second.y := by
      rw [hline first (hthins.mem first hfirst), hline second (hthins.mem second hsecond), hx]
    have hsame := List.rel_of_pairwise_cons hthins.apart List.mem_cons_self
    rw [Coord.ext hx hy, Exact.same_self hcoincidence] at hsame
    exact Bool.noConfusion hsame
  refine ⟨hthins.mem _ ha, hthins.mem _ hb, hlt, ?_, fun p hp => ?_, fun p hp => ?_⟩
  · have : Std.Symm fun p q => tol.same p q = false :=
      ⟨fun p q hsame => by rw [Exact.same_comm, hsame]⟩
    exact hthins.apart.forall ha hb fun heq => hlt.ne (congrArg Coord.x heq)
  · obtain ⟨q, hq, hsame⟩ := hthins.near p hp
    exact ⟨q, hthins.mem q hq, hsame, hleft q hq⟩
  · obtain ⟨q, hq, hsame⟩ := hthins.near p hp
    exact ⟨q, hthins.mem q hq, hsame, hright q hq⟩

/-! ## Where a line meets the sides of a window -/

/-- Where a line meets the line through the left or the right side. -/
theorem eq_of_upright {x₀ : ℝ} : p = ⟨x₀, m * x₀ + k⟩ ↔ p.x = x₀ ∧ p.y = m * p.x + k := by
  rw [Coord.ext_iff]
  exact and_congr_right fun hx => by rw [hx]

/-- Where a line meets the line through the lower or the upper side. -/
theorem eq_of_level {y₀ : ℝ} (hm : m ≠ 0) :
    p = ⟨(y₀ - k) / m, y₀⟩ ↔ p.y = y₀ ∧ p.y = m * p.x + k := by
  rw [Coord.ext_iff, and_comm]
  refine and_congr_right fun hy => ?_
  rw [eq_div_iff hm, hy, eq_sub_iff_add_eq, mul_comm, eq_comm]

/-- **Where a line meets the sides of a window**: in the positions of the line on the left or the
right side and, if the line is steep enough, on the lower or the upper side. -/
theorem mem_crossings_iff (hcoincidence : 0 < tol.coincidence) (hx : w.minX ≤ w.maxX)
    (hy : w.minY ≤ w.maxY) :
    p ∈ crossings tol w m k ↔ p.y = m * p.x + k ∧ w.Contains p ∧
      ((p.x = w.minX ∨ p.x = w.maxX) ∨ tol.coincidence < |m| ∧ (p.y = w.minY ∨ p.y = w.maxY)) := by
  have hside {x₀ : ℝ} (hspan : w.minX ≤ x₀ ∧ x₀ ≤ w.maxX) :
      w.spansY (m * x₀ + k) = true ∧ p = ⟨x₀, m * x₀ + k⟩ ↔
        p.y = m * p.x + k ∧ w.Contains p ∧ p.x = x₀ := by
    rw [Window.spansY_iff, eq_of_upright]
    constructor
    · rintro ⟨hspany, rfl, hp⟩
      rw [← hp] at hspany
      exact ⟨hp, ⟨hspan, hspany⟩, rfl⟩
    · rintro ⟨hp, hin, rfl⟩
      rw [← hp]
      exact ⟨hin.2, rfl, rfl⟩
  have hlevel {y₀ : ℝ} (hspan : w.minY ≤ y₀ ∧ y₀ ≤ w.maxY) :
      (Scalar.lt tol.coincidence (Scalar.abs m) && w.spansX ((y₀ - k) / m)) = true ∧
          p = ⟨(y₀ - k) / m, y₀⟩ ↔
        p.y = m * p.x + k ∧ w.Contains p ∧ tol.coincidence < |m| ∧ p.y = y₀ := by
    rw [Bool.and_eq_true, Exact.lt_iff, Exact.abs_eq, Window.spansX_iff]
    constructor
    · rintro ⟨⟨hsteep, hspanx⟩, hp⟩
      have hon := (eq_of_level (abs_pos.1 (hcoincidence.trans hsteep))).1 hp
      rw [hp] at hon ⊢
      exact ⟨hon.2, ⟨hspanx, hspan⟩, hsteep, rfl⟩
    · rintro ⟨hp, hin, hsteep, hedge⟩
      have heq := (eq_of_level (abs_pos.1 (hcoincidence.trans hsteep))).2 ⟨hedge, hp⟩
      have hspanx := hin.1
      rw [heq] at hspanx
      exact ⟨⟨hsteep, hspanx⟩, heq⟩
  simp only [crossings, List.mem_append, List.mem_ite_nil_right, List.mem_singleton,
    hside ⟨le_rfl, hx⟩, hside ⟨hx, le_rfl⟩, hlevel ⟨le_rfl, hy⟩, hlevel ⟨hy, le_rfl⟩]
  tauto

/-- Two positions on a line are as far apart as others that coincide, or closer: they coincide. -/
theorem same_of_nearer (ha : a.y = m * a.x + k) (hb : b.y = m * b.x + k) (hp : p.y = m * p.x + k)
    (hq : q.y = m * q.x + k) (hsame : tol.same a b = true) (hle : |p.x - q.x| ≤ |a.x - b.x|) :
    tol.same p q = true := by
  have hrise {p q : Coord ℝ} (hp : p.y = m * p.x + k) (hq : q.y = m * q.x + k) :
      |p.y - q.y| = |m| * |p.x - q.x| := by
    rw [hp, hq, ← abs_mul]
    congr 1
    ring
  rw [Exact.same_iff] at hsame ⊢
  refine ⟨hle.trans_lt hsame.1, ?_⟩
  calc |p.y - q.y| = |m| * |p.x - q.x| := hrise hp hq
    _ ≤ |m| * |a.x - b.x| := mul_le_mul_of_nonneg_left hle (abs_nonneg m)
    _ = |a.y - b.y| := (hrise ha hb).symm
    _ < tol.coincidence := hsame.2

/-- What is on a line between two positions that coincide coincides with both. -/
theorem same_of_between (ha : a.y = m * a.x + k) (hb : b.y = m * b.x + k) (hp : p.y = m * p.x + k)
    (hleft : a.x ≤ p.x) (hright : p.x ≤ b.x) (hsame : tol.same a b = true) :
    tol.same p a = true ∧ tol.same p b = true := by
  constructor
  · refine same_of_nearer ha hb hp ha hsame ?_
    rw [abs_of_nonneg (sub_nonneg.2 hleft), abs_sub_comm]
    exact (sub_le_sub_right hright _).trans (le_abs_self _)
  · refine same_of_nearer ha hb hp hb hsame ?_
    rw [abs_sub_comm, abs_of_nonneg (sub_nonneg.2 hright), abs_sub_comm]
    exact (sub_le_sub_left hleft _).trans (le_abs_self _)

/-- What is between two positions of a line by height is so by width. -/
theorem mem_uIcc_of_line (hm : m ≠ 0) (ha : a.y = m * a.x + k) (hb : b.y = m * b.x + k)
    (hc : c.y = m * c.x + k) (h : c.y ∈ Set.uIcc a.y b.y) : c.x ∈ Set.uIcc a.x b.x := by
  rw [ha, hb, hc] at h
  change c.x ∈ Set.preimage (m * ·) (Set.preimage (· + k) (Set.uIcc (m * a.x + k) (m * b.x + k)))
    at h
  rwa [Set.preimage_add_const_uIcc, add_sub_cancel_right, add_sub_cancel_right,
    Set.preimage_const_mul_uIcc hm, mul_div_cancel_left₀ _ hm, mul_div_cancel_left₀ _ hm] at h

/-- A steep line meets an edge between a position in the window and where it meets the line through
the left side, or the one through the right side. -/
theorem exists_crossing (hcoincidence : 0 < tol.coincidence) (hsteep : tol.coincidence < |m|)
    (hq : q.y = m * q.x + k) (hin : w.Contains q) {x₀ : ℝ} (hside : x₀ = w.minX ∨ x₀ = w.maxX) :
    ∃ c ∈ crossings tol w m k, c.x ∈ Set.uIcc x₀ q.x := by
  have hx := hin.1.1.trans hin.1.2
  have hy := hin.2.1.trans hin.2.2
  have hm : m ≠ 0 := abs_pos.1 (hcoincidence.trans hsteep)
  have hspan : x₀ ∈ Set.Icc w.minX w.maxX := by
    rcases hside with rfl | rfl
    · exact ⟨le_rfl, hx⟩
    · exact ⟨hx, le_rfl⟩
  have hlevel {y₀ : ℝ} (hedge : y₀ = w.minY ∨ y₀ = w.maxY)
      (hbetween : y₀ ∈ Set.uIcc (m * x₀ + k) q.y) :
      ∃ c ∈ crossings tol w m k, c.x ∈ Set.uIcc x₀ q.x := by
    obtain ⟨hcy, hc⟩ := (eq_of_level (p := ⟨(y₀ - k) / m, y₀⟩) hm).1 rfl
    have hcx := mem_uIcc_of_line (a := ⟨x₀, m * x₀ + k⟩) hm rfl hq hc hbetween
    refine ⟨_, (mem_crossings_iff hcoincidence hx hy).2 ⟨hc, ⟨?_, ?_⟩, .inr ⟨hsteep, hedge⟩⟩, hcx⟩
    · exact Set.uIcc_subset_Icc hspan hin.1 hcx
    · rcases hedge with rfl | rfl
      · exact ⟨le_rfl, hy⟩
      · exact ⟨hy, le_rfl⟩
  -- The line through the side is met below the window, above it, or on the side.
  by_cases hlower : m * x₀ + k < w.minY
  · exact hlevel (.inl rfl) (Set.mem_uIcc.2 (.inl ⟨hlower.le, hin.2.1⟩))
  · by_cases hupper : w.maxY < m * x₀ + k
    · exact hlevel (.inr rfl) (Set.mem_uIcc.2 (.inr ⟨hin.2.2, hupper.le⟩))
    · exact ⟨⟨x₀, m * x₀ + k⟩, (mem_crossings_iff hcoincidence hx hy).2
        ⟨rfl, ⟨hspan, not_lt.1 hlower, not_lt.1 hupper⟩, .inl hside⟩, Set.left_mem_uIcc⟩

/-- **A steep line leaves the window on both sides** of a position in it. -/
theorem exists_crossings_around (hcoincidence : 0 < tol.coincidence)
    (hsteep : tol.coincidence < |m|) (hq : q.y = m * q.x + k) (hin : w.Contains q) :
    (∃ c ∈ crossings tol w m k, c.x ≤ q.x) ∧ ∃ c ∈ crossings tol w m k, q.x ≤ c.x := by
  constructor
  · obtain ⟨c, hc, hcx⟩ := exists_crossing hcoincidence hsteep hq hin (.inl rfl)
    rw [Set.uIcc_of_le hin.1.1] at hcx
    exact ⟨c, hc, hcx.2⟩
  · obtain ⟨c, hc, hcx⟩ := exists_crossing hcoincidence hsteep hq hin (.inr rfl)
    rw [Set.uIcc_comm, Set.uIcc_of_le hin.1.2] at hcx
    exact ⟨c, hc, hcx.1⟩

/-! ## What lies between the ends -/

namespace Ends

/-- A line that is not steep meets the sides of a window on the left and on the right only. -/
theorem of_flat (h : Ends tol (crossings tol w m k) a b) (hcoincidence : 0 < tol.coincidence)
    (hx : w.minX ≤ w.maxX) (hy : w.minY ≤ w.maxY) (hflat : ¬tol.coincidence < |m|) :
    a.x = w.minX ∧ b.x = w.maxX := by
  have hsides {p : Coord ℝ} (hp : p ∈ crossings tol w m k) : p.x = w.minX ∨ p.x = w.maxX :=
    ((mem_crossings_iff hcoincidence hx hy).1 hp).2.2.resolve_right fun hsteep => hflat hsteep.1
  have hlt := h.lt
  rcases hsides h.left_mem with ha | ha <;> rcases hsides h.right_mem with hb | hb
  · exact absurd (ha.trans hb.symm) hlt.ne
  · exact ⟨ha, hb⟩
  · rw [ha, hb] at hlt
    exact absurd hx hlt.not_ge
  · exact absurd (ha.trans hb.symm) hlt.ne

/-- **Nothing of a line in a window lies beyond the ends** unless it coincides with one. -/
theorem covers (h : Ends tol (crossings tol w m k) a b) (hcoincidence : 0 < tol.coincidence)
    (hq : q.y = m * q.x + k) (hin : w.Contains q) :
    tol.same q a = true ∨ (a.x ≤ q.x ∧ q.x ≤ b.x) ∨ tol.same q b = true := by
  have hx := hin.1.1.trans hin.1.2
  have hy := hin.2.1.trans hin.2.2
  have hline {p : Coord ℝ} (hp : p ∈ crossings tol w m k) : p.y = m * p.x + k :=
    ((mem_crossings_iff hcoincidence hx hy).1 hp).1
  by_cases hsteep : tol.coincidence < |m|
  · obtain ⟨⟨c, hc, hcq⟩, d, hd, hqd⟩ := exists_crossings_around hcoincidence hsteep hq hin
    by_cases hleft : q.x < a.x
    · -- The crossing left of `q` coincides with one that is not left of the end.
      obtain ⟨u, hu, hsame, hau⟩ := h.left c hc
      refine .inl (same_of_nearer (hline hu) (hline hc) hq (hline h.left_mem) hsame ?_)
      rw [abs_sub_comm, abs_of_pos (sub_pos.2 hleft)]
      exact (sub_le_sub hau hcq).trans (le_abs_self _)
    · by_cases hright : b.x < q.x
      · obtain ⟨u, hu, hsame, hub⟩ := h.right d hd
        refine .inr (.inr (same_of_nearer (hline hu) (hline hd) hq (hline h.right_mem) hsame ?_))
        rw [abs_of_pos (sub_pos.2 hright), abs_sub_comm]
        exact (sub_le_sub hqd hub).trans (le_abs_self _)
      · exact .inr (.inl ⟨not_lt.1 hleft, not_lt.1 hright⟩)
  · obtain ⟨ha, hb⟩ := h.of_flat hcoincidence hx hy hsteep
    rw [ha, hb]
    exact .inr (.inl hin.1)

end Ends

/-- **A position on the segment from `a` to `b`.** -/
def Between (a b p : Coord ℝ) : Prop := ∃ t : ℝ, 0 ≤ t ∧ t ≤ 1 ∧ p = a + (b - a).scale t

theorem between_left : Between a b a := by
  refine ⟨0, le_rfl, zero_le_one, ?_⟩
  ext <;> simp

theorem between_right : Between a b b := by
  refine ⟨1, zero_le_one, le_rfl, ?_⟩
  ext <;> simp

/-- What is between two positions of a line by width is on their segment. -/
theorem between_of_line (hlt : a.x < b.x) (ha : a.y = m * a.x + k) (hb : b.y = m * b.x + k)
    (hp : p.y = m * p.x + k) (hleft : a.x ≤ p.x) (hright : p.x ≤ b.x) : Between a b p := by
  have hpos : 0 < b.x - a.x := sub_pos.2 hlt
  have hcancel : (b.x - a.x) * ((p.x - a.x) / (b.x - a.x)) = p.x - a.x := mul_div_cancel₀ _ hpos.ne'
  refine ⟨(p.x - a.x) / (b.x - a.x), div_nonneg (sub_nonneg.2 hleft) hpos.le,
    (div_le_one hpos).2 (sub_le_sub_right hright _), ?_⟩
  ext
  · rw [Coord.add_x, Coord.scale_x, Coord.sub_x, hcancel, add_sub_cancel]
  · rw [Coord.add_y, Coord.scale_y, Coord.sub_y, ha, hb, hp]
    linear_combination -m * hcancel

/-! ## Chords -/

/-- The direction of the line through `p` with a given course, be it negligible or not. -/
noncomputable def Course.vector (p : Coord ℝ) : Course ℝ → Coord ℝ
  | .through q => q - p
  | .along v => v

/-- **A line has its direction unless this is negligible on both axes.** The error says how the line
was given. -/
theorem Course.direction_cases (tol : Tolerance ℝ) (p : Coord ℝ) (course : Course ℝ) :
    (|(course.vector p).x| < tol.coincidence ∧ |(course.vector p).y| < tol.coincidence) ∧
        (course.direction tol p = .error (.degenerateLine .coincidentPoints) ∨
          course.direction tol p = .error (.degenerateLine .zeroDirection)) ∨
      (tol.coincidence ≤ |(course.vector p).x| ∨ tol.coincidence ≤ |(course.vector p).y|) ∧
        course.direction tol p = .ok (course.vector p) := by
  rw [← not_lt, ← not_lt, ← not_and_or]
  cases course with
  | through q =>
    have hsame : tol.same p q = true ↔
        |(q - p).x| < tol.coincidence ∧ |(q - p).y| < tol.coincidence := by
      rw [Exact.same_iff, abs_sub_comm, abs_sub_comm p.y, Coord.sub_x, Coord.sub_y]
    rw [vector, ← hsame]
    by_cases h : tol.same p q = true
    · exact .inl ⟨h, .inl (if_pos h)⟩
    · exact .inr ⟨h, if_neg h⟩
  | along u =>
    have hzero : (tol.negligible u.x && tol.negligible u.y) = true ↔
        |u.x| < tol.coincidence ∧ |u.y| < tol.coincidence := by
      rw [Bool.and_eq_true, Tolerance.negligible, Tolerance.negligible, Exact.lt_iff, Exact.lt_iff]
      rfl
    rw [vector, ← hzero]
    by_cases h : (tol.negligible u.x && tol.negligible u.y) = true
    · exact .inl ⟨h, .inr (if_pos h)⟩
    · exact .inr ⟨h, if_neg h⟩

theorem Course.direction_eq_ok_iff {course : Course ℝ} :
    course.direction tol p = .ok v ↔ v = course.vector p ∧
      (tol.coincidence ≤ |(course.vector p).x| ∨ tol.coincidence ≤ |(course.vector p).y|) := by
  rcases course.direction_cases tol p with ⟨hsmall, hdir | hdir⟩ | ⟨hlarge, hdir⟩
  · rw [hdir, ← not_lt, ← not_lt, ← not_and_or]
    exact ⟨nofun, fun h => absurd hsmall h.2⟩
  · rw [hdir, ← not_lt, ← not_lt, ← not_and_or]
    exact ⟨nofun, fun h => absurd hsmall h.2⟩
  · rw [hdir, Except.ok.injEq, eq_comm]
    exact (and_iff_left hlarge).symm

/-- A line is given by its slope and its height. -/
theorem passes_iff (hx : v.x ≠ 0) :
    Passes p v q ↔ q.y = v.y / v.x * q.x + (p.y - v.y / v.x * p.x) := by
  have hslope : v.y / v.x * v.x = v.y := div_mul_cancel₀ _ hx
  rw [Passes, Exact.cross_eq, Coord.sub_x, Coord.sub_y]
  constructor
  · intro hpasses
    refine mul_right_cancel₀ hx ?_
    linear_combination -hpasses - (q.x - p.x) * hslope
  · intro hy
    linear_combination -v.x * hy - (q.x - p.x) * hslope

/-- An upright line is shown where the window is. -/
theorem chord_of_upright {course : Course ℝ} (hv : course.direction tol p = .ok v)
    (hx : |v.x| < tol.coincidence) :
    chord tol w p course =
      if w.spansX p.x then .ok (⟨p.x, w.minY⟩, ⟨p.x, w.maxY⟩)
      else .error (.degenerateLine .missesWindow) := by
  rw [chord, hv]
  exact if_pos (Exact.lt_iff.2 hx)

/-- **Of any other line it is shown what is between the outermost positions on the sides**, if two
of them do not coincide. -/
theorem chord_of_slanted {course : Course ℝ} (hv : course.direction tol p = .ok v)
    (hx : tol.coincidence ≤ |v.x|)
    (hkept : distinct tol (crossings tol w (v.y / v.x) (p.y - v.y / v.x * p.x)) = kept) :
    (∃ first second rest, kept = first :: second :: rest ∧ chord tol w p course =
      .ok (leftmost first (second :: rest), rightmost first (second :: rest))) ∨
    kept.length < 2 ∧ chord tol w p course = .error (.degenerateLine .missesWindow) := by
  have hslanted : ¬tol.negligible v.x = true := mt Exact.lt_iff.1 hx.not_gt
  rw [chord, hv]
  rcases kept with _ | ⟨first, _ | ⟨second, rest⟩⟩
  · exact .inr ⟨Nat.zero_lt_two, (if_neg hslanted).trans (by rw [hkept]; rfl)⟩
  · exact .inr ⟨Nat.one_lt_two, (if_neg hslanted).trans (by rw [hkept]; rfl)⟩
  · exact .inl ⟨first, second, rest, rfl, (if_neg hslanted).trans (by rw [hkept]; rfl)⟩

/-- The chord of a line that is not upright ends in the ends of where it meets the sides. -/
theorem ends_of_chord {course : Course ℝ} (hcoincidence : 0 < tol.coincidence)
    (hx : w.minX ≤ w.maxX) (hy : w.minY ≤ w.maxY) (hv : course.direction tol p = .ok v)
    (hslanted : tol.coincidence ≤ |v.x|) (h : chord tol w p course = .ok (a, b)) :
    Ends tol (crossings tol w (v.y / v.x) (p.y - v.y / v.x * p.x)) a b := by
  have hcases := chord_of_slanted (w := w) hv hslanted rfl
  rw [h] at hcases
  rcases hcases with ⟨first, second, rest, hkept, hchord⟩ | ⟨-, hchord⟩
  · cases hchord
    exact ends_of_distinct hcoincidence
      (fun q hq => ((mem_crossings_iff hcoincidence hx hy).1 hq).1) hkept
  · cases hchord

/-- Where a line meets the sides of a window there is an edge. -/
theorem onEdge_of_mem_crossings (hcoincidence : 0 < tol.coincidence) (hx : w.minX ≤ w.maxX)
    (hy : w.minY ≤ w.maxY) (h : p ∈ crossings tol w m k) : w.OnEdge p := by
  obtain ⟨-, hin, hedge⟩ := (mem_crossings_iff hcoincidence hx hy).1 h
  exact ⟨hin, hedge.imp_right And.right⟩

/-- **A chord ends on edges of the window and leaves out nothing of its line.** In exact arithmetic,
let a window be no smaller than the tolerance on either axis. The ends of a chord are on edges of
the window, in order from left to right, and do not coincide. If the direction of the line is not
negligible on the horizontal axis, they are on the line, and whatever of the line is in the window
coincides with some position on the segment between them. -/
theorem chord_covers_window {course : Course ℝ} (hcoincidence : 0 < tol.coincidence)
    (hwidth : tol.coincidence ≤ w.width) (hheight : tol.coincidence ≤ w.height)
    (h : chord tol w p course = .ok (a, b)) :
    w.OnEdge a ∧ w.OnEdge b ∧ a.x ≤ b.x ∧ tol.same a b = false ∧
      let v := course.vector p
      (tol.coincidence ≤ |v.x| →
        Passes p v a ∧ Passes p v b ∧
        ∀ q, Passes p v q → w.Contains q → ∃ r, Between a b r ∧ tol.same q r = true) := by
  have hx : w.minX ≤ w.maxX := sub_nonneg.1 (hcoincidence.le.trans hwidth)
  have hy : w.minY ≤ w.maxY := sub_nonneg.1 (hcoincidence.le.trans hheight)
  obtain ⟨v, hv, -⟩ := bind_eq_ok_iff.1 h
  obtain rfl := (Course.direction_eq_ok_iff.1 hv).1
  by_cases hslanted : tol.coincidence ≤ |(course.vector p).x|
  · have hends := ends_of_chord hcoincidence hx hy hv hslanted h
    have hne : (course.vector p).x ≠ 0 := abs_pos.1 (hcoincidence.trans_le hslanted)
    have ha := ((mem_crossings_iff hcoincidence hx hy).1 hends.left_mem).1
    have hb := ((mem_crossings_iff hcoincidence hx hy).1 hends.right_mem).1
    refine ⟨onEdge_of_mem_crossings hcoincidence hx hy hends.left_mem,
      onEdge_of_mem_crossings hcoincidence hx hy hends.right_mem, hends.lt.le, hends.apart, ?_⟩
    refine fun _ => ⟨(passes_iff hne).2 ha, (passes_iff hne).2 hb, fun q hpasses hin => ?_⟩
    have hq := (passes_iff hne).1 hpasses
    rcases hends.covers hcoincidence hq hin with hsame | ⟨hleft, hright⟩ | hsame
    · exact ⟨a, between_left, hsame⟩
    · exact ⟨q, between_of_line hends.lt ha hb hq hleft hright, Exact.same_self hcoincidence q⟩
    · exact ⟨b, between_right, hsame⟩
  · rw [chord_of_upright hv (not_le.1 hslanted)] at h
    by_cases hspan : w.spansX p.x = true
    · rw [if_pos hspan] at h
      cases h
      have hspanx := Window.spansX_iff.1 hspan
      refine ⟨⟨⟨hspanx, le_rfl, hy⟩, .inr (.inl rfl)⟩, ⟨⟨hspanx, hy, le_rfl⟩, .inr (.inr rfl)⟩,
        le_rfl, ?_, fun hlarge => absurd hlarge hslanted⟩
      rw [← Bool.not_eq_true, Exact.same_iff, abs_sub_comm w.minY]
      exact fun hsame => (hheight.trans (le_abs_self _)).not_gt hsame.2
    · rw [if_neg hspan] at h
      cases h

/-- A diagonal, which meets two sides at once in either corner. -/
theorem chord_covers_square :
    let tol : Tolerance ℝ := .standard
    let w : Window ℝ := .standard
    let course : Course ℝ := .along ⟨2, 2⟩
    0 < tol.coincidence ∧ tol.coincidence ≤ w.width ∧ tol.coincidence ≤ w.height ∧
      chord tol w ⟨3, 3⟩ course = .ok (⟨-10, -10⟩, ⟨10, 10⟩) ∧
      tol.coincidence ≤ |(course.vector ⟨3, 3⟩).x| ∧
      ∃ r, Between ⟨-10, -10⟩ ⟨10, 10⟩ r ∧ tol.same ⟨4, 4⟩ r = true := by
  intro tol w course
  have hcoincidence : tol.coincidence = 1 / 10 ^ 9 := Exact.coincidence_standard_eq_div
  have hpos : 0 < tol.coincidence := by
    rw [hcoincidence]
    norm_num
  have hw : w = ⟨-10, 10, -10, 10⟩ := Window.standard_eq
  have hwidth : tol.coincidence ≤ w.width := by
    norm_num [hcoincidence, hw, Window.width]
  have hheight : tol.coincidence ≤ w.height := by
    norm_num [hcoincidence, hw, Window.height]
  have hlarge : tol.coincidence ≤ |(2 : ℝ)| := by
    norm_num [hcoincidence]
  have hv : course.direction tol ⟨3, 3⟩ = .ok ⟨2, 2⟩ :=
    Course.direction_eq_ok_iff.2 ⟨rfl, .inl hlarge⟩
  have hkept : distinct tol (crossings tol w (2 / 2) (3 - 2 / 2 * 3)) =
      [⟨-10, -10⟩, ⟨10, 10⟩] := by
    norm_num [distinct, crossings, hw, Window.spansX_iff, Window.spansY_iff, Exact.same_iff,
      Exact.abs_eq, hcoincidence]
  have hchord : chord tol w ⟨3, 3⟩ course = .ok (⟨-10, -10⟩, ⟨10, 10⟩) := by
    rcases chord_of_slanted (w := w) hv hlarge hkept with ⟨first, second, rest, heq, h⟩ | ⟨hfew, -⟩
    · cases heq
      rw [h]
      norm_num [leftmost, rightmost]
    · exact absurd hfew (by decide)
  obtain ⟨-, -, -, -, hcovers⟩ := chord_covers_window hpos hwidth hheight hchord
  obtain ⟨-, -, hbetween⟩ := hcovers hlarge
  refine ⟨hpos, hwidth, hheight, hchord, hlarge, hbetween ⟨4, 4⟩ ?_ ?_⟩
  · show ((4 : ℝ) - 3) * 2 - (4 - 3) * 2 = 0
    norm_num
  · rw [hw]
    norm_num [Window.Contains]

end Straightedge.Line
