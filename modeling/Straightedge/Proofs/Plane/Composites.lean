import Mathlib.Tactic.FieldSimp
import Straightedge.Plane.Affine
import Straightedge.Proofs.Plane.Exact

/-! # Composites of affine maps

Maps one after another are one map, and in exact arithmetic it does to every position what they do
in turn. It can be undone if and only if each of them can, by their inverses in the opposite order.
How linear maps are inverted is left open: of a way to do so it is only asked that it finds an
inverse of every map that has one.

* **`Affine.compose_assoc`**, **`Affine.apply_compose`**: composition is that of functions.
* **`Linear.det_compose`**: determinants are multiplied.
* **`Linear.Inverts`**, **`Affine.Inverts`**: a map that undoes another one on both sides.
* **`Linear.FindsInverses`**: what is asked of a way to invert linear maps.
* **`Linear.FindsInverses.isSome_iff`**: it finds an inverse exactly if the determinant is not zero.
* **`Affine.inverseBy?_eq_some_iff`**: what the computed inverse is.
* **`Affine.inverseBy?_compose`**: the inverse of two maps one after another.
* **`Affine.chain_cons`**, **`Affine.chain_append`**: composites of lists.
* **`Affine.chain_composes_and_inverts`**: all of this for lists of any length. -/

namespace Straightedge

/-! ## Linear parts -/

namespace Linear

/-- The image of a direction, by its components. -/
theorem apply_eq (m : Linear ℝ) (v : Coord ℝ) :
    m.apply v = ⟨m.m11 * v.x + m.m12 * v.y, m.m21 * v.x + m.m22 * v.y⟩ := rfl

/-- A composite, by its entries. -/
theorem compose_eq (m n : Linear ℝ) :
    m.compose n = ⟨m.m11 * n.m11 + m.m12 * n.m21, m.m11 * n.m12 + m.m12 * n.m22,
      m.m21 * n.m11 + m.m22 * n.m21, m.m21 * n.m12 + m.m22 * n.m22⟩ := rfl

theorem identity_eq : (identity : Linear ℝ) = ⟨1, 0, 0, 1⟩ := by
  show (⟨((1 : ℕ) : ℝ), ((0 : ℕ) : ℝ), ((0 : ℕ) : ℝ), ((1 : ℕ) : ℝ)⟩ : Linear ℝ) = _
  rw [Nat.cast_one, Nat.cast_zero]

theorem det_eq (m : Linear ℝ) : m.det = m.m11 * m.m22 - m.m21 * m.m12 := rfl

theorem det_identity : (identity : Linear ℝ).det = 1 := by
  rw [det_eq, identity_eq]
  ring

/-- A composite maps as its second part after its first. -/
theorem apply_compose (m n : Linear ℝ) (v : Coord ℝ) :
    (m.compose n).apply v = m.apply (n.apply v) := by
  simp only [apply_eq, compose_eq]
  ext <;> ring

@[simp] theorem apply_identity (v : Coord ℝ) : (identity : Linear ℝ).apply v = v := by
  rw [identity_eq, apply_eq]
  ext <;> ring

/-- The negated map maps to the opposite direction. -/
theorem apply_neg (m : Linear ℝ) (v : Coord ℝ) : m.neg.apply v = m.apply ⟨-v.x, -v.y⟩ := by
  simp only [apply_eq, neg]
  ext <;> ring

/-- **The determinant of a composite is the product of the determinants.** -/
theorem det_compose (m n : Linear ℝ) : (m.compose n).det = m.det * n.det := by
  simp only [det_eq, compose_eq]
  ring

/-! ## Inverses of linear parts -/

/-- **The linear map `n` undoes `m` on both sides.** -/
structure Inverts (n m : Linear ℝ) : Prop where
  compose_eq_identity : n.compose m = identity
  compose_eq_identity' : m.compose n = identity

/-- A linear map that is undone has a determinant other than zero. -/
theorem Inverts.det_ne_zero {m n : Linear ℝ} (h : n.Inverts m) : m.det ≠ 0 := by
  intro hzero
  have hdet : (n.compose m).det = 1 := by rw [h.compose_eq_identity, det_identity]
  rw [det_compose, hzero, mul_zero] at hdet
  exact zero_ne_one hdet

/-- **What is asked of a way to invert linear maps**: a map that it finds undoes the given one on
both sides, and where it finds none, there is none. -/
structure FindsInverses (invert : Linear ℝ → Option (Linear ℝ)) : Prop where
  inverts_of_eq_some : ∀ {m n : Linear ℝ}, invert m = some n → n.Inverts m
  not_inverts_of_eq_none : ∀ {m : Linear ℝ}, invert m = none → ∀ n : Linear ℝ, ¬n.Inverts m

/-- **Cofactors invert a map with a determinant other than zero.** -/
theorem exists_cofactorInverse? {m : Linear ℝ} (h : m.det ≠ 0) :
    ∃ n, m.cofactorInverse? = some n ∧ n.Inverts m := by
  have hne : ¬Scalar.eq m.det Scalar.zero = true := by rwa [Exact.eq_iff, Exact.zero_eq]
  refine ⟨_, if_neg hne, ?_, ?_⟩ <;>
    rw [compose_eq, identity_eq] <;> ext <;> field_simp <;> rw [det_eq] <;> ring

/-- Inversion by cofactors finds all inverses. -/
theorem findsInverses_cofactorInverse? :
    FindsInverses (cofactorInverse? : Linear ℝ → Option (Linear ℝ)) where
  inverts_of_eq_some := by
    intro m n h
    by_cases hdet : m.det = 0
    · rw [cofactorInverse?, if_pos (Exact.eq_iff.2 (hdet.trans Exact.zero_eq.symm))] at h
      cases h
    · obtain ⟨n', hn', hinverts⟩ := exists_cofactorInverse? hdet
      cases h.symm.trans hn'
      exact hinverts
  not_inverts_of_eq_none := by
    intro m h n hinverts
    obtain ⟨n', hn', -⟩ := exists_cofactorInverse? hinverts.det_ne_zero
    cases h.symm.trans hn'

/-- **An inverse is found exactly if the determinant is not zero.** -/
theorem FindsInverses.isSome_iff {invert : Linear ℝ → Option (Linear ℝ)}
    (hinvert : FindsInverses invert) (m : Linear ℝ) : (invert m).isSome ↔ m.det ≠ 0 := by
  constructor
  · intro hsome
    obtain ⟨n, hn⟩ := Option.isSome_iff_exists.1 hsome
    exact (hinvert.inverts_of_eq_some hn).det_ne_zero
  · intro hdet
    -- the map that cofactors give is an inverse, so there is one to be found
    obtain ⟨n, -, hn⟩ := exists_cofactorInverse? hdet
    rw [← Option.ne_none_iff_isSome]
    exact fun hnone => hinvert.not_inverts_of_eq_none hnone n hn

end Linear

namespace Affine

variable {f g f' g' : Affine ℝ}

/-! ## Two maps -/

/-- The image of a position, by its components. -/
theorem apply_eq (f : Affine ℝ) (p : Coord ℝ) :
    f.apply p = ⟨f.linear.m11 * p.x + f.linear.m12 * p.y + f.shift.x,
      f.linear.m21 * p.x + f.linear.m22 * p.y + f.shift.y⟩ := rfl

/-- A composite, by its two parts. -/
theorem compose_eq (f g : Affine ℝ) :
    f.compose g = ⟨f.linear.compose g.linear, f.apply g.shift⟩ := rfl

theorem identity_eq : (identity : Affine ℝ) = ⟨⟨1, 0, 0, 1⟩, ⟨0, 0⟩⟩ := by
  show (⟨Linear.identity, ⟨((0 : ℕ) : ℝ), ((0 : ℕ) : ℝ)⟩⟩ : Affine ℝ) = _
  rw [Linear.identity_eq, Nat.cast_zero]

theorem origin_eq : (Coord.origin : Coord ℝ) = ⟨0, 0⟩ := by
  show (⟨((0 : ℕ) : ℝ), ((0 : ℕ) : ℝ)⟩ : Coord ℝ) = _
  rw [Nat.cast_zero]

@[simp] theorem apply_identity (p : Coord ℝ) : (identity : Affine ℝ).apply p = p := by
  rw [identity_eq, apply_eq]
  ext <;> ring

/-- **A composite maps as its second part after its first.** -/
theorem apply_compose (f g : Affine ℝ) (p : Coord ℝ) :
    (f.compose g).apply p = f.apply (g.apply p) := by
  simp only [apply_eq, compose_eq, Linear.compose_eq]
  ext <;> ring

/-- **How composites are grouped does not matter.** -/
theorem compose_assoc (f g h : Affine ℝ) : (f.compose g).compose h = f.compose (g.compose h) := by
  simp only [apply_eq, compose_eq, Linear.compose_eq]
  ext <;> ring

@[simp] theorem identity_compose (f : Affine ℝ) : identity.compose f = f := by
  simp only [identity_eq, apply_eq, compose_eq, Linear.compose_eq]
  ext <;> ring

@[simp] theorem compose_identity (f : Affine ℝ) : f.compose identity = f := by
  simp only [identity_eq, apply_eq, compose_eq, Linear.compose_eq]
  ext <;> ring

/-! ## Inverses -/

/-- **The map `g` undoes the map `f` on both sides**, for positions and for maps. -/
structure Inverts (g f : Affine ℝ) : Prop where
  apply_apply : ∀ p, g.apply (f.apply p) = p
  apply_apply' : ∀ p, f.apply (g.apply p) = p
  compose_eq_identity : g.compose f = identity
  compose_eq_identity' : f.compose g = identity

namespace Inverts

/-- Maps that compose to the identity in both orders undo each other. -/
theorem of_compose (h : g.compose f = identity) (h' : f.compose g = identity) : g.Inverts f where
  apply_apply := fun p => by rw [← apply_compose, h, apply_identity]
  apply_apply' := fun p => by rw [← apply_compose, h', apply_identity]
  compose_eq_identity := h
  compose_eq_identity' := h'

theorem identity : (identity : Affine ℝ).Inverts identity :=
  of_compose (identity_compose _) (identity_compose _)

/-- One map at most undoes another one. -/
theorem unique (h : g.Inverts f) (h' : g'.Inverts f) : g = g' := by
  calc g = g.compose (f.compose g') := by rw [h'.compose_eq_identity', compose_identity]
    _ = (g.compose f).compose g' := (compose_assoc ..).symm
    _ = g' := by rw [h.compose_eq_identity, identity_compose]

/-- **What comes last is undone first.** -/
theorem compose (h : g.Inverts f) (h' : g'.Inverts f') : (g.compose g').Inverts (f'.compose f) := by
  refine of_compose ?_ ?_
  · calc (g.compose g').compose (f'.compose f) = g.compose ((g'.compose f').compose f) := by
          simp only [compose_assoc]
      _ = Affine.identity := by
          rw [h'.compose_eq_identity, identity_compose, h.compose_eq_identity]
  · calc (f'.compose f).compose (g.compose g') = f'.compose ((f.compose g).compose g') := by
          simp only [compose_assoc]
      _ = Affine.identity := by
          rw [h.compose_eq_identity', identity_compose, h'.compose_eq_identity']

/-- Where a map is undone, so is its linear part. -/
theorem linear (h : g.Inverts f) : g.linear.Inverts f.linear where
  compose_eq_identity := congrArg Affine.linear h.compose_eq_identity
  compose_eq_identity' := congrArg Affine.linear h.compose_eq_identity'

end Inverts

/-- Where the linear part has an inverse, the map has one: it takes the shift back first. -/
theorem inverts_of_linear {m n : Linear ℝ} (h : n.Inverts m) (shift : Coord ℝ) :
    Inverts ⟨n, n.neg.apply shift⟩ ⟨m, shift⟩ := by
  have hleft : n.apply shift + n.neg.apply shift = Coord.origin := by
    rw [origin_eq, Linear.apply_neg]
    simp only [Linear.apply_eq]
    ext <;> simp only [Coord.add_x, Coord.add_y] <;> ring
  have hright : m.apply (n.neg.apply shift) + shift = Coord.origin := by
    rw [origin_eq, Linear.apply_neg, ← Linear.apply_compose, h.compose_eq_identity',
      Linear.apply_identity]
    ext
    · exact neg_add_cancel shift.x
    · exact neg_add_cancel shift.y
  exact .of_compose (Affine.ext h.compose_eq_identity hleft)
    (Affine.ext h.compose_eq_identity' hright)

variable {invert : Linear ℝ → Option (Linear ℝ)} (hinvert : Linear.FindsInverses invert)
include hinvert

/-- **The computed inverse is the map that undoes the given one**, if there is such a map. -/
theorem inverseBy?_eq_some_iff : f.inverseBy? invert = some g ↔ g.Inverts f := by
  rw [inverseBy?, Option.map_eq_some_iff]
  constructor
  · rintro ⟨n, hn, rfl⟩
    exact inverts_of_linear (hinvert.inverts_of_eq_some hn) f.shift
  · intro h
    cases hfound : invert f.linear with
    | none => exact absurd h.linear (hinvert.not_inverts_of_eq_none hfound _)
    | some n =>
      exact ⟨n, rfl, (inverts_of_linear (hinvert.inverts_of_eq_some hfound) f.shift).unique h⟩

/-- Exactly the maps whose determinant is not zero have an inverse. -/
theorem isSome_inverseBy?_iff : (f.inverseBy? invert).isSome ↔ f.linear.det ≠ 0 := by
  rw [inverseBy?, Option.isSome_map, hinvert.isSome_iff]

/-- **The inverse of two maps one after another**: their inverses in the opposite order. -/
theorem inverseBy?_compose (f g : Affine ℝ) :
    (f.compose g).inverseBy? invert = (g.inverseBy? invert).bind fun first =>
      (f.inverseBy? invert).map fun second => first.compose second := by
  ext h
  simp only [Option.bind_eq_some_iff, Option.map_eq_some_iff, inverseBy?_eq_some_iff hinvert]
  constructor
  · intro hh
    -- where the composite can be undone, neither determinant is zero
    have hdet := hh.linear.det_ne_zero
    rw [compose_eq, Linear.det_compose, mul_ne_zero_iff] at hdet
    obtain ⟨first, hfirst⟩ :=
      Option.isSome_iff_exists.1 ((isSome_inverseBy?_iff hinvert).2 hdet.2)
    obtain ⟨second, hsecond⟩ :=
      Option.isSome_iff_exists.1 ((isSome_inverseBy?_iff hinvert).2 hdet.1)
    rw [inverseBy?_eq_some_iff hinvert] at hfirst hsecond
    exact ⟨first, hfirst, second, hsecond, (hfirst.compose hsecond).unique hh⟩
  · rintro ⟨first, hfirst, second, hsecond, rfl⟩
    exact hfirst.compose hsecond

omit hinvert

/-! ## Lists of maps -/

/-- A list of maps goes on from the composite of those before it. -/
theorem foldl_compose (fs : List (Affine ℝ)) (f : Affine ℝ) :
    fs.foldl (fun composite next => next.compose composite) f = (chain fs).compose f := by
  induction fs generalizing f with
  | nil => rw [List.foldl_nil, chain_nil, identity_compose]
  | cons g fs ih => rw [List.foldl_cons, ih, chain, ih, compose_assoc]

/-- The first map of a list is the inner one. -/
theorem chain_cons (f : Affine ℝ) (fs : List (Affine ℝ)) :
    chain (f :: fs) = (chain fs).compose f :=
  foldl_compose fs f

/-- A composite may be cut anywhere. -/
theorem chain_append (fs gs : List (Affine ℝ)) :
    chain (fs ++ gs) = (chain gs).compose (chain fs) := by
  induction fs with
  | nil => rw [List.nil_append, chain_nil, compose_identity]
  | cons f fs ih => rw [List.cons_append, chain_cons, ih, chain_cons, compose_assoc]

/-- **A composite maps as the maps of its list do in turn**, the first one first. -/
theorem apply_chain (fs : List (Affine ℝ)) (p : Coord ℝ) :
    (chain fs).apply p = fs.foldl (fun q f => f.apply q) p := by
  induction fs generalizing p with
  | nil => exact apply_identity p
  | cons f fs ih => rw [chain_cons, apply_compose, ih, List.foldl_cons]

/-- The determinant of a composite is not zero exactly if none of its maps has a determinant of
zero. -/
theorem det_chain_ne_zero_iff (fs : List (Affine ℝ)) :
    (chain fs).linear.det ≠ 0 ↔ ∀ f ∈ fs, f.linear.det ≠ 0 := by
  induction fs with
  | nil =>
    simp only [List.not_mem_nil, false_implies, implies_true, iff_true]
    exact Inverts.identity.linear.det_ne_zero
  | cons f fs ih =>
    rw [chain_cons, compose_eq, Linear.det_compose, mul_ne_zero_iff, ih, List.forall_mem_cons,
      and_comm]

include hinvert

/-- **A composite is undone by the inverses of its maps in the opposite order**, if all of them have
one. -/
theorem inverseBy?_chain (fs : List (Affine ℝ)) :
    (chain fs).inverseBy? invert =
      (fs.mapM (inverseBy? invert)).map fun inverses => chain inverses.reverse := by
  induction fs with
  | nil => exact (inverseBy?_eq_some_iff hinvert).2 .identity
  | cons f fs ih =>
    rw [chain_cons, inverseBy?_compose hinvert, ih, List.mapM_cons]
    cases f.inverseBy? invert with
    | none => rfl
    | some first =>
      cases fs.mapM (inverseBy? invert) with
      | none => rfl
      | some rest =>
        have hlast : chain (first :: rest).reverse = first.compose (chain rest.reverse) := by
          rw [List.reverse_cons, chain_append, chain_singleton]
        exact congrArg some hlast.symm

/-- **Affine maps compose and invert in lists of any length.** In exact arithmetic, with any way to
invert linear maps that finds their inverses, for the composite of any list of maps, which may as
well be built up from the identity: it takes every position where the maps take it one after
another, the first one first. It has an inverse exactly if no linear part has a determinant of zero;
the inverse is the composite of the inverses in the opposite order, and undoes the composite on both
sides, for positions and for maps. -/
theorem chain_composes_and_inverts (fs : List (Affine ℝ)) :
    chain fs = fs.foldl (fun composite next => next.compose composite) identity ∧
    (∀ p, (chain fs).apply p = fs.foldl (fun q f => f.apply q) p) ∧
    (((chain fs).inverseBy? invert).isSome ↔ ∀ f ∈ fs, f.linear.det ≠ 0) ∧
    ∀ g, (chain fs).inverseBy? invert = some g →
      (∃ inverses, fs.mapM (inverseBy? invert) = some inverses ∧ g = chain inverses.reverse) ∧
        g.Inverts (chain fs) := by
  refine ⟨?_, apply_chain fs, (isSome_inverseBy?_iff hinvert).trans (det_chain_ne_zero_iff fs), ?_⟩
  · rw [foldl_compose, compose_identity]
  · intro g hg
    refine ⟨?_, (inverseBy?_eq_some_iff hinvert).1 hg⟩
    rw [inverseBy?_chain hinvert, Option.map_eq_some_iff] at hg
    obtain ⟨inverses, hinverses, rfl⟩ := hg
    exact ⟨inverses, hinverses, rfl⟩

omit hinvert

/-- A shift, a quarter turn and a stretch, which do not commute, are undone together, with linear
maps inverted by cofactors. -/
theorem chain_inverts_of_three_maps :
    let invert : Linear ℝ → Option (Linear ℝ) := Linear.cofactorInverse?
    let shift : Affine ℝ := ⟨⟨1, 0, 0, 1⟩, ⟨1, 2⟩⟩
    let turn : Affine ℝ := ⟨⟨0, -1, 1, 0⟩, ⟨0, 0⟩⟩
    let stretch : Affine ℝ := ⟨⟨2, 0, 0, 1⟩, ⟨0, 0⟩⟩
    let back : Affine ℝ := ⟨⟨0, 1, -1 / 2, 0⟩, ⟨-1, -2⟩⟩
    Linear.FindsInverses invert ∧ (chain [shift, turn, stretch]).inverseBy? invert = some back ∧
      (∃ inverses, [shift, turn, stretch].mapM (inverseBy? invert) = some inverses ∧
        back = chain inverses.reverse) ∧
      back.Inverts (chain [shift, turn, stretch]) := by
  intro invert shift turn stretch back
  have hinvert : Linear.FindsInverses invert := Linear.findsInverses_cofactorInverse?
  have hback : (chain [shift, turn, stretch]).inverseBy? invert = some back := by
    refine (inverseBy?_eq_some_iff hinvert).2 (.of_compose ?_ ?_) <;>
      simp only [chain, List.foldl_cons, List.foldl_nil, shift, turn, stretch, back, identity_eq,
        compose_eq, apply_eq, Linear.compose_eq] <;>
      norm_num
  exact ⟨hinvert, hback,
    (chain_composes_and_inverts hinvert [shift, turn, stretch]).2.2.2 back hback⟩

end Affine

end Straightedge
