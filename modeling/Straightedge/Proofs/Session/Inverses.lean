import Mathlib.Tactic.LinearCombination
import Straightedge.Proofs.Plane.Exact
import Straightedge.Proofs.Session.Motions

/-! # Motions and their inverses

In exact arithmetic a motion is undone by another one: a shift by the opposite shift, a turn by the
opposite turn about the same point, a reflection by itself. What holds of the maps of the plane
holds of whole sessions, for a motion that puts a figure in its place keeps everything else.

* **`Exact.turning`**, **`Exact.Turns`**: real numbers with other functions for cosine and sine, and
  what these have to satisfy.
* **`Affine.Undoes`**: a map that takes every image back.
* **`Registry.Indexed.eq_of_update_back`**: a figure that is put back makes the registry what it
  was.
* **`Session.Undone`**: two motions one after another that leave the session as it was.
* **`Session.undone_of_undoes`**: from maps to sessions.
* **`Session.Reachable.motions_undone`**: the motions of scripts and their inverses. -/

namespace Straightedge

/-! ## Maps of the plane -/

/-- Real numbers with the given functions as cosine and sine. -/
@[reducible]
noncomputable def Exact.turning (cos sin : ℝ → ℝ) : Scalar ℝ :=
  { Exact.instScalar with cos := cos, sin := sin }

/-- **What turns need of cosine and sine**: they are the coordinates of a point of the unit circle,
and the opposite turn leads to its mirror image. -/
structure Exact.Turns (cos sin : ℝ → ℝ) : Prop where
  sq_add_sq : ∀ x, cos x ^ 2 + sin x ^ 2 = 1
  cos_neg : ∀ x, cos (-x) = cos x
  sin_neg : ∀ x, sin (-x) = -sin x

namespace Affine

/-- **The map `g` takes every image under `f` back.** -/
def Undoes {α : Type} [Scalar α] (g f : Affine α) : Prop := ∀ p, g.apply (f.apply p) = p

section

variable (cos sin : ℝ → ℝ)

/-- A shift adds to both components. -/
theorem apply_translation (dx dy : ℝ) (p : Coord ℝ) :
    letI := Exact.turning cos sin
    (translation dx dy).apply p = ⟨p.x + dx, p.y + dy⟩ := by
  ext
  · show ((1 : ℕ) : ℝ) * p.x + ((0 : ℕ) : ℝ) * p.y + dx = p.x + dx
    rw [Nat.cast_one, Nat.cast_zero, one_mul, zero_mul, add_zero]
  · show ((0 : ℕ) : ℝ) * p.x + ((1 : ℕ) : ℝ) * p.y + dy = p.y + dy
    rw [Nat.cast_one, Nat.cast_zero, one_mul, zero_mul, zero_add]

/-- A reflection puts a position as far behind the mirror. -/
theorem apply_reflection (mirror p : Coord ℝ) :
    letI := Exact.turning cos sin
    (reflection mirror).apply p = ⟨2 * mirror.x - p.x, 2 * mirror.y - p.y⟩ := by
  ext
  · show -((1 : ℕ) : ℝ) * p.x + -((0 : ℕ) : ℝ) * p.y + mirror.x * ((2 : ℕ) : ℝ) = 2 * mirror.x - p.x
    push_cast
    ring
  · show -((0 : ℕ) : ℝ) * p.x + -((1 : ℕ) : ℝ) * p.y + mirror.y * ((2 : ℕ) : ℝ) = 2 * mirror.y - p.y
    push_cast
    ring

/-- A rotation turns the direction from the pivot. -/
theorem apply_rotation (pivot : Coord ℝ) (degrees : ℝ) (p : Coord ℝ) :
    letI := Exact.turning cos sin
    let angle : ℝ := Scalar.radians degrees
    (rotation pivot degrees).apply p =
      ⟨pivot.x + (cos angle * (p.x - pivot.x) - sin angle * (p.y - pivot.y)),
        pivot.y + (sin angle * (p.x - pivot.x) + cos angle * (p.y - pivot.y))⟩ := by
  intro angle
  ext
  · show cos angle * p.x + -sin angle * p.y +
      (pivot.x - (cos angle * pivot.x + -sin angle * pivot.y)) = _
    ring
  · show sin angle * p.x + cos angle * p.y +
      (pivot.y - (sin angle * pivot.x + cos angle * pivot.y)) = _
    ring

/-- The opposite shift takes every position back. -/
theorem translation_undoes (dx dy : ℝ) :
    letI := Exact.turning cos sin
    (translation (-dx) (-dy)).Undoes (translation dx dy) := by
  intro p
  rw [apply_translation, apply_translation]
  ext
  · exact add_neg_cancel_right p.x dx
  · exact add_neg_cancel_right p.y dy

/-- A reflection takes every position back that it has moved. -/
theorem reflection_undoes (mirror : Coord ℝ) :
    letI := Exact.turning cos sin
    (reflection mirror).Undoes (reflection mirror) := by
  intro p
  rw [apply_reflection, apply_reflection]
  ext
  · exact sub_sub_cancel _ p.x
  · exact sub_sub_cancel _ p.y

variable {cos sin}

/-- The opposite turn about the same point takes every position back. -/
theorem rotation_undoes (h : Exact.Turns cos sin) (pivot : Coord ℝ) (degrees : ℝ) :
    letI := Exact.turning cos sin
    (rotation pivot (-degrees)).Undoes (rotation pivot degrees) := by
  intro p
  let _ := Exact.turning cos sin
  have hneg : (Scalar.radians (-degrees) : ℝ) = -Scalar.radians degrees := neg_mul _ _
  have hunit := h.sq_add_sq (Scalar.radians degrees)
  rw [apply_rotation, apply_rotation, hneg, h.cos_neg, h.sin_neg]
  ext
  · show pivot.x + _ = p.x
    linear_combination (p.x - pivot.x) * hunit
  · show pivot.y + _ = p.y
    linear_combination (p.y - pivot.y) * hunit

end

end Affine

variable {α : Type} [Scalar α]

/-- What a map does to a figure, the map that undoes it undoes. -/
theorem Figure.map_map_of_undoes {f g : Affine α} (h : g.Undoes f) (figure : Figure α) :
    (figure.map f).map g = figure := by
  cases figure with
  | point m => rw [map, map, h m.coord]
  | curve c =>
    have hvertices : (c.vertices.map f.apply).map g.apply = c.vertices := by
      rw [List.map_map]
      exact List.map_id'' h c.vertices
    rw [map, map, hvertices]
  | label l => rw [map, map, h l.coord]

/-! ## Figures put back -/

namespace Registry.Indexed

variable {r r' r'' : Registry α} {name : String} {figure moved : Figure α}

omit [Scalar α] in
/-- A replacement is found. -/
theorem find_update (hr : r.Indexed) (hfind : r.find name = .ok figure)
    (hupdate : r.update name (fun _ => moved) = .ok r') : r'.find name = .ok moved := by
  have hget : r'.get? name = some moved := by
    rw [(hr.update hupdate).get?_eq_some_iff]
    exact hr.mem_toList_update hfind hupdate
  rw [find, hget]

omit [Scalar α] in
/-- **A figure that is put back makes the registry what it was.** -/
theorem eq_of_update_back (hr : r.Indexed) (hfind : r.find name = .ok figure)
    (hupdate : r.update name (fun _ => moved) = .ok r')
    (hback : r'.update name (fun _ => figure) = .ok r'') : r'' = r := by
  obtain ⟨i, hi, rfl⟩ := (update_eq_ok_iff r r' name _).1 hupdate
  obtain ⟨j, hj, rfl⟩ := (update_eq_ok_iff _ r'' name _).1 hback
  -- the index has not changed, so both replacements are made at one position
  cases Option.some.inj (hi.symm.trans hj)
  obtain ⟨_, hentry, hfind'⟩ := hr.exists_entry hi
  cases hfind.symm.trans hfind'
  rw [toList, Array.getElem?_toList] at hentry
  have hentries : (r.entries.modify i fun entry => (entry.1, moved)).modify i
      (fun entry => (entry.1, figure)) = r.entries := by
    refine Array.ext_getElem? fun k => ?_
    rw [Array.getElem?_modify, Array.getElem?_modify]
    by_cases hk : i = k
    · subst hk
      rw [if_pos rfl, if_pos rfl, hentry]
      rfl
    · rw [if_neg hk, if_neg hk]
  show (⟨_, r.index⟩ : Registry α) = r
  rw [hentries]

end Registry.Indexed

/-! ## Motions one after another -/

namespace Session

variable [Numeral α] {s : Session α} {first second : Motion α} {element : String}

/-- **Two motions of a figure, where it stands, leave a session as it was**, and both succeed. -/
def Undone (s : Session α) (first second : Motion α) (element : String) : Prop :=
  let moved := s.perform (first.operation element none)
  moved.1 = .ok (.name element) ∧
    moved.2.perform (second.operation element none) = (.ok (.name element), s)

/-- **Motions undo each other in sessions if they do so in the plane**, where no number is
infinite. -/
theorem undone_of_undoes (hs : s.registry.Indexed) {f g : Affine α}
    (hfirst : first.map s = .ok f) (hsecond : ∀ t, second.map t = .ok g) (hundoes : g.Undoes f)
    (hfinite : ∀ p : Coord α, p.isFinite = true) (helement : element ∈ s.registry.names) :
    s.Undone first second element := by
  have hall (figure : Figure α) : figure.isFinite = true :=
    List.all_eq_true.2 fun p _ => hfinite p
  obtain ⟨⟨name, figure⟩, hentry, hname⟩ := List.mem_map.1 helement
  obtain rfl : name = element := hname
  have hfind : s.registry.find name = .ok figure := by
    rw [Registry.find, (hs.get?_eq_some_iff name figure).2 hentry]
  have himage := Motion.image_eq_ok_iff.2 ⟨f, hfirst, figure, hfind, hall _, rfl⟩
  obtain ⟨r, hupdate, hmove⟩ := exists_perform_motion hs himage
  -- the image is found where the figure was, and its image is the figure
  have hback := Motion.image_eq_ok_iff.2
    ⟨g, hsecond { s with registry := r }, _, hs.find_update hfind hupdate, hall _, rfl⟩
  rw [Figure.map_map_of_undoes hundoes] at hback
  obtain ⟨r', hrestore, hreturn⟩ := exists_perform_motion (hs.update hupdate) hback
  obtain rfl := hs.eq_of_update_back hfind hupdate hrestore
  unfold Undone
  rw [hmove]
  exact ⟨rfl, hreturn⟩

end Session

/-- **Motions are undone by their inverses.** In exact arithmetic, whatever cosine and sine are as
long as turns may rely on them, in every session that operations lead to and for each figure in it:
a shift and the opposite shift, two reflections through one point, and a turn and the opposite turn
about one point all succeed and leave the session as it was. -/
theorem Session.Reachable.motions_undone {cos sin : ℝ → ℝ} (h : Exact.Turns cos sin) [Numeral ℝ] :
    letI := Exact.turning cos sin
    ∀ s : Session ℝ, s.Reachable → ∀ element ∈ s.registry.names,
      (∀ dx dy, s.Undone (.translation dx dy) (.translation (-dx) (-dy)) element) ∧
      (∀ mirror, s.Undone (.reflection (.position mirror)) (.reflection (.position mirror))
        element) ∧
      ∀ pivot degrees, s.Undone (.rotation (.position pivot) degrees)
        (.rotation (.position pivot) (-degrees)) element := by
  let _ := Exact.turning cos sin
  intro s hs element helement
  refine ⟨fun dx dy => ?_, fun mirror => ?_, fun pivot degrees => ?_⟩
  · exact undone_of_undoes hs.indexed rfl (fun _ => rfl) (Affine.translation_undoes cos sin dx dy)
      (fun _ => rfl) helement
  · exact undone_of_undoes hs.indexed rfl (fun _ => rfl) (Affine.reflection_undoes cos sin mirror)
      (fun _ => rfl) helement
  · exact undone_of_undoes hs.indexed rfl (fun _ => rfl) (Affine.rotation_undoes h pivot degrees)
      (fun _ => rfl) helement

/-- With the usual cosine and sine, the point `A` on the horizontal axis is turned by a right angle
about the origin and back. -/
theorem Session.motions_undone_of_point :
    letI := Exact.turning Real.cos Real.sin
    letI := Exact.decimals
    let s : Session ℝ := ((new .standard).perform (.point (.position ⟨1, 0⟩) (some "A"))).2
    Exact.Turns Real.cos Real.sin ∧ s.Reachable ∧ "A" ∈ s.registry.names ∧
      s.Undone (.rotation (.position ⟨0, 0⟩) 90) (.rotation (.position ⟨0, 0⟩) (-90)) "A" := by
  let _ := Exact.turning Real.cos Real.sin
  let _ := Exact.decimals
  intro s
  have hturns : Exact.Turns Real.cos Real.sin :=
    ⟨Real.cos_sq_add_sin_sq, Real.cos_neg, Real.sin_neg⟩
  have hs : s.Reachable := (Reachable.new .standard).perform _
  have hfree : (Registry.empty : Registry ℝ).requireFree "A" = .ok () :=
    Registry.requireFree_empty (by decide)
  have hplan := Operation.draws_point (p := (⟨1, 0⟩ : Coord ℝ)) rfl "A" (new .standard) hfree
  obtain ⟨r, hinsert, hpoint⟩ := exists_perform_addOne hplan hfree
  have hmem : "A" ∈ s.registry.names := by
    simp only [s, hpoint]
    rw [Registry.names, Registry.toList_insert hinsert]
    exact List.mem_singleton_self _
  exact ⟨hturns, hs, hmem, (Reachable.motions_undone hturns s hs "A" hmem).2.2 ⟨0, 0⟩ 90⟩

end Straightedge
