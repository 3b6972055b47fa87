import Straightedge.Proofs.Plane.Chords
import Straightedge.Proofs.Session.Atomicity
import Straightedge.Proofs.Session.Names

/-! # Infinite lines through positions in the window

A line through a position well inside the window is drawn as its chord, with one exception: a line
that is all but horizontal is not tested against the lower and the upper side. If it leaves the
window there, less than two of its ends are found, and it counts as one that misses the window.

* **`Line.SlipsPast`**: a line that leaves the window through a side it is not tested against.
* **`Line.two_le_length_distinct_iff`**: when a line meets the sides in two positions.
* **`Line.SlipsPast.exists_edges`**: what slips past does not miss the window.
* **`Line.chord_cases`**: what becomes of a line through a position well inside the window.
* **`Session.infiniteLine_drawn_iff`**: when an infinite line through such a position is drawn. -/

namespace Straightedge

namespace Line

variable {tol : Tolerance ℝ} {w : Window ℝ} {a b p v : Coord ℝ} {m k : ℝ}

/-- **A line that is all but horizontal and leaves the window through the lower or the upper side**:
somewhere it meets the line through the left or the right side outside the window. -/
def SlipsPast (tol : Tolerance ℝ) (w : Window ℝ) (p v : Coord ℝ) : Prop :=
  tol.coincidence ≤ |v.x| ∧ |v.y| ≤ tol.coincidence * |v.x| ∧
    ∃ q, Passes p v q ∧ (q.x = w.minX ∨ q.x = w.maxX) ∧ ¬w.Contains q

/-! ## When a line meets the sides twice -/

/-- A list with less than two positions has one at most. -/
theorem eq_of_length_lt_two {ps : List (Coord ℝ)} (hfew : ps.length < 2) (ha : a ∈ ps)
    (hb : b ∈ ps) : a = b := by
  rcases ps with _ | ⟨first, _ | ⟨second, rest⟩⟩
  · cases ha
  · rw [List.mem_singleton.1 ha, List.mem_singleton.1 hb]
  · exact absurd hfew (by simp)

/-- **A line that meets the sides left and right of a position well inside the window** meets them
in two positions that do not coincide. -/
theorem two_le_length_distinct (hcoincidence : 0 < tol.coincidence)
    (hclear : w.Clears tol.coincidence p) (hp : p.y = m * p.x + k)
    (ha : a ∈ crossings tol w m k) (hb : b ∈ crossings tol w m k) (hleft : a.x ≤ p.x)
    (hright : p.x ≤ b.x) : 2 ≤ (distinct tol (crossings tol w m k)).length := by
  by_contra hfew
  have hin := hclear.contains hcoincidence.le
  have hx := hin.1.1.trans hin.1.2
  have hy := hin.2.1.trans hin.2.2
  have hline {q : Coord ℝ} (hq : q ∈ crossings tol w m k) : q.y = m * q.x + k :=
    ((mem_crossings_iff hcoincidence hx hy).1 hq).1
  have hthins := thins_distinct hcoincidence (crossings tol w m k)
  obtain ⟨u, hu, hua⟩ := hthins.near a ha
  obtain ⟨u', hu', hub⟩ := hthins.near b hb
  obtain rfl := eq_of_length_lt_two (not_le.1 hfew) hu hu'
  have hmem := hthins.mem u hu
  -- The only position kept coincides with one on either side of `p`, so it does with `p`.
  have hsame : tol.same p u = true := by
    by_cases hux : u.x ≤ p.x
    · exact (same_of_between (hline hmem) (hline hb) hp hux hright hub).1
    · rw [Exact.same_comm] at hua
      exact (same_of_between (hline ha) (hline hmem) hp hleft (not_le.1 hux).le hua).2
  rw [hclear.apart (onEdge_of_mem_crossings hcoincidence hx hy hmem)] at hsame
  exact Bool.noConfusion hsame

/-- **When a line through a position well inside the window meets the sides in two positions**: if
it is steep, or else meets the left and the right side. -/
theorem two_le_length_distinct_iff (hcoincidence : 0 < tol.coincidence)
    (hclear : w.Clears tol.coincidence p) (hp : p.y = m * p.x + k) :
    2 ≤ (distinct tol (crossings tol w m k)).length ↔
      (|m| ≤ tol.coincidence → ∀ q : Coord ℝ, q.y = m * q.x + k →
        q.x = w.minX ∨ q.x = w.maxX → w.Contains q) := by
  have hin := hclear.contains hcoincidence.le
  have hx := hin.1.1.trans hin.1.2
  have hy := hin.2.1.trans hin.2.2
  have hmem {q : Coord ℝ} := mem_crossings_iff (p := q) (m := m) (k := k) hcoincidence hx hy
  constructor
  · intro hmany hflat q hq hside
    obtain ⟨first, second, rest, hkept⟩ :
        ∃ first second rest, distinct tol (crossings tol w m k) = first :: second :: rest := by
      match distinct tol (crossings tol w m k), hmany with
      | first :: second :: rest, _ => exact ⟨first, second, rest, rfl⟩
    have hends := ends_of_distinct hcoincidence (fun q hq => (hmem.1 hq).1) hkept
    obtain ⟨hleft, hright⟩ := hends.of_flat hcoincidence hx hy hflat.not_gt
    have heq {c : Coord ℝ} (hc : c ∈ crossings tol w m k) (hcx : q.x = c.x) : w.Contains q := by
      have hcy : q.y = c.y := by rw [hq, (hmem.1 hc).1, hcx]
      rw [Coord.ext hcx hcy]
      exact (hmem.1 hc).2.1
    rcases hside with hside | hside
    · exact heq hends.left_mem (hside.trans hleft.symm)
    · exact heq hends.right_mem (hside.trans hright.symm)
  · intro hsides
    by_cases hsteep : tol.coincidence < |m|
    · obtain ⟨⟨a, ha, hap⟩, b, hb, hpb⟩ := exists_crossings_around hcoincidence hsteep hp hin
      exact two_le_length_distinct hcoincidence hclear hp ha hb hap hpb
    · have hside {x₀ : ℝ} (hx₀ : x₀ = w.minX ∨ x₀ = w.maxX) :
          (⟨x₀, m * x₀ + k⟩ : Coord ℝ) ∈ crossings tol w m k :=
        hmem.2 ⟨rfl, hsides (not_lt.1 hsteep) _ rfl hx₀, .inl hx₀⟩
      exact two_le_length_distinct hcoincidence hclear hp (hside (.inl rfl)) (hside (.inr rfl))
        hin.1.1 hin.1.2

/-! ## What becomes of a line -/

/-- A line that slips past has a small slope and leaves the window on the left or on the right. -/
theorem slipsPast_iff (hcoincidence : 0 < tol.coincidence) (hx : tol.coincidence ≤ |v.x|) :
    SlipsPast tol w p v ↔ ¬(|v.y / v.x| ≤ tol.coincidence →
      ∀ q : Coord ℝ, q.y = v.y / v.x * q.x + (p.y - v.y / v.x * p.x) →
        q.x = w.minX ∨ q.x = w.maxX → w.Contains q) := by
  have hpos : 0 < |v.x| := hcoincidence.trans_le hx
  rw [SlipsPast, abs_div, div_le_iff₀ hpos]
  simp only [passes_iff (abs_pos.1 hpos)]
  push Not
  exact and_iff_right hx

/-- **A line that slips past does not miss the window**: it meets its edges in two positions that do
not coincide. -/
theorem SlipsPast.exists_edges (h : SlipsPast tol w p v) (hcoincidence : 0 < tol.coincidence)
    (hclear : w.Clears tol.coincidence p) :
    ∃ a b, (w.OnEdge a ∧ Passes p v a) ∧ (w.OnEdge b ∧ Passes p v b) ∧ tol.same a b = false := by
  obtain ⟨hlarge, -, q, hq, hside, hout⟩ := h
  have hne : v.x ≠ 0 := abs_pos.1 (hcoincidence.trans_le hlarge)
  have hin := hclear.contains hcoincidence.le
  have hx := hin.1.1.trans hin.1.2
  have hy := hin.2.1.trans hin.2.2
  have hp : p.y = v.y / v.x * p.x + (p.y - v.y / v.x * p.x) := (add_sub_cancel _ _).symm
  have hslope : v.y / v.x ≠ 0 := by
    intro hzero
    have hlevel := (passes_iff hne).1 hq
    rw [hzero, zero_mul, zero_mul, zero_add, sub_zero] at hlevel
    refine hout ⟨?_, hlevel ▸ hin.2⟩
    rcases hside with hside | hside
    · exact ⟨hside.ge, hside.trans_le hx⟩
    · exact ⟨hx.trans hside.ge, hside.le⟩
  -- By a finer tolerance the line is steep, and tested against all four sides.
  let fine : Tolerance ℝ := { tol with coincidence := |v.y / v.x| / 2 }
  have hfine : 0 < fine.coincidence := half_pos (abs_pos.2 hslope)
  have hsteep : fine.coincidence < |v.y / v.x| := half_lt_self (abs_pos.2 hslope)
  obtain ⟨⟨a, ha, hap⟩, b, hb, hpb⟩ := exists_crossings_around hfine hsteep hp hin
  have hline {c : Coord ℝ} (hc : c ∈ crossings fine w (v.y / v.x) (p.y - v.y / v.x * p.x)) :
      c.y = v.y / v.x * c.x + (p.y - v.y / v.x * p.x) :=
    ((mem_crossings_iff hfine hx hy).1 hc).1
  have hedge := onEdge_of_mem_crossings hfine hx hy hb
  refine ⟨a, b, ⟨onEdge_of_mem_crossings hfine hx hy ha, (passes_iff hne).2 (hline ha)⟩,
    ⟨hedge, (passes_iff hne).2 (hline hb)⟩, ?_⟩
  rw [← Bool.not_eq_true]
  intro hsame
  have hnear := (same_of_between (hline ha) (hline hb) hp hap hpb hsame).2
  rw [hclear.apart hedge] at hnear
  exact Bool.noConfusion hnear

/-- **What becomes of a line through a position well inside the window**: it has a chord unless its
direction is negligible or it slips past a side, and the error says which. -/
theorem chord_cases (hcoincidence : 0 < tol.coincidence) (hclear : w.Clears tol.coincidence p)
    (course : Course ℝ) :
    let v := course.vector p
    let drawn := (tol.coincidence ≤ |v.x| ∨ tol.coincidence ≤ |v.y|) ∧ ¬SlipsPast tol w p v
    (drawn ∧ ∃ ends, chord tol w p course = .ok ends) ∨
      ¬drawn ∧ ∃ reason, chord tol w p course = .error (.degenerateLine reason) ∧
        (reason = .missesWindow ↔ SlipsPast tol w p v) := by
  intro v drawn
  rcases course.direction_cases tol p with ⟨hsmall, hv⟩ | ⟨hlarge, hv⟩
  · have hslips : ¬SlipsPast tol w p v := fun h => hsmall.1.not_ge h.1
    refine .inr ⟨fun h => ?_, ?_⟩
    · rcases h.1 with hx | hy
      · exact hsmall.1.not_ge hx
      · exact hsmall.2.not_ge hy
    · rcases hv with hv | hv
      · exact ⟨.coincidentPoints, by rw [chord, hv]; rfl, iff_of_false (by simp) hslips⟩
      · exact ⟨.zeroDirection, by rw [chord, hv]; rfl, iff_of_false (by simp) hslips⟩
  · by_cases hslanted : tol.coincidence ≤ |v.x|
    · have hp : p.y = v.y / v.x * p.x + (p.y - v.y / v.x * p.x) := (add_sub_cancel _ _).symm
      have hslips := slipsPast_iff (w := w) (p := p) hcoincidence hslanted
      rw [← two_le_length_distinct_iff hcoincidence hclear hp] at hslips
      rcases chord_of_slanted (w := w) hv hslanted rfl with
        ⟨first, second, rest, hkept, hchord⟩ | ⟨hfew, hchord⟩
      · rw [hkept] at hslips
        have hnot : ¬SlipsPast tol w p v := mt hslips.1 (by simp)
        exact .inl ⟨⟨hlarge, hnot⟩, _, hchord⟩
      · have hyes : SlipsPast tol w p v := hslips.2 hfew.not_ge
        exact .inr ⟨fun h => h.2 hyes, _, hchord, fun _ => hyes, fun _ => rfl⟩
    · have hspan : w.spansX p.x = true := Window.spansX_iff.2 (hclear.contains hcoincidence.le).1
      have hchord := chord_of_upright (w := w) hv (not_le.1 hslanted)
      rw [if_pos hspan] at hchord
      have hnot : ¬SlipsPast tol w p v := fun h => hslanted h.1
      exact .inl ⟨⟨hlarge, hnot⟩, _, hchord⟩

end Line

/-! ## Infinite lines -/

namespace Session

variable {α : Type} [Scalar α] [Numeral α] {s : Session α} {first second : Reference α}
  {name : Option String} {p a b : Coord α} {course : Line.Course α}

omit [Scalar α] [Numeral α] in
/-- Only names can be wrong with a name. -/
theorem nameFor_ne_degenerateLine (s : Session α) (wanted : Option String) (stem : String)
    (reason : Degeneracy) : s.nameFor wanted stem ≠ .error (.degenerateLine reason) := by
  intro h
  rcases nameFor_eq_error h with he | ⟨n, he⟩ <;> cases he

/-- An infinite line is planned from its chord. -/
theorem plan_infiniteLine (hp : s.registry.position first = .ok p)
    (hcourse : s.course second = .ok course) (name : Option String) :
    Operation.plan s (.infiniteLine first second name) = (do
      let (a, b) ← Line.chord s.settings.tolerance s.currentWindow p course
      let n ← s.nameFor name "InfLine"
      let tip := Tooltip.write n ["Crossing 1: " ++ a.text, "Crossing 2: " ++ b.text]
      let curve ← Curve.polyline [a, b] (.dashed "#00F") (some tip)
      return .addOne n (.curve curve)) := by
  rw [Operation.plan, infiniteLine, hp, hcourse]
  rfl

/-- An infinite line without a chord is not drawn. -/
theorem perform_infiniteLine_of_error {e : ConstructionError}
    (hp : s.registry.position first = .ok p) (hcourse : s.course second = .ok course)
    (hchord : Line.chord s.settings.tolerance s.currentWindow p course = .error e) :
    (s.perform (.infiniteLine first second name)).1 = .error e := by
  have hplan := plan_infiniteLine hp hcourse name
  rw [hchord] at hplan
  rw [perform_of_error hplan]

/-- An infinite line with a chord is drawn if it gets a name. -/
theorem perform_infiniteLine_of_ok (hs : s.registry.Indexed)
    (hp : s.registry.position first = .ok p) (hcourse : s.course second = .ok course)
    (hchord : Line.chord s.settings.tolerance s.currentWindow p course = .ok (a, b))
    (ha : a.isFinite = true) (hb : b.isFinite = true) :
    (s.perform (.infiniteLine first second name)).1 =
      (s.nameFor name "InfLine").map Value.name := by
  have hsteps := plan_infiniteLine hp hcourse name
  rw [hchord] at hsteps
  change _ = s.nameFor name "InfLine" >>= _ at hsteps
  cases hn : s.nameFor name "InfLine" with
  | error e =>
    rw [hn] at hsteps
    rw [perform_of_error hsteps]
    rfl
  | ok n =>
    have hvertices : Curve.requireVertices [a, b] = .ok () :=
      Curve.requireVertices_eq_ok_iff.2 ⟨Nat.le_refl 2, by simp [ha, hb]⟩
    have hplan := hsteps.trans (bind_eq_ok_iff.2 ⟨n, hn, bind_eq_ok_iff.2
      ⟨_, Curve.polyline_eq_ok_iff.2 ⟨hvertices, rfl⟩, rfl⟩⟩)
    obtain ⟨r, -, hperform⟩ := exists_perform_addOne hplan (requireFree_of_nameFor hs hn)
    rw [hperform]
    rfl

/-- **When an infinite line through a position well inside the window is drawn**: in exact
arithmetic, if its direction is not negligible and it does not slip past a side of the window. What
slips past counts as missing the window, and nothing else does, although it meets the edges of the
window in two positions that do not coincide. -/
theorem infiniteLine_drawn_iff [Numeral ℝ] {tol : Tolerance ℝ} {w : Window ℝ} {p : Coord ℝ}
    (hcoincidence : 0 < tol.coincidence) (hclear : w.Clears tol.coincidence p)
    (course : Line.Course ℝ) :
    let v := course.vector p
    let drawn := (tol.coincidence ≤ |v.x| ∨ tol.coincidence ≤ |v.y|) ∧ ¬Line.SlipsPast tol w p v
    let chord := Line.chord tol w p course
    ((∃ ends, chord = .ok ends) ↔ drawn) ∧
      (chord = .error (.degenerateLine .missesWindow) ↔ Line.SlipsPast tol w p v) ∧
      (Line.SlipsPast tol w p v → ∃ a b, (w.OnEdge a ∧ Line.Passes p v a) ∧
        (w.OnEdge b ∧ Line.Passes p v b) ∧ tol.same a b = false) ∧
      ∀ s : Session ℝ, s.Reachable → s.settings.tolerance = tol → s.currentWindow = w →
        ∀ first second name, s.registry.position first = .ok p → s.course second = .ok course →
          let found := (s.perform (.infiniteLine first second name)).1
          (∀ n, found = .ok (.name n) ↔ drawn ∧ s.nameFor name "InfLine" = .ok n) ∧
            (found = .error (.degenerateLine .missesWindow) ↔ Line.SlipsPast tol w p v) := by
  intro v drawn chord
  have hedges (hslips : Line.SlipsPast tol w p v) := hslips.exists_edges hcoincidence hclear
  rcases Line.chord_cases hcoincidence hclear course with
    ⟨(hdrawn : drawn), ⟨a, b⟩, (hchord : chord = _)⟩ |
    ⟨hdrawn, reason, (hchord : chord = _), hreason⟩
  · refine ⟨⟨fun _ => hdrawn, fun _ => ⟨_, hchord⟩⟩, ?_, hedges, ?_⟩
    · rw [hchord]
      exact ⟨nofun, fun h => absurd h hdrawn.2⟩
    · rintro s hs rfl rfl first second name hp hcourse found
      have hfound : found = (s.nameFor name "InfLine").map Value.name :=
        perform_infiniteLine_of_ok hs.indexed hp hcourse hchord rfl rfl
      rw [hfound]
      refine ⟨fun n => ?_, fun h => ?_, fun h => absurd h hdrawn.2⟩
      · rw [map_eq_ok_iff]
        refine ⟨?_, fun h => ⟨n, h.2, rfl⟩⟩
        rintro ⟨_, hn, hname⟩
        cases hname
        exact ⟨hdrawn, hn⟩
      · cases hn : s.nameFor name "InfLine" with
        | error e =>
          rw [hn] at h
          cases h
          exact absurd hn (s.nameFor_ne_degenerateLine name "InfLine" .missesWindow)
        | ok n =>
          rw [hn] at h
          cases h
  · refine ⟨?_, ?_, hedges, ?_⟩
    · rw [hchord]
      exact ⟨nofun, fun h => absurd h hdrawn⟩
    · rw [hchord, ← hreason]
      simp
    · rintro s hs rfl rfl first second name hp hcourse found
      have hfound : found = .error (.degenerateLine reason) :=
        perform_infiniteLine_of_error hp hcourse hchord
      rw [hfound, ← hreason]
      exact ⟨fun n => ⟨nofun, fun h => absurd h.1 hdrawn⟩, by simp⟩

/-- A diagonal is drawn. -/
theorem infiniteLine_drawn_of_diagonal :
    letI := Exact.decimals
    let s : Session ℝ := new .standard
    let p : Coord ℝ := ⟨3, 3⟩
    s.Reachable ∧ 0 < s.settings.tolerance.coincidence ∧
      s.currentWindow.Clears s.settings.tolerance.coincidence p ∧
      (s.perform (.infiniteLine (.position p) (.direction ⟨2, 2⟩) (some "d"))).1 =
        .ok (.name "d") := by
  let _ := Exact.decimals
  intro s p
  have hs : s.Reachable := .new _
  have htol : s.settings.tolerance.coincidence = 1 / 10 ^ 9 := Exact.coincidence_standard_eq_div
  have hw : s.currentWindow = ⟨-10, 10, -10, 10⟩ := Window.standard_eq
  have hpos : 0 < s.settings.tolerance.coincidence := by
    norm_num [htol]
  have hclear : s.currentWindow.Clears s.settings.tolerance.coincidence p := by
    rw [hw, htol]
    constructor <;> norm_num [p]
  obtain ⟨-, -, -, hsession⟩ := infiniteLine_drawn_iff hpos hclear (.along ⟨2, 2⟩)
  obtain ⟨hdrawn, -⟩ := hsession s hs rfl rfl (.position p) (.direction ⟨2, 2⟩) (some "d") rfl rfl
  refine ⟨hs, hpos, hclear, (hdrawn "d").2 ⟨⟨.inl ?_, fun hslips => ?_⟩, ?_⟩⟩
  · show _ ≤ |(2 : ℝ)|
    norm_num [htol]
  · have hsmall : |(2 : ℝ)| ≤ _ * |(2 : ℝ)| := hslips.2.1
    norm_num [htol] at hsmall
  · exact nameFor_of_requireFree (Registry.requireFree_empty (by decide)) _

/-- A line that rises by less than a billionth of what it runs is refused although it passes through
the window from its left side to its upper side. -/
theorem infiniteLine_refused_of_small_slope :
    letI := Exact.decimals
    let s : Session ℝ := new .standard
    let tol := s.settings.tolerance
    let w := s.currentWindow
    let p : Coord ℝ := ⟨0, 10 - 1 / 2 ^ 28⟩
    let v : Coord ℝ := ⟨1, 1 / 2 ^ 30⟩
    w.Clears (3 * tol.coincidence) p ∧ tol.coincidence ≤ |v.x| ∧
      (∃ a b, w.OnEdge a ∧ w.OnEdge b ∧ Line.Passes p v a ∧ Line.Passes p v b ∧
        a.x = w.minX ∧ b.x = 4 ∧ b.y = w.maxY) ∧
      Line.chord tol w p (.along v) = .error (.degenerateLine .missesWindow) ∧
      (s.perform (.infiniteLine (.position p) (.direction v) none)).1 =
        .error (.degenerateLine .missesWindow) := by
  let _ := Exact.decimals
  intro s tol w p v
  have htol : tol.coincidence = 1 / 10 ^ 9 := Exact.coincidence_standard_eq_div
  have hw : w = ⟨-10, 10, -10, 10⟩ := Window.standard_eq
  have hpos : 0 < tol.coincidence := by
    norm_num [htol]
  have hlarge : tol.coincidence ≤ |v.x| := by
    norm_num [htol, v]
  have hclear {room : ℝ} (hroom : room ≤ 3 * tol.coincidence) : w.Clears room p := by
    rw [htol] at hroom
    rw [hw]
    constructor <;> norm_num [p] <;> linarith
  have hchord : Line.chord tol w p (.along v) = .error (.degenerateLine .missesWindow) := by
    have hslips : Line.SlipsPast tol w p v := by
      refine ⟨hlarge, ?_, ⟨10, 10 - 1 / 2 ^ 28 + 10 / 2 ^ 30⟩, ?_, .inr ?_, ?_⟩
      · norm_num [htol, v]
      · norm_num [Line.Passes, Exact.cross_eq, p, v]
      · rw [hw]
      · norm_num [hw, Window.Contains]
    rcases Line.chord_cases hpos (hclear (by linarith)) (.along v) with
      ⟨hdrawn, -⟩ | ⟨-, reason, hchord, hreason⟩
    · exact absurd hslips hdrawn.2
    · rw [hchord, hreason.2 hslips]
  refine ⟨hclear le_rfl, hlarge, ?_, hchord, perform_infiniteLine_of_error rfl rfl hchord⟩
  refine ⟨⟨-10, 10 - 1 / 2 ^ 28 - 10 / 2 ^ 30⟩, ⟨4, 10⟩, ?_⟩
  rw [hw]
  norm_num [Window.OnEdge, Window.Contains, Line.Passes, Exact.cross_eq, p, v]

end Session

end Straightedge
