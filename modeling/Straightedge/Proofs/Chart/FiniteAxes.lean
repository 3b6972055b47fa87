import Straightedge.Chart.Json
import Straightedge.Proofs.Chart.Axes
import Straightedge.Proofs.Plane.Rounding
import Straightedge.Proofs.Session.FiniteArguments
import Straightedge.Proofs.Session.Finiteness

/-! # Axes that are finite

The window around finite positions has finite sides, also with some room around it. To make its axes
equally long, the shorter one is replaced by half the length of the longer one to both sides of its
middle. The length may be too large for binary64, and so may the sum of which the middle is half,
even where the middle itself would not be.

* **`Axis.Finite`**: both ends of an axis are finite; otherwise **`Json.nullFields`** are written.
* **`Session.Reachable.finite_ownLimits`**: the limits of a session are finite.
* **`Registry.finite_fittedWindow`**: the window around finite figures is finite.
* **`Window.finite_squared_iff`**: when it still is with equally long axes.
* **`Session.render_finite_iff`**: when the axes of a chart are finite.
* **`Session.render_finite_of_quarter`**: far below the largest number they always are. -/

namespace Straightedge

variable {α : Type} [Scalar α]

/-! ## Finite axes and finite limits -/

/-- **Both ends of an axis are finite.** -/
def Axis.Finite (axis : Axis α) : Prop :=
  Scalar.isFinite axis.min = true ∧ Scalar.isFinite axis.max = true

/-- **The limits that are given are finite.** -/
structure AxisLimits.Finite (l : AxisLimits α) : Prop where
  minX : ∀ x, l.minX = some x → Scalar.isFinite x = true
  maxX : ∀ x, l.maxX = some x → Scalar.isFinite x = true
  minY : ∀ y, l.minY = some y → Scalar.isFinite y = true
  maxY : ∀ y, l.maxY = some y → Scalar.isFinite y = true

/-- Whether limits, if there are any, give both ends of the horizontal axis. -/
def AxisLimits.GiveHorizontal (limits : Option (AxisLimits α)) : Prop :=
  ∃ l, limits = some l ∧ l.minX ≠ none ∧ l.maxX ≠ none

/-- Whether limits, if there are any, give both ends of the vertical axis. -/
def AxisLimits.GiveVertical (limits : Option (AxisLimits α)) : Prop :=
  ∃ l, limits = some l ∧ l.minY ≠ none ∧ l.maxY ≠ none

/-- An axis of which some ends are replaced by finite ones: if its ends are finite under the same
condition, it is finite under that condition, or with both ends replaced. -/
theorem Axis.finite_getD_iff {low high : α} {visible : Bool} {min max : Option α}
    {condition : Prop} (hlow : Scalar.isFinite low = true ↔ condition)
    (hhigh : Scalar.isFinite high = true ↔ condition)
    (hmin : ∀ x, min = some x → Scalar.isFinite x = true)
    (hmax : ∀ x, max = some x → Scalar.isFinite x = true) :
    (Axis.mk (min.getD low) (max.getD high) visible).Finite ↔
      (min ≠ none ∧ max ≠ none) ∨ condition := by
  unfold Axis.Finite
  cases min with
  | none =>
    cases max with
    | none => simp [hlow, hhigh]
    | some h => simp [hlow, hmax h rfl]
  | some l =>
    cases max with
    | none => simp [hhigh, hmin l rfl]
    | some h => simp [hmin l rfl, hmax h rfl]

/-! ## Values that are written as null -/

/-- Whether a value is written as `null`, as a number is that data files cannot hold. -/
def Json.isNull [Numeral α] : Json α → Bool
  | .null => true
  | .number x => (Numeral.data? x).isNone
  | _ => false

/-- The keys of an object under which `null` is written. -/
def Json.nullFields [Numeral α] : Json α → List String
  | .object fields => (fields.filter fun field => field.2.isNull).map Prod.fst
  | _ => []

/-- The ends of an axis that are not finite are written as `null`. -/
theorem Axis.nullFields_toJson {axis : Axis Float} :
    axis.toJson.nullFields =
      (if axis.min.isFinite then [] else ["min"]) ++
        if axis.max.isFinite then [] else ["max"] := by
  have hnull : ∀ x : Float, (Json.number x).isNull = !x.isFinite := by
    intro x
    show (if x.isFinite then some _ else none : Option String).isNone = _
    cases x.isFinite <;> rfl
  rw [toJson, Json.nullFields, List.filter_cons, List.filter_cons]
  simp only [hnull]
  cases axis.min.isFinite <;> cases axis.max.isFinite <;> rfl

/-- **An axis is written without `null` exactly if it is finite.** -/
theorem Axis.nullFields_toJson_eq_nil_iff {axis : Axis Float} :
    axis.toJson.nullFields = [] ↔ axis.Finite := by
  show _ ↔ axis.min.isFinite = true ∧ axis.max.isFinite = true
  rw [nullFields_toJson]
  cases axis.min.isFinite <;> cases axis.max.isFinite <;> simp

/-! ## The limits of a session -/

/-- **In every reachable session the limits are finite.** -/
theorem Session.Reachable.finite_ownLimits [Numeral α] {s : Session α} (hs : s.Reachable)
    {l : AxisLimits α} (hl : s.ownLimits = some l) : l.Finite := by
  obtain ⟨_, minX, maxX, minY, maxY, _, hplan, rfl⟩ := hs.exists_setAxisLimits hl
  simp only [setAxisLimits, bind_eq_ok_iff] at hplan
  obtain ⟨_, hminX, _, hmaxX, _, hminY, _, hmaxY, -⟩ := hplan
  constructor <;> rintro x ⟨⟩
  · exact isFinite_of_requireLimit hminX
  · exact isFinite_of_requireLimit hmaxX
  · exact isFinite_of_requireLimit hminY
  · exact isFinite_of_requireLimit hmaxY

/-! ## Windows whose sides have a property -/

/-- All four sides of a window have a property. -/
structure Window.Each (P : α → Prop) (w : Window α) : Prop where
  minX : P w.minX
  maxX : P w.maxX
  minY : P w.minY
  maxY : P w.maxY

namespace Window

variable {P Q : α → Prop}

/-- The sides of the window around positions are coordinates of these. -/
theorem each_bounding? {ps : List (Coord α)} {w : Window α} (hps : ∀ p ∈ ps, P p.x ∧ P p.y)
    (h : bounding? ps = some w) : w.Each P := by
  cases ps with
  | nil => cases h
  | cons p ps =>
    rw [bounding?_cons] at h
    cases h
    rw [List.forall_mem_cons] at hps
    obtain ⟨hp, hps⟩ := hps
    have hsmaller : ∀ {a b : α}, P a → P b → P (Scalar.smaller a b) := by
      intro a b ha hb
      unfold Scalar.smaller
      split <;> assumption
    have hlarger : ∀ {a b : α}, P a → P b → P (Scalar.larger a b) := by
      intro a b ha hb
      unfold Scalar.larger
      split <;> assumption
    -- one more position is chosen from or passed over
    have hextend : ∀ w : Window α, w.Each P → (ps.foldl extend w).Each P := by
      induction ps with
      | nil => exact fun w hw => hw
      | cons q ps ih =>
        intro w hw
        rw [List.forall_mem_cons] at hps
        obtain ⟨⟨hqx, hqy⟩, hps⟩ := hps
        exact ih hps (w.extend q) ⟨hsmaller hw.minX hqx, hlarger hw.maxX hqx,
          hsmaller hw.minY hqy, hlarger hw.maxY hqy⟩
    exact hextend _ ⟨hp.1, hp.1, hp.2, hp.2⟩

omit [Scalar α] in
theorem Each.imp {w : Window α} (hw : w.Each P) (h : ∀ x, P x → Q x) : w.Each Q :=
  ⟨h _ hw.minX, h _ hw.maxX, h _ hw.minY, h _ hw.maxY⟩

/-- Room around a window moves its sides. -/
theorem Each.pad {w : Window α} (hw : w.Each P) {padding : α}
    (hsub : ∀ x, P x → Q (x - padding)) (hadd : ∀ x, P x → Q (x + padding)) :
    (w.pad padding).Each Q :=
  ⟨hsub _ hw.minX, hadd _ hw.maxX, hsub _ hw.minY, hadd _ hw.maxY⟩

end Window

/-- The sides of the window of a chart, before its axes are made equally long. -/
theorem Registry.each_fittedWindow {P Q : α → Prop} {r : Registry α}
    (hr : ∀ p ∈ r.coords, P p.x ∧ P p.y) {padding : α} (hsub : ∀ x, P x → Q (x - padding))
    (hadd : ∀ x, P x → Q (x + padding)) {fallback : Window α} (hfallback : fallback.Each Q) :
    (r.fittedWindow padding fallback).Each Q := by
  unfold fittedWindow
  split
  · rename_i w hw
    exact (Window.each_bounding? hr hw).pad hsub hadd
  · exact hfallback

/-! ## Finite windows -/

/-- The standard window is small. -/
theorem Window.atMost_standard : (standard : Window Float).Each (Binary64.AtMost .halfLargest) := by
  have hten : (5 * 2 ^ 50 : Nat) * (2 : ℚ) ^ (-49 : Int) ≤ Binary64.Bound.halfLargest.value :=
    Binary64.mul_zpow_mono (by decide) (by decide)
  have hright : Binary64.AtMost .halfLargest (Scalar.ofNat 10) :=
    .finite .positive (by decide) (by decide) (by decide) hten
  have hleft : Binary64.AtMost .halfLargest (-Scalar.ofNat 10) :=
    .finite .negative (by decide) (by decide) (by decide) hten
  exact ⟨hleft, hright, hleft, hright⟩

/-- **The window around finite figures, with one unit of room, is finite.** -/
theorem Registry.finite_fittedWindow {r : Registry Float}
    (hr : ∀ p ∈ r.coords, p.isFinite = true) :
    (r.fittedWindow (Scalar.ofNat 1) .standard).Each fun x => x.isFinite = true :=
  r.each_fittedWindow (fun p hp => Bool.and_eq_true_iff.1 (hr p hp))
    (fun _ => Binary64.isFinite_sub_one) (fun _ => Binary64.isFinite_add_one)
    (Window.atMost_standard.imp fun _ => Binary64.AtMost.isFinite)

namespace Window

/-- Whether an axis with the ends `low` and `high` can be grown about its middle to a length: their
sum, of which the middle is half, and the length are finite. -/
def CanGrow (low high length : Float) : Prop :=
  (low + high).isFinite = true ∧ length.isFinite = true

/-- **The horizontal axis of a window is the longer one, or can be grown to the other's length.** -/
def HorizontalFits (w : Window Float) : Prop :=
  Scalar.lt w.height w.width = true ∨ CanGrow w.minX w.maxX w.height

/-- **The vertical axis of a window is not the shorter one, or can be grown to the other's
length.** -/
def VerticalFits (w : Window Float) : Prop :=
  Scalar.lt w.height w.width = false ∨ CanGrow w.minY w.maxY w.width

/-- **The sides of a finite window stay finite when its axes are made equally long** exactly if the
shorter axis can be grown. -/
theorem isFinite_squared_iff {w : Window Float} (hw : w.Each fun x => x.isFinite = true) :
    (w.squared.minX.isFinite = true ↔ w.HorizontalFits) ∧
      (w.squared.maxX.isFinite = true ↔ w.HorizontalFits) ∧
      (w.squared.minY.isFinite = true ↔ w.VerticalFits) ∧
      (w.squared.maxY.isFinite = true ↔ w.VerticalFits) := by
  have hx := Binary64.isFinite_beside_iff (w.minX + w.maxX) w.height
  have hy := Binary64.isFinite_beside_iff (w.minY + w.maxY) w.width
  unfold squared HorizontalFits VerticalFits
  split
  · rename_i hlt
    simp only [hlt, true_or, Bool.true_eq_false, false_or, iff_true]
    exact ⟨hw.minX, hw.maxX, hy.1, hy.2⟩
  · rename_i hlt
    simp only [hlt, true_or, Bool.false_eq_true, false_or, iff_true]
    exact ⟨hx.1, hx.2, hw.minY, hw.maxY⟩

end Window

/-! ## Charts -/

namespace Session

/-- The axes of a chart whose window, before its axes are made equally long, is finite. -/
theorem finite_axes_iff {s : Session Float} (hs : s.Reachable) {w : Window Float}
    (hfitted : s.registry.fittedWindow s.settings.padding s.settings.defaultWindow = w)
    (hw : w.Each fun x => x.isFinite = true) {limits : Option (AxisLimits Float)}
    (hlimits : ∀ l, limits = some l → l.Finite) :
    ((s.render limits).xAxis.Finite ↔
        s.ownLimits ≠ none ∨ AxisLimits.GiveHorizontal limits ∨ w.HorizontalFits) ∧
      ((s.render limits).yAxis.Finite ↔
        s.ownLimits ≠ none ∨ AxisLimits.GiveVertical limits ∨ w.VerticalFits) := by
  simp only [render]
  cases hown : s.ownLimits with
  | some own =>
    -- the session's limits win, and they are finite
    have hfinite := hs.finite_ownLimits hown
    obtain ⟨minX, maxX, minY, maxY, rfl, -⟩ := hs.limitsInOrder own hown
    rw [chartWindow_of_ownLimits hown]
    have hx : (Axis.mk minX maxX s.axesVisible).Finite :=
      ⟨hfinite.minX _ rfl, hfinite.maxX _ rfl⟩
    have hy : (Axis.mk minY maxY s.axesVisible).Finite :=
      ⟨hfinite.minY _ rfl, hfinite.maxY _ rfl⟩
    exact ⟨iff_of_true hx (.inl (by simp)), iff_of_true hy (.inl (by simp))⟩
  | none =>
    obtain ⟨hminX, hmaxX, hminY, hmaxY⟩ := Window.isFinite_squared_iff hw
    rw [chartWindow_of_none hown, hfitted]
    simp only [AxisLimits.GiveHorizontal, AxisLimits.GiveVertical, ne_eq, not_true_eq_false,
      false_or]
    cases limits with
    | none =>
      simp only [reduceCtorEq, false_and, exists_false, false_or]
      exact ⟨(and_congr hminX hmaxX).trans and_self_iff, (and_congr hminY hmaxY).trans and_self_iff⟩
    | some l =>
      obtain ⟨hl₁, hl₂, hl₃, hl₄⟩ := hlimits l rfl
      simp only [Option.some.injEq, exists_eq_left']
      exact ⟨Axis.finite_getD_iff hminX hmaxX hl₁ hl₂, Axis.finite_getD_iff hminY hmaxY hl₃ hl₄⟩

/-- **Charts of figures within two to the power of 1022 are finite**, with the standard settings and
finite limits of the call. -/
theorem render_finite_of_quarter {s : Session Float} (hs : s.Reachable)
    (hsettings : s.settings = .standard)
    (hcoords : ∀ p ∈ s.registry.coords,
      Binary64.AtMost .quarter p.x ∧ Binary64.AtMost .quarter p.y)
    {limits : Option (AxisLimits Float)} (hlimits : ∀ l, limits = some l → l.Finite) :
    (s.render limits).xAxis.Finite ∧ (s.render limits).yAxis.Finite := by
  obtain ⟨w, hfitted⟩ : ∃ w,
    s.registry.fittedWindow s.settings.padding s.settings.defaultWindow = w := ⟨_, rfl⟩
  have hw : w.Each (Binary64.AtMost .halfLargest) := by
    rw [← hfitted, hsettings]
    exact s.registry.each_fittedWindow hcoords
      (fun x hx => hx.sub Binary64.atMost_one Binary64.quarter_add_one_le)
      (fun x hx => hx.add Binary64.atMost_one Binary64.quarter_add_one_le)
      Window.atMost_standard
  -- sums and differences of the sides stay below the largest number
  have hfit := Binary64.halfLargest_add_halfLargest_le
  have hwidth : w.width.isFinite = true := (hw.maxX.sub hw.minX hfit).isFinite
  have hheight : w.height.isFinite = true := (hw.maxY.sub hw.minY hfit).isFinite
  obtain ⟨hx, hy⟩ := finite_axes_iff hs hfitted (hw.imp fun _ => Binary64.AtMost.isFinite) hlimits
  have hhorizontal : w.HorizontalFits := .inr ⟨(hw.minX.add hw.maxX hfit).isFinite, hheight⟩
  have hvertical : w.VerticalFits := .inr ⟨(hw.minY.add hw.maxY hfit).isFinite, hwidth⟩
  exact ⟨hx.2 (.inr (.inr hhorizontal)), hy.2 (.inr (.inr hvertical))⟩

/-- **When the axes of a chart are finite.** With the standard settings, in every reachable session
with finite figures, and without limits of the call or with finite ones: an axis is finite exactly
if the session has limits of its own, or the limits of the call give both ends, or the axis is the
longer one of the window around the figures, or its middle and the length of the other axis can be
computed. Only an axis that is not finite is written with `null`. -/
theorem render_finite_iff {s : Session Float} (hs : s.Reachable)
    (hsettings : s.settings = .standard) (hfinite : s.AllFinite)
    {limits : Option (AxisLimits Float)} (hlimits : ∀ l, limits = some l → l.Finite) :
    let w := s.registry.fittedWindow s.settings.padding s.settings.defaultWindow
    ((s.render limits).xAxis.Finite ↔
        s.ownLimits ≠ none ∨ AxisLimits.GiveHorizontal limits ∨ w.HorizontalFits) ∧
      ((s.render limits).yAxis.Finite ↔
        s.ownLimits ≠ none ∨ AxisLimits.GiveVertical limits ∨ w.VerticalFits) ∧
      ((s.render limits).xAxis.toJson.nullFields = [] ↔ (s.render limits).xAxis.Finite) ∧
      ((s.render limits).yAxis.toJson.nullFields = [] ↔ (s.render limits).yAxis.Finite) := by
  intro w
  have hw : w.Each fun x => x.isFinite = true := by
    simp only [w, hsettings]
    exact Registry.finite_fittedWindow hfinite
  obtain ⟨hx, hy⟩ := finite_axes_iff hs rfl hw hlimits
  exact ⟨hx, hy, Axis.nullFields_toJson_eq_nil_iff, Axis.nullFields_toJson_eq_nil_iff⟩

/-! ## A single point -/

/-- A new session with a point at a finite position has only that position, and no limits. -/
theorem after_point [Numeral α] (settings : Settings α) {p : Coord α} (hp : p.isFinite = true) :
    let s := (new settings).after [.point (.position p) none]
    s.registry.coords = [p] ∧ s.ownLimits = none := by
  intro s
  let before : Session α := new settings
  let op : Operation α := .point (.position p) none
  let entry : String × Figure α := (before.registry.freshName "P", .dot p "red")
  have hplan : op.plan before = .ok ⟨additions [entry], .name entry.1⟩ := by
    simp only [op, Operation.plan, Session.point, Registry.position, hp]
    rfl
  have hs : s = (before.enact (additions [entry])).2 := by
    show (before.perform op).2 = _
    rw [perform_of_ok hplan]
  have hfree : ∀ e ∈ [entry], before.registry.requireFree e.1 = .ok () :=
    List.forall_mem_singleton.2 (Registry.indexed_empty.requireFree_freshName "P")
  have hlist := (enact_additions [entry] hfree (List.nodup_singleton _)).2
  rw [hs]
  constructor
  · rw [Registry.coords, hlist]
    rfl
  · rw [enact_additions_eq]
    rfl

/-- The window around a single point, before its axes are made equally long. -/
theorem fittedWindow_of_coords {r : Registry α} {p : Coord α} (hr : r.coords = [p])
    (padding : α) (fallback : Window α) :
    r.fittedWindow padding fallback = (Window.ofCoord p).pad padding := by
  rw [Registry.fittedWindow, hr]
  rfl

/-- A new session with a point three to the right of the origin and four above it has finite axes,
also with the left side at zero. -/
theorem render_finite_of_point :
    let s : Session Float := (new .standard).after [.point (.position ⟨3, 4⟩) none]
    let limits : AxisLimits Float := ⟨some 0, none, none, none⟩
    s.Reachable ∧ s.AllFinite ∧ limits.Finite ∧
      (s.render (some limits)).xAxis.Finite ∧ (s.render (some limits)).yAxis.Finite := by
  intro s limits
  have hp : (⟨3, 4⟩ : Coord Float).isFinite = true := by decide +kernel
  obtain ⟨hcoords, -⟩ := after_point .standard hp
  have hs : s.Reachable := (Reachable.new .standard).after _
  have hsettings : s.settings = .standard := settings_after _ _
  have hfinite : s.AllFinite := by
    intro p hmem
    rw [hcoords, List.mem_singleton] at hmem
    exact hmem ▸ hp
  have hlimits : limits.Finite := by
    constructor <;> rintro x ⟨⟩
    decide +kernel
  have hcall : ∀ l, some limits = some l → l.Finite := by
    rintro l ⟨⟩
    exact hlimits
  obtain ⟨hx, hy, -⟩ := render_finite_iff hs hsettings hfinite hcall
  rw [fittedWindow_of_coords hcoords, hsettings] at hx hy
  -- the window is a square, of which the horizontal axis is computed anew
  let w : Window Float := (Window.ofCoord ⟨3, 4⟩).pad (Scalar.ofNat 1)
  have hhorizontal : w.HorizontalFits := .inr ⟨by decide +kernel, by decide +kernel⟩
  have hvertical : w.VerticalFits := .inl (by decide +kernel)
  exact ⟨hs, hfinite, hlimits, hx.2 (.inr (.inr hhorizontal)), hy.2 (.inr (.inr hvertical))⟩

/-- A single point far to the right is finite, but the sum of the sides to its left and to its right
is not, so both ends of the horizontal axis are written as `null`. -/
theorem nullFields_of_far_point :
    let s : Session Float := (new .standard).after [.point (.position ⟨1.7e308, 0⟩) none]
    s.Reachable ∧ s.settings = .standard ∧ s.AllFinite ∧ ¬(s.render none).xAxis.Finite ∧
      (s.render none).xAxis.toJson.nullFields = ["min", "max"] := by
  intro s
  have hp : (⟨1.7e308, 0⟩ : Coord Float).isFinite = true := by decide +kernel
  obtain ⟨hcoords, hown⟩ := after_point .standard hp
  have hsettings : s.settings = .standard := settings_after _ _
  have hfinite : s.AllFinite := by
    intro p hmem
    rw [hcoords, List.mem_singleton] at hmem
    exact hmem ▸ hp
  let w : Window Float := ((Window.ofCoord ⟨1.7e308, 0⟩).pad (Scalar.ofNat 1)).squared
  have haxis : (s.render none).xAxis = ⟨w.minX, w.maxX, s.axesVisible⟩ := by
    simp only [render]
    rw [chartWindow_of_none hown, fittedWindow_of_coords hcoords, hsettings]
    rfl
  have hmin : w.minX.isFinite = false := by decide +kernel
  have hmax : w.maxX.isFinite = false := by decide +kernel
  have hnull : (s.render none).xAxis.toJson.nullFields = ["min", "max"] := by
    rw [haxis, Axis.nullFields_toJson, hmin, hmax]
    rfl
  refine ⟨(Reachable.new .standard).after _, hsettings, hfinite, fun h => ?_, hnull⟩
  rw [Axis.nullFields_toJson_eq_nil_iff.2 h] at hnull
  cases hnull

end Session

end Straightedge
