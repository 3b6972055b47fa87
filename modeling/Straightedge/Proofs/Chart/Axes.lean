import Straightedge.Binary64
import Straightedge.Chart.Basic
import Straightedge.Proofs.Chart.SquareWindow
import Straightedge.Proofs.Session.Footprint

/-! # Axes that run upwards

The window of a chart is computed with room on all sides and then has some of its sides replaced.
Limits that give both ends of an axis are checked where they come from. A limit that is given alone
meets an end that was computed, and nobody compares the two.

* **`AxisLimits.Ordered`**: limits that are checked.
* **`Session.ownLimits_perform`**: the limits of a session change only by being set.
* **`Session.Reachable.limitsInOrder`**: the limits of a session give all sides, in order.
* **`Window.Proper`**: both sides of a window run upwards; kept by padding and squaring.
* **`Axis.Admits`**: limits that an axis can take without being turned around.
* **`Session.render_proper_iff`**: when the axes of a chart run upwards, in exact arithmetic. -/

namespace Straightedge

variable {α : Type} [Scalar α]

/-! ## Limits in order -/

/-- **The limits of an axis are in order**: if both ends are given, the lower lies below the
upper. -/
def InOrder : Option α → Option α → Prop
  | some low, some high => Scalar.le high low = false
  | _, _ => True

namespace AxisLimits

/-- **The limits of both axes are in order.** -/
structure Ordered (l : AxisLimits α) : Prop where
  horizontal : InOrder l.minX l.maxX
  vertical : InOrder l.minY l.maxY

/-- The check of written limits lets exactly those in order pass. -/
theorem requireOrder_eq_ok_iff {axis : String} {low high : Option α} :
    requireOrder axis low high = .ok () ↔ InOrder low high := by
  cases low with
  | none => exact ⟨fun _ => trivial, fun _ => rfl⟩
  | some l =>
    cases high with
    | none => exact ⟨fun _ => trivial, fun _ => rfl⟩
    | some h =>
      unfold requireOrder InOrder
      cases Scalar.le h l <;> simp

/-- **Limits in writing are in order.** -/
theorem ordered_of_parse [Numeral α] {text : List Char} {l : AxisLimits α}
    (h : parse text = .ok l) : l.Ordered := by
  unfold parse at h
  dsimp only at h
  split at h
  · simp only [bind_eq_ok_iff, pure_eq_ok_iff] at h
    obtain ⟨minX, -, maxX, -, minY, -, maxY, -, _, hx, _, hy, rfl⟩ := h
    exact ⟨requireOrder_eq_ok_iff.1 hx, requireOrder_eq_ok_iff.1 hy⟩
  · exact absurd h throw_ne_ok

end AxisLimits

/-! ## The limits of a session -/

namespace Session

variable [Numeral α]

/-- **The limits of a session, if it has any, give all four sides, in order.** -/
def LimitsInOrder (s : Session α) : Prop :=
  ∀ l, s.ownLimits = some l → ∃ minX maxX minY maxY, l = .full minX maxX minY maxY ∧ l.Ordered

/-- Limits that are set are checked. -/
theorem ordered_of_setAxisLimits {s : Session α} {minX maxX minY maxY : α} {plan : Plan α}
    (h : s.setAxisLimits minX maxX minY maxY = .ok plan) :
    (AxisLimits.full minX maxX minY maxY).Ordered := by
  simp only [setAxisLimits, ↓ite_throw_bind_eq_ok_iff, bind_eq_ok_iff, Bool.or_eq_true,
    not_or, Bool.not_eq_true] at h
  obtain ⟨-, -, -, -, -, -, -, -, ⟨hx, hy⟩, -⟩ := h
  exact ⟨hx, hy⟩

omit [Scalar α] [Numeral α] in
/-- Only one operation may touch the limits of a session, and it sets all four. -/
theorem eq_setAxisLimits_of_footprint {op : Operation α} {l : AxisLimits α}
    (h : op.footprint = .limits l) :
    ∃ minX maxX minY maxY, op = .setAxisLimits minX maxX minY maxY ∧
      l = .full minX maxX minY maxY := by
  cases op
  case setAxisLimits minX maxX minY maxY =>
    cases h
    exact ⟨minX, maxX, minY, maxY, rfl, rfl⟩
  case translate element dx dy copyName => cases copyName <;> cases h
  case rotate element pivot degrees copyName => cases copyName <;> cases h
  case reflect element mirror copyName => cases copyName <;> cases h
  all_goals cases h

omit [Scalar α] [Numeral α] in
/-- What keeps to another footprint leaves the limits alone. -/
theorem ownLimits_of_allows {s s' : Session α} {footprint : Footprint α}
    (h : footprint.Allows s s') :
    s'.ownLimits = s.ownLimits ∨ ∃ l, footprint = .limits l ∧ s'.ownLimits = some l := by
  cases footprint with
  | adds count => exact .inl (by rw [h.1])
  | moves element => exact .inl (by rw [h.1])
  | repaints element => exact .inl (by rw [h.1])
  | renames old new => exact .inl (by rw [h.1])
  | title text => exact .inl (by rw [h])
  | limits l => exact .inr ⟨l, rfl, by rw [h]⟩
  | axes visible => exact .inl (by rw [h])

/-- **The limits of a session change only by being set**, all four of them, once they have been
checked. -/
theorem ownLimits_perform {s : Session α} (hs : s.registry.Indexed) (op : Operation α) :
    (s.perform op).2.ownLimits = s.ownLimits ∨
      ∃ minX maxX minY maxY plan, s.setAxisLimits minX maxX minY maxY = .ok plan ∧
        (s.perform op).2.ownLimits = some (.full minX maxX minY maxY) := by
  cases hperform : (s.perform op).1 with
  | error e =>
    rw [session_perform_of_error hs hperform]
    exact .inl rfl
  | ok v =>
    cases hplan : op.plan s with
    | error e =>
      rw [perform_of_error hplan] at hperform
      cases hperform
    | ok plan =>
      rw [perform_of_ok hplan] at hperform ⊢
      cases hok : (s.enact plan.changes).1 with
      | error e =>
        rw [hok] at hperform
        cases hperform
      | ok u =>
        rcases ownLimits_of_allows (allows_of_plan hs hplan hok).1 with hsame | ⟨l, hop, hset⟩
        · exact .inl hsame
        · obtain ⟨minX, maxX, minY, maxY, rfl, rfl⟩ := eq_setAxisLimits_of_footprint hop
          exact .inr ⟨minX, maxX, minY, maxY, plan, hplan, hset⟩

/-- **The limits of a reachable session, if it has any, have passed the check of limits.** -/
theorem Reachable.exists_setAxisLimits {s : Session α} (hs : s.Reachable) {l : AxisLimits α}
    (hl : s.ownLimits = some l) :
    ∃ (earlier : Session α) (minX maxX minY maxY : α) (plan : Plan α),
      earlier.setAxisLimits minX maxX minY maxY = .ok plan ∧ l = .full minX maxX minY maxY := by
  induction hs with
  | new settings => cases hl
  | @perform s hs op ih =>
    rcases ownLimits_perform hs.indexed op with hsame | ⟨minX, maxX, minY, maxY, plan, hplan, hset⟩
    · exact ih (hsame ▸ hl)
    · rw [hset] at hl
      cases hl
      exact ⟨s, minX, maxX, minY, maxY, plan, hplan, rfl⟩

/-- **In every reachable session the limits give all four sides, in order.** -/
theorem Reachable.limitsInOrder {s : Session α} (hs : s.Reachable) : s.LimitsInOrder := by
  intro l hl
  obtain ⟨_, minX, maxX, minY, maxY, _, hplan, rfl⟩ := hs.exists_setAxisLimits hl
  exact ⟨minX, maxX, minY, maxY, rfl, ordered_of_setAxisLimits hplan⟩

end Session

/-! ## Windows in exact arithmetic -/

/-- **Both sides of a window run upwards.** -/
structure Window.Proper (w : Window ℝ) : Prop where
  horizontal : w.minX < w.maxX
  vertical : w.minY < w.maxY

namespace Window

/-- The sides around positions do not run downwards, however many positions there are. -/
theorem le_of_bounding? {ps : List (Coord ℝ)} {w : Window ℝ} (h : bounding? ps = some w) :
    w.minX ≤ w.maxX ∧ w.minY ≤ w.maxY := by
  have hbounds := bounds_bounding? h
  obtain ⟨left, hleft, hminX⟩ := hbounds.left.1
  obtain ⟨lower, hlower, hminY⟩ := hbounds.lower.1
  rw [← hminX, ← hminY]
  exact ⟨hbounds.right.2 ⟨left, hleft, rfl⟩, hbounds.upper.2 ⟨lower, hlower, rfl⟩⟩

/-- Room on all sides makes both sides run upwards. -/
theorem proper_pad {w : Window ℝ} (hw : w.minX ≤ w.maxX ∧ w.minY ≤ w.maxY) {padding : ℝ}
    (hpadding : 0 < padding) : (w.pad padding).Proper := by
  constructor
  · show w.minX - padding < w.maxX + padding
    linarith [hw.1]
  · show w.minY - padding < w.maxY + padding
    linarith [hw.2]

/-- Making the axes equally long keeps both running upwards. -/
theorem Proper.squared {w : Window ℝ} (hw : w.Proper) : w.squared.Proper := by
  have hwidth : 0 < w.width := sub_pos.2 hw.horizontal
  have hside : 0 < max w.width w.height := lt_max_of_lt_left hwidth
  rw [squared_eq]
  constructor <;> simp only [around_eq] <;> linarith

/-- The standard window reaches from ten below zero to ten above. -/
theorem proper_standard : (standard : Window ℝ).Proper := by
  have hten : -((10 : ℕ) : ℝ) < (10 : ℕ) := by norm_num
  exact ⟨hten, hten⟩

end Window

/-- **The window around figures, with some room, runs upwards on both sides.** -/
theorem Registry.proper_fittedWindow (r : Registry ℝ) {padding : ℝ} (hpadding : 0 < padding)
    {fallback : Window ℝ} (hfallback : fallback.Proper) :
    (r.fittedWindow padding fallback).Proper := by
  unfold fittedWindow
  split
  · rename_i w hw
    exact Window.proper_pad (Window.le_of_bounding? hw) hpadding
  · exact hfallback

/-! ## Axes -/

/-- **An axis runs upwards.** -/
def Axis.Proper (axis : Axis α) : Prop := Scalar.lt axis.min axis.max = true

/-- **An axis can take limits without being turned around**: a limit that is given alone lies on its
own side of the other end. -/
def Axis.Admits (axis : Axis α) : Option α → Option α → Prop
  | some low, none => Scalar.lt low axis.max = true
  | none, some high => Scalar.lt axis.min high = true
  | _, _ => True

/-- An axis that runs upwards still does so with its limits replaced exactly if it can take them,
given that they are in order. -/
theorem Axis.proper_getD_iff {low high : ℝ} (hlt : low < high) {visible : Bool}
    {min max : Option ℝ} (horder : InOrder min max) :
    (Axis.mk (min.getD low) (max.getD high) visible).Proper ↔
      (Axis.mk low high visible).Admits min max := by
  cases min with
  | none =>
    cases max with
    | none => exact ⟨fun _ => trivial, fun _ => Exact.lt_iff.2 hlt⟩
    | some h => exact Iff.rfl
  | some l =>
    cases max with
    | none => exact Iff.rfl
    | some h =>
      refine ⟨fun _ => trivial, fun _ => ?_⟩
      exact Exact.lt_iff.2 (Exact.le_eq_false_iff.1 horder)

namespace Session

variable {s : Session α}

/-- A session with limits of its own shows exactly these. -/
theorem chartWindow_of_ownLimits {minX maxX minY maxY : α}
    (h : s.ownLimits = some (.full minX maxX minY maxY)) (limits : Option (AxisLimits α)) :
    s.chartWindow limits = ⟨minX, maxX, minY, maxY⟩ := by
  rw [chartWindow, Registry.chartWindow, h]
  rfl

/-- A session without limits of its own shows its figures, under the limits of the call. -/
theorem chartWindow_of_none (h : s.ownLimits = none) (limits : Option (AxisLimits α)) :
    s.chartWindow limits = AxisLimits.override limits
      (s.registry.fittedWindow s.settings.padding s.settings.defaultWindow).squared := by
  rw [chartWindow, Registry.chartWindow, h]
  rfl

/-- **The axes of a chart run upwards exactly if they can take the limits of the call.** With the
standard settings and exact arithmetic, in every reachable session: without limits of the call both
axes run upwards; and under limits that were written an axis does so exactly if the session has
limits of its own, or no limit of the call that is given alone lies beyond the other end. -/
theorem render_proper_iff [Numeral ℝ] {s : Session ℝ} (hs : s.Reachable)
    (hsettings : s.settings = .standard) {text : List Char} {l : AxisLimits ℝ}
    (hl : AxisLimits.parse text = .ok l) :
    ((s.render none).xAxis.Proper ∧ (s.render none).yAxis.Proper) ∧
      ((s.render (some l)).xAxis.Proper ↔
        s.ownLimits ≠ none ∨ (s.render none).xAxis.Admits l.minX l.maxX) ∧
      ((s.render (some l)).yAxis.Proper ↔
        s.ownLimits ≠ none ∨ (s.render none).yAxis.Admits l.minY l.maxY) := by
  have hordered := AxisLimits.ordered_of_parse hl
  simp only [render]
  cases hown : s.ownLimits with
  | some own =>
    -- the session's limits win, and they are in order
    obtain ⟨minX, maxX, minY, maxY, rfl, hx, hy⟩ := hs.limitsInOrder own hown
    have hxAxis : minX < maxX := Exact.le_eq_false_iff.1 hx
    have hyAxis : minY < maxY := Exact.le_eq_false_iff.1 hy
    rw [chartWindow_of_ownLimits hown, chartWindow_of_ownLimits hown]
    simp [Axis.Proper, hxAxis, hyAxis]
  | none =>
    have hpadding : 0 < s.settings.padding := by
      rw [hsettings]
      exact Nat.cast_pos.2 Nat.one_pos
    have hfallback : s.settings.defaultWindow.Proper := by
      rw [hsettings]
      exact Window.proper_standard
    have hproper := (s.registry.proper_fittedWindow hpadding hfallback).squared
    rw [chartWindow_of_none hown, chartWindow_of_none hown]
    simp only [ne_eq, not_true_eq_false, false_or]
    exact ⟨⟨Exact.lt_iff.2 hproper.horizontal, Exact.lt_iff.2 hproper.vertical⟩,
      Axis.proper_getD_iff hproper.horizontal hordered.horizontal,
      Axis.proper_getD_iff hproper.vertical hordered.vertical⟩

/-- A session without figures shows ten units to every side, so a left side at `-5` leaves its axis
running upwards. -/
theorem render_proper_of_left_side :
    let _ : Numeral ℝ := Exact.decimals
    let s : Session ℝ := new .standard
    ∃ l : AxisLimits ℝ, AxisLimits.parse ['-', '5', ',', ',', ','] = .ok l ∧ s.Reachable ∧
      l.minX = some (-5) ∧ (s.render (some l)).xAxis.Proper ∧ (s.render (some l)).yAxis.Proper := by
  intro _ s
  have hread : AxisLimits.parse (α := ℝ) ['-', '5', ',', ',', ','] =
      .ok ⟨some (-Scalar.ofDecimal 5 0), none, none, none⟩ := by rfl
  have hfive : (Scalar.ofDecimal 5 0 : ℝ) = 5 := by
    rw [Exact.ofDecimal_eq, zpow_zero, mul_one, Nat.cast_ofNat]
  rw [hfive] at hread
  have hs : s.Reachable := .new .standard
  obtain ⟨-, hx, hy⟩ := render_proper_iff hs rfl hread
  -- the window is a square already, so it is shown as it is
  have hright : (Window.standard : Window ℝ).squared.maxX = 10 := by
    unfold Window.squared
    split
    · rfl
    · show (-((10 : ℕ) : ℝ) + (10 : ℕ)) / (2 : ℕ) + ((10 : ℕ) - -((10 : ℕ) : ℝ)) / (2 : ℕ) = 10
      norm_num
  have hadmits : (s.render none).xAxis.Admits (some (-5)) none := by
    show Scalar.lt (-5) (Window.standard : Window ℝ).squared.maxX = true
    rw [hright, Exact.lt_iff]
    norm_num
  exact ⟨_, hread, hs, rfl, hx.2 (.inr hadmits), hy.2 (.inr trivial)⟩

/-- A left side at `100` turns the horizontal axis of a session without figures around: the right
side stays at ten. All numbers here are whole, so nothing is rounded. -/
theorem not_proper_of_far_left_side :
    let s : Session Float := new .standard
    ∃ l : AxisLimits Float,
      AxisLimits.parse ['1', '0', '0', ',', ',', ','] = .ok l ∧ s.Reachable ∧
        (s.render (some l)).xAxis.min = 100 ∧ (s.render (some l)).xAxis.max = 10 ∧
        ¬(s.render (some l)).xAxis.Proper := by
  intro s
  let l : AxisLimits Float := ⟨some (Binary64.ofDecimal 100 0), none, none, none⟩
  have hmin : Binary64.ofDecimal 100 0 = 100 := by decide +kernel
  have hmax : (Window.standard : Window Float).squared.maxX = 10 := by decide +kernel
  have hlt : Scalar.lt (100 : Float) 10 = false := by decide +kernel
  have haxis : (s.render (some l)).xAxis = ⟨100, 10, true⟩ := by
    simp only [render]
    have hfitted : s.registry.fittedWindow s.settings.padding s.settings.defaultWindow =
        .standard := Registry.fittedWindow_empty _ _
    rw [chartWindow_of_none rfl, hfitted, AxisLimits.override, AxisLimits.applyTo]
    simp only [l, Option.getD_some, Option.getD_none, hmin, hmax]
    rfl
  refine ⟨l, by rfl, .new .standard, by rw [haxis], by rw [haxis], ?_⟩
  rw [haxis, Axis.Proper, hlt]
  exact Bool.false_ne_true

end Session

end Straightedge
