import Straightedge.Proofs.Chart.FigureOrder
import Straightedge.Proofs.Session.Tooltips

/-! # Renaming

A renamed figure goes to the end of the registry and is drawn as before, apart from its name. Its
tooltip can be retitled back since in every reachable session it is written under the name that the
figure has.

* **`Figure.Titled.retitle_retitle`**: retitling back undoes retitling.
* **`Registry.Indexed.rename_rename`**: a figure that is renamed twice.
* **`Series.Renamed`**, **`Chart.Renamed`**: what renaming changes in a chart.
* **`Session.Reachable.perform_rename_cosmetic`**: renaming changes nothing else, and renaming back
  restores the figure. -/

namespace Straightedge

variable {α : Type}

/-! ## Retitling back -/

/-- Retitling back undoes retitling. -/
theorem Figure.Titled.retitle_retitle {old : String} {figure : Figure α} (h : figure.Titled old)
    (new : String) : (figure.retitle old new).retitle new old = figure := by
  cases figure with
  | point _ => rfl
  | label _ => rfl
  | curve c =>
    obtain ⟨vertices, closed, stroke, fill, tooltip⟩ := c
    cases tooltip with
    | none => rfl
    | some tip =>
      obtain ⟨details, rfl⟩ := h tip rfl
      simp only [Figure.retitle, Option.map_some, Tooltip.retitle_write]

/-! ## Registries -/

namespace Registry

variable {r r' : Registry α} {old new : String}

/-- A rename keeps all positions; only their order changes. -/
theorem Indexed.coords_rename_perm (hr : r.Indexed) (hrename : r.rename old new = .ok r') :
    r.coords.Perm r'.coords := by
  obtain ⟨front, figure, back, hbefore, hafter⟩ := hr.exists_toList_rename hrename
  simp only [coords, hbefore, hafter, List.flatMap_append, List.flatMap_cons, List.flatMap_nil,
    Figure.coords_retitle, List.append_nil, List.append_assoc]
  exact List.perm_append_comm.append_left _

/-- **A figure that is renamed and named back** is the same one, behind all others. -/
theorem Indexed.rename_rename (hr : r.Indexed) (htitled : r.Each Figure.Titled)
    (hrename : r.rename old new = .ok r') :
    ∃ front figure back r'', r.toList = front ++ (old, figure) :: back ∧
      r'.rename new old = .ok r'' ∧ r''.toList = front ++ back ++ [(old, figure)] := by
  obtain ⟨front, figure, back, hbefore, hafter⟩ := hr.exists_toList_rename hrename
  have hr' := hr.rename hrename
  have hmem : (old, figure) ∈ r.toList := hbefore ▸ List.mem_append_right _ List.mem_cons_self
  have hnodup : ((front ++ (old, figure) :: back).map Prod.fst).Nodup := hbefore ▸ hr.nodup_names
  have hne : old ≠ new := by
    rintro rfl
    have hfree := ((rename_eq_ok_iff r r' old old).1 hrename).1
    exact hr.not_mem_of_requireFree hfree (List.mem_map_of_mem hmem)
  -- the old name is free again
  have hgone : old ∉ r'.names := by
    rw [names, hafter, List.map_append, List.mem_append]
    rw [List.map_append, List.map_cons, List.nodup_middle, ← List.map_append] at hnodup
    rintro (hc | hc)
    · exact (List.nodup_cons.1 hnodup).1 hc
    · exact hne (List.mem_singleton.1 hc)
  have hfree := hr'.requireFree_of_not_mem (hr.name_ne_empty old (List.mem_map_of_mem hmem)) hgone
  obtain ⟨r'', hback, hrestored⟩ := hr'.exists_rename hafter hfree
  have htitle : figure.Titled old := htitled _ hmem
  rw [htitle.retitle_retitle new, List.append_nil] at hrestored
  exact ⟨front, figure, back, r'', hbefore, hback, hrestored⟩

end Registry

/-! ## Charts -/

/-- **What renaming changes in the tooltip of a series**: the bare name, or the title. -/
inductive Tooltip.Renamed (old new : String) : Option String → Option String → Prop
  | none : Renamed old new none none
  | bare : Renamed old new (some old) (some new)
  | written (details : List String) :
      Renamed old new (some (write old details)) (some (write new details))

/-- **The second series is the first one under another name.** A point shows its name; all other
labels stay. -/
structure Series.Renamed (old new : String) (series series' : Series α) : Prop where
  name_before : series.name = old
  name_after : series'.name = new
  kind_eq : series'.kind = series.kind
  data_eq : series'.data = series.data
  style_eq : { series'.style with label := none } = { series.style with label := none }
  label_point : series.kind = .point →
    series.style.label = some old ∧ series'.style.label = some new
  label_other : series.kind ≠ .point → series'.style.label = series.style.label
  tooltip : Tooltip.Renamed old new series.tooltip series'.tooltip

/-- Two axes have the same limits, as numbers, and both are shown or neither. -/
structure Axis.Same [Scalar α] (axis axis' : Axis α) : Prop where
  min : Scalar.Same axis.min axis'.min
  max : Scalar.Same axis.max axis'.max
  visible : axis.visible = axis'.visible

/-- **The second chart is the first one with one series renamed**: that series is taken out and
stands behind all others. -/
structure Chart.Renamed [Scalar α] (old new : String) (chart chart' : Chart α) : Prop where
  title : chart'.title = chart.title
  xAxis : chart.xAxis.Same chart'.xAxis
  yAxis : chart.yAxis.Same chart'.yAxis
  series : ∃ front series series' back, chart.series = front ++ series :: back ∧
    chart'.series = front ++ back ++ [series'] ∧ series.Renamed old new series'

/-- The series of a renamed figure. -/
theorem Figure.Titled.renamed_ofFigure [Scalar α] [Numeral α] {old : String} {figure : Figure α}
    (h : figure.Titled old) (new : String) :
    (Series.ofFigure old figure).Renamed old new
      (Series.ofFigure new (figure.retitle old new)) where
  name_before := Series.name_ofFigure old figure
  name_after := Series.name_ofFigure new _
  kind_eq := by cases figure <;> rfl
  data_eq := by rw [Series.data_ofFigure, Series.data_ofFigure, Figure.coords_retitle]
  style_eq := by cases figure <;> rfl
  label_point := by
    intro hkind
    cases figure with
    | point m => exact ⟨rfl, rfl⟩
    | label l => cases hkind
    | curve c =>
      rw [Series.ofFigure, Series.ofCurve] at hkind
      split at hkind <;> cases hkind
  label_other := by
    intro hkind
    cases figure with
    | point m => exact absurd rfl hkind
    | label l => rfl
    | curve c => rfl
  tooltip := by
    cases figure with
    | point m => exact .written [m.coord.text]
    | label l => exact .none
    | curve c =>
      obtain ⟨vertices, closed, stroke, fill, tooltip⟩ := c
      cases tooltip with
      | none => exact .bare
      | some tip =>
        obtain ⟨details, rfl⟩ := h tip rfl
        have hretitled : (Series.ofFigure new (Figure.retitle old new
            (.curve ⟨vertices, closed, stroke, fill, some (Tooltip.write old details)⟩))).tooltip =
            some (Tooltip.write new details) := by
          rw [← Tooltip.retitle_write old new]
          rfl
        rw [hretitled]
        exact .written details

namespace Session

/-- **Renaming is cosmetic and can be undone.** In every reachable session a successful rename keeps
the title of the chart, both axes and, as numbers, all their limits, whatever limits a call sets; it
takes one series to the end, which differs in its name, the label of a point and the title of its
tooltip. Naming the figure back succeeds and restores it with its tooltip. -/
theorem Reachable.perform_rename_cosmetic {s s' : Session Float} (hs : s.Reachable)
    {old new : String} {v : Value Float} (h : s.perform (.rename old new) = (.ok v, s')) :
    (∀ limits, (s.render limits).Renamed old new (s'.render limits)) ∧
      ∃ figure s'', s.registry.get? old = some figure ∧
        s'.perform (.rename new old) = (.ok (.name old), s'') ∧
        s''.registry.get? old = some figure := by
  obtain ⟨-, r, hrename, rfl⟩ := perform_rename_eq_ok_iff.1 h
  have hr := hs.indexed
  constructor
  · intro limits
    have hwindow := Registry.same_chartWindow (hr.coords_rename_perm hrename) s.settings.padding
      s.settings.defaultWindow limits s.ownLimits
    obtain ⟨front, figure, back, hbefore, hafter⟩ := hr.exists_toList_rename hrename
    have htitled : figure.Titled old :=
      hs.titled (old, figure) (hbefore ▸ List.mem_append_right _ List.mem_cons_self)
    let draw (entry : String × Figure Float) : Series Float := Series.ofFigure entry.1 entry.2
    exact {
      title := rfl
      xAxis := ⟨hwindow.minX, hwindow.maxX, rfl⟩
      yAxis := ⟨hwindow.minY, hwindow.maxY, rfl⟩
      series := ⟨front.map draw, draw (old, figure), draw (new, figure.retitle old new),
        back.map draw, by simp only [render, hbefore, List.map_append, List.map_cons, draw],
        by simp only [render, hafter, List.map_append, List.map_cons, List.map_nil, draw],
        htitled.renamed_ofFigure new⟩ }
  · obtain ⟨front, figure, back, r'', hbefore, hback, hrestored⟩ :=
      hr.rename_rename hs.titled hrename
    exact ⟨figure, { s with registry := r'' }, hr.get?_of_toList hbefore,
      perform_rename_eq_ok_iff.2 ⟨rfl, r'', hback, rfl⟩,
      ((hr.rename hrename).rename hback).get?_of_toList hrestored⟩

/-- A line `AB` between two points is renamed to `CD` and back: it goes behind the points, and its
tooltip has the other title in between. -/
theorem perform_rename_cosmetic_of_line :
    let s : Session Float := (new .standard).after [.point (.position ⟨3, 4⟩) (some "P"),
      .line (.position ⟨0, 0⟩) (.position ⟨1, 0⟩) (some "AB"),
      .point (.position ⟨0, 2⟩) (some "Q")]
    s.Reachable ∧ s.registry.names = ["P", "AB", "Q"] ∧
      ∃ s' s'' c, s.perform (.rename "AB" "CD") = (.ok (.name "CD"), s') ∧
        (s.render none).Renamed "AB" "CD" (s'.render none) ∧
        s'.registry.names = ["P", "Q", "CD"] ∧
        s'.perform (.rename "CD" "AB") = (.ok (.name "AB"), s'') ∧
        s.registry.get? "AB" = some (.curve c) ∧
        c.tooltip = some (endsTooltip "AB" ⟨0, 0⟩ (⟨1, 0⟩ : Coord Float)) ∧
        s'.registry.get? "CD" = some (.curve { c with
          tooltip := some (endsTooltip "CD" ⟨0, 0⟩ (⟨1, 0⟩ : Coord Float)) }) ∧
        s''.registry.get? "AB" = some (.curve c) := by
  intro s
  have hs : s.Reachable := (Reachable.new .standard).after _
  obtain ⟨-, hlist⟩ := after_new_of_draws .standard (.cons (Operation.draws_point
    (p := (⟨3, 4⟩ : Coord Float)) (by decide +kernel) "P") (.cons (Operation.draws_line
      (p := ⟨0, 0⟩) (q := ⟨1, 0⟩) (by decide +kernel) (by decide +kernel) "AB")
      (.cons (Operation.draws_point (p := ⟨0, 2⟩) (by decide +kernel) "Q") .nil)))
    (by decide) (by decide)
  have hnames : s.registry.names = ["P", "AB", "Q"] := congrArg (List.map Prod.fst) hlist
  have hfree := hs.indexed.requireFree_of_not_mem (show "CD" ≠ "" by decide)
    (by rw [hnames]; decide)
  have hsplit : s.registry.toList = [_] ++ _ :: _ := hlist
  obtain ⟨r, hrename, hrenamed⟩ := exists_perform_rename hs.indexed hsplit hfree
  obtain ⟨hchart, figure, s'', hget, hback, hrestored⟩ := hs.perform_rename_cosmetic hrename
  obtain rfl := Option.some.inj (hget.symm.trans (hs.indexed.get?_of_toList hsplit))
  -- in between, the other title stands in the place of the first one
  have hs' := hs.perform (.rename "AB" "CD")
  rw [hrename] at hs'
  have hretitled := hs'.indexed.get?_of_toList hrenamed
  rw [Figure.retitle, Option.map_some, endsTooltip, Tooltip.retitle_write] at hretitled
  exact ⟨hs, hnames, _, s'', _, hrename, hchart none, congrArg (List.map Prod.fst) hrenamed, hback,
    hget, rfl, hretitled, hrestored⟩

end Session

end Straightedge
