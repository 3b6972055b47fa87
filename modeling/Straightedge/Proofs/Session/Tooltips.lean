import Straightedge.Chart.Basic
import Straightedge.Proofs.Session.Figures

/-! # Tooltips and names

A tooltip is written once, when its curve is drawn, and from then on only its title is replaced.
That is enough: the title is the name of the curve at all times.

* **`Tooltip.retitle_write`**: a retitled tooltip is the one that would have been written anew.
* **`Tooltip.Names`**, **`Tooltip.Names.unique`**: the tooltips that name a figure; they name one
  only, unless one name begins with another as marked up.
* **`Figure.Titled`**: the tooltip of a curve is written under its name.
* **`Session.Reachable.titled`**: so it is for all figures, whatever operations are carried out.
* **`Session.Reachable.tooltips_name`**: the same as users see it, for figures and for charts. -/

namespace Straightedge

/-! ## Texts of tooltips -/

namespace Tooltip

/-- The detail lines below a title. -/
def lines (details : List String) : String :=
  details.foldl (fun text detail => text ++ "<br>" ++ detail) ""

/-- Detail lines are written behind any text in the same way. -/
theorem foldl_append_eq (details : List String) (front text : String) :
    details.foldl (fun text detail => text ++ "<br>" ++ detail) (front ++ text) =
      front ++ details.foldl (fun text detail => text ++ "<br>" ++ detail) text := by
  induction details generalizing text with
  | nil => rfl
  | cons detail details ih =>
    simp only [List.foldl_cons]
    rw [← ih, ← String.append_assoc, ← String.append_assoc]

/-- A tooltip is the heading and the detail lines. -/
theorem write_eq (title : String) (details : List String) :
    write title details = heading title ++ lines details := by
  rw [write, lines, ← foldl_append_eq, String.append_empty]

/-- **A retitled tooltip is the one that would have been written under the new title.** -/
theorem retitle_write (old new : String) (details : List String) :
    retitle old new (write old details) = write new details := by
  rw [write_eq, write_eq, retitle_heading]

/-- A tooltip names a figure: it is the bare name, or starts with the heading of the name. -/
inductive Names (name : String) : String → Prop
  | bare : Names name name
  | headed (rest : String) : Names name (heading name ++ rest)

/-- A tooltip that is written under a name names it. -/
theorem names_write (name : String) (details : List String) : Names name (write name details) := by
  rw [write_eq]
  exact .headed _

/-- A tooltip names every figure whose name starts its title and goes on with a closing tag. -/
theorem names_write_closed (name rest : String) (details : List String) :
    Names name (write (name ++ "</strong>" ++ rest) details) := by
  have hheading :
      heading (name ++ "</strong>" ++ rest) = heading name ++ (rest ++ "</strong>") := by
    simp only [heading, String.append_assoc]
  rw [write_eq, hheading, String.append_assoc]
  exact .headed _

/-- **A name begins with another one as marked up**: with the closing tag behind it, and with or
without the opening tag before it. -/
inductive Begins (name : String) : String → Prop
  | closed (rest : String) : Begins name (name ++ "</strong>" ++ rest)
  | headed (rest : String) : Begins name (heading name ++ rest)

/-- A name without brackets begins with no other name as marked up. -/
theorem Begins.mem_bracket {name other : String} (h : Begins name other) : '<' ∈ other.toList := by
  cases h <;> simp [heading, String.toList_append]

/-- A tag has its bracket in front only, so it does not overlap with itself: where a text in front
of a tag starts with the same tag, it holds all of that. -/
theorem prefix_of_append_tag {c : Char} {cs mid rest rest' : List Char} (hc : c ∉ cs)
    (h : c :: cs ++ rest = mid ++ (c :: cs ++ rest')) (hmid : mid ≠ []) : c :: cs <+: mid := by
  rcases List.append_eq_append_iff.1 h with ⟨behind, rfl, -⟩ | ⟨remainder, htag, hrest⟩
  · exact List.prefix_append _ _
  · obtain ⟨d, ds, rfl⟩ := List.exists_cons_of_ne_nil hmid
    cases remainder with
    | nil => exact ⟨[], by rw [htag, List.append_nil, List.append_nil]⟩
    | cons x xs =>
      -- what is left of the first tag would start with a bracket
      injection htag with _ htag
      injection hrest with hx _
      exact absurd (htag ▸ hx ▸ List.mem_append_right _ List.mem_cons_self) hc

/-- Where a name and a longer one stand in front of closing tags in one text, the longer one goes on
with a closing tag. -/
theorem eq_or_begins_of_append {name other : String} {mid rest rest' : List Char}
    (hother : other.toList = name.toList ++ mid)
    (h : "</strong>".toList ++ rest = mid ++ ("</strong>".toList ++ rest')) :
    name = other ∨ Begins name other := by
  by_cases hmid : mid = []
  · left
    rw [← String.toList_inj, hother, hmid, List.append_nil]
  · right
    obtain ⟨behind, rfl⟩ := prefix_of_append_tag (show '<' ∉ "/strong>".toList by decide)
      h hmid
    have hname : other = name ++ "</strong>" ++ String.ofList behind := by
      rw [← String.toList_inj, hother, String.append_assoc, String.toList_append,
        String.toList_append]
      exact congrArg (fun text => name.toList ++ ("</strong>".toList ++ text))
        String.toList_ofList.symm
    rw [hname]
    exact .closed _

/-- **A tooltip names one figure only**, unless the name of one begins with that of the other as
marked up. -/
theorem Names.unique {tip first second : String} (h : Names first tip) (h' : Names second tip) :
    first = second ∨ Begins first second ∨ Begins second first := by
  generalize htip : tip = text at h'
  cases h with
  | bare =>
    cases h' with
    | bare => exact .inl htip
    | headed rest => exact .inr (.inr (htip ▸ .headed rest))
  | headed rest =>
    cases h' with
    | bare => exact .inr (.inl (htip ▸ .headed rest))
    | headed rest' =>
      -- both names stand in front of a closing tag, and one of them starts with the other
      simp only [heading, String.append_assoc, String.append_right_inj] at htip
      have hlist := congrArg String.toList htip
      simp only [String.toList_append] at hlist
      rcases List.append_eq_append_iff.1 hlist with ⟨mid, hsecond, hmid⟩ | ⟨mid, hfirst, hmid⟩
      · exact (eq_or_begins_of_append hsecond hmid).imp_right .inl
      · exact (eq_or_begins_of_append hfirst hmid).imp Eq.symm .inr

end Tooltip

variable {α : Type}

/-! ## Titles of figures -/

/-- **The tooltip of a curve, if it has one, is written under its name.** -/
def Figure.Titled (name : String) : Figure α → Prop
  | .curve c => ∀ tip, c.tooltip = some tip → ∃ details, tip = Tooltip.write name details
  | _ => True

namespace Figure.Titled

variable {name : String} {figure : Figure α}

/-- A renamed or copied figure is titled with its new name. -/
theorem retitle {old : String} (h : figure.Titled old) (new : String) :
    (figure.retitle old new).Titled new := by
  cases figure with
  | point _ => trivial
  | label _ => trivial
  | curve c =>
    intro tip htip
    obtain ⟨before, hbefore, rfl⟩ := Option.map_eq_some_iff.1 htip
    obtain ⟨details, rfl⟩ := h before hbefore
    exact ⟨details, Tooltip.retitle_write old new details⟩

variable [Scalar α]

omit [Scalar α] in
theorem recolor (h : figure.Titled name) (color : String) : (figure.recolor color).Titled name := by
  cases figure with
  | point _ => trivial
  | label _ => trivial
  | curve c => exact h

theorem map (h : figure.Titled name) (f : Affine α) : (figure.map f).Titled name := by
  cases figure with
  | point _ => trivial
  | label _ => trivial
  | curve c => exact h

variable [Numeral α]

/-- The series of a titled figure has a tooltip that names it, unless it is a mere text. -/
theorem names_of_ofFigure (h : figure.Titled name)
    (hkind : (Series.ofFigure name figure).kind ≠ .text) :
    ∃ tip, (Series.ofFigure name figure).tooltip = some tip ∧ Tooltip.Names name tip := by
  cases figure with
  | point m => exact ⟨_, rfl, Tooltip.names_write name [m.coord.text]⟩
  | label l => exact absurd rfl hkind
  | curve c =>
    refine ⟨_, rfl, ?_⟩
    cases htip : c.tooltip with
    | none => exact .bare
    | some tip =>
      obtain ⟨details, rfl⟩ := h tip htip
      exact Tooltip.names_write name details

end Figure.Titled

/-- The series of a curve is no mere text. -/
theorem Series.kind_ofCurve_ne_text [Scalar α] [Numeral α] (name : String) (c : Curve α) :
    (ofFigure name (.curve c)).kind ≠ .text := by
  rw [ofFigure, ofCurve]
  split <;> exact nofun

/-! ## Sessions -/

namespace Session

variable [Scalar α] [Numeral α]

/-- Curves are drawn with a tooltip under their own name or with none, and copies are retitled. -/
theorem Drawn.titled {s : Session α} (htitled : s.registry.Each Figure.Titled)
    (hs : s.registry.Indexed) {op : Operation α} {name : String} {figure : Figure α}
    (h : s.Drawn op name figure) : figure.Titled name := by
  cases h with
  | marker _ => trivial
  | label _ => trivial
  | ruler h =>
    obtain ⟨-, rfl⟩ := Curve.polyline_eq_ok_iff.1 h
    rintro tip ⟨⟩
  | polyline h =>
    obtain ⟨-, rfl⟩ := Curve.polyline_eq_ok_iff.1 h
    rintro tip ⟨⟩
    exact ⟨_, rfl⟩
  | ring h =>
    obtain ⟨-, rfl⟩ := Curve.ring_eq_ok_iff.1 h
    rintro tip ⟨⟩
    exact ⟨_, rfl⟩
  | copy _ hfind _ => exact ((htitled.find hs hfind).map _).retitle name

/-- **In every reachable session all figures are titled with their names.** -/
theorem Reachable.titled {s : Session α} (hs : s.Reachable) :
    s.registry.Each Figure.Titled := by
  induction hs with
  | new settings => exact Registry.each_empty
  | perform h op ih =>
    refine ih.perform h.indexed (fun _ new _ hfigure => hfigure.retitle new)
      (fun _ _ color hfigure => hfigure.recolor color)
      (fun _ _ _ _ _ hdrawn => hdrawn.titled ih h.indexed) fun _ _ f _ hfind => ?_
    exact (ih.find h.indexed hfind).map f

/-- A chart shows every figure. -/
theorem mem_series_render {s : Session α} {name : String} {figure : Figure α}
    (h : (name, figure) ∈ s.registry.toList) (limits : Option (AxisLimits α)) :
    Series.ofFigure name figure ∈ (s.render limits).series :=
  List.mem_map_of_mem h

/-- The series of a chart have different names. -/
theorem Reachable.eq_of_series_name_eq {s : Session α} (hs : s.Reachable)
    {limits : Option (AxisLimits α)} {series other : Series α}
    (hseries : series ∈ (s.render limits).series) (hother : other ∈ (s.render limits).series)
    (hname : series.name = other.name) : series = other := by
  obtain ⟨entry, hentry, rfl⟩ := List.mem_map.1 hseries
  obtain ⟨entry', hentry', rfl⟩ := List.mem_map.1 hother
  rw [Series.name_ofFigure, Series.name_ofFigure] at hname
  rw [List.inj_on_of_nodup_map hs.indexed.nodup_names hentry hentry' hname]

/-- **Tooltips always carry the current name.** In every session that operations lead to, the
tooltip of a curve starts with the heading of the name that the curve has now; and in its chart
every point and every curve has a tooltip, which names its own series, and no other one unless one
of the two names begins with the other as marked up. -/
theorem Reachable.tooltips_name {s : Session α} (hs : s.Reachable) :
    (∀ name c tip, s.registry.get? name = some (.curve c) → c.tooltip = some tip →
        ∃ rest, tip = Tooltip.heading name ++ rest) ∧
      ∀ limits, ∀ series ∈ (s.render limits).series, series.kind ≠ .text →
        ∃ tip, series.tooltip = some tip ∧ Tooltip.Names series.name tip ∧
          ∀ other ∈ (s.render limits).series, Tooltip.Names other.name tip →
            other = series ∨ Tooltip.Begins other.name series.name ∨
              Tooltip.Begins series.name other.name := by
  constructor
  · intro name c tip hget htip
    obtain ⟨details, rfl⟩ := hs.titled.get? hs.indexed hget tip htip
    exact ⟨_, Tooltip.write_eq name details⟩
  · intro limits series hseries hkind
    obtain ⟨⟨name, figure⟩, hentry, hfigure⟩ := List.mem_map.1 hseries
    obtain ⟨tip, htip, hnames⟩ := (hs.titled _ hentry).names_of_ofFigure (hfigure ▸ hkind)
    rw [← hfigure, Series.name_ofFigure]
    refine ⟨tip, htip, hnames, fun other hother hothers => ?_⟩
    refine (hothers.unique hnames).imp_left fun hname => ?_
    exact hs.eq_of_series_name_eq hother (hfigure ▸ hseries) (by rw [hname, Series.name_ofFigure])

/-- Where two lines are drawn as `A` and as `A</strong><br>Z`, the tooltip of the second one starts
with the heading of both. -/
theorem tooltips_name_two_of_tagged_line :
    let s : Session Float := (new .standard).after
      [.line (.position ⟨0, 0⟩) (.position ⟨1, 0⟩) (some "A"),
        .line (.position ⟨0, 1⟩) (.position ⟨1, 1⟩) (some "A</strong><br>Z")]
    s.Reachable ∧ ¬ ∀ limits, ∀ series ∈ (s.render limits).series, series.kind ≠ .text →
      ∃ tip, series.tooltip = some tip ∧
        ∀ other ∈ (s.render limits).series, Tooltip.Names other.name tip ↔ other = series := by
  intro s
  obtain ⟨-, hlist⟩ := after_new_of_draws .standard (.cons (Operation.draws_line
    (p := (⟨0, 0⟩ : Coord Float)) (q := ⟨1, 0⟩) (by decide +kernel) (by decide +kernel) "A")
    (.cons (Operation.draws_line (p := ⟨0, 1⟩) (q := ⟨1, 1⟩) (by decide +kernel)
      (by decide +kernel) "A</strong><br>Z") .nil)) (by decide) (by decide)
  obtain ⟨first, hfirst⟩ : ∃ figure, ("A", figure) ∈ s.registry.toList := by
    rw [hlist]
    exact ⟨_, .head _⟩
  obtain ⟨c, details, hsecond, htip⟩ : ∃ c details,
      ("A</strong><br>Z", Figure.curve c) ∈ s.registry.toList ∧
        c.tooltip = some (Tooltip.write "A</strong><br>Z" details) := by
    rw [hlist]
    exact ⟨_, _, .tail _ (.head _), rfl⟩
  refine ⟨(Reachable.new .standard).after _, fun hall => ?_⟩
  obtain ⟨tip, hseries, hnames⟩ := hall none _ (mem_series_render hsecond none)
    (Series.kind_ofCurve_ne_text _ c)
  rw [Series.ofFigure, Series.ofCurve, htip] at hseries
  obtain rfl := Option.some.inj hseries
  have hboth : Tooltip.Names "A" (Tooltip.write "A</strong><br>Z" details) :=
    Tooltip.names_write_closed "A" "<br>Z" details
  have hsame := (hnames _ (mem_series_render hfirst none)).1
    (by rw [Series.name_ofFigure]; exact hboth)
  exact absurd (congrArg Series.name hsame) (by simp)

/-- Two lines are drawn as `AB` and as `EF`, and `AB` is renamed to `CD`: the tooltip of the renamed
line starts with the heading of `CD`, and in the chart it names this line and not the other one. -/
theorem tooltips_name_of_renamed_line :
    let s : Session Float := (new .standard).after
      [.line (.position ⟨0, 0⟩) (.position ⟨1, 0⟩) (some "AB"),
        .line (.position ⟨0, 1⟩) (.position ⟨1, 1⟩) (some "EF"), .rename "AB" "CD"]
    s.Reachable ∧ s.registry.names = ["EF", "CD"] ∧
      (∃ c tip rest, s.registry.get? "CD" = some (.curve c) ∧ c.tooltip = some tip ∧
        tip = Tooltip.heading "CD" ++ rest) ∧
      ∃ series ∈ (s.render none).series, ∃ tip, series.name = "CD" ∧ series.tooltip = some tip ∧
        Tooltip.Names "CD" tip ∧ ¬ Tooltip.Names "EF" tip := by
  intro s
  have hs : s.Reachable := (Reachable.new .standard).after _
  obtain ⟨-, hdrawn⟩ := after_new_of_draws .standard (.cons (Operation.draws_line
    (p := (⟨0, 0⟩ : Coord Float)) (q := ⟨1, 0⟩) (by decide +kernel) (by decide +kernel) "AB")
    (.cons (Operation.draws_line (p := ⟨0, 1⟩) (q := ⟨1, 1⟩) (by decide +kernel)
      (by decide +kernel) "EF") .nil)) (by decide) (by decide)
  have hindexed := ((Reachable.new (.standard : Settings Float)).after
    [.line (.position ⟨0, 0⟩) (.position ⟨1, 0⟩) (some "AB"),
      .line (.position ⟨0, 1⟩) (.position ⟨1, 1⟩) (some "EF")]).indexed
  have hfree := hindexed.requireFree_of_not_mem (show "CD" ≠ "" by decide)
    (by rw [Registry.names, hdrawn]; decide)
  obtain ⟨r, hrename, hregistry⟩ := exists_perform_rename hindexed
    (hdrawn.trans (List.nil_append _).symm) hfree
  have hlist : s.registry.toList = _ := (congrArg (·.2.registry.toList) hrename).trans hregistry
  obtain ⟨other, hother⟩ : ∃ figure, ("EF", figure) ∈ s.registry.toList := by
    rw [hlist]
    exact ⟨_, .head _⟩
  obtain ⟨c, tip, hrenamed, htip⟩ : ∃ c tip, ("CD", Figure.curve c) ∈ s.registry.toList ∧
      c.tooltip = some tip := by
    rw [hlist]
    exact ⟨_, _, .tail _ (.head _), rfl⟩
  have hget := (hs.indexed.get?_eq_some_iff "CD" _).2 hrenamed
  obtain ⟨hfigures, hchart⟩ := hs.tooltips_name
  obtain ⟨rest, hrest⟩ := hfigures "CD" c tip hget htip
  obtain ⟨shown, hshown, hnames, hunique⟩ := hchart none _ (mem_series_render hrenamed none)
    (Series.kind_ofCurve_ne_text "CD" c)
  refine ⟨hs, congrArg (List.map Prod.fst) hlist, ⟨c, tip, rest, hget, htip, hrest⟩, _,
    mem_series_render hrenamed none, shown, rfl, hshown, hnames, fun hEF => ?_⟩
  -- the two names are different, and no tag stands in either
  rcases hunique _ (mem_series_render hother none) (by rwa [Series.name_ofFigure]) with
    hsame | hbegins | hbegins
  · exact absurd (congrArg Series.name hsame) (by simp)
  · exact absurd hbegins.mem_bracket (by rw [Series.name_ofFigure]; decide)
  · exact absurd hbegins.mem_bracket (by rw [Series.name_ofFigure]; decide)

end Session

end Straightedge
