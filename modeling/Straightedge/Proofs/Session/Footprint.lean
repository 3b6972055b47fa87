import Straightedge.Binary64
import Straightedge.Proofs.Session.Figures

/-! # What operations leave alone

An operation that succeeds touches what its footprint says and nothing else: it adds figures behind
all others, or changes one figure where it stands, or takes one to the end under another name, or
leaves all figures alone.

* **`Figure.Moved`**, **`Figure.Repainted`**, **`Figure.Retitled`**: figures that differ in their
  positions, in their colors, or in the titles of their tooltips, and in nothing else.
* **`Listing.Extended`**, **`Listing.Replaced`**, **`Listing.Relocated`**: the three ways in which
  the figures of a session may change.
* **`Operation.footprint`**: what an operation may touch.
* **`Footprint.Allows`**: two sessions that differ in nothing else.
* **`Session.allows_of_plan`**: plans keep to the footprints of their operations.
* **`Session.perform_frame`**: so does everything that succeeds.
* **`Session.newNames_of_perform`**: names that are given are those of new figures. -/

namespace Straightedge

variable {α : Type}

/-! ## Figures that differ in one respect -/

/-- **The second figure is the first one elsewhere**: as many positions, and everything else
alike. -/
inductive Figure.Moved : Figure α → Figure α → Prop
  | point (p q : Coord α) (color : String) : Moved (.point ⟨p, color⟩) (.point ⟨q, color⟩)
  | curve {ps qs : List (Coord α)} (hlength : qs.length = ps.length) (closed : Bool)
      (stroke : Stroke α) (fill tooltip : Option String) :
      Moved (.curve ⟨ps, closed, stroke, fill, tooltip⟩) (.curve ⟨qs, closed, stroke, fill, tooltip⟩)
  | label (p q : Coord α) (content : String) (fontSize : α) (color : String)
      (background : Option String) : Moved (.label ⟨p, content, fontSize, color, background⟩)
        (.label ⟨q, content, fontSize, color, background⟩)

/-- **The second figure is the first one in other colors.** Where there is no color inside, there is
none afterwards. -/
inductive Figure.Repainted : Figure α → Figure α → Prop
  | point (p : Coord α) (c d : String) : Repainted (.point ⟨p, c⟩) (.point ⟨p, d⟩)
  | curve (vertices : List (Coord α)) (closed : Bool) (c d : String) (width : α)
      (pattern : Pattern) {fill fill' : Option String} (hfill : fill'.isSome = fill.isSome)
      (tooltip : Option String) : Repainted
        (.curve ⟨vertices, closed, ⟨c, width, pattern⟩, fill, tooltip⟩)
        (.curve ⟨vertices, closed, ⟨d, width, pattern⟩, fill', tooltip⟩)
  | label (p : Coord α) (content : String) (fontSize : α) (c d : String)
      (background : Option String) : Repainted (.label ⟨p, content, fontSize, c, background⟩)
        (.label ⟨p, content, fontSize, d, background⟩)

/-- **The second figure is the first one**, or the curve with the heading of its tooltip written for
`new` in the place of `old`. -/
inductive Figure.Retitled (old new : String) : Figure α → Figure α → Prop
  | same (figure : Figure α) : Retitled old new figure figure
  | curve (vertices : List (Coord α)) (closed : Bool) (stroke : Stroke α) (fill : Option String)
      (details : String) : Retitled old new
        (.curve ⟨vertices, closed, stroke, fill, some (Tooltip.heading old ++ details)⟩)
        (.curve ⟨vertices, closed, stroke, fill, some (Tooltip.heading new ++ details)⟩)

namespace Figure

/-- A map moves a figure. -/
theorem moved_map [Scalar α] (f : Affine α) (figure : Figure α) : figure.Moved (figure.map f) := by
  cases figure with
  | point m => exact .point _ _ _
  | curve c => exact .curve (List.length_map f.apply) _ _ _ _
  | label l => exact .label _ _ _ _ _ _

/-- Recoloring repaints a figure. -/
theorem repainted_recolor (color : String) (figure : Figure α) :
    figure.Repainted (figure.recolor color) := by
  cases figure with
  | point m => exact .point _ _ _
  | curve c => exact .curve _ _ _ _ _ _ Option.isSome_map _
  | label l => exact .label _ _ _ _ _ _

end Figure

/-- What is left of a list behind a prefix, put behind the prefix, is the list. -/
theorem Tooltip.eq_append_of_isPrefixOf? {front cs rest : List Char}
    (h : front.isPrefixOf? cs = some rest) : cs = front ++ rest := by
  induction front generalizing cs with
  | nil => exact Option.some.inj h
  | cons c front ih =>
    cases cs with
    | nil => cases h
    | cons d cs =>
      simp only [List.isPrefixOf?] at h
      split at h
      · rename_i hcd
        rw [ih h, ← beq_iff_eq.1 hcd]
        rfl
      · cases h

/-- **A title that matches is replaced; every other tooltip stays as it is.** -/
theorem Tooltip.retitle_cases (old new tip : String) :
    (∃ details, tip = heading old ++ details ∧ retitle old new tip = heading new ++ details) ∨
      ((∀ details, tip ≠ heading old ++ details) ∧ retitle old new tip = tip) := by
  by_cases htitle : ∃ details, tip = heading old ++ details
  · obtain ⟨details, rfl⟩ := htitle
    exact .inl ⟨details, rfl, retitle_heading old new details⟩
  · push Not at htitle
    refine .inr ⟨htitle, ?_⟩
    unfold retitle
    split
    · rename_i details hprefix
      refine absurd ?_ (htitle (String.ofList details))
      rw [← String.toList_inj, String.toList_append, String.toList_ofList]
      exact eq_append_of_isPrefixOf? hprefix
    · rfl

/-- A figure that is retitled is the same figure, or a curve with another title. -/
theorem Figure.retitled_retitle (old new : String) (figure : Figure α) :
    figure.Retitled old new (figure.retitle old new) := by
  cases figure with
  | point m => exact .same _
  | label l => exact .same _
  | curve c =>
    obtain ⟨vertices, closed, stroke, fill, tooltip⟩ := c
    cases tooltip with
    | none => exact .same _
    | some tip =>
      rw [retitle, Option.map_some]
      rcases Tooltip.retitle_cases old new tip with ⟨details, rfl, htitled⟩ | ⟨-, hsame⟩
      · rw [htitled]
        exact .curve _ _ _ _ _
      · rw [hsame]
        exact .same _

/-! ## The three ways in which figures change -/

namespace Listing

/-- **`count` more figures at the end**, under names that are new and different. -/
def Extended (count : Nat) (before after : Listing α) : Prop :=
  ∃ entries : Listing α, after = before ++ entries ∧ entries.length = count ∧
    (entries.map Prod.fst).Nodup ∧ ∀ entry ∈ entries, entry.1 ∉ before.map Prod.fst

/-- **The figure under a name exchanged where it stands** for one that is related to it. -/
def Replaced (name : String) (R : Figure α → Figure α → Prop) (before after : Listing α) : Prop :=
  ∃ front figure figure' back, before = front ++ (name, figure) :: back ∧
    after = front ++ (name, figure') :: back ∧ R figure figure'

/-- **The figure under `old` taken to the end under `new`**, a new name, as a figure that is related
to it. -/
def Relocated (old new : String) (R : Figure α → Figure α → Prop) (before after : Listing α) :
    Prop :=
  ∃ front figure figure' back, before = front ++ (old, figure) :: back ∧
    after = front ++ back ++ [(new, figure')] ∧ new ∉ before.map Prod.fst ∧ R figure figure'

end Listing

namespace Registry.Indexed

variable {r r' : Registry α}

/-- The position of a name cuts the figures in two around its figure. -/
theorem exists_split (hr : r.Indexed) {name : String} {i : Nat} (hi : r.index[name]? = some i) :
    ∃ figure, r.find name = .ok figure ∧ r.toList[i]? = some (name, figure) ∧
      r.toList = r.toList.take i ++ (name, figure) :: r.toList.drop (i + 1) := by
  obtain ⟨figure, hentry, hfind⟩ := hr.exists_entry hi
  obtain ⟨hlength, hget⟩ := List.getElem?_eq_some_iff.1 hentry
  refine ⟨figure, hfind, hentry, ?_⟩
  rw [← hget, ← List.drop_eq_getElem_cons hlength, List.take_append_drop]

/-- **A replacement exchanges one figure where it stands.** -/
theorem replaced_update (hr : r.Indexed) {name : String} {figure new : Figure α}
    (hfind : r.find name = .ok figure) (hupdate : r.update name (fun _ => new) = .ok r')
    {R : Figure α → Figure α → Prop} (hR : R figure new) :
    Listing.Replaced name R r.toList r'.toList := by
  obtain ⟨i, hi, rfl⟩ := (update_eq_ok_iff r r' name _).1 hupdate
  obtain ⟨_, hfind', hentry, hsplit⟩ := hr.exists_split hi
  cases hfind.symm.trans hfind'
  refine ⟨_, figure, new, _, hsplit, ?_, hR⟩
  obtain ⟨hlength, hget⟩ := List.getElem?_eq_some_iff.1 hentry
  simp only [toList] at hlength hget ⊢
  rw [Array.toList_modify, List.modify_eq_take_cons_drop hlength, hget]

/-- **A rename takes one figure to the end.** -/
theorem relocated_rename (hr : r.Indexed) {old new : String} (hrename : r.rename old new = .ok r')
    {R : Figure α → Figure α → Prop} (hR : ∀ figure, R figure (figure.retitle old new)) :
    Listing.Relocated old new R r.toList r'.toList := by
  obtain ⟨front, figure, back, hbefore, hafter⟩ := hr.exists_toList_rename hrename
  exact ⟨front, figure, _, back, hbefore, hafter,
    hr.not_mem_of_requireFree ((rename_eq_ok_iff r r' old new).1 hrename).1, hR figure⟩

end Registry.Indexed

/-! ## Footprints -/

/-- What an operation may touch. -/
inductive Footprint (α : Type)
  /-- So many figures are added. -/
  | adds (count : Nat)
  /-- A figure is moved where it stands. -/
  | moves (element : String)
  /-- A figure is painted in other colors where it stands. -/
  | repaints (element : String)
  /-- A figure is taken to the end under another name. -/
  | renames (old new : String)
  /-- The title is set. -/
  | title (title : String)
  /-- The session's limits of the axes are set. -/
  | limits (limits : AxisLimits α)
  /-- The axes are shown or hidden. -/
  | axes (visible : Bool)

/-- A transform moves the figure, or adds a moved copy of it. -/
def Footprint.transform (element : String) : Option String → Footprint α
  | none => .moves element
  | some _ => .adds 1

/-- **What an operation may touch.** A segment brings its start with it if that is a position, and
its end if that is given by a length. -/
def Operation.footprint : Operation α → Footprint α
  | .segment start finish _ => .adds (start.isPosition.toNat + (finish.number?.isSome.toNat + 1))
  | .distance _ _ => .adds 2
  | .angle _ _ _ _ => .adds 2
  | .translate element _ _ copyName => .transform element copyName
  | .rotate element _ _ copyName => .transform element copyName
  | .reflect element _ copyName => .transform element copyName
  | .recolor element _ => .repaints element
  | .rename old new => .renames old new
  | .setTitle title => .title title
  | .setAxisLimits minX maxX minY maxY => .limits (.full minX maxX minY maxY)
  | .showAxes visible => .axes visible
  | _ => .adds 1

/-- **The names that an operation is given for what it makes.** An angle is an arc and a label. -/
def Operation.newNames : Operation α → List String
  | .point _ name => name.toList
  | .label _ _ name => name.toList
  | .line _ _ name => name.toList
  | .segment _ _ name => name.toList
  | .infiniteLine _ _ name => name.toList
  | .vector _ _ name => name.toList
  | .polygon _ name => name.toList
  | .regularPolygon _ _ _ _ name => name.toList
  | .circle _ _ name => name.toList
  | .circleThrough _ _ _ name => name.toList
  | .ellipse _ _ _ _ name => name.toList
  | .midpoint _ name => name.toList
  | .intersection _ _ name => name.toList
  | .perpendicular _ _ name => name.toList
  | .parallel _ _ name => name.toList
  | .angle _ _ _ (some base) => [Session.arcName base, Session.angleLabelName base]
  | .translate _ _ _ copyName => copyName.toList
  | .rotate _ _ _ copyName => copyName.toList
  | .reflect _ _ copyName => copyName.toList
  | _ => []

/-- **Two sessions that differ in nothing but what a footprint says.** -/
def Footprint.Allows (s s' : Session α) : Footprint α → Prop
  | .adds count => s' = { s with registry := s'.registry } ∧
      Listing.Extended count s.registry.toList s'.registry.toList
  | .moves element => s' = { s with registry := s'.registry } ∧
      Listing.Replaced element Figure.Moved s.registry.toList s'.registry.toList
  | .repaints element => s' = { s with registry := s'.registry } ∧
      Listing.Replaced element Figure.Repainted s.registry.toList s'.registry.toList
  | .renames old new => s' = { s with registry := s'.registry } ∧
      Listing.Relocated old new (Figure.Retitled old new) s.registry.toList s'.registry.toList
  | .title text => s' = { s with title := text }
  | .limits own => s' = { s with ownLimits := some own }
  | .axes visible => s' = { s with axesVisible := visible }

/-! ## Plans that add figures -/

/-- **The plan adds `count` figures and does nothing else**; a name that it gives back is that of
one of them, and so are the given `names`. -/
structure Plan.Adds (plan : Plan α) (count : Nat) (names : List String) : Prop where
  /-- It makes so many changes. -/
  length_eq : plan.changes.length = count
  /-- Every change adds a figure. -/
  exists_add : ∀ c ∈ plan.changes, ∃ name figure, c = .add name figure
  /-- A name given back is that of an added figure. -/
  mem_of_value : ∀ name, plan.value = .name name → ∃ figure, .add name figure ∈ plan.changes
  /-- A given name is that of an added figure. -/
  mem_of_given : ∀ name ∈ names, ∃ figure, .add name figure ∈ plan.changes

/-- A plan that adds one figure gives its name back, and no other name was given. -/
theorem Plan.adds_addOne {name : String} {names : List String} (hnames : ∀ n ∈ names, name = n)
    (figure : Figure α) : (Plan.addOne name figure).Adds 1 names where
  length_eq := rfl
  exists_add := by
    intro c hc
    exact ⟨name, figure, List.mem_singleton.1 hc⟩
  mem_of_value := by
    intro other hother
    cases hother
    exact ⟨figure, List.mem_singleton_self _⟩
  mem_of_given := by
    intro n hn
    obtain rfl := hnames n hn
    exact ⟨figure, List.mem_singleton_self _⟩

namespace Session

variable [Scalar α] [Numeral α] {s : Session α} {op : Operation α} {plan : Plan α}

omit [Scalar α] [Numeral α] in
/-- A wanted name is the name. -/
theorem eq_of_nameFor {wanted : Option String} {stem name : String}
    (h : s.nameFor wanted stem = .ok name) : ∀ n ∈ wanted.toList, name = n := by
  intro n hn
  obtain rfl : wanted = some n := Option.mem_toList.1 hn
  simp only [nameFor, bind_eq_ok_iff, pure_eq_ok_iff] at h
  obtain ⟨_, -, hname⟩ := h
  exact hname

/-! ### Points and labels -/

theorem adds_point {place : Reference α} {name : Option String}
    (h : s.point place name = .ok plan) : plan.Adds 1 name.toList := by
  simp only [point, ↓ite_throw_bind_eq_ok_iff, bind_eq_ok_iff, pure_eq_ok_iff] at h
  obtain ⟨-, p, -, n, hn, rfl⟩ := h
  exact Plan.adds_addOne (eq_of_nameFor hn) _

theorem adds_label {place : Reference α} {content : String} {name : Option String}
    (h : s.label place content name = .ok plan) : plan.Adds 1 name.toList := by
  simp only [label, bind_eq_ok_iff, pure_eq_ok_iff] at h
  obtain ⟨p, -, n, hn, rfl⟩ := h
  exact Plan.adds_addOne (eq_of_nameFor hn) _

theorem adds_midpoint {refs : List (Reference α)} {name : Option String}
    (h : s.midpoint refs name = .ok plan) : plan.Adds 1 name.toList := by
  simp only [midpoint, bind_eq_ok_iff, pure_eq_ok_iff] at h
  obtain ⟨p, -, n, hn, rfl⟩ := h
  exact Plan.adds_addOne (eq_of_nameFor hn) _

theorem adds_intersection {first second : Reference α} {name : Option String}
    (h : s.intersection first second name = .ok plan) : plan.Adds 1 name.toList := by
  simp only [intersection, bind_eq_ok_iff, pure_eq_ok_iff] at h
  obtain ⟨l, -, m, -, p, -, n, hn, rfl⟩ := h
  exact Plan.adds_addOne (eq_of_nameFor hn) _

/-! ### Lines -/

theorem adds_line {first second : Reference α} {name : Option String}
    (h : s.line first second name = .ok plan) : plan.Adds 1 name.toList := by
  simp only [line, bind_eq_ok_iff, pure_eq_ok_iff] at h
  obtain ⟨a, -, b, -, n, hn, curve, -, rfl⟩ := h
  exact Plan.adds_addOne (eq_of_nameFor hn) _

/-- A segment is added with its end points, if it brings them. -/
theorem adds_segment {start finish : Reference α} {name : Option String}
    (h : s.segment start finish name = .ok plan) :
    plan.Adds (start.isPosition.toNat + (finish.number?.isSome.toNat + 1)) name.toList := by
  simp only [segment, bind_eq_ok_iff, pure_eq_ok_iff] at h
  obtain ⟨a, -, b, -, n, hn, curve, -, rfl⟩ := h
  refine ⟨?_, ?_, ?_, ?_⟩
  · cases start.isPosition <;> cases finish.number?.isSome <;> rfl
  · intro c hc
    simp only [List.mem_append, List.mem_cons] at hc
    rcases hc with hc | rfl | hc
    · split at hc
      · exact ⟨_, _, List.mem_singleton.1 hc⟩
      · cases hc
    · exact ⟨_, _, rfl⟩
    · split at hc
      · exact ⟨_, _, List.mem_singleton.1 hc⟩
      · cases hc
  · intro other hother
    cases hother
    exact ⟨_, List.mem_append_right _ (List.mem_cons_self ..)⟩
  · intro other hother
    obtain rfl := eq_of_nameFor hn other hother
    exact ⟨_, List.mem_append_right _ (List.mem_cons_self ..)⟩

theorem adds_infiniteLine {first second : Reference α} {name : Option String}
    (h : s.infiniteLine first second name = .ok plan) : plan.Adds 1 name.toList := by
  simp only [infiniteLine, bind_eq_ok_iff, pure_eq_ok_iff] at h
  obtain ⟨p, -, course, -, chord, -, n, hn, curve, -, rfl⟩ := h
  exact Plan.adds_addOne (eq_of_nameFor hn) _

theorem adds_vector {start : Option (Reference α)} {finish : Reference α} {name : Option String}
    (h : s.vector start finish name = .ok plan) : plan.Adds 1 name.toList := by
  -- with and without a start
  cases start <;> simp only [vector, bind_eq_ok_iff, pure_eq_ok_iff] at h
  all_goals
    obtain ⟨a, -, b, -, n, hn, curve, -, rfl⟩ := h
    exact Plan.adds_addOne (eq_of_nameFor hn) _

theorem adds_perpendicular {place base : Reference α} {name : Option String}
    (h : s.perpendicular place base name = .ok plan) : plan.Adds 1 name.toList := by
  simp only [perpendicular, bind_eq_ok_iff, pure_eq_ok_iff] at h
  obtain ⟨p, -, c, -, foot, -, n, hn, curve, -, rfl⟩ := h
  exact Plan.adds_addOne (eq_of_nameFor hn) _

theorem adds_parallel {place base : Reference α} {name : Option String}
    (h : s.parallel place base name = .ok plan) : plan.Adds 1 name.toList := by
  simp only [parallel, ↓ite_throw_bind_eq_ok_iff, bind_eq_ok_iff, pure_eq_ok_iff] at h
  obtain ⟨p, -, c, -, -, n, hn, curve, -, rfl⟩ := h
  exact Plan.adds_addOne (eq_of_nameFor hn) _

/-! ### Closed curves -/

theorem adds_polygon {refs : List (Reference α)} {name : Option String}
    (h : s.polygon refs name = .ok plan) : plan.Adds 1 name.toList := by
  simp only [polygon, ↓ite_throw_bind_eq_ok_iff, bind_eq_ok_iff, pure_eq_ok_iff] at h
  obtain ⟨-, points, -, n, hn, curve, -, rfl⟩ := h
  exact Plan.adds_addOne (eq_of_nameFor hn) _

theorem adds_regularPolygon {center vertex : Reference α} {n : Nat}
    {direction : Option (Reference α)} {name : Option String}
    (h : s.regularPolygon center vertex n direction name = .ok plan) :
    plan.Adds 1 name.toList := by
  simp only [regularPolygon, ↓ite_throw_bind_eq_ok_iff, bind_eq_ok_iff, pure_eq_ok_iff] at h
  obtain ⟨-, -, -, c, -, v, -, -, heading, -, -, n, hn, curve, -, rfl⟩ := h
  exact Plan.adds_addOne (eq_of_nameFor hn) _

theorem adds_sampledCircle {center : Coord α} {radius : α} {name : Option String}
    (h : s.sampledCircle center radius name = .ok plan) : plan.Adds 1 name.toList := by
  simp only [sampledCircle, bind_eq_ok_iff, pure_eq_ok_iff] at h
  obtain ⟨-, -, n, hn, curve, -, rfl⟩ := h
  exact Plan.adds_addOne (eq_of_nameFor hn) _

theorem adds_circle {center : Reference α} {size : CircleSize α} {name : Option String}
    (h : s.circle center size name = .ok plan) : plan.Adds 1 name.toList := by
  simp only [circle, bind_eq_ok_iff] at h
  obtain ⟨c, -, radius, -, -, -, h⟩ := h
  exact adds_sampledCircle h

theorem adds_circleThrough {first second third : Reference α} {name : Option String}
    (h : s.circleThrough first second third name = .ok plan) : plan.Adds 1 name.toList := by
  simp only [circleThrough, bind_eq_ok_iff] at h
  obtain ⟨a, -, b, -, c, -, center, -, -, -, h⟩ := h
  exact adds_sampledCircle h

theorem adds_ellipse {center : Reference α} {rx ry degrees : α} {name : Option String}
    (h : s.ellipse center rx ry degrees name = .ok plan) : plan.Adds 1 name.toList := by
  simp only [ellipse, ↓ite_throw_bind_eq_ok_iff, bind_eq_ok_iff, pure_eq_ok_iff] at h
  obtain ⟨c, -, -, -, -, -, -, -, -, n, hn, curve, -, rfl⟩ := h
  exact Plan.adds_addOne (eq_of_nameFor hn) _

/-! ### Measures -/

omit [Scalar α] [Numeral α] in
/-- A plan that adds two figures and measures something gives no name back. -/
theorem adds_pair {first second : String} {f g : Figure α} {value : Value α} {names : List String}
    (hvalue : ∀ name, value ≠ .name name) (hnames : ∀ n ∈ names, n = first ∨ n = second) :
    (⟨[.add first f, .add second g], value⟩ : Plan α).Adds 2 names where
  length_eq := rfl
  exists_add := by
    intro c hc
    rw [List.mem_pair] at hc
    rcases hc with rfl | rfl
    · exact ⟨first, f, rfl⟩
    · exact ⟨second, g, rfl⟩
  mem_of_value := fun name hname => absurd hname (hvalue name)
  mem_of_given := by
    intro n hn
    rcases hnames n hn with rfl | rfl
    · exact ⟨f, List.mem_cons_self⟩
    · exact ⟨g, List.mem_cons_of_mem _ (List.mem_singleton_self _)⟩

theorem adds_measureDistance {first second : Reference α}
    (h : s.measureDistance first second = .ok plan) : plan.Adds 2 [] := by
  simp only [measureDistance, bind_eq_ok_iff, pure_eq_ok_iff] at h
  obtain ⟨a, -, b, -, ruler, -, rfl⟩ := h
  exact adds_pair (by rintro name ⟨⟩) (by rintro name ⟨⟩)

/-- An angle that is given a name adds the arc and the label that are named after it. -/
theorem adds_measureAngle {first vertex second : Reference α} {name : Option String}
    (h : s.measureAngle first vertex second name = .ok plan) :
    plan.Adds 2 (Operation.angle first vertex second name).newNames := by
  simp only [measureAngle, ↓ite_throw_bind_eq_ok_iff, bind_eq_ok_iff, pure_eq_ok_iff] at h
  obtain ⟨a, -, b, -, c, -, -, base, hbase, -, -, arc, -, rfl⟩ := h
  refine adds_pair (by rintro name ⟨⟩) fun n hn => ?_
  cases name with
  | none => cases hn
  | some wanted =>
    simp only [angleBase, bind_eq_ok_iff, pure_eq_ok_iff] at hbase
    obtain ⟨_, -, _, -, rfl⟩ := hbase
    exact List.mem_pair.1 hn

/-! ### Transforms -/

omit [Numeral α] in
/-- A copy is the one figure that a transform adds. -/
theorem adds_transform {element : String} {f : Affine α} {copyName : Option String}
    (h : s.transform element f copyName = .ok plan) {count : Nat}
    (hcopy : (Footprint.transform element copyName : Footprint α) = .adds count) :
    plan.Adds count copyName.toList := by
  obtain ⟨figure, -, -, h⟩ := transform_eq_ok_iff.1 h
  cases copyName with
  | none => cases hcopy
  | some target =>
    cases hcopy
    obtain ⟨-, rfl⟩ := h
    exact Plan.adds_addOne (fun n hn => Option.some.inj (Option.mem_toList.1 hn)) _

theorem adds_rotate {element : String} {pivot : Reference α} {degrees : α}
    {copyName : Option String} (h : s.rotate element pivot degrees copyName = .ok plan)
    {count : Nat}
    (hcopy : (Footprint.transform element copyName : Footprint α) = .adds count) :
    plan.Adds count copyName.toList := by
  obtain ⟨p, -, h⟩ := transform_of_rotate h
  exact adds_transform h hcopy

theorem adds_reflect {element : String} {mirror : Reference α} {copyName : Option String}
    (h : s.reflect element mirror copyName = .ok plan) {count : Nat}
    (hcopy : (Footprint.transform element copyName : Footprint α) = .adds count) :
    plan.Adds count copyName.toList := by
  obtain ⟨m, -, h⟩ := transform_of_reflect h
  exact adds_transform h hcopy

/-! ### All operations -/

/-- **A plan adds as many figures as the footprint says**, and nothing else; those that the
operation is given names for have these names. -/
theorem adds_of_plan (h : op.plan s = .ok plan) {count : Nat} (hop : op.footprint = .adds count) :
    plan.Adds count op.newNames := by
  -- edits have other footprints
  cases op <;> simp only [Operation.footprint, Footprint.adds.injEq, reduceCtorEq] at hop <;>
    try subst hop
  case point => exact adds_point h
  case label => exact adds_label h
  case line => exact adds_line h
  case segment => exact adds_segment h
  case infiniteLine => exact adds_infiniteLine h
  case vector => exact adds_vector h
  case polygon => exact adds_polygon h
  case regularPolygon => exact adds_regularPolygon h
  case circle => exact adds_circle h
  case circleThrough => exact adds_circleThrough h
  case ellipse => exact adds_ellipse h
  case midpoint => exact adds_midpoint h
  case intersection => exact adds_intersection h
  case perpendicular => exact adds_perpendicular h
  case parallel => exact adds_parallel h
  case distance => exact adds_measureDistance h
  case angle => exact adds_measureAngle h
  case translate => exact adds_transform (transform_of_translate h) hop
  case rotate => exact adds_rotate h hop
  case reflect => exact adds_reflect h hop

/-! ## What successful operations leave alone -/

/-- The figures that a plan adds have names that are free and different. -/
theorem Effect.exists_entries (heffect : s.Effect op plan) {count : Nat} {names : List String}
    (hadds : plan.Adds count names) :
    ∃ entries, plan.changes = additions entries ∧ entries.length = count ∧
      (∀ entry ∈ entries, s.registry.requireFree entry.1 = .ok ()) ∧
      (entries.map Prod.fst).Nodup := by
  have hlength := hadds.length_eq
  have hadd := hadds.exists_add
  cases heffect with
  | adds entries value hfree hnodup hdrawn =>
    exact ⟨entries, rfl, by simpa [additions] using hlength, hfree, hnodup⟩
  | moves _ _ _ => obtain ⟨_, _, ⟨⟩⟩ := hadd _ (List.mem_singleton_self _)
  | recolors _ => obtain ⟨_, _, ⟨⟩⟩ := hadd _ (List.mem_singleton_self _)
  | renames _ _ => obtain ⟨_, _, ⟨⟩⟩ := hadd _ (List.mem_singleton_self _)
  | entitles _ => obtain ⟨_, _, ⟨⟩⟩ := hadd _ (List.mem_singleton_self _)
  | limits _ => obtain ⟨_, _, ⟨⟩⟩ := hadd _ (List.mem_singleton_self _)
  | shows _ => obtain ⟨_, _, ⟨⟩⟩ := hadd _ (List.mem_singleton_self _)

/-- **A plan that adds figures keeps to its footprint**: all of them are added, at the end. -/
theorem allows_of_adds (hs : s.registry.Indexed) (heffect : s.Effect op plan) {count : Nat}
    {names : List String} (hadds : plan.Adds count names) :
    (Footprint.adds count : Footprint α).Allows s (s.enact plan.changes).2 ∧
      ∀ name, plan.value = .name name → name ∈ (s.enact plan.changes).2.registry.names := by
  obtain ⟨entries, hchanges, hcount, hfree, hnodup⟩ := heffect.exists_entries hadds
  have hlist := (enact_additions entries hfree hnodup).2
  rw [← hchanges] at hlist
  refine ⟨⟨?_, entries, hlist, hcount, hnodup, ?_⟩, ?_⟩
  · rw [hchanges]
    exact enact_additions_eq s entries
  · intro entry hentry
    exact hs.not_mem_of_requireFree (hfree entry hentry)
  · -- the name given back is one of the new ones
    intro name hname
    obtain ⟨figure, hadd⟩ := hadds.mem_of_value name hname
    rw [hchanges] at hadd
    obtain ⟨entry, hentry, heq⟩ := List.mem_map.1 hadd
    cases heq
    rw [Registry.names, hlist]
    exact List.mem_map_of_mem (List.mem_append_right _ hentry)

omit [Scalar α] [Numeral α] in
/-- A change that is the only one and is made leaves the changed session. -/
theorem change_of_enact_single {c : Change α} (hok : (s.enact [c]).1 = .ok ()) :
    s.change c = .ok (s.enact [c]).2 := by
  cases hchange : s.change c with
  | ok s' => rw [enact_cons_of_ok hchange, enact_nil]
  | error e =>
    rw [enact_cons_of_error hchange] at hok
    cases hok

omit [Scalar α] [Numeral α] in
/-- **A figure that is exchanged for a related one** is the only thing that changes. -/
theorem replaced_of_change {s' : Session α} (hs : s.registry.Indexed) {name : String}
    {figure new : Figure α} (hfind : s.registry.find name = .ok figure)
    (hchange : s.change (.replace name new) = .ok s') {R : Figure α → Figure α → Prop}
    (hR : R figure new) :
    (s' = { s with registry := s'.registry } ∧
      Listing.Replaced name R s.registry.toList s'.registry.toList) ∧
      name ∈ s'.registry.names := by
  simp only [change, bind_eq_ok_iff, pure_eq_ok_iff] at hchange
  obtain ⟨r, hupdate, rfl⟩ := hchange
  refine ⟨⟨rfl, hs.replaced_update hfind hupdate hR⟩, ?_⟩
  rw [Registry.names_update hupdate]
  exact List.mem_map_of_mem (hs.mem_toList_of_find hfind)

/-- **A transform keeps to its footprint**: it moves the figure or adds a moved copy. -/
theorem allows_of_transform (hs : s.registry.Indexed) {element : String} {f : Affine α}
    {copyName : Option String} (heffect : s.Effect op plan)
    (h : s.transform element f copyName = .ok plan) (hok : (s.enact plan.changes).1 = .ok ()) :
    (Footprint.transform element copyName : Footprint α).Allows s (s.enact plan.changes).2 ∧
      ∀ name, plan.value = .name name → name ∈ (s.enact plan.changes).2.registry.names := by
  cases copyName with
  | some target => exact allows_of_adds hs heffect (adds_transform h rfl)
  | none =>
    obtain ⟨figure, hfind, -, rfl⟩ := transform_eq_ok_iff.1 h
    obtain ⟨hreplaced, hmem⟩ :=
      replaced_of_change hs hfind (change_of_enact_single hok) (figure.moved_map f)
    exact ⟨hreplaced, by rintro name ⟨⟩; exact hmem⟩

omit [Scalar α] [Numeral α] in
theorem allows_of_recolor (hs : s.registry.Indexed) {element color : String}
    (h : s.recolor element color = .ok plan) (hok : (s.enact plan.changes).1 = .ok ()) :
    (Operation.recolor element color : Operation α).footprint.Allows s
        (s.enact plan.changes).2 ∧
      ∀ name, plan.value = .name name → name ∈ (s.enact plan.changes).2.registry.names := by
  simp only [recolor, ↓ite_throw_bind_eq_ok_iff, bind_eq_ok_iff, pure_eq_ok_iff] at h
  obtain ⟨-, figure, hfind, rfl⟩ := h
  obtain ⟨hreplaced, hmem⟩ :=
    replaced_of_change hs hfind (change_of_enact_single hok) (figure.repainted_recolor color)
  exact ⟨hreplaced, by rintro name ⟨⟩; exact hmem⟩

omit [Scalar α] [Numeral α] in
/-- A rename that is made keeps to its footprint, and the new name is there afterwards. -/
theorem allows_of_rename (hs : s.registry.Indexed) {old new : String}
    (hok : (s.enact [.rename old new]).1 = .ok ()) :
    (Operation.rename old new : Operation α).footprint.Allows s (s.enact [.rename old new]).2 ∧
      new ∈ (s.enact [.rename old new]).2.registry.names := by
  have hchange := change_of_enact_single hok
  simp only [change, bind_eq_ok_iff, pure_eq_ok_iff] at hchange
  obtain ⟨r, hrename, hs'⟩ := hchange
  obtain ⟨i, -, hnames⟩ := Registry.names_rename hrename
  show (_ ∧ Listing.Relocated _ _ _ _ _) ∧ _
  rw [hs']
  refine ⟨⟨rfl, hs.relocated_rename hrename (Figure.retitled_retitle old new)⟩, ?_⟩
  rw [hnames]
  exact List.mem_append_right _ (List.mem_singleton_self _)

/-- **Every plan that is made in full keeps to the footprint of its operation**, and a name that it
gives back is there afterwards. -/
theorem allows_of_plan (hs : s.registry.Indexed) (hplan : op.plan s = .ok plan)
    (hok : (s.enact plan.changes).1 = .ok ()) :
    op.footprint.Allows s (s.enact plan.changes).2 ∧
      ∀ name, plan.value = .name name → name ∈ (s.enact plan.changes).2.registry.names := by
  have heffect := effect_of_plan hs hplan
  cases op
  case translate element dx dy copyName =>
    exact allows_of_transform hs heffect (transform_of_translate hplan) hok
  case rotate element pivot degrees copyName =>
    obtain ⟨p, -, htransform⟩ := transform_of_rotate hplan
    exact allows_of_transform hs heffect htransform hok
  case reflect element mirror copyName =>
    obtain ⟨m, -, htransform⟩ := transform_of_reflect hplan
    exact allows_of_transform hs heffect htransform hok
  case recolor element color => exact allows_of_recolor hs hplan hok
  case rename old new =>
    cases hplan
    obtain ⟨hallows, hmem⟩ := allows_of_rename hs hok
    exact ⟨hallows, by rintro name ⟨⟩; exact hmem⟩
  case setTitle title =>
    cases hplan
    exact ⟨rfl, by rintro name ⟨⟩⟩
  case setAxisLimits minX maxX minY maxY =>
    simp only [Operation.plan, setAxisLimits, ↓ite_throw_bind_eq_ok_iff, bind_eq_ok_iff,
      pure_eq_ok_iff] at hplan
    obtain ⟨-, -, -, -, -, -, -, -, -, rfl⟩ := hplan
    exact ⟨rfl, by rintro name ⟨⟩⟩
  case showAxes visible =>
    cases hplan
    exact ⟨rfl, by rintro name ⟨⟩⟩
  all_goals exact allows_of_adds hs heffect (adds_of_plan hplan rfl)

/-- **What succeeds keeps to its footprint.** In every reachable session an operation that succeeds
changes nothing but what its footprint says: new figures stand behind all others, one figure is
changed where it stands or goes to the end under another name, or the title, the limits or the
visibility of the axes are set. Looking up a name afterwards finds the figure that stands there, and
a name that was given back is there. -/
theorem perform_frame (hs : s.Reachable) (op : Operation α) {v : Value α}
    (h : (s.perform op).1 = .ok v) :
    op.footprint.Allows s (s.perform op).2 ∧
      (∀ name figure, (s.perform op).2.registry.get? name = some figure ↔
        (name, figure) ∈ (s.perform op).2.registry.toList) ∧
      ∀ name, v = .name name → name ∈ (s.perform op).2.registry.names := by
  have hindexed := (hs.perform op).indexed
  cases hplan : op.plan s with
  | error e =>
    rw [perform_of_error hplan] at h
    cases h
  | ok plan =>
    rw [perform_of_ok hplan] at h hindexed ⊢
    cases hok : (s.enact plan.changes).1 with
    | error e =>
      rw [hok] at h
      cases h
    | ok u =>
      rw [hok] at h
      cases h
      obtain ⟨hallows, hvalue⟩ := allows_of_plan hs.indexed hplan hok
      exact ⟨hallows, hindexed.get?_eq_some_iff, hvalue⟩

/-- Behind a point and a line, a segment from a position, two units long, is three new figures: the
segment and its ends. The line is found as before. -/
theorem perform_frame_of_segment :
    let s : Session Float := (new .standard).after [.point (.position ⟨3, 4⟩) (some "P"),
      .line (.position ⟨0, 0⟩) (.position ⟨1, 0⟩) (some "AB")]
    let op : Operation Float := .segment (.position ⟨0, 0⟩) (.number 2) (some "CD")
    s.Reachable ∧ s.registry.names = ["P", "AB"] ∧ (s.perform op).1 = .ok (.name "CD") ∧
      (s.perform op).2 = { s with registry := (s.perform op).2.registry } ∧
      Listing.Extended 3 s.registry.toList (s.perform op).2.registry.toList ∧
      "CD" ∈ (s.perform op).2.registry.names ∧
      ∃ line, s.registry.get? "AB" = some line ∧
        (s.perform op).2.registry.get? "AB" = some line := by
  intro s op
  have hs : s.Reachable := (Reachable.new .standard).after _
  have hzero : (⟨0, 0⟩ : Coord Float).isFinite = true := by decide +kernel
  obtain ⟨-, hlist⟩ := after_new_of_draws .standard (.cons (Operation.draws_point
    (p := (⟨3, 4⟩ : Coord Float)) (by decide +kernel) "P") (.cons (Operation.draws_line hzero
      (q := ⟨1, 0⟩) (by decide +kernel) "AB") .nil)) (by decide) (by decide)
  have hnames : s.registry.names = ["P", "AB"] := congrArg (List.map Prod.fst) hlist
  have hfree : s.registry.requireFree "CD" = .ok () :=
    hs.indexed.requireFree_of_not_mem (by decide) (by rw [hnames]; decide)
  obtain ⟨start, curve, finish, hplan⟩ := exists_plan_segment (x := 2) hzero
    (by decide +kernel) (by decide +kernel) hfree
  have hok : (s.perform op).1 = .ok (.name "CD") := by
    rw [perform_of_ok hplan]
    rcases (effect_of_plan hs.indexed hplan).enact_ok_or_single with hall | ⟨c, hc⟩
    · rw [hall]
      rfl
    · cases hc
  obtain ⟨⟨hsame, hextended⟩, hlookup, hvalue⟩ := perform_frame hs op hok
  refine ⟨hs, hnames, hok, hsame, hextended, hvalue "CD" rfl, ?_⟩
  -- the line stands where it stood, in front of the new figures
  obtain ⟨line, hline⟩ : ∃ line, ("AB", line) ∈ s.registry.toList := by
    rw [hlist]
    exact ⟨_, List.mem_cons_of_mem _ (List.mem_singleton_self _)⟩
  obtain ⟨entries, happend, -⟩ := hextended
  exact ⟨line, (hs.indexed.get?_eq_some_iff "AB" line).2 hline,
    (hlookup "AB" line).2 (happend ▸ List.mem_append_left entries hline)⟩

/-! ## Given names -/

omit [Scalar α] [Numeral α] in
/-- An operation that is given a name adds figures. -/
theorem exists_footprint_of_newNames {n : String} (hn : n ∈ op.newNames) :
    ∃ count, op.footprint = .adds count := by
  cases op
  case translate element dx dy copyName =>
    obtain rfl : copyName = some n := Option.mem_toList.1 hn
    exact ⟨1, rfl⟩
  case rotate element pivot degrees copyName =>
    obtain rfl : copyName = some n := Option.mem_toList.1 hn
    exact ⟨1, rfl⟩
  case reflect element mirror copyName =>
    obtain rfl : copyName = some n := Option.mem_toList.1 hn
    exact ⟨1, rfl⟩
  case recolor => cases hn
  case rename => cases hn
  case setTitle => cases hn
  case setAxisLimits => cases hn
  case showAxes => cases hn
  all_goals exact ⟨_, rfl⟩

/-- **A given name was free before and is taken afterwards.** -/
theorem newNames_of_perform (hs : s.Reachable) {v : Value α} {s' : Session α}
    (h : s.perform op = (.ok v, s')) {n : String} (hn : n ∈ op.newNames) :
    s.registry.get? n = none ∧ ∃ figure, s'.registry.get? n = some figure := by
  have hindexed := (hs.perform op).indexed
  cases hplan : op.plan s with
  | error e =>
    rw [perform_of_error hplan] at h
    cases h
  | ok plan =>
    obtain ⟨count, hcount⟩ := exists_footprint_of_newNames hn
    have hadds := adds_of_plan hplan hcount
    obtain ⟨entries, hchanges, -, hfree, hnodup⟩ :=
      (effect_of_plan hs.indexed hplan).exists_entries hadds
    obtain ⟨figure, hadd⟩ := hadds.mem_of_given n hn
    rw [hchanges] at hadd
    obtain ⟨entry, hentry, heq⟩ := List.mem_map.1 hadd
    cases heq
    constructor
    · -- no figure had the name, for it was free
      refine Option.eq_none_iff_forall_ne_some.2 fun figure hfigure => ?_
      rw [hs.indexed.get?_eq_some_iff] at hfigure
      exact hs.indexed.not_mem_of_requireFree (hfree entry hentry)
        (List.mem_map.2 ⟨_, hfigure, rfl⟩)
    · obtain ⟨-, hlist⟩ := enact_additions entries hfree hnodup
      rw [perform_of_ok hplan, hchanges] at h hindexed
      obtain rfl := congrArg Prod.snd h
      refine ⟨entry.2, ?_⟩
      rw [hindexed.get?_eq_some_iff, hlist]
      exact List.mem_append_right _ hentry

end Session

end Straightedge
