import Straightedge.Binary64
import Straightedge.Proofs.Session.Footprint

/-! # Motions

A figure is moved where it stands, or a moved copy of it is added under another name. Both are
planned from the same moved figure, so they succeed together, fail with the same error, and store
the same figure but for the title of its tooltip.

* **`Motion`**: how a figure is moved; `Motion.operation` is the operation.
* **`Motion.image`**: the moved figure, or why there is none.
* **`Figure.TitleFollows`**: a figure whose tooltip follows a change of name.
* **`Session.exists_perform_motion`**, **`Session.exists_perform_motion_copy`**: the two ways to
  store the moved figure.
* **`Session.Reachable.perform_motion_agrees`**: what they have in common, and what each leaves
  alone. -/

namespace Straightedge

variable {α : Type}

/-! ## Moved figures -/

/-- **How a figure is moved**: shifted, turned about a point or reflected through one. -/
inductive Motion (α : Type)
  | translation (dx dy : α)
  | rotation (pivot : Reference α) (degrees : α)
  | reflection (mirror : Reference α)

namespace Motion

/-- The operation that moves a figure where it stands or, given a name, adds a moved copy of it. -/
def operation (element : String) (copyName : Option String) : Motion α → Operation α
  | translation dx dy => .translate element dx dy copyName
  | rotation pivot degrees => .rotate element pivot degrees copyName
  | reflection mirror => .reflect element mirror copyName

variable [Scalar α] [Numeral α]

/-- The map of the plane that a motion is in a session. -/
def map (s : Session α) : Motion α → Except ConstructionError (Affine α)
  | translation dx dy => do
    Session.requireFinite "dx" dx
    Session.requireFinite "dy" dy
    return .translation dx dy
  | rotation pivot degrees => do
    let p ← s.registry.position pivot
    Session.requireFinite "angle" degrees
    return .rotation p degrees
  | reflection mirror => do
    return .reflection (← s.registry.position mirror)

/-- The moved figure, if there is such a figure and it stays finite. -/
def image (m : Motion α) (s : Session α) (element : String) :
    Except ConstructionError (Figure α) := do
  let f ← m.map s
  let figure ← s.registry.find element
  if (figure.map f).isFinite then return figure.map f
  else throw (.invalidParameter (.transformOverflow element))

variable {m : Motion α} {s : Session α} {element target : String}

/-- A motion is planned as a transform. -/
theorem plan_operation (copyName : Option String) :
    (m.operation element copyName).plan s =
      m.map s >>= fun f => s.transform element f copyName := by
  cases m with
  | translation dx dy =>
    simp only [operation, Operation.plan, Session.translate, map, bind_assoc, pure_bind]
  | rotation pivot degrees =>
    simp only [operation, Operation.plan, Session.rotate, map, bind_assoc, pure_bind]
  | reflection mirror =>
    simp only [operation, Operation.plan, Session.reflect, map, bind_assoc, pure_bind]

/-- The plan to move a figure puts its image in its place. -/
theorem plan_operation_none :
    (m.operation element none).plan s =
      (m.image s element).map fun moved => ⟨[.replace element moved], .name element⟩ := by
  rw [plan_operation, image]
  cases m.map s with
  | error e => rfl
  | ok f =>
    show s.transform element f none = Except.map _ (s.registry.find element >>= _)
    unfold Session.transform
    cases s.registry.find element with
    | error e => rfl
    | ok figure =>
      show (if !(figure.map f).isFinite then _ else _) = Except.map _ (if _ then _ else _)
      cases (figure.map f).isFinite <;> rfl

/-- The plan to copy a figure adds its image under the new name, retitled. -/
theorem plan_operation_some (hfree : s.registry.requireFree target = .ok ()) :
    (m.operation element (some target)).plan s =
      (m.image s element).map fun moved => .addOne target (moved.retitle element target) := by
  rw [plan_operation, image]
  cases m.map s with
  | error e => rfl
  | ok f =>
    show s.transform element f (some target) = Except.map _ (s.registry.find element >>= _)
    unfold Session.transform
    cases s.registry.find element with
    | error e => rfl
    | ok figure =>
      show (if !(figure.map f).isFinite then _ else _) = Except.map _ (if _ then _ else _)
      rw [hfree]
      cases (figure.map f).isFinite <;> rfl

/-- There is an image if there is a map and a figure whose image is finite. -/
theorem image_eq_ok_iff {moved : Figure α} : m.image s element = .ok moved ↔
    ∃ f, m.map s = .ok f ∧ ∃ figure, s.registry.find element = .ok figure ∧
      (figure.map f).isFinite = true ∧ moved = figure.map f := by
  simp only [image, bind_eq_ok_iff]
  refine exists_congr fun f => and_congr_right' (exists_congr fun figure => and_congr_right' ?_)
  cases (figure.map f).isFinite with
  | false => exact ⟨nofun, nofun⟩
  | true =>
    rw [if_pos rfl, pure_eq_ok_iff]
    exact ⟨fun h => ⟨rfl, h⟩, fun h => h.2⟩

/-- Only a figure that exists is moved. -/
theorem exists_find_of_image {moved : Figure α} (h : m.image s element = .ok moved) :
    ∃ figure, s.registry.find element = .ok figure := by
  obtain ⟨-, -, figure, hfind, -⟩ := image_eq_ok_iff.1 h
  exact ⟨figure, hfind⟩

end Motion

/-! ## Titles that follow a name -/

namespace Figure

/-- **The title of a figure follows a change of name**: a tooltip titled `old` is titled `new`
instead, and there is no other difference. -/
inductive TitleFollows (old new : String) : Figure α → Figure α → Prop
  | titled {c : Curve α} {details : String}
      (h : c.tooltip = some (Tooltip.heading old ++ details)) :
      TitleFollows old new (.curve c)
        (.curve { c with tooltip := some (Tooltip.heading new ++ details) })
  | untitled {figure : Figure α}
      (h : ∀ c details, figure = .curve c → c.tooltip ≠ some (Tooltip.heading old ++ details)) :
      TitleFollows old new figure figure

/-- A figure that is retitled is a figure whose title follows. -/
theorem titleFollows_retitle (old new : String) (figure : Figure α) :
    figure.TitleFollows old new (figure.retitle old new) := by
  cases figure with
  | point m => exact .untitled nofun
  | label l => exact .untitled nofun
  | curve c =>
    obtain ⟨vertices, closed, stroke, fill, tooltip⟩ := c
    cases tooltip with
    | none =>
      refine .untitled fun d details hd => ?_
      cases hd
      exact nofun
    | some tip =>
      rw [retitle, Option.map_some]
      rcases Tooltip.retitle_cases old new tip with ⟨details, rfl, htitled⟩ | ⟨hother, hsame⟩
      · rw [htitled]
        exact .titled rfl
      · rw [hsame]
        refine .untitled fun d details hd heq => ?_
        cases hd
        exact hother details (Option.some.inj heq)

end Figure

/-! ## Moving and copying -/

namespace Session

variable [Scalar α] [Numeral α] {s : Session α} {m : Motion α} {element target : String}
  {moved : Figure α}

/-- A moved figure takes the place of the figure. -/
theorem exists_perform_motion (hs : s.registry.Indexed) (himage : m.image s element = .ok moved) :
    ∃ r, s.registry.update element (fun _ => moved) = .ok r ∧
      s.perform (m.operation element none) = (.ok (.name element), { s with registry := r }) := by
  obtain ⟨figure, hfind⟩ := Motion.exists_find_of_image himage
  have hcontains := (hs.contains_iff element).2 (List.mem_map_of_mem (hs.mem_toList_of_find hfind))
  obtain ⟨i, hi⟩ : ∃ i, s.registry.index[element]? = some i := by
    rwa [← Option.isSome_iff_exists, ← Std.HashMap.contains_eq_isSome_getElem?]
  obtain ⟨r, hupdate⟩ : ∃ r, s.registry.update element (fun _ => moved) = .ok r :=
    ⟨_, (Registry.update_eq_ok_iff _ _ element fun _ => moved).2 ⟨i, hi, rfl⟩⟩
  have hchange : s.change (.replace element moved) = .ok { s with registry := r } := by
    simp only [change, bind_eq_ok_iff, pure_eq_ok_iff]
    exact ⟨r, hupdate, rfl⟩
  have hplan : (m.operation element none).plan s =
      .ok ⟨[.replace element moved], .name element⟩ := by
    rw [Motion.plan_operation_none, himage]
    rfl
  refine ⟨r, hupdate, ?_⟩
  rw [perform_of_ok hplan, enact_cons_of_ok hchange, enact_nil]
  rfl

/-- A moved copy is added under its name. -/
theorem exists_perform_motion_copy (hfree : s.registry.requireFree target = .ok ())
    (himage : m.image s element = .ok moved) :
    ∃ r, s.registry.insert target (moved.retitle element target) = .ok r ∧
      s.perform (m.operation element (some target)) =
        (.ok (.name target), { s with registry := r }) := by
  have hplan : (m.operation element (some target)).plan s =
      .ok (.addOne target (moved.retitle element target)) := by
    rw [Motion.plan_operation_some hfree, himage]
    rfl
  exact exists_perform_addOne hplan hfree

/-- **To move a figure and to move a copy of it come to the same.** In a reachable session, under a
name that is not empty and not taken, the copy fails exactly if the move does, with the same error.
Otherwise the move exchanges the figure where it stands, the copy goes behind all others, neither
touches anything else, and the copy is the moved figure but for its title. -/
theorem Reachable.perform_motion_agrees (hs : s.Reachable) (m : Motion α) (element : String)
    {target : String} (hname : target ≠ "") (hfree : s.registry.contains target = false) :
    let inPlace := s.perform (m.operation element none)
    let copied := s.perform (m.operation element (some target))
    (∃ e, inPlace = (.error e, s) ∧ copied = (.error e, s)) ∨
      ∃ front figure back moved copy,
        inPlace.1 = .ok (.name element) ∧ copied.1 = .ok (.name target) ∧
        inPlace.2 = { s with registry := inPlace.2.registry } ∧
        copied.2 = { s with registry := copied.2.registry } ∧
        s.registry.toList = front ++ (element, figure) :: back ∧
        inPlace.2.registry.toList = front ++ (element, moved) :: back ∧
        copied.2.registry.toList = front ++ (element, figure) :: back ++ [(target, copy)] ∧
        inPlace.2.registry.get? element = some moved ∧
        copied.2.registry.get? element = some figure ∧
        copied.2.registry.get? target = some copy ∧
        moved.TitleFollows element target copy := by
  intro inPlace copied
  have hfree := (Registry.requireFree_eq_ok_iff _ target).2 ⟨hname, hfree⟩
  cases himage : m.image s element with
  | error e =>
    have hmove : (m.operation element none).plan s = .error e := by
      rw [Motion.plan_operation_none, himage]
      rfl
    have hcopy : (m.operation element (some target)).plan s = .error e := by
      rw [Motion.plan_operation_some hfree, himage]
      rfl
    exact .inl ⟨e, perform_of_error hmove, perform_of_error hcopy⟩
  | ok moved =>
    obtain ⟨figure, hfind⟩ := Motion.exists_find_of_image himage
    obtain ⟨r, hupdate, hmove⟩ := exists_perform_motion hs.indexed himage
    obtain ⟨r', hinsert, hcopy⟩ := exists_perform_motion_copy hfree himage
    -- the figure stands at one place, and there its image stands after the move
    obtain ⟨front, _, _, back, hlist, hmoved, rfl, rfl⟩ :=
      hs.indexed.replaced_update hfind hupdate
        (R := fun before after => figure = before ∧ moved = after) ⟨rfl, rfl⟩
    have hcopied := Registry.toList_insert hinsert
    have hget := (hs.indexed.update hupdate).get?_eq_some_iff
    have hget' := (hs.indexed.insert hinsert).get?_eq_some_iff
    rw [hlist] at hcopied
    refine .inr ⟨front, figure, back, moved, _, ?_, ?_, ?_, ?_, hlist, ?_, ?_, ?_, ?_, ?_,
      Figure.titleFollows_retitle element target _⟩
    all_goals simp only [inPlace, copied, hmove, hcopy]
    · exact hmoved
    · exact hcopied
    · rw [hget, hmoved]
      exact List.mem_append_right _ List.mem_cons_self
    · rw [hget', hcopied]
      exact List.mem_append_left _ (List.mem_append_right _ List.mem_cons_self)
    · rw [hget', hcopied]
      exact List.mem_append_right _ (List.mem_singleton_self _)

/-- The line `AB` is shifted where it stands, or a shifted copy of it is drawn as `CD`. -/
theorem perform_motion_agrees_of_line :
    let s : Session Float :=
      ((new .standard).perform (.line (.position ⟨0, 0⟩) (.position ⟨1, 0⟩) (some "AB"))).2
    let m : Motion Float := .translation 1 1
    s.Reachable ∧ s.registry.contains "CD" = false ∧
      ∃ moved copy, (s.perform (m.operation "AB" none)).1 = .ok (.name "AB") ∧
        (s.perform (m.operation "AB" (some "CD"))).1 = .ok (.name "CD") ∧
        (s.perform (m.operation "AB" none)).2.registry.get? "AB" = some moved ∧
        (s.perform (m.operation "AB" (some "CD"))).2.registry.get? "CD" = some copy ∧
        moved.TitleFollows "AB" "CD" copy := by
  intro s m
  have hs : s.Reachable := (Reachable.new .standard).perform _
  have hfree : (Registry.empty : Registry Float).requireFree "AB" = .ok () :=
    Registry.requireFree_empty (by decide)
  have hplan := Operation.draws_line (p := (⟨0, 0⟩ : Coord Float)) (q := ⟨1, 0⟩)
    (by decide +kernel) (by decide +kernel) "AB" (new .standard) hfree
  obtain ⟨r, hinsert, hline⟩ := exists_perform_addOne hplan hfree
  have hregistry : s.registry = r := by simp only [s, hline]
  have hfree' : r.requireFree "CD" = .ok () :=
    Registry.requireFree_of_insert hinsert (by decide) (Registry.requireFree_empty (by decide))
  have hcontains : s.registry.contains "CD" = false :=
    hregistry ▸ ((Registry.requireFree_eq_ok_iff r "CD").1 hfree').2
  -- the line is there and stays finite, so there is something to store
  obtain ⟨image, himage⟩ : ∃ image, m.image s "AB" = .ok image := by
    have hfinite : ([⟨0, 0⟩, ⟨1, 0⟩].map (Affine.translation (1 : Float) 1).apply).all
        Coord.isFinite = true := by decide +kernel
    have hone : Scalar.isFinite (1 : Float) = true := by decide +kernel
    have hmap : m.map s = .ok (.translation 1 1) := by
      simp only [m, Motion.map, requireFinite, hone, if_true]
      rfl
    have hfind := Registry.indexed_empty.find_insert hinsert
    rw [← hregistry] at hfind
    exact ⟨_, Motion.image_eq_ok_iff.2 ⟨_, hmap, _, hfind, hfinite, rfl⟩⟩
  refine ⟨hs, hcontains, ?_⟩
  rcases hs.perform_motion_agrees m "AB" (by decide) hcontains with
    ⟨e, hmove, -⟩ | ⟨_, _, _, moved, copy, hmove, hcopy, -, -, -, -, -, hget, -, hget', hfollows⟩
  · obtain ⟨_, -, hok⟩ := exists_perform_motion hs.indexed himage
    rw [hok] at hmove
    cases hmove
  · exact ⟨moved, copy, hmove, hcopy, hget, hget', hfollows⟩

end Session

end Straightedge
