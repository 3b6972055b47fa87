import Straightedge.Proofs.Registry.Listing
import Straightedge.Proofs.Session.Atomicity

/-! # Properties of all figures

A property that every figure of a session has under its name is kept by an operation if the new
figures have it, moved and recolored figures still have it, and a renamed figure has it under the
new name.

* **`Registry.Each`**: every figure has a property.
* **`Registry.Each.change`**: what a change has to bring in so that all figures keep it.
* **`Registry.Each.brings`**, **`Registry.Each.perform`**: what an operation has to draw and to
  move. -/

namespace Straightedge

variable {α : Type}

namespace Registry

/-- **Every figure has a property**, which may depend on its name. -/
def Each (r : Registry α) (P : String → Figure α → Prop) : Prop :=
  ∀ entry ∈ r.toList, P entry.1 entry.2

variable {r r' : Registry α} {P : String → Figure α → Prop}

theorem each_empty : (empty : Registry α).Each P := by
  intro entry hentry
  cases hentry

namespace Each

/-- The figure under a name has the property. -/
theorem get? (h : r.Each P) (hr : r.Indexed) {name : String} {figure : Figure α}
    (hget : r.get? name = some figure) : P name figure :=
  h _ ((hr.get?_eq_some_iff name figure).1 hget)

/-- The figure found under a name has the property. -/
theorem find (h : r.Each P) (hr : r.Indexed) {name : String} {figure : Figure α}
    (hfind : r.find name = .ok figure) : P name figure := by
  unfold Registry.find at hfind
  split at hfind
  · rename_i hget
    cases hfind
    exact h.get? hr hget
  · cases hfind

/-! ## Changes of a registry -/

/-- Insertion keeps a property that the new figure has. -/
theorem insert (h : r.Each P) {name : String} {figure : Figure α}
    (hinsert : r.insert name figure = .ok r') (hnew : P name figure) : r'.Each P := by
  intro entry hentry
  rw [toList_insert hinsert, List.mem_append, List.mem_singleton] at hentry
  rcases hentry with hentry | rfl
  · exact h entry hentry
  · exact hnew

/-- A replacement keeps a property that the figure put in place has. -/
theorem update (h : r.Each P) (hr : r.Indexed) {name : String} {figure : Figure α}
    (hupdate : r.update name (fun _ => figure) = .ok r') (hnew : P name figure) : r'.Each P := by
  have hlist := hr.toList_update name fun _ => figure
  rw [hupdate] at hlist
  obtain ⟨-, -, hlist⟩ := bind_eq_ok_iff.1 hlist.symm
  rw [pure_eq_ok_iff] at hlist
  intro entry hentry
  rw [hlist, List.mem_map] at hentry
  obtain ⟨old, hold, rfl⟩ := hentry
  split
  · rename_i hname
    exact hname ▸ hnew
  · exact h old hold

/-- A rename keeps a property that the renamed figure has under the new name. -/
theorem rename (h : r.Each P) (hr : r.Indexed) {old new : String}
    (hrename : r.rename old new = .ok r')
    (hnew : ∀ figure, P old figure → P new (figure.retitle old new)) : r'.Each P := by
  have hlist := hr.toList_rename old new
  rw [hrename, Listing.rename] at hlist
  obtain ⟨-, -, hlist⟩ := bind_eq_ok_iff.1 hlist.symm
  obtain ⟨figure, hfind, hlist⟩ := bind_eq_ok_iff.1 hlist
  rw [pure_eq_ok_iff] at hlist
  rw [← hr.find_eq] at hfind
  intro entry hentry
  rw [hlist, List.mem_append, List.mem_singleton] at hentry
  rcases hentry with hentry | rfl
  · exact h entry (List.mem_of_mem_filter hentry)
  · exact hnew figure (h.find hr hfind)

end Each

/-- The figure found under a name is in the list. -/
theorem Indexed.mem_toList_of_find (hr : r.Indexed) {name : String} {figure : Figure α}
    (hfind : r.find name = .ok figure) : (name, figure) ∈ r.toList := by
  have heach : r.Each fun name figure => (name, figure) ∈ r.toList := fun _ hentry => hentry
  exact heach.find hr hfind

/-- A figure in the list is found. -/
theorem Indexed.find_of_mem_toList (hr : r.Indexed) {name : String} {figure : Figure α}
    (hmem : (name, figure) ∈ r.toList) : r.find name = .ok figure := by
  rw [Registry.find, (hr.get?_eq_some_iff name figure).2 hmem]

/-- An inserted figure is found. -/
theorem Indexed.find_insert (hr : r.Indexed) {name : String} {figure : Figure α}
    (hinsert : r.insert name figure = .ok r') : r'.find name = .ok figure := by
  refine (hr.insert hinsert).find_of_mem_toList ?_
  rw [Registry.toList_insert hinsert]
  exact List.mem_append_right _ (List.mem_singleton_self _)

/-- A replaced figure is in the list afterwards. -/
theorem Indexed.mem_toList_update (hr : r.Indexed) {name : String} {old figure : Figure α}
    (hfind : r.find name = .ok old) (hupdate : r.update name (fun _ => figure) = .ok r') :
    (name, figure) ∈ r'.toList := by
  have hlist := hr.toList_update name fun _ => figure
  rw [hupdate] at hlist
  obtain ⟨-, -, hlist⟩ := bind_eq_ok_iff.1 hlist.symm
  rw [pure_eq_ok_iff] at hlist
  rw [hlist, List.mem_map]
  exact ⟨(name, old), hr.mem_toList_of_find hfind, if_pos rfl⟩

end Registry

/-- A change brings in only figures with a property. -/
def Change.Brings (P : String → Figure α → Prop) : Change α → Prop
  | .add name figure => P name figure
  | .replace name figure => P name figure
  | _ => True

namespace Registry.Each

variable {P : String → Figure α → Prop} {s s' : Session α}

/-! ## Changes of a session -/

/-- **A change that brings in only figures with a property keeps it for all figures.** -/
theorem change (h : s.registry.Each P) (hs : s.registry.Indexed)
    (hretitle : ∀ old new figure, P old figure → P new (figure.retitle old new)) {c : Change α}
    (hc : c.Brings P) (hchange : s.change c = .ok s') : s'.registry.Each P := by
  cases c <;> simp only [Session.change, bind_eq_ok_iff, pure_eq_ok_iff] at hchange
  case add name figure =>
    obtain ⟨r, hinsert, rfl⟩ := hchange
    exact h.insert hinsert hc
  case replace name figure =>
    obtain ⟨r, hupdate, rfl⟩ := hchange
    exact h.update hs hupdate hc
  case rename old new =>
    obtain ⟨r, hrename, rfl⟩ := hchange
    exact h.rename hs hrename (hretitle old new)
  case setTitle => rw [hchange]; exact h
  case setLimits => rw [hchange]; exact h
  case showAxes => rw [hchange]; exact h

/-- So does a run of changes, whether it ends early or not. -/
theorem enact (h : s.registry.Each P) (hs : s.registry.Indexed)
    (hretitle : ∀ old new figure, P old figure → P new (figure.retitle old new))
    {cs : List (Change α)} (hcs : ∀ c ∈ cs, c.Brings P) : (s.enact cs).2.registry.Each P := by
  induction cs generalizing s with
  | nil => exact h
  | cons c cs ih =>
    rw [List.forall_mem_cons] at hcs
    cases hc : s.change c with
    | ok s' =>
      rw [Session.enact_cons_of_ok hc]
      exact ih (h.change hs hretitle hcs.1 hc) (Session.indexed_change hs hc) hcs.2
    | error e =>
      rw [Session.enact_cons_of_error hc]
      exact h

/-! ## Operations -/

variable [Scalar α] [Numeral α]

/-- **A plan brings in only figures with a property** if every figure has it that the operation may
draw or move, and recoloring does not take it away. -/
theorem brings (h : s.registry.Each P) (hs : s.registry.Indexed)
    (hrecolor : ∀ name figure color, P name figure → P name (figure.recolor color))
    {op : Operation α} {plan : Plan α} (hplan : op.plan s = .ok plan)
    (hdrawn : ∀ name figure, .add name figure ∈ plan.changes → s.Drawn op name figure →
      P name figure)
    (hmoved : ∀ element figure f, op.motion? s = some (element, f) →
      s.registry.find element = .ok figure → P element (figure.map f)) :
    ∀ c ∈ plan.changes, c.Brings P := by
  cases Session.effect_of_plan hs hplan with
  | adds entries value hfree hnodup hentries =>
    intro c hc
    obtain ⟨entry, hentry, rfl⟩ := List.mem_map.1 hc
    exact hdrawn _ _ hc (hentries entry hentry)
  | moves hmotion hfind hfinite =>
    simpa [Change.Brings] using hmoved _ _ _ hmotion hfind
  | recolors hfind => simpa [Change.Brings] using hrecolor _ _ _ (h.find hs hfind)
  | renames _ _ => simp [Change.Brings]
  | entitles _ => simp [Change.Brings]
  | limits _ => simp [Change.Brings]
  | shows _ => simp [Change.Brings]

/-- **An operation keeps a property of all figures** if every figure has it that the operation may
draw or move, and renaming and recoloring do not take it away. -/
theorem perform (h : s.registry.Each P) (hs : s.registry.Indexed)
    (hretitle : ∀ old new figure, P old figure → P new (figure.retitle old new))
    (hrecolor : ∀ name figure color, P name figure → P name (figure.recolor color))
    {op : Operation α}
    (hdrawn : ∀ plan, op.plan s = .ok plan → ∀ name figure, .add name figure ∈ plan.changes →
      s.Drawn op name figure → P name figure)
    (hmoved : ∀ element figure f, op.motion? s = some (element, f) →
      s.registry.find element = .ok figure → P element (figure.map f)) :
    (s.perform op).2.registry.Each P := by
  cases hplan : op.plan s with
  | error e => rw [Session.perform_of_error hplan]; exact h
  | ok plan =>
    rw [Session.perform_of_ok hplan]
    exact h.enact hs hretitle (h.brings hs hrecolor hplan (hdrawn plan hplan) hmoved)

end Registry.Each

end Straightedge
