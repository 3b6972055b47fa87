import Mathlib.Data.List.Forall2
import Straightedge.Proofs.Registry.Listing
import Straightedge.Proofs.Session.Plans
import Straightedge.Proofs.Session.Reachable

/-! # Added figures

Figures under free and different names are added one after another, all of them: free names stay
free while the figures before them are added. Operations that draw one figure each under such names
leave these figures, in order, behind those that were there before. A figure that is renamed goes
to the end as well.

* **`Session.enact_additions`**: figures under free and different names are all added.
* **`Session.exists_perform_addOne`**: an operation that is planned to add a figure adds it.
* **`Session.perform_rename_eq_ok_iff`**: what a successful rename leaves.
* **`Operation.Draws`**: an operation that draws a figure wherever its name is free.
* **`Session.after_of_draws_of_free`**: what a run of such operations leaves. -/

namespace Straightedge

variable {α : Type}

/-! ## Adding figures -/

namespace Registry

/-- A free name stays free when a figure is added under another one. -/
theorem requireFree_of_insert {r r' : Registry α} {name other : String} {figure : Figure α}
    (hinsert : r.insert name figure = .ok r') (hne : other ≠ name)
    (hfree : r.requireFree other = .ok ()) : r'.requireFree other = .ok () := by
  obtain ⟨-, rfl⟩ := (insert_eq_ok_iff r r' name figure).1 hinsert
  rw [requireFree_eq_ok_iff] at hfree ⊢
  refine ⟨hfree.1, ?_⟩
  rw [contains, Std.HashMap.contains_insert, Bool.or_eq_false_iff]
  exact ⟨beq_eq_false_iff_ne.2 hne.symm, hfree.2⟩

/-- A name that no figure has is free. -/
theorem Indexed.requireFree_of_not_mem {r : Registry α} (hr : r.Indexed) {name : String}
    (hname : name ≠ "") (hmem : name ∉ r.names) : r.requireFree name = .ok () := by
  rw [← hr.contains_iff, Bool.not_eq_true] at hmem
  exact (requireFree_eq_ok_iff r name).2 ⟨hname, hmem⟩

/-- Every name that is not empty may be used first. -/
theorem requireFree_empty {name : String} (hname : name ≠ "") :
    (empty : Registry α).requireFree name = .ok () :=
  (requireFree_eq_ok_iff _ name).2 ⟨hname, Std.HashMap.contains_empty⟩

/-- An added figure is the last one. -/
theorem toList_insert {r r' : Registry α} {name : String} {figure : Figure α}
    (hinsert : r.insert name figure = .ok r') : r'.toList = r.toList ++ [(name, figure)] := by
  obtain ⟨-, rfl⟩ := (insert_eq_ok_iff r r' name figure).1 hinsert
  simp [toList]

end Registry

namespace Session

/-- A figure is added under a free name. -/
theorem exists_change_add {s : Session α} {name : String} (figure : Figure α)
    (hfree : s.registry.requireFree name = .ok ()) :
    ∃ r, s.registry.insert name figure = .ok r ∧
      s.change (.add name figure) = .ok { s with registry := r } := by
  refine ⟨_, (Registry.insert_eq_ok_iff _ _ name figure).2 ⟨hfree, rfl⟩, ?_⟩
  simp only [change, bind_eq_ok_iff, pure_eq_ok_iff]
  exact ⟨_, (Registry.insert_eq_ok_iff _ _ name figure).2 ⟨hfree, rfl⟩, rfl⟩

/-- **Figures under free and different names are all added**, at the end and in order. -/
theorem enact_additions {s : Session α} (entries : List (String × Figure α))
    (hfree : ∀ entry ∈ entries, s.registry.requireFree entry.1 = .ok ())
    (hnodup : (entries.map Prod.fst).Nodup) :
    (s.enact (additions entries)).1 = .ok () ∧
      (s.enact (additions entries)).2.registry.toList = s.registry.toList ++ entries := by
  induction entries generalizing s with
  | nil => exact ⟨rfl, (List.append_nil _).symm⟩
  | cons entry entries ih =>
    obtain ⟨name, figure⟩ := entry
    rw [List.forall_mem_cons] at hfree
    rw [List.map_cons, List.nodup_cons] at hnodup
    obtain ⟨r, hinsert, hchange⟩ := exists_change_add figure hfree.1
    -- the names still to come differ from the one just taken
    have hrest : ∀ entry ∈ entries, r.requireFree entry.1 = .ok () := by
      intro entry hentry
      refine Registry.requireFree_of_insert hinsert ?_ (hfree.2 entry hentry)
      intro hname
      exact hnodup.1 (hname ▸ List.mem_map_of_mem hentry)
    obtain ⟨hok, hlist⟩ := ih (s := { s with registry := r }) hrest hnodup.2
    rw [additions, List.map_cons, enact_cons_of_ok hchange]
    refine ⟨hok, ?_⟩
    rw [additions] at hlist
    rw [hlist, Registry.toList_insert hinsert, List.append_assoc]
    rfl

/-- Added figures leave everything but the registry alone. -/
theorem enact_additions_eq (s : Session α) (entries : List (String × Figure α)) :
    (s.enact (additions entries)).2 =
      { s with registry := (s.enact (additions entries)).2.registry } := by
  induction entries generalizing s with
  | nil => rfl
  | cons entry entries ih =>
    rw [additions, List.map_cons, ← additions]
    cases hchange : s.change (.add entry.1 entry.2) with
    | error e => rw [enact_cons_of_error hchange]
    | ok s' =>
      rw [enact_cons_of_ok hchange]
      simp only [change, bind_eq_ok_iff, pure_eq_ok_iff] at hchange
      obtain ⟨r, -, rfl⟩ := hchange
      exact ih { s with registry := r }

variable [Scalar α] [Numeral α]

/-- An operation that is planned to add one figure under a free name adds it. -/
theorem exists_perform_addOne {s : Session α} {op : Operation α} {name : String}
    {figure : Figure α} (hplan : op.plan s = .ok (.addOne name figure))
    (hfree : s.registry.requireFree name = .ok ()) :
    ∃ r, s.registry.insert name figure = .ok r ∧
      s.perform op = (.ok (.name name), { s with registry := r }) := by
  obtain ⟨r, hinsert, hchange⟩ := exists_change_add figure hfree
  refine ⟨r, hinsert, ?_⟩
  rw [perform_of_ok hplan, Plan.addOne, enact_cons_of_ok hchange, enact_nil]
  rfl

end Session

/-! ## Renaming a figure -/

namespace Session

variable [Scalar α] [Numeral α] {s s' : Session α} {old new : String}

/-- **What a successful rename leaves**: the session with its registry renamed. -/
theorem perform_rename_eq_ok_iff {v : Value α} :
    s.perform (.rename old new) = (.ok v, s') ↔ v = .name new ∧
      ∃ r, s.registry.rename old new = .ok r ∧ s' = { s with registry := r } := by
  have hplan : Operation.plan s (.rename old new) = .ok ⟨[.rename old new], .name new⟩ := rfl
  rw [perform_of_ok hplan]
  cases hrename : s.registry.rename old new with
  | error e =>
    have hchange : s.change (.rename old new) = .error e := by
      rw [change, hrename]
      rfl
    rw [enact_cons_of_error hchange]
    simp [Except.map]
  | ok r =>
    have hchange : s.change (.rename old new) = .ok { s with registry := r } := by
      rw [change, hrename]
      rfl
    rw [enact_cons_of_ok hchange, enact_nil]
    simp [Except.map, eq_comm]

/-- A figure is renamed to a free name and goes to the end. -/
theorem exists_perform_rename (hs : s.registry.Indexed) {front back : List (String × Figure α)}
    {figure : Figure α} (hlist : s.registry.toList = front ++ (old, figure) :: back)
    (hfree : s.registry.requireFree new = .ok ()) :
    ∃ r, s.perform (.rename old new) = (.ok (.name new), { s with registry := r }) ∧
      r.toList = front ++ back ++ [(new, figure.retitle old new)] := by
  obtain ⟨r, hrename, hrenamed⟩ := hs.exists_rename hlist hfree
  exact ⟨r, perform_rename_eq_ok_iff.2 ⟨rfl, r, hrename, rfl⟩, hrenamed⟩

end Session

/-! ## Runs of drawings -/

variable [Scalar α] [Numeral α]

namespace Operation

/-- **An operation draws a figure under a name**, in every session where the name is free. -/
def Draws (op : Operation α) (entry : String × Figure α) : Prop :=
  ∀ s : Session α, s.registry.requireFree entry.1 = .ok () →
    op.plan s = .ok (.addOne entry.1 entry.2)

variable {p q : Coord α}

/-- A point is drawn at a finite position. -/
theorem draws_point (hp : p.isFinite = true) (name : String) :
    (point (.position p) (some name)).Draws (name, .dot p "red") := by
  intro s hfree
  simp only [plan, Session.point, Registry.position, hp, Session.nameFor_of_requireFree hfree]
  rfl

/-- A line is drawn between finite positions, titled with its name. -/
theorem draws_line (hp : p.isFinite = true) (hq : q.isFinite = true) (name : String) :
    (line (.position p) (.position q) (some name)).Draws (name,
      .curve ⟨[p, q], false, .solid "#000", none, some (Session.endsTooltip name p q)⟩) := by
  intro s hfree
  have hvertices : Curve.requireVertices [p, q] = .ok () :=
    Curve.requireVertices_eq_ok_iff.2 ⟨Nat.le_refl 2, by simp [hp, hq]⟩
  simp only [plan, Session.line, bind_eq_ok_iff, pure_eq_ok_iff]
  exact ⟨p, if_pos hp, q, if_pos hq, name, Session.nameFor_of_requireFree hfree _, _,
    Curve.polyline_eq_ok_iff.2 ⟨hvertices, rfl⟩, rfl⟩

end Operation

namespace Session

variable {s : Session α} {ops : List (Operation α)} {entries : List (String × Figure α)}

/-- Drawing figures is enacting their additions, as long as these are made. -/
theorem after_of_draws (hdraws : List.Forall₂ Operation.Draws ops entries)
    (hok : (s.enact (additions entries)).1 = .ok ()) :
    s.after ops = (s.enact (additions entries)).2 := by
  induction hdraws generalizing s with
  | nil => rfl
  | @cons op entry ops entries hop _ ih =>
    rw [additions, List.map_cons, ← additions] at hok ⊢
    cases hchange : s.change (.add entry.1 entry.2) with
    | error e =>
      rw [enact_cons_of_error hchange] at hok
      cases hok
    | ok s' =>
      rw [enact_cons_of_ok hchange] at hok ⊢
      obtain ⟨r, hinsert, -⟩ := bind_eq_ok_iff.1 hchange
      have hplan := hop s ((Registry.insert_eq_ok_iff ..).1 hinsert).1
      rw [after_cons, perform_of_ok hplan, Plan.addOne, enact_cons_of_ok hchange, enact_nil]
      exact ih hok

/-- **Figures that are drawn under free and different names stand behind all others, in order**, and
nothing else changes. -/
theorem after_of_draws_of_free (hdraws : List.Forall₂ Operation.Draws ops entries)
    (hfree : ∀ entry ∈ entries, s.registry.requireFree entry.1 = .ok ())
    (hnodup : (entries.map Prod.fst).Nodup) :
    s.after ops = { s with registry := (s.after ops).registry } ∧
      (s.after ops).registry.toList = s.registry.toList ++ entries := by
  obtain ⟨hok, hlist⟩ := enact_additions entries hfree hnodup
  rw [after_of_draws hdraws hok]
  exact ⟨enact_additions_eq s entries, hlist⟩

/-- In a new session all names but the empty one are free. -/
theorem after_new_of_draws (settings : Settings α)
    (hdraws : List.Forall₂ Operation.Draws ops entries)
    (hnames : ∀ name ∈ entries.map Prod.fst, name ≠ "") (hnodup : (entries.map Prod.fst).Nodup) :
    (new settings).after ops =
        { new settings with registry := ((new settings).after ops).registry } ∧
      ((new settings).after ops).registry.toList = entries :=
  after_of_draws_of_free hdraws (fun _ hentry => Registry.requireFree_empty
    (hnames _ (List.mem_map_of_mem hentry))) hnodup

/-- A segment of a given length from a position is planned as three figures: its start, itself and
its end. -/
theorem exists_plan_segment {p : Coord α} {x : α} {name : String} (hp : p.isFinite = true)
    (hx : (!Scalar.isFinite x || Scalar.eq x Scalar.zero) = false)
    (hend : (p + ⟨x, Scalar.zero⟩).isFinite = true)
    (hfree : s.registry.requireFree name = .ok ()) :
    ∃ start curve finish,
      (Operation.segment (.position p) (.number x) (some name)).plan s =
        .ok ⟨[.add (s.registry.freshVariant ("P_start_" ++ name)) start, .add name curve,
          .add (s.registry.freshVariant ("P_end_" ++ name)) finish], .name name⟩ := by
  have hsegmentEnd : s.segmentEnd p (.number x) = .ok (p + ⟨x, Scalar.zero⟩) := by
    have hendx := (Bool.and_eq_true_iff.1 hend).1
    simp only [segmentEnd, hx, hendx]
    rfl
  have hvertices : Curve.requireVertices [p, p + ⟨x, Scalar.zero⟩] = .ok () :=
    Curve.requireVertices_eq_ok_iff.2 ⟨Nat.le_refl 2, by simp [hp, hend]⟩
  simp only [Operation.plan, segment, bind_eq_ok_iff, pure_eq_ok_iff]
  exact ⟨_, _, _, p, if_pos hp, _, hsegmentEnd, name, nameFor_of_requireFree hfree _, _,
    Curve.polyline_eq_ok_iff.2 ⟨hvertices, rfl⟩, rfl⟩

end Session

end Straightedge
