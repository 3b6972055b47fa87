import Mathlib.Data.List.Nodup
import Mathlib.Data.List.Induction
import Mathlib.Data.List.InsertIdx
import Straightedge.Registry.Basic

/-! # The index of a registry

A registry keeps its figures in order and, beside them, an index of positions. The two say the same
as long as the index finds every name exactly where its entry stands:

* **`Registry.Indexed`**: the index and the entries agree, and no name is empty.
* **`Registry.Indexed.push`**: one more entry under a new name keeps them in step.
* **`Registry.indexed_indexOf`**: an index built anew from distinct names agrees with them.
* **`Registry.Indexed.insert`**, **`Registry.Indexed.update`**, **`Registry.Indexed.rename`**: the
  three changes keep the index right; a rename shifts positions and builds the index anew. -/

namespace Straightedge

namespace Registry

variable {α : Type}

/-- **The index agrees with the entries**: a name is found at a position exactly if the entry there
has this name. No name is empty. -/
structure Indexed (r : Registry α) : Prop where
  /-- The position found for a name is the position of its entry. -/
  position_iff : ∀ (name : String) (i : Nat), r.index[name]? = some i ↔ r.names[i]? = some name
  /-- No figure is kept under the empty name. -/
  name_ne_empty : ∀ name ∈ r.names, name ≠ ""

/-- The registry without figures is indexed. -/
theorem indexed_empty : (empty : Registry α).Indexed where
  position_iff name i := by simp [empty, names, toList]
  name_ne_empty name h := by simp [empty, names, toList] at h

/-! ## What the index tells -/

namespace Indexed

variable {r : Registry α}

/-- **Names are distinct**: two positions of one name are both the position the index gives. -/
theorem nodup_names (h : r.Indexed) : r.names.Nodup := by
  rw [List.nodup_iff_injective_get]
  intro i j hij
  have hi := (h.position_iff _ i).2 (List.getElem?_eq_getElem i.isLt)
  have hj := (h.position_iff _ j).2 (List.getElem?_eq_getElem j.isLt)
  simp only [List.get_eq_getElem] at hij
  rw [hij] at hi
  exact Fin.ext (Option.some.inj (hi.symm.trans hj))

/-- The taken names are the names of the entries. -/
theorem contains_iff (h : r.Indexed) (name : String) : r.contains name = true ↔ name ∈ r.names := by
  rw [contains, Std.HashMap.contains_eq_isSome_getElem?, Option.isSome_iff_exists,
    List.mem_iff_getElem?]
  exact exists_congr (h.position_iff name)

/-- The index holds one position for each entry. -/
theorem size_index (h : r.Indexed) : r.index.size = r.size := by
  -- keys of the index and names of the entries are both without repetition and have the same
  -- members, so there are equally many
  have hkeys : r.index.keys.Perm r.names := by
    rw [List.perm_ext_iff_of_nodup r.index.nodup_keys h.nodup_names]
    intro name
    rw [Std.HashMap.mem_keys, ← h.contains_iff, contains, Std.HashMap.contains_iff_mem]
  have hlength := hkeys.length_eq
  rwa [Std.HashMap.length_keys, names, List.length_map, toList, Array.length_toList] at hlength

/-- Looking a name up finds its entry and no other. -/
theorem get?_eq_some_iff (h : r.Indexed) (name : String) (figure : Figure α) :
    r.get? name = some figure ↔ (name, figure) ∈ r.toList := by
  rw [List.mem_iff_getElem?]
  simp only [get?, bind, Option.bind_eq_some_iff, pure, Option.some.injEq, h.position_iff]
  simp only [names, toList, List.getElem?_map, Option.map_eq_some_iff, Array.getElem?_toList]
  constructor
  -- the position of the name leads to an entry, and that entry has the name
  · rintro ⟨i, ⟨entry, hentry, rfl⟩, _, hentry', rfl⟩
    rw [hentry] at hentry'
    exact ⟨i, hentry.trans (by rw [Option.some.inj hentry'])⟩
  · rintro ⟨i, hentry⟩
    exact ⟨i, ⟨_, hentry, rfl⟩, _, hentry, rfl⟩

end Indexed

/-! ## Free names -/

/-- A name is free exactly if it is not empty and not taken. -/
theorem requireFree_eq_ok_iff (r : Registry α) (name : String) :
    r.requireFree name = .ok () ↔ name ≠ "" ∧ r.contains name = false := by
  simp only [requireFree, String.isEmpty_iff]
  split
  · simp [*]
  · split <;> simp_all

/-- A successful insertion had a free name, and appends one entry. -/
theorem insert_eq_ok_iff (r r' : Registry α) (name : String) (figure : Figure α) :
    r.insert name figure = .ok r' ↔ r.requireFree name = .ok () ∧
      r' = ⟨r.entries.push (name, figure), r.index.insert name r.entries.size⟩ := by
  simp only [insert, bind, Except.bind]
  cases r.requireFree name with
  | error e => simp
  | ok u => simp [pure, Except.pure, eq_comm]

/-! ## One more entry -/

/-- **One more entry keeps the index right**: a new name gets the position after all others. -/
theorem Indexed.push {r : Registry α} (h : r.Indexed) {name : String} (hname : name ≠ "")
    (hfree : name ∉ r.names) (figure : Figure α) :
    Indexed ⟨r.entries.push (name, figure), r.index.insert name r.entries.size⟩ := by
  have hsize : r.names.length = r.entries.size := by simp [names, toList]
  have hnames : names ⟨r.entries.push (name, figure), r.index.insert name r.entries.size⟩
      = r.names ++ [name] := by simp [names, toList]
  refine ⟨fun other i => ?_, fun other hother => ?_⟩
  · rw [hnames, Std.HashMap.getElem?_insert, List.getElem?_append]
    by_cases hi : i < r.names.length
    · -- an old position: the new name does not stand there
      rw [if_pos hi]
      by_cases ho : name = other
      · subst ho
        have hne : r.names[i]? ≠ some name := fun hc => hfree (List.mem_of_getElem? hc)
        simp [hne]
        omega
      · simp [ho, h.position_iff]
    · rw [if_neg hi]
      by_cases ho : name = other
      · subst ho
        -- a new position: the new name stands there and nowhere behind it
        by_cases hi' : i = r.entries.size
        · simp [hi', hsize]
        · have hpos : i - r.names.length ≠ 0 := by omega
          simp [hpos, Ne.symm hi']
      · have hold : r.names[i]? ≠ some other := by
          rw [List.getElem?_eq_none (by omega)]
          simp
        simp only [beq_iff_eq, ho, if_false, h.position_iff, hold, false_iff]
        intro hc
        rw [List.getElem?_singleton] at hc
        split at hc
        · exact ho (Option.some.inj hc)
        · cases hc
  · rw [hnames, List.mem_append, List.mem_singleton] at hother
    rcases hother with hother | rfl
    · exact h.name_ne_empty other hother
    · exact hname

/-- The index of one more entry is the old index with one more position. -/
theorem indexOf_push (entries : Array (String × Figure α)) (entry : String × Figure α) :
    indexOf (entries.push entry) = (indexOf entries).insert entry.1 entries.size := by
  simp [indexOf, List.zipIdx_append]

/-- **An index built anew agrees with the entries**, if their names are distinct and not empty. -/
theorem indexed_indexOf (entries : Array (String × Figure α))
    (hnodup : (entries.toList.map Prod.fst).Nodup)
    (hempty : ∀ name ∈ entries.toList.map Prod.fst, name ≠ "") :
    Indexed ⟨entries, indexOf entries⟩ := by
  -- the index is filled from the front, so the induction takes entries off at the back
  obtain ⟨l⟩ := entries
  simp only at hnodup hempty
  induction l using List.reverseRecOn with
  | nil => exact indexed_empty
  | append_singleton l entry ih =>
    rw [List.map_append, List.nodup_append] at hnodup
    obtain ⟨hl, -, hdisjoint⟩ := hnodup
    have hnew : entry.1 ∉ l.map Prod.fst := fun hc => hdisjoint _ hc _ (by simp) rfl
    have hpush : (⟨l ++ [entry]⟩ : Array (String × Figure α)) = Array.push ⟨l⟩ entry := by simp
    rw [hpush, indexOf_push]
    exact (ih hl fun name hname => hempty name (by simp [hname])).push
      (hempty entry.1 (by simp)) hnew entry.2

/-! ## The changes -/

namespace Indexed

variable {r r' : Registry α}

/-- A free name is not the name of an entry. -/
theorem not_mem_of_requireFree (h : r.Indexed) {name : String}
    (hfree : r.requireFree name = .ok ()) : name ∉ r.names := by
  rw [← h.contains_iff, (requireFree_eq_ok_iff r name |>.1 hfree).2]
  exact Bool.false_ne_true

/-- **Insertion keeps the index right.** -/
theorem insert (h : r.Indexed) {name : String} {figure : Figure α}
    (hinsert : r.insert name figure = .ok r') : r'.Indexed := by
  obtain ⟨hfree, rfl⟩ := (insert_eq_ok_iff r r' name figure).1 hinsert
  exact h.push ((requireFree_eq_ok_iff r name).1 hfree).1 (h.not_mem_of_requireFree hfree) figure

end Indexed

/-- A successful update found the name, and changes the entry at its position. -/
theorem update_eq_ok_iff (r r' : Registry α) (name : String) (f : Figure α → Figure α) :
    r.update name f = .ok r' ↔ ∃ i, r.index[name]? = some i ∧
      r' = { r with entries := r.entries.modify i fun entry => (entry.1, f entry.2) } := by
  simp only [update]
  cases r.index[name]? with
  | none => simp
  | some i => simp [eq_comm]

/-- A successful rename had a free name and found the old one; the entry goes to the end. -/
theorem rename_eq_ok_iff (r r' : Registry α) (old new : String) :
    r.rename old new = .ok r' ↔ r.requireFree new = .ok () ∧
      ∃ i entry, r.index[old]? = some i ∧ r.entries[i]? = some entry ∧
        r' = ⟨(r.entries.eraseIdxIfInBounds i).push (new, entry.2.retitle old new),
          indexOf ((r.entries.eraseIdxIfInBounds i).push (new, entry.2.retitle old new))⟩ := by
  simp only [rename, bind, Except.bind]
  cases r.requireFree new with
  | error e => simp
  | ok u =>
    cases r.index[old]? with
    | none => simp [throw, throwThe, MonadExceptOf.throw]
    | some i =>
      cases hentry : r.entries[i]? with
      | none => simp [hentry, throw, throwThe, MonadExceptOf.throw]
      | some entry =>
        obtain ⟨name, figure⟩ := entry
        simp [hentry, pure, Except.pure, eq_comm]

/-- An update changes no name. -/
theorem names_update {r r' : Registry α} {name : String} {f : Figure α → Figure α}
    (hupdate : r.update name f = .ok r') : r'.names = r.names := by
  obtain ⟨i, -, rfl⟩ := (update_eq_ok_iff r r' name f).1 hupdate
  simp only [names, toList, Array.toList_modify]
  refine List.ext_getElem (by simp) fun j hj hj' => ?_
  simp only [List.getElem_map, List.getElem_modify]
  split <;> rfl

/-- A rename takes the old name away and puts the new one at the end. -/
theorem names_rename {r r' : Registry α} {old new : String}
    (hrename : r.rename old new = .ok r') :
    ∃ i, r.index[old]? = some i ∧ r'.names = r.names.eraseIdx i ++ [new] := by
  obtain ⟨-, i, entry, hi, -, rfl⟩ := (rename_eq_ok_iff r r' old new).1 hrename
  refine ⟨i, hi, ?_⟩
  simp [names, toList, List.eraseIdx_map]

namespace Indexed

variable {r r' : Registry α}

/-- **An update keeps the index right**: it changes neither names nor index. -/
theorem update (h : r.Indexed) {name : String} {f : Figure α → Figure α}
    (hupdate : r.update name f = .ok r') : r'.Indexed := by
  have hnames := names_update hupdate
  obtain ⟨i, -, rfl⟩ := (update_eq_ok_iff r r' name f).1 hupdate
  refine ⟨fun other j => ?_, fun other hother => ?_⟩
  · rw [hnames]
    exact h.position_iff other j
  · rw [hnames] at hother
    exact h.name_ne_empty other hother

/-- **A rename keeps the index right**: positions behind the renamed figure shift, so the index is
built anew from names that are still distinct. -/
theorem rename (h : r.Indexed) {old new : String}
    (hrename : r.rename old new = .ok r') : r'.Indexed := by
  obtain ⟨i, hi, hnames⟩ := names_rename hrename
  obtain ⟨hfree, j, entry, -, -, rfl⟩ := (rename_eq_ok_iff r r' old new).1 hrename
  have hrest : ∀ name ∈ r.names.eraseIdx i, name ∈ r.names := fun name hname =>
    List.mem_of_mem_eraseIdx hname
  simp only [names, toList] at hnames
  apply indexed_indexOf
  -- what is left of the names has no repetition, and the new name is not among them
  · rw [hnames, List.nodup_append]
    refine ⟨h.nodup_names.sublist (List.eraseIdx_sublist ..), List.nodup_singleton new, ?_⟩
    rintro name hname _ hnew rfl
    rw [List.mem_singleton] at hnew
    exact h.not_mem_of_requireFree hfree (hnew ▸ hrest name hname)
  · intro name hname
    rw [hnames, List.mem_append, List.mem_singleton] at hname
    rcases hname with hname | rfl
    · exact h.name_ne_empty name (hrest name hname)
    · exact ((requireFree_eq_ok_iff r name).1 hfree).1

end Indexed

end Registry

end Straightedge
