import Straightedge.Proofs.Inversion
import Straightedge.Proofs.Registry.FreshNames
import Straightedge.Session.Measures

/-! # Names of new figures

Every name that a plan gives to a new figure is free, and where a plan makes several figures, their
names are different, whatever the names that users chose.

* **`Session.requireFree_of_nameFor`**: names wanted by users and numbered names.
* **`Session.distanceNames_free`**: the two names of a distance.
* **`Session.requireFree_of_angleBase`**: the two names of an angle. -/

namespace Straightedge

variable {α : Type}

namespace Registry.Indexed

variable {r : Registry α}

/-- A stem with the first free number may be used. -/
theorem requireFree_freshName (h : r.Indexed) (stem : String) :
    r.requireFree (r.freshName stem) = .ok () :=
  (requireFree_eq_ok_iff r _).2 ⟨numbered_ne_empty stem _, h.not_contains_freshName stem⟩

end Registry.Indexed

namespace Registry

/-- A free variant of a name starts with the name. -/
theorem exists_freshVariant_eq (r : Registry α) (base : String) :
    ∃ rest, r.freshVariant base = base ++ rest := by
  unfold freshVariant
  split
  · exact ⟨Nat.repr _, rfl⟩
  · exact ⟨"", (String.append_empty).symm⟩

/-- A free variant of a name that is not empty may be used. -/
theorem Indexed.requireFree_freshVariant {r : Registry α} (h : r.Indexed) {base : String}
    (hbase : base ≠ "") : r.requireFree (r.freshVariant base) = .ok () := by
  refine (requireFree_eq_ok_iff r _).2 ⟨fun hempty => ?_, h.not_contains_freshVariant base⟩
  obtain ⟨rest, hrest⟩ := r.exists_freshVariant_eq base
  rw [hempty] at hrest
  exact hbase (String.append_eq_empty_iff.1 hrest.symm).1

end Registry

namespace Session

variable {s : Session α}

/-! ## One name -/

/-- **The name for a new figure may be used**, whether it was wanted or generated. -/
theorem requireFree_of_nameFor (hs : s.registry.Indexed) {wanted : Option String}
    {stem name : String} (h : s.nameFor wanted stem = .ok name) :
    s.registry.requireFree name = .ok () := by
  cases wanted with
  | none =>
    simp only [nameFor, pure_eq_ok_iff] at h
    rw [h]
    exact hs.requireFree_freshName stem
  | some wanted =>
    simp only [nameFor, bind_eq_ok_iff, pure_eq_ok_iff] at h
    obtain ⟨⟨⟩, hfree, rfl⟩ := h
    exact hfree

/-- Only a wanted name that is empty or taken is refused. -/
theorem nameFor_eq_error {wanted : Option String} {stem : String} {e : ConstructionError}
    (h : s.nameFor wanted stem = .error e) :
    e = .invalidParameter .emptyName ∨ ∃ n, e = .nameCollision n := by
  cases wanted with
  | none => cases h
  | some name =>
    rw [nameFor, Registry.requireFree] at h
    by_cases hempty : name.isEmpty = true
    · rw [if_pos hempty] at h
      exact .inl (Except.error.inj h).symm
    · rw [if_neg hempty] at h
      by_cases hcontains : s.registry.contains name = true
      · rw [if_pos hcontains] at h
        exact .inr ⟨name, (Except.error.inj h).symm⟩
      · rw [if_neg hcontains] at h
        cases h

/-- A wanted name that is free is taken. -/
theorem nameFor_of_requireFree {name : String} (h : s.registry.requireFree name = .ok ())
    (stem : String) : s.nameFor (some name) stem = .ok name := by
  rw [nameFor, h]
  rfl

/-! ## The points of a segment -/

/-- A name with something in front of it is another name. -/
theorem freshVariant_append_ne (r : Registry α) {front : String} (hfront : front ≠ "")
    (name : String) : r.freshVariant (front ++ name) ≠ name := by
  intro h
  obtain ⟨rest, hrest⟩ := r.exists_freshVariant_eq (front ++ name)
  rw [hrest] at h
  -- the variant is longer than the name
  have hlength := congrArg String.length h
  have hpos : front.length ≠ 0 := fun h0 => hfront (String.length_eq_zero_iff.1 h0)
  simp only [String.length_append] at hlength
  omega

/-- The points at the start and at the end of a segment have different names. -/
theorem startName_ne_endName (r : Registry α) (name : String) :
    r.freshVariant ("P_start_" ++ name) ≠ r.freshVariant ("P_end_" ++ name) := by
  intro h
  obtain ⟨first, hfirst⟩ := r.exists_freshVariant_eq ("P_start_" ++ name)
  obtain ⟨second, hsecond⟩ := r.exists_freshVariant_eq ("P_end_" ++ name)
  rw [hfirst, hsecond] at h
  -- the third characters differ
  have hchars := congrArg String.toList h
  simp [String.toList_append] at hchars

/-! ## The ruler and the label of a distance -/

/-- **Both names of a distance may be used, and they are different.** -/
theorem distanceNames_free (hs : s.registry.Indexed) (first second : Reference α) :
    s.registry.requireFree (s.distanceNames first second).1 = .ok () ∧
      s.registry.requireFree (s.distanceNames first second).2 = .ok () ∧
      (s.distanceNames first second).1 ≠ (s.distanceNames first second).2 := by
  unfold distanceNames
  split
  · rename_i a b _ _
    refine ⟨hs.requireFree_freshVariant ?_, hs.requireFree_freshVariant ?_, ?_⟩
    · simp [String.append_eq_empty_iff]
    · simp [String.append_eq_empty_iff]
    · intro h
      obtain ⟨ruler, hruler⟩ := s.registry.exists_freshVariant_eq ("Ruler_" ++ a ++ "_" ++ b)
      obtain ⟨label, hlabel⟩ := s.registry.exists_freshVariant_eq ("Distance_" ++ a ++ "_" ++ b)
      simp only [hruler, hlabel] at h
      have hchars := congrArg String.toList h
      simp [String.toList_append] at hchars
  · refine ⟨hs.requireFree_freshName _, hs.requireFree_freshName _, ?_⟩
    intro h
    have hchars := congrArg String.toList h
    simp [Registry.freshName, Registry.numbered, String.toList_append] at hchars

/-! ## The arc and the label of an angle -/

/-- No arc is named like a label. -/
theorem arcName_ne_angleLabelName (base other : String) : arcName base ≠ angleLabelName other := by
  intro h
  -- the last characters differ
  have hchars := congrArg (fun text => text.toList.getLast?) h
  simp [arcName, angleLabelName, String.toList_append] at hchars

/-- **Both names of an angle may be used**, whether its name was wanted or generated. -/
theorem requireFree_of_angleBase (hs : s.registry.Indexed) {wanted : Option String} {base : String}
    (h : s.angleBase wanted = .ok base) :
    s.registry.requireFree (arcName base) = .ok () ∧
      s.registry.requireFree (angleLabelName base) = .ok () := by
  cases wanted with
  | some wanted =>
    simp only [angleBase, bind_eq_ok_iff, pure_eq_ok_iff] at h
    obtain ⟨⟨⟩, harc, ⟨⟩, hlabel, rfl⟩ := h
    exact ⟨harc, hlabel⟩
  | none =>
    simp only [angleBase, pure_eq_ok_iff] at h
    have hfree := hs.not_contains_pairedNumber
      (fun k => arcName (Registry.numbered "Angle" k))
      (fun k => angleLabelName (Registry.numbered "Angle" k)) ?_ ?_ ?_
    · rw [h]
      refine ⟨(Registry.requireFree_eq_ok_iff _ _).2 ⟨?_, hfree.1⟩,
        (Registry.requireFree_eq_ok_iff _ _).2 ⟨?_, hfree.2⟩⟩
      · simp [arcName, String.append_eq_empty_iff]
      · simp [angleLabelName, String.append_eq_empty_iff]
    · intro i j hij
      exact Registry.numbered_injective "Angle" ((String.append_left_inj _).1 hij)
    · intro i j hij
      exact Registry.numbered_injective "Angle" ((String.append_left_inj _).1 hij)
    · intro i j
      exact arcName_ne_angleLabelName _ _

end Session

end Straightedge
