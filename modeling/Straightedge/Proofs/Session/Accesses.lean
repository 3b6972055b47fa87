import Straightedge.Plane.Line
import Straightedge.Proofs.Plane.Rings
import Straightedge.Proofs.Session.Figures

/-! # Accesses stay in range

Vertices, edges and entries are taken by position. Here these accesses are written once more so that
they fault out of range. Rings and chords are accessed in range whatever they are; curves and
registries are if curves have two vertices and the index holds positions of entries, and that is
so in every session that is passed through, with any settings.

* **`slice?`**, **`frontAt?`**, **`lastAt?`**: accesses to lists that may fault.
* **`Ring.openRingAt?`**, **`Ring.edgesAt?`**, **`Ring.signedAreaAt?`**, **`Ring.centroidAt?`**,
  **`Line.chordAt?`**: constructions by position; none of them faults.
* **`Curve.endpointsAt?`**, **`Curve.cornersAt?`**, **`Registry.getAt?`**,
  **`Registry.updateAt?`**, **`Registry.renameAt?`**: accesses that fault exactly if a curve is
  too short or a position too high.
* **`Registry.InRange`**, **`Registry.Faultless`**, **`Registry.faultless_iff`**: no access through
  a registry faults exactly if vertices and positions are in range.
* **`Session.inRange_throughout`**: in every session that is passed through they are. -/

namespace Straightedge

variable {α β : Type}

/-! ## Lists by position -/

/-- The position before; there is none before the first. -/
def positionBefore? : Nat → Option Nat
  | 0 => none
  | n + 1 => some n

/-- **The items up to a position**; it faults if the list ends before it. -/
def slice? (items : List β) (stop : Nat) : Option (List β) :=
  if stop ≤ items.length then some (items.take stop) else none

/-- All items but the last, as a slice. -/
def frontAt? (items : List β) : Option (List β) := do
  slice? items (← positionBefore? items.length)

/-- The last item by its position. -/
def lastAt? (items : List β) : Option β := do
  items[← positionBefore? items.length]?

/-- The slice before the last item faults exactly on the empty list. -/
theorem frontAt?_eq_some_iff {items : List β} :
    frontAt? items = some items.dropLast ↔ items ≠ [] := by
  cases items with
  | nil => simp [frontAt?, positionBefore?]
  | cons first rest =>
    simp [frontAt?, positionBefore?, slice?, List.dropLast_eq_take]

/-- The position of the last item faults exactly on the empty list. -/
theorem lastAt?_eq (items : List β) : lastAt? items = items.getLast? := by
  cases items with
  | nil => rfl
  | cons first rest =>
    rw [List.getLast?_eq_getElem?]
    rfl

/-- Going through all positions of a list gives the list. -/
theorem mapM_range_getElem? (items : List β) :
    (List.range items.length).mapM (fun i => items[i]?) = some items := by
  induction items with
  | nil => rfl
  | cons first rest ih =>
    rw [List.length_cons, List.range_succ_eq_map, List.mapM_cons, List.mapM_map]
    simp [Function.comp_def, ih]

/-! ## Rings by position -/

namespace Ring

variable {tol : Tolerance α}

/-- The edge from a vertex of a ring to the next, from the last one to the first. -/
def edgeAt? (ring : List (Coord α)) (i : Nat) : Option (Coord α × Coord α) := do
  return (← ring[i]?, ← ring[(i + 1) % ring.length]?)

/-- The edges of a ring by position. -/
def edgesAt? (ring : List (Coord α)) : Option (List (Coord α × Coord α)) :=
  (List.range ring.length).mapM (edgeAt? ring)

/-- After a position of a ring comes the next one, and after the last one the first. -/
theorem getElem?_succ_mod {first : Coord α} {rest : List (Coord α)} {i : Nat}
    (hi : i < (first :: rest).length) :
    (first :: rest)[(i + 1) % (first :: rest).length]? = (rest ++ [first])[i]? := by
  rw [List.length_cons] at hi ⊢
  by_cases hlast : i = rest.length
  · rw [hlast, Nat.mod_self, List.getElem?_concat_length]
    rfl
  · have hlt : i < rest.length := by omega
    rw [Nat.mod_eq_of_lt (Nat.succ_lt_succ hlt), List.getElem?_append_left hlt]
    rfl

/-- **An edge by position is the edge there**, and there is none at other positions. -/
theorem edgeAt?_eq (ring : List (Coord α)) (i : Nat) : edgeAt? ring i = (edges ring)[i]? := by
  cases ring with
  | nil => rfl
  | cons first rest =>
    by_cases hi : i < (first :: rest).length
    · have hstart : (first :: rest)[i]? = some ((first :: rest).get ⟨i, hi⟩) :=
        List.getElem?_eq_getElem hi
      have hi' : i < (rest ++ [first]).length := by
        rw [List.length_append]
        exact hi
      have hfinish : (rest ++ [first])[i]? = some ((rest ++ [first]).get ⟨i, hi'⟩) :=
        List.getElem?_eq_getElem hi'
      rw [edgeAt?, getElem?_succ_mod hi, hstart, hfinish]
      exact (List.getElem?_zip_eq_some.2 ⟨hstart, hfinish⟩).symm
    · have hnone : (edges (first :: rest))[i]? = none := by
        rw [List.getElem?_eq_none_iff, length_edges]
        exact Nat.not_lt.1 hi
      rw [edgeAt?, hnone, List.getElem?_eq_none_iff.2 (Nat.not_lt.1 hi)]
      rfl

/-- No edge of a ring faults. -/
theorem edgesAt?_eq (ring : List (Coord α)) : edgesAt? ring = some (edges ring) := by
  have hedges : edgeAt? ring = fun i => (edges ring)[i]? := funext (edgeAt?_eq ring)
  rw [edgesAt?, hedges, ← length_edges]
  exact mapM_range_getElem? _

variable [Scalar α]

/-- The ring without a repeated first vertex at its end, as a slice. -/
def openRingAt? (tol : Tolerance α) (vertices : List (Coord α)) : Option (List (Coord α)) :=
  if isClosed tol vertices then frontAt? vertices else some vertices

/-- Signed area of a ring by position. -/
def signedAreaAt? (tol : Tolerance α) (vertices : List (Coord α)) : Option α := do
  let ring ← openRingAt? tol vertices
  let es ← edgesAt? ring
  return sumEdges Coord.cross es / Scalar.ofNat 2

/-- Center of gravity of a ring by position. -/
def centroidAt? (tol : Tolerance α) (vertices : List (Coord α)) : Option (Option (Coord α)) := do
  let ring ← openRingAt? tol vertices
  if ring.length = 0 then return none
  let es ← edgesAt? ring
  let area := sumEdges Coord.cross es / Scalar.ofNat 2
  if Scalar.lt (Scalar.abs area) tol.area then return mean? ring
  let sumX := sumEdges (fun p q => (p.x + q.x) * p.cross q) es
  let sumY := sumEdges (fun p q => (p.y + q.y) * p.cross q) es
  return some ⟨sumX / (Scalar.ofNat 6 * area), sumY / (Scalar.ofNat 6 * area)⟩

/-- **No ring is opened out of range**: a closed one has several vertices. -/
theorem openRingAt?_eq (vertices : List (Coord α)) :
    openRingAt? tol vertices = some (openRing tol vertices) := by
  unfold openRingAt? openRing
  split
  · rename_i hclosed
    have hlength := (isClosed_iff.1 hclosed).1
    refine frontAt?_eq_some_iff.2 ?_
    rintro rfl
    cases hlength
  · rfl

/-- **No area faults.** -/
theorem signedAreaAt?_eq (vertices : List (Coord α)) :
    signedAreaAt? tol vertices = some (signedArea tol vertices) := by
  rw [signedAreaAt?, openRingAt?_eq]
  simp only [Option.bind_eq_bind, Option.bind_some, edgesAt?_eq]
  rfl

/-- **No centroid faults.** -/
theorem centroidAt?_eq (vertices : List (Coord α)) :
    centroidAt? tol vertices = some (centroid? tol vertices) := by
  rw [centroidAt?, openRingAt?_eq, centroid?]
  simp only [Option.bind_eq_bind, Option.bind_some, edgesAt?_eq]
  cases openRing tol vertices with
  | nil => rfl
  | cons first rest =>
    rw [List.length_cons, if_neg (Nat.succ_ne_zero _)]
    simp only
    split <;> rfl

end Ring

/-! ## Chords by position -/

namespace Line

variable [Scalar α]

/-- The ends of a chord by position: the first and the last of the distinct positions, of which
there are several, once they are sorted. -/
def chordAt? (sort : List (Coord α) → List (Coord α)) (tol : Tolerance α) (w : Window α)
    (p : Coord α) (course : Course α) : Option (Except ConstructionError (Coord α × Coord α)) :=
  match course.direction tol p with
  | .error e => some (.error e)
  | .ok v =>
    if tol.negligible v.x then
      if w.spansX p.x then some (.ok (⟨p.x, w.minY⟩, ⟨p.x, w.maxY⟩))
      else some (.error (.degenerateLine .missesWindow))
    else
      let slope := v.y / v.x
      let offset := p.y - slope * p.x
      let unique := distinct tol (crossings tol w slope offset)
      if unique.length < 2 then some (.error (.degenerateLine .missesWindow))
      else do
        let sorted := sort unique
        return .ok (← sorted[0]?, ← lastAt? sorted)

/-- **No chord faults**, in whatever order its positions are put; and by position or not, it is the
same error. -/
theorem exists_chordAt?_eq {sort : List (Coord α) → List (Coord α)}
    (hsort : ∀ ps, (sort ps).Perm ps) (tol : Tolerance α) (w : Window α) (p : Coord α)
    (course : Course α) : ∃ answer, chordAt? sort tol w p course = some answer ∧
      ∀ e, answer = .error e ↔ chord tol w p course = .error e := by
  unfold chordAt? chord
  cases course.direction tol p with
  | error e => exact ⟨_, rfl, fun _ => Iff.rfl⟩
  | ok v =>
    simp only [bind, Except.bind]
    split
    · split
      · exact ⟨_, rfl, fun _ => Iff.rfl⟩
      · exact ⟨_, rfl, fun _ => Iff.rfl⟩
    · generalize distinct tol _ = unique
      match unique with
      | [] => exact ⟨_, rfl, fun _ => Iff.rfl⟩
      | [_] => exact ⟨_, rfl, fun _ => Iff.rfl⟩
      | first :: second :: rest =>
        -- as many positions as before, so there is a first and a last one
        have hlength := (hsort (first :: second :: rest)).length_eq
        have hne : sort (first :: second :: rest) ≠ [] := by
          intro hnil
          rw [hnil] at hlength
          cases hlength
        obtain ⟨a, as, hsorted⟩ := List.exists_cons_of_ne_nil hne
        obtain ⟨b, hlast⟩ : ∃ b, lastAt? (a :: as) = some b :=
          ⟨_, (lastAt?_eq _).trans (List.getLast?_eq_some_getLast (List.cons_ne_nil a as))⟩
        refine ⟨.ok (a, b), ?_, fun e => ⟨by rintro ⟨⟩, by rintro ⟨⟩⟩⟩
        rw [if_neg (by simp), hsorted, hlast]
        rfl

end Line

/-! ## Curves by position -/

namespace Curve

variable [Scalar α]

/-- The first two vertices of a curve by position. -/
def endpointsAt? (c : Curve α) : Option (Coord α × Coord α) := do
  return (← c.vertices[0]?, ← c.vertices[1]?)

/-- The vertices of a curve, of a closed one without the repeated first one, as a slice. -/
def cornersAt? (c : Curve α) : Option (List (Coord α)) :=
  if c.closed then frontAt? c.vertices else some c.vertices

/-- **The first two vertices fault exactly if there are less than two.** -/
theorem endpointsAt?_eq_some_iff {c : Curve α} :
    c.endpointsAt? = some c.endpoints ↔ 2 ≤ c.vertices.length := by
  unfold endpointsAt? endpoints
  match c.vertices with
  | [] => simp
  | [_] => simp
  | _ :: _ :: _ => simp

/-- A single vertex has no second one beside it. -/
example : (⟨[⟨3, 4⟩], false, ⟨"#000", 2, .solid⟩, none, none⟩ : Curve Nat).endpointsAt? = none := rfl

omit [Scalar α] in
/-- **The corners fault exactly if a closed curve has no vertex.** -/
theorem cornersAt?_eq_some_iff {c : Curve α} :
    c.cornersAt? = some c.corners ↔ (c.closed = true → c.vertices ≠ []) := by
  unfold cornersAt? corners
  split
  · rename_i hclosed
    rw [frontAt?_eq_some_iff]
    exact ⟨fun h _ => h, fun h => h hclosed⟩
  · rename_i hopen
    exact ⟨fun _ hclosed => absurd hclosed hopen, fun _ => rfl⟩

end Curve

/-! ## Entries by position -/

namespace Registry

/-- **The entry under a name and its position**, which is taken from the index; a name that is not
in the index has none. -/
def entryAt? (r : Registry α) (name : String) : Option (Option (Nat × String × Figure α)) :=
  match r.index[name]? with
  | none => some none
  | some i => r.entries[i]?.map fun entry => some (i, entry)

/-- The figure under a name by its position. -/
def getAt? (r : Registry α) (name : String) : Option (Option (Figure α)) :=
  (r.entryAt? name).map fun found => found.map fun entry => entry.2.2

/-- A figure changed where it stands, by its position. -/
def updateAt? (r : Registry α) (name : String) (f : Figure α → Figure α) :
    Option (Except ConstructionError (Registry α)) :=
  (r.entryAt? name).map fun
    | none => .error (.notFound name)
    | some (i, entry) => .ok { r with entries := r.entries.set! i (entry.1, f entry.2) }

/-- A figure taken to the end under a free name, by its position. -/
def renameAt? (r : Registry α) (old new : String) :
    Option (Except ConstructionError (Registry α)) :=
  match r.requireFree new with
  | .error e => some (.error e)
  | .ok _ => (r.entryAt? old).map fun
    | none => .error (.notFound old)
    | some (i, entry) =>
      let entries := (r.entries.eraseIdxIfInBounds i).push (new, entry.2.retitle old new)
      .ok ⟨entries, indexOf entries⟩

variable {r : Registry α}

/-- **No entry faults exactly if the index holds positions of entries.** -/
theorem forall_exists_entryAt?_iff :
    (∀ name, ∃ found, r.entryAt? name = some found) ↔
      ∀ (name : String) (i : Nat), r.index[name]? = some i → i < r.entries.size := by
  refine forall_congr' fun name => ?_
  unfold entryAt?
  cases r.index[name]? with
  | none => simp
  | some i =>
    constructor
    · rintro ⟨found, h⟩ j ⟨⟩
      obtain ⟨entry, hentry, -⟩ := Option.map_eq_some_iff.1 h
      exact (Array.getElem?_eq_some_iff.1 hentry).1
    · intro h
      have hentry := Array.getElem?_eq_getElem (h i rfl)
      exact ⟨_, congrArg (Option.map _) hentry⟩

/-- Looking a name up by its position is looking it up, unless it faults. -/
theorem getAt?_eq {name : String} {found : Option (Nat × String × Figure α)}
    (h : r.entryAt? name = some found) : r.getAt? name = some (r.get? name) := by
  rw [getAt?, h, get?]
  unfold entryAt? at h
  cases hi : r.index[name]? with
  | none =>
    rw [hi] at h
    cases h
    rfl
  | some i =>
    rw [hi] at h
    obtain ⟨entry, hentry, rfl⟩ := Option.map_eq_some_iff.1 h
    simp [hentry]

theorem updateAt?_eq {name : String} {found : Option (Nat × String × Figure α)}
    (h : r.entryAt? name = some found) (f : Figure α → Figure α) :
    r.updateAt? name f = some (r.update name f) := by
  rw [updateAt?, h, update]
  unfold entryAt? at h
  cases hi : r.index[name]? with
  | none =>
    rw [hi] at h
    cases h
    rfl
  | some i =>
    rw [hi] at h
    obtain ⟨entry, hentry, rfl⟩ := Option.map_eq_some_iff.1 h
    have hmodify : r.entries.modify i (fun entry => (entry.1, f entry.2)) =
        r.entries.set! i (entry.1, f entry.2) := by
      refine Array.ext_getElem? fun j => ?_
      rw [Array.getElem?_modify, Array.set!_eq_setIfInBounds, Array.getElem?_setIfInBounds]
      split
      · rename_i hij
        rw [if_pos (Array.getElem?_eq_some_iff.1 hentry).1, ← hij, hentry]
        rfl
      · rfl
    simp only [hmodify]
    rfl

theorem renameAt?_eq {old : String} {found : Option (Nat × String × Figure α)}
    (h : r.entryAt? old = some found) (new : String) :
    r.renameAt? old new = some (r.rename old new) := by
  rw [renameAt?, h, rename]
  cases r.requireFree new with
  | error e => rfl
  | ok u =>
    unfold entryAt? at h
    cases hi : r.index[old]? with
    | none =>
      rw [hi] at h
      cases h
      rfl
    | some i =>
      rw [hi] at h
      obtain ⟨entry, hentry, rfl⟩ := Option.map_eq_some_iff.1 h
      simp only [bind, Except.bind, hentry]
      rfl

/-! ## Registries without faults -/

/-- **Curves have at least two vertices, and the index holds positions of entries.** -/
structure InRange (r : Registry α) : Prop where
  /-- Every curve has at least two vertices. -/
  two_le_length : ∀ name c, (name, .curve c) ∈ r.toList → 2 ≤ c.vertices.length
  /-- Every position in the index is that of an entry. -/
  index_lt : ∀ (name : String) (i : Nat), r.index[name]? = some i → i < r.entries.size

variable [Scalar α]

/-- **Nothing that is accessed through a registry faults.** -/
structure Faultless (r : Registry α) : Prop where
  /-- Every curve has its first two vertices. -/
  endpoints : ∀ name c, (name, .curve c) ∈ r.toList → c.endpointsAt? = some c.endpoints
  /-- Every curve has its corners. -/
  corners : ∀ name c, (name, .curve c) ∈ r.toList → c.cornersAt? = some c.corners
  /-- Every name can be looked up. -/
  get : ∀ name, r.getAt? name = some (r.get? name)
  /-- Every figure can be changed where it stands. -/
  update : ∀ name f, r.updateAt? name f = some (r.update name f)
  /-- Every figure can be renamed. -/
  rename : ∀ old new, r.renameAt? old new = some (r.rename old new)

/-- **Nothing faults exactly if vertices and positions are in range.** -/
theorem faultless_iff : r.Faultless ↔ r.InRange := by
  constructor
  · intro h
    refine ⟨fun name c hc => Curve.endpointsAt?_eq_some_iff.1 (h.endpoints name c hc), ?_⟩
    refine forall_exists_entryAt?_iff.1 fun name => ?_
    obtain ⟨found, hfound, -⟩ := Option.map_eq_some_iff.1 (h.get name)
    exact ⟨found, hfound⟩
  · intro h
    have hentry := forall_exists_entryAt?_iff.2 h.index_lt
    refine ⟨fun name c hc => Curve.endpointsAt?_eq_some_iff.2 (h.two_le_length name c hc),
      fun name c hc => Curve.cornersAt?_eq_some_iff.2 fun _ => ?_, fun name => ?_,
      fun name f => ?_, fun old new => ?_⟩
    · have hlength := h.two_le_length name c hc
      exact List.ne_nil_of_length_pos (by omega)
    · obtain ⟨found, hfound⟩ := hentry name
      exact getAt?_eq hfound
    · obtain ⟨found, hfound⟩ := hentry name
      exact updateAt?_eq hfound f
    · obtain ⟨found, hfound⟩ := hentry old
      exact renameAt?_eq hfound new

end Registry

/-! ## Figures with two vertices -/

namespace Figure

/-- **A curve has at least two vertices.** -/
def TwoVertices : Figure α → Prop
  | .curve c => 2 ≤ c.vertices.length
  | _ => True

variable {figure : Figure α}

@[simp] theorem twoVertices_retitle (old new : String) :
    (figure.retitle old new).TwoVertices ↔ figure.TwoVertices := by
  cases figure <;> rfl

@[simp] theorem twoVertices_recolor (color : String) :
    (figure.recolor color).TwoVertices ↔ figure.TwoVertices := by
  cases figure <;> rfl

variable [Scalar α]

/-- A map keeps the number of vertices. -/
@[simp] theorem twoVertices_map (f : Affine α) :
    (figure.map f).TwoVertices ↔ figure.TwoVertices := by
  cases figure with
  | point _ => rfl
  | label _ => rfl
  | curve c => simp [Figure.map, TwoVertices]

end Figure

variable [Scalar α]

/-- Closing a ring takes no vertex away. -/
theorem Ring.length_le_close (tol : Tolerance α) (vertices : List (Coord α)) :
    vertices.length ≤ (Ring.close tol vertices).length := by
  cases vertices with
  | nil => exact Nat.le_refl _
  | cons first rest =>
    rw [Ring.close]
    split
    · exact Nat.le_refl _
    · simp

variable [Numeral α]

namespace Session

/-- The curves that an operation adds have at least two vertices, if those have that it copies. -/
theorem Drawn.twoVertices {s : Session α} (hs : s.registry.Indexed)
    (h : s.registry.Each fun _ figure => figure.TwoVertices) {op : Operation α} {name : String}
    {figure : Figure α} (hdrawn : s.Drawn op name figure) : figure.TwoVertices := by
  cases hdrawn with
  | marker _ => trivial
  | label _ => trivial
  | ruler hcurve =>
    obtain ⟨hvertices, rfl⟩ := Curve.polyline_eq_ok_iff.1 hcurve
    exact (Curve.requireVertices_eq_ok_iff.1 hvertices).1
  | polyline hcurve =>
    obtain ⟨hvertices, rfl⟩ := Curve.polyline_eq_ok_iff.1 hcurve
    exact (Curve.requireVertices_eq_ok_iff.1 hvertices).1
  | ring hcurve =>
    obtain ⟨hvertices, rfl⟩ := Curve.ring_eq_ok_iff.1 hcurve
    exact Nat.le_trans (Curve.requireVertices_eq_ok_iff.1 hvertices).1 (Ring.length_le_close _ _)
  | copy hmotion hfind _ =>
    rw [Figure.twoVertices_retitle, Figure.twoVertices_map]
    exact h.find hs hfind

/-- **A run of planned changes keeps curves to two vertices**, wherever it is broken off. -/
theorem twoVertices_enact {s : Session α} (hs : s.registry.Indexed)
    (h : s.registry.Each fun _ figure => figure.TwoVertices) {op : Operation α} {plan : Plan α}
    (hplan : op.plan s = .ok plan) {made later : List (Change α)}
    (hmade : plan.changes = made ++ later) :
    (s.enact made).2.registry.Each fun _ figure => figure.TwoVertices := by
  have hbrings := h.brings hs (fun _ _ _ => (Figure.twoVertices_recolor _).2) hplan
    (fun _ _ _ hdrawn => hdrawn.twoVertices hs h)
    (fun _ _ _ _ hfind => (Figure.twoVertices_map _).2 (h.find hs hfind))
  refine h.enact hs (fun _ _ _ => (Figure.twoVertices_retitle _ _).2) fun c hc => ?_
  exact hbrings c (hmade ▸ List.mem_append_left later hc)

/-- In every session that operations lead to, curves have at least two vertices. -/
theorem Reachable.twoVertices {s : Session α} (hs : s.Reachable) :
    s.registry.Each fun _ figure => figure.TwoVertices := by
  induction hs with
  | new settings => exact Registry.each_empty
  | @perform s hs op ih =>
    cases hplan : op.plan s with
    | error e =>
      rw [perform_of_error hplan]
      exact ih
    | ok plan =>
      rw [perform_of_ok hplan]
      exact twoVertices_enact hs.indexed ih hplan (List.append_nil _).symm

omit [Scalar α] [Numeral α] in
/-- With a right index and two vertices for every curve, all is in range. -/
theorem inRange_of_indexed {r : Registry α} (hr : r.Indexed)
    (h : r.Each fun _ figure => figure.TwoVertices) : r.InRange where
  two_le_length name c hc := h (name, .curve c) hc
  index_lt name i hi := by
    obtain ⟨figure, hentry, -⟩ := hr.exists_entry hi
    have hlt := (List.getElem?_eq_some_iff.1 hentry).1
    rwa [Registry.toList, Array.length_toList] at hlt

/-- **No access is out of range.** With any settings, after any operations, between the changes of
an operation, after any commands of a script and after the evaluation of any source, curves have at
least two vertices and the index holds positions of entries, so that no access through the registry
faults. Rings and chords are accessed in range whatever their vertices are. -/
theorem inRange_throughout (settings : Settings α) (ops : List (Operation α)) :
    let s := (new settings).after ops
    (s.registry.InRange ∧ s.registry.Faultless) ∧
    (∀ (op : Operation α) plan made later, op.plan s = .ok plan → plan.changes = made ++ later →
      (s.enact made).2.registry.InRange ∧ (s.enact made).2.registry.Faultless) ∧
    (∀ bindings commands, (Script.run s bindings commands).session.registry.InRange ∧
      (Script.run s bindings commands).session.registry.Faultless) ∧
    (∀ source limits, (s.evaluate source limits).2.registry.InRange ∧
      (s.evaluate source limits).2.registry.Faultless) ∧
    (∀ tol (vertices : List (Coord α)),
      Ring.openRingAt? tol vertices = some (Ring.openRing tol vertices) ∧
      Ring.edgesAt? vertices = some (Ring.edges vertices) ∧
      Ring.signedAreaAt? tol vertices = some (Ring.signedArea tol vertices) ∧
      Ring.centroidAt? tol vertices = some (Ring.centroid? tol vertices)) ∧
    ∀ sort : List (Coord α) → List (Coord α), (∀ ps, (sort ps).Perm ps) →
      ∀ tol w p course, ∃ answer, Line.chordAt? sort tol w p course = some answer ∧
        ∀ e, answer = .error e ↔ Line.chord tol w p course = .error e := by
  intro s
  have hs : s.Reachable := (Reachable.new settings).after ops
  have hfaultless {r : Registry α} (hr : r.Indexed)
      (h : r.Each fun _ figure => figure.TwoVertices) : r.InRange ∧ r.Faultless :=
    ⟨inRange_of_indexed hr h, Registry.faultless_iff.2 (inRange_of_indexed hr h)⟩
  have hreachable {t : Session α} (ht : t.Reachable) : t.registry.InRange ∧ t.registry.Faultless :=
    hfaultless ht.indexed ht.twoVertices
  refine ⟨hreachable hs, fun op plan made later hplan hmade => ?_, fun bindings commands => ?_,
    fun source limits => ?_, fun tol vertices => ?_, fun sort hsort => ?_⟩
  · refine hfaultless ?_ (twoVertices_enact hs.indexed hs.twoVertices hplan hmade)
    exact enact_induction (fun _ _ _ h hc => indexed_change h hc) hs.indexed made
  · obtain ⟨more, hmore⟩ := Script.exists_run_session s bindings commands
    rw [hmore]
    exact hreachable (hs.after more)
  · obtain ⟨more, hmore⟩ := exists_evaluate_session s source limits
    rw [hmore]
    exact hreachable ((Reachable.reset s).after more)
  · exact ⟨Ring.openRingAt?_eq vertices, Ring.edgesAt?_eq vertices, Ring.signedAreaAt?_eq vertices,
      Ring.centroidAt?_eq vertices⟩
  · exact Line.exists_chordAt?_eq hsort

end Session

end Straightedge
