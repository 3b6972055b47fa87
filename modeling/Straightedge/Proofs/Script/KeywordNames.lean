import Mathlib.Data.List.Basic
import Straightedge.Binary64
import Straightedge.Proofs.Script.Calls
import Straightedge.Proofs.Session.Footprint

/-! # Names by keyword and by position

A name may be given by keyword or as a last quoted argument. Where a verb takes a name both ways ask
for the same operation: the quoted argument adds to the count of arguments, by which a verb tells
its forms apart, but each form has room for it where it would look for the name. A verb that takes
no name does not notice one that is given by keyword.

* **`Verb.takesName`**: the verbs that take a name.
* **`Call.positional`**: a call with its keyword name as a last argument.
* **`Call.operation_positional`**: such a call asks for the same operation.
* **`attempt_positional_name`**: so do the two spellings of a command.
* **`attempt_keyword_name`**: what becomes of a name by keyword. -/

namespace Straightedge.Script

variable {α : Type}

/-- **The verbs that take a name** for what they make. -/
def Verb.takesName : Verb → Bool
  | .distance => false
  | .color => false
  | .rename => false
  | .title => false
  | .axisLimits => false
  | .showAxes => false
  | _ => true

/-- **The names of what a verb makes** under a name: an angle is an arc and a label. -/
def Verb.namesFor (name : String) : Verb → List String
  | .angle => [Session.arcName name, Session.angleLabelName name]
  | _ => [name]

namespace Call

/-- The call with its keyword name as a last quoted argument. -/
def positional (c : Call α) (key : String) : Call α := ⟨c.items ++ [.quoted key], none⟩

/-! ## Reading arguments -/

section

variable {c : Call α} {key : String} {i : Nat}

theorem size_positional : (c.positional key).size = c.size + 1 := by
  simp [positional, size]

theorem requireCount_positional {least most : Nat} (h : least ≤ c.size + 1 ∧ c.size + 1 ≤ most) :
    (c.positional key).requireCount least most = .ok () :=
  requireCount_eq_ok_iff.2 (size_positional.symm ▸ h)

theorem requireLast_positional (h : c.size ≤ i) : (c.positional key).requireLast i = .ok () :=
  requireLast_eq_ok_iff.2 (size_positional.symm ▸ Nat.succ_le_succ h)

/-- An argument that is there stays where it is. -/
theorem items_positional {arg : Arg α} (h : c.items[i]? = some arg) :
    (c.positional key).items[i]? = some arg := by
  rw [positional, List.getElem?_append_left (List.getElem?_eq_some_iff.1 h).1, h]

/-- Behind the other arguments stands the name. -/
theorem items_size_positional : (c.positional key).items[c.size]? = some (.quoted key) :=
  List.getElem?_concat_length

/-- An argument of the call with its name in place is one of the call, or the name. -/
theorem items_of_positional {arg : Arg α} (h : (c.positional key).items[i]? = some arg) :
    c.items[i]? = some arg ∨ arg = .quoted key := by
  rcases Nat.lt_trichotomy i c.size with hi | rfl | hi
  · exact .inl ((List.getElem?_append_left hi).symm.trans h)
  · exact .inr (Option.some.inj (h.symm.trans items_size_positional))
  · have hlt : i < (c.positional key).size := (List.getElem?_eq_some_iff.1 h).1
    rw [size_positional] at hlt
    omega

theorem reference_positional {r : Reference α} (h : c.reference i = .ok r) :
    (c.positional key).reference i = .ok r := by
  obtain ⟨arg, harg, hr⟩ := reference_eq_ok_iff.1 h
  exact reference_eq_ok_iff.2 ⟨arg, items_positional harg, hr⟩

theorem number_positional {x : α} (h : c.number i = .ok x) :
    (c.positional key).number i = .ok x :=
  number_eq_ok_iff.2 (items_positional (number_eq_ok_iff.1 h))

theorem count_positional [Scalar α] {n : Nat} (h : c.count i = .ok n) :
    (c.positional key).count i = .ok n := by
  obtain ⟨x, hx, hn⟩ := count_eq_ok_iff.1 h
  exact count_eq_ok_iff.2 ⟨x, number_positional hx, hn⟩

theorem word_positional {w : String} (h : c.word i = .ok w) :
    (c.positional key).word i = .ok w :=
  word_eq_ok_iff.2 ((word_eq_ok_iff.1 h).imp items_positional items_positional)

theorem text_positional [Scalar α] [Numeral α] {t : String} (h : c.text i = .ok t) :
    (c.positional key).text i = .ok t := by
  rcases text_eq_ok_iff.1 h with hw | ⟨x, hx, ht⟩
  · exact text_eq_ok_iff.2 (.inl (word_positional hw))
  · exact text_eq_ok_iff.2 (.inr ⟨x, number_positional hx, ht⟩)

/-- An argument that is read is among the arguments. -/
theorem lt_size_of_reference {r : Reference α} (h : c.reference i = .ok r) : i < c.size := by
  obtain ⟨_, harg, -⟩ := reference_eq_ok_iff.1 h
  exact (List.getElem?_eq_some_iff.1 harg).1

theorem lt_size_of_number {x : α} (h : c.number i = .ok x) : i < c.size :=
  (List.getElem?_eq_some_iff.1 (number_eq_ok_iff.1 h)).1

/-- **The name is found behind the other arguments.** A call with a keyword name has no argument
where it would look for a name, so there is room for the quoted one. -/
theorem nameAt_positional {name : Option String} (hkey : c.keyName = some key)
    (h : c.nameAt i = .ok name) (hi : i ≤ c.size) :
    c.size = i ∧ name = some key ∧ (c.positional key).nameAt i = .ok name := by
  obtain ⟨hsize, rfl⟩ := (nameAt_eq_ok_iff_of_some hkey).1 h
  have heq : c.size = i := Nat.le_antisymm hsize hi
  have hword : (c.positional key).word i = .ok key :=
    word_eq_ok_iff.2 (.inl (heq ▸ items_size_positional))
  refine ⟨heq, rfl, ?_⟩
  show (if i < (c.positional key).size then _ else _) = _
  rw [if_pos (by rw [size_positional]; omega), hword]
  rfl

end

/-! ## Forms with a fixed place for the name -/

section

variable {c : Call α} {key : String} {op : Operation α} (hkey : c.keyName = some key)

include hkey

theorem onTwo_positional {make : Reference α → Reference α → Option String → Operation α}
    (hmake : ∀ a b name, (make a b name).newNames = name.toList) (h : c.onTwo make = .ok op) :
    (c.positional key).onTwo make = .ok op ∧ op.newNames = [key] := by
  simp only [onTwo, bind_eq_ok_iff, pure_eq_ok_iff] at h ⊢
  obtain ⟨_, -, name, hname, a, ha, b, hb, rfl⟩ := h
  obtain ⟨hsize, rfl, hname'⟩ := nameAt_positional hkey hname (lt_size_of_reference hb)
  exact ⟨⟨(), requireCount_positional (by omega), _, hname', a, reference_positional ha, b,
    reference_positional hb, rfl⟩, hmake _ _ _⟩

theorem point_positional (h : c.point = .ok op) :
    (c.positional key).point = .ok op ∧ op.newNames = [key] := by
  simp only [point, bind_eq_ok_iff] at h ⊢
  obtain ⟨_, -, first, hfirst, h⟩ := h
  have hfirst' : (c.positional key).argument 0 = .ok first :=
    argument_eq_ok_iff.2 (items_positional (argument_eq_ok_iff.1 hfirst))
  have hpos : 0 < c.size := (List.getElem?_eq_some_iff.1 (argument_eq_ok_iff.1 hfirst)).1
  -- two numbers, or a pair of them
  split at h
  · simp only [bind_eq_ok_iff, pure_eq_ok_iff] at h
    obtain ⟨y, hy, _, -, name, hname, rfl⟩ := h
    obtain ⟨hsize, rfl, hname'⟩ := nameAt_positional hkey hname (lt_size_of_number hy)
    refine ⟨⟨(), requireCount_positional (by omega), _, hfirst', ?_⟩, rfl⟩
    simp only [bind_eq_ok_iff, pure_eq_ok_iff]
    exact ⟨y, number_positional hy, (), requireLast_positional (by omega),
      _, hname', rfl⟩
  · simp only [bind_eq_ok_iff, pure_eq_ok_iff] at h
    obtain ⟨_, -, name, hname, rfl⟩ := h
    obtain ⟨hsize, rfl, hname'⟩ := nameAt_positional hkey hname hpos
    refine ⟨⟨(), requireCount_positional (by omega), _, hfirst', ?_⟩, rfl⟩
    simp only [bind_eq_ok_iff, pure_eq_ok_iff]
    exact ⟨(), requireLast_positional (by omega), _, hname', rfl⟩
  · exact absurd h throw_ne_ok

theorem vector_positional (h : c.vector = .ok op) :
    (c.positional key).vector = .ok op ∧ op.newNames = [key] := by
  simp only [vector, bind_eq_ok_iff] at h ⊢
  obtain ⟨_, -, h⟩ := h
  -- an end, an end and a name, or a start and an end
  split at h
  · rename_i end' hitems
    simp only [bind_eq_ok_iff, pure_eq_ok_iff] at h
    obtain ⟨b, hb, rfl⟩ := h
    have hsize : c.size = 1 := by rw [size, hitems]; rfl
    have hname : c.nameAt 1 = .ok (some key) :=
      (nameAt_eq_ok_iff_of_some hkey).2 ⟨Nat.le_of_eq hsize, rfl⟩
    obtain ⟨-, -, hname'⟩ := nameAt_positional hkey hname (Nat.le_of_eq hsize.symm)
    refine ⟨⟨(), requireCount_positional (by omega), ?_⟩,
      congrArg Option.toList hkey⟩
    have hitems' : (c.positional key).items = [end', .quoted key] := by rw [positional, hitems]; rfl
    rw [hitems']
    simp only [bind_eq_ok_iff, pure_eq_ok_iff]
    exact ⟨_, hname', b, reference_positional hb, by rw [hkey]⟩
  · rename_i hitems
    simp only [bind_eq_ok_iff] at h
    obtain ⟨name, hname, -⟩ := h
    -- there is no room for a second name
    have hsize : c.size = 2 := by rw [size, hitems]; rfl
    have hle := ((nameAt_eq_ok_iff_of_some hkey).1 hname).1
    omega
  · simp only [bind_eq_ok_iff, pure_eq_ok_iff] at h
    obtain ⟨name, hname, a, ha, b, hb, rfl⟩ := h
    obtain ⟨hsize, rfl, hname'⟩ := nameAt_positional hkey hname (lt_size_of_reference hb)
    refine ⟨⟨(), requireCount_positional (by omega), ?_⟩, rfl⟩
    obtain ⟨x, y, hitems⟩ := List.length_eq_two.1 hsize
    have hitems' : (c.positional key).items = [x, y, .quoted key] := by rw [positional, hitems]; rfl
    rw [hitems']
    simp only [bind_eq_ok_iff, pure_eq_ok_iff]
    exact ⟨_, hname', a, reference_positional ha, b, reference_positional hb, rfl⟩

/-! ## References up to a name -/

omit hkey in
theorem flatten_positional (key : String) {i : Nat} {arg : Arg α} {refs : List (Reference α)}
    (h : c.flatten i arg = .ok refs) : (c.positional key).flatten i arg = .ok refs := by
  refine mapM_eq_ok_of_forall (fun item r hr => ?_) h
  cases hitem : toReference? item with
  | some r' => simpa only [hitem] using hr
  | none => simp [hitem] at hr

omit hkey in
/-- The references of the call are followed by its name. -/
theorem references_positional {refs : List (Reference α)} (h : c.references = .ok refs) :
    (c.positional key).references = .ok (refs ++ [.name key]) := by
  simp only [references, bind_eq_ok_iff, pure_eq_ok_iff] at h ⊢
  obtain ⟨parts, hparts, rfl⟩ := h
  refine ⟨parts ++ [[.name key]], ?_, by simp⟩
  have hfront := mapM_eq_ok_of_forall
    (fun _ _ hpart => flatten_positional key hpart) hparts
  rw [show (c.positional key).items = c.items ++ [.quoted key] from rfl, List.zipIdx_append,
    List.mapM_append, hfront]
  rfl

theorem referencesAndName_positional {refs : List (Reference α)} {name : Option String}
    (h : c.referencesAndName = .ok (refs, name)) :
    (c.positional key).referencesAndName = .ok (refs, name) ∧ name = some key := by
  unfold referencesAndName at h
  split at h
  · -- a quoted text at the end would be a second name
    rw [hkey] at h
    cases h
  · simp only [bind_eq_ok_iff, pure_eq_ok_iff, hkey] at h
    obtain ⟨all, hall, heq⟩ := h
    cases heq
    refine ⟨?_, rfl⟩
    have hlast : (c.positional key).items.getLast? = some (.quoted key) := List.getLast?_concat
    unfold referencesAndName
    rw [hlast]
    simp only [references_positional hall]
    exact congrArg (fun refs => Except.ok (refs, some key)) List.dropLast_concat

/-! ## Polygons, circles and ellipses -/

variable [Scalar α]

theorem regularPolygon_positional (h : c.regularPolygon = .ok op) :
    (c.positional key).regularPolygon = .ok op ∧ op.newNames = [key] := by
  simp only [regularPolygon_eq, bind_eq_ok_iff, pure_eq_ok_iff] at h ⊢
  obtain ⟨_, -, direction, hdirection, _, -, name, hname, a, ha, v, hv, n, hn, rfl⟩ := h
  obtain ⟨x, hx, -⟩ := count_eq_ok_iff.1 hn
  have hthree : 3 ≤ c.size := lt_size_of_number hx
  -- the name takes the place of a direction, but it does not look like one
  have hplace : regularPolygonPlace direction ≤ c.size ∧
      (c.positional key).direction = .ok direction := by
    cases direction with
    | none =>
      have hsize : c.size = 3 :=
        Nat.le_antisymm ((nameAt_eq_ok_iff_of_some hkey).1 hname).1 hthree
      have hquoted : (c.positional key).argument? 3 = some (.quoted key) :=
        hsize ▸ items_size_positional
      refine ⟨hthree, ?_⟩
      unfold direction
      rw [hquoted]
      rfl
    | some d =>
      have hd := reference_of_direction hdirection
      obtain ⟨arg, harg, -⟩ := reference_eq_ok_iff.1 hd
      refine ⟨lt_size_of_reference hd, ?_⟩
      rw [← hdirection]
      unfold direction argument?
      rw [harg, items_positional harg, hd, reference_positional hd]
  obtain ⟨hsize, rfl, hname'⟩ := nameAt_positional hkey hname hplace.1
  have hfour : regularPolygonPlace direction ≤ 4 := by
    unfold regularPolygonPlace
    split <;> omega
  exact ⟨⟨(), requireCount_positional (by omega), direction, hplace.2,
    (), requireLast_positional (by omega), _, hname',
    a, reference_positional ha, v, reference_positional hv, n, count_positional hn, rfl⟩, rfl⟩

theorem polygon_positional (h : c.polygon = .ok op) :
    (c.positional key).polygon = .ok op ∧ op.newNames = [key] := by
  unfold polygon at h ⊢
  split at h
  · rename_i x hx
    rw [argument?, items_positional hx]
    exact regularPolygon_positional hkey h
  · rename_i hnumber
    simp only [bind_eq_ok_iff, pure_eq_ok_iff] at h
    obtain ⟨⟨refs, name⟩, hrefs, rfl⟩ := h
    obtain ⟨hrefs', rfl⟩ := referencesAndName_positional hkey hrefs
    refine ⟨?_, rfl⟩
    split
    · -- the name is no number either
      rename_i x hx
      rcases items_of_positional hx with hx | hx
      · exact absurd hx (hnumber x)
      · cases hx
    · rw [hrefs']
      rfl

omit hkey [Scalar α] in
theorem circleSize_positional {r : Registry α} {size : CircleSize α}
    (h : c.circleSize r = .ok size) : (c.positional key).circleSize r = .ok size := by
  simp only [circleSize, bind_eq_ok_iff, argument_eq_ok_iff] at h ⊢
  obtain ⟨second, hsecond, h⟩ := h
  refine ⟨second, items_positional hsecond, ?_⟩
  split at h
  · exact h
  · exact h
  · exact h
  · exact h
  · exact absurd h throw_ne_ok

theorem ellipse_positional (h : c.ellipse = .ok op) :
    (c.positional key).ellipse = .ok op ∧ op.newNames = [key] := by
  simp only [ellipse, bind_eq_ok_iff] at h ⊢
  obtain ⟨_, -, h⟩ := h
  -- with and without a rotation
  split at h
  · rename_i rotation hrotation
    simp only [pure_eq_ok_iff] at h
    obtain ⟨_, -, name, hname, a, ha, rx, hrx, ry, hry, rfl⟩ := h
    have hfour : 4 ≤ c.size := (List.getElem?_eq_some_iff.1 hrotation).1
    obtain ⟨hsize, rfl, hname'⟩ := nameAt_positional hkey hname hfour
    have hrotation' : (c.positional key).argument? 3 = some (.number rotation) :=
      items_positional hrotation
    refine ⟨⟨(), requireCount_positional (by omega), ?_⟩, rfl⟩
    rw [hrotation']
    simp only [pure_eq_ok_iff]
    exact ⟨(), requireLast_positional (by omega), _, hname', a,
      reference_positional ha, rx, number_positional hrx, ry, number_positional hry, rfl⟩
  · simp only [pure_eq_ok_iff] at h
    obtain ⟨_, -, name, hname, a, ha, rx, hrx, ry, hry, rfl⟩ := h
    obtain ⟨hsize, rfl, hname'⟩ := nameAt_positional hkey hname (lt_size_of_number hry)
    have hquoted : (c.positional key).argument? 3 = some (.quoted key) :=
      hsize ▸ items_size_positional
    refine ⟨⟨(), requireCount_positional (by omega), ?_⟩, rfl⟩
    rw [hquoted]
    simp only [pure_eq_ok_iff]
    exact ⟨(), requireLast_positional (by omega), _, hname', a,
      reference_positional ha, rx, number_positional hrx, ry, number_positional hry, rfl⟩

omit hkey [Scalar α] in
/-- Whether a radius is given does not depend on the name, if there are two arguments. -/
theorem hasRadius_positional (hsize : 2 ≤ c.size) :
    (c.positional key).hasRadius = c.hasRadius := by
  have hsecond := List.getElem?_eq_getElem (l := c.items) (i := 1) hsize
  rw [hasRadius, hasRadius, argument?, argument?, hsecond, items_positional hsecond]

omit hkey [Scalar α] in
/-- Three points and a name are four arguments; two arguments and a name are no three points. -/
theorem hasThreePoints_positional {r : Registry α}
    (hsize : c.size = if c.hasThreePoints r then 3 else 2) :
    (c.positional key).hasThreePoints r = c.hasThreePoints r := by
  cases hpoints : c.hasThreePoints r with
  | true =>
    rw [hpoints, if_pos rfl] at hsize
    obtain ⟨x, y, z, hitems⟩ := List.length_eq_three.1 hsize
    rw [hasThreePoints, positional, hitems]
    rfl
  | false =>
    rw [hpoints, if_neg Bool.false_ne_true] at hsize
    obtain ⟨x, y, hitems⟩ := List.length_eq_two.1 hsize
    rw [hasThreePoints, positional, hitems]
    rfl

omit [Scalar α] in
theorem circle_positional {r : Registry α} (h : c.circle r = .ok op) :
    (c.positional key).circle r = .ok op ∧ op.newNames = [key] := by
  simp only [circle, bind_eq_ok_iff] at h ⊢
  obtain ⟨_, hcount, h⟩ := h
  have htwo : 2 ≤ c.size := (requireCount_eq_ok_iff.1 hcount).1
  rw [hasRadius_positional htwo]
  cases hradius : c.hasRadius with
  | true =>
    simp only [hradius, Bool.not_true, Bool.false_and, Bool.false_eq_true, if_true, if_false,
      bind_eq_ok_iff, pure_eq_ok_iff] at h ⊢
    obtain ⟨_, -, size, hcircle, name, hname, a, ha, rfl⟩ := h
    obtain ⟨hsize, rfl, hname'⟩ := nameAt_positional hkey hname htwo
    exact ⟨⟨(), requireCount_positional (by omega), (),
      requireLast_positional (by omega), size, circleSize_positional hcircle,
      _, hname', a, reference_positional ha, rfl⟩, rfl⟩
  | false =>
    cases hpoints : c.hasThreePoints r with
    | true =>
      simp only [hradius, hpoints, Bool.not_false, Bool.and_self, Bool.false_eq_true, if_true,
        if_false, bind_eq_ok_iff, pure_eq_ok_iff] at h
      obtain ⟨name, hname, a, ha, b, hb, d, hd, rfl⟩ := h
      obtain ⟨hsize, rfl, hname'⟩ := nameAt_positional hkey hname (lt_size_of_reference hd)
      have hpoints' : (c.positional key).hasThreePoints r = true := by
        rw [hasThreePoints_positional (by rw [hpoints, hsize]; rfl), hpoints]
      simp only [hpoints', Bool.not_false, Bool.and_self, Bool.false_eq_true, if_true, if_false,
        bind_eq_ok_iff, pure_eq_ok_iff]
      exact ⟨⟨(), requireCount_positional (by omega), _, hname', a,
        reference_positional ha, b, reference_positional hb, d, reference_positional hd, rfl⟩, rfl⟩
    | false =>
      simp only [hradius, hpoints, Bool.and_false, Bool.false_eq_true, if_false, bind_eq_ok_iff,
        pure_eq_ok_iff] at h
      obtain ⟨size, hcircle, name, hname, a, ha, rfl⟩ := h
      obtain ⟨hsize, rfl, hname'⟩ := nameAt_positional hkey hname htwo
      have hpoints' : (c.positional key).hasThreePoints r = false := by
        rw [hasThreePoints_positional (by rw [hpoints, hsize]; rfl), hpoints]
      simp only [hpoints', Bool.and_false, Bool.false_eq_true, if_false, bind_eq_ok_iff,
        pure_eq_ok_iff]
      exact ⟨⟨(), requireCount_positional (by omega), size,
        circleSize_positional hcircle, _, hname', a, reference_positional ha, rfl⟩, rfl⟩

/-! ## The other verbs -/

variable [Numeral α] {r : Registry α}

theorem operationMidpoint_positional (h : c.operation r .midpoint = .ok op) :
    (c.positional key).operation r .midpoint = .ok op ∧
      op.newNames = Verb.midpoint.namesFor key := by
  simp only [operation, bind_eq_ok_iff, pure_eq_ok_iff] at h ⊢
  obtain ⟨⟨refs, name⟩, hrefs, rfl⟩ := h
  obtain ⟨hrefs', rfl⟩ := referencesAndName_positional hkey hrefs
  exact ⟨⟨_, hrefs', rfl⟩, rfl⟩

theorem operationAngle_positional (h : c.operation r .angle = .ok op) :
    (c.positional key).operation r .angle = .ok op ∧
      op.newNames = Verb.angle.namesFor key := by
  simp only [operation, bind_eq_ok_iff, pure_eq_ok_iff] at h ⊢
  obtain ⟨_, -, name, hname, a, ha, b, hb, d, hd, rfl⟩ := h
  obtain ⟨hsize, rfl, hname'⟩ := nameAt_positional hkey hname (lt_size_of_reference hd)
  exact ⟨⟨(), requireCount_positional (by omega), _, hname',
    a, reference_positional ha, b, reference_positional hb, d, reference_positional hd, rfl⟩, rfl⟩

theorem operationText_positional (h : c.operation r .text = .ok op) :
    (c.positional key).operation r .text = .ok op ∧
      op.newNames = Verb.text.namesFor key := by
  simp only [operation, bind_eq_ok_iff, pure_eq_ok_iff] at h ⊢
  obtain ⟨_, hcount, name, hname, a, ha, content, hcontent, rfl⟩ := h
  obtain ⟨hsize, rfl, hname'⟩ :=
    nameAt_positional hkey hname (requireCount_eq_ok_iff.1 hcount).1
  exact ⟨⟨(), requireCount_positional (by omega), _, hname',
    a, reference_positional ha, content, text_positional hcontent, rfl⟩, rfl⟩

theorem operationTranslate_positional (h : c.operation r .translate = .ok op) :
    (c.positional key).operation r .translate = .ok op ∧
      op.newNames = Verb.translate.namesFor key := by
  simp only [operation, bind_eq_ok_iff, pure_eq_ok_iff] at h ⊢
  obtain ⟨_, hcount, name, hname, element, helement, dx, hdx, dy, hdy, rfl⟩ := h
  obtain ⟨hsize, rfl, hname'⟩ :=
    nameAt_positional hkey hname (requireCount_eq_ok_iff.1 hcount).1
  exact ⟨⟨(), requireCount_positional (by omega), _, hname', element,
    word_positional helement, dx, number_positional hdx, dy, number_positional hdy, rfl⟩, rfl⟩

theorem operationRotate_positional (h : c.operation r .rotate = .ok op) :
    (c.positional key).operation r .rotate = .ok op ∧
      op.newNames = Verb.rotate.namesFor key := by
  simp only [operation, bind_eq_ok_iff, pure_eq_ok_iff] at h ⊢
  obtain ⟨_, hcount, name, hname, element, helement, pivot, hpivot, degrees, hdegrees, rfl⟩ := h
  obtain ⟨hsize, rfl, hname'⟩ :=
    nameAt_positional hkey hname (requireCount_eq_ok_iff.1 hcount).1
  exact ⟨⟨(), requireCount_positional (by omega), _, hname', element,
    word_positional helement, pivot, reference_positional hpivot, degrees,
    number_positional hdegrees, rfl⟩, rfl⟩

theorem operationReflect_positional (h : c.operation r .reflect = .ok op) :
    (c.positional key).operation r .reflect = .ok op ∧
      op.newNames = Verb.reflect.namesFor key := by
  simp only [operation, bind_eq_ok_iff, pure_eq_ok_iff] at h ⊢
  obtain ⟨_, hcount, name, hname, element, helement, mirror, hmirror, rfl⟩ := h
  obtain ⟨hsize, rfl, hname'⟩ :=
    nameAt_positional hkey hname (requireCount_eq_ok_iff.1 hcount).1
  exact ⟨⟨(), requireCount_positional (by omega), _, hname', element,
    word_positional helement, mirror, reference_positional hmirror, rfl⟩, rfl⟩

/-! ## All verbs -/

/-- **A name by keyword and a quoted name behind the other arguments** ask for the same operation,
with that name. -/
theorem operation_positional {verb : Verb} (hverb : verb.takesName = true)
    (h : c.operation r verb = .ok op) :
    (c.positional key).operation r verb = .ok op ∧ op.newNames = verb.namesFor key := by
  cases verb
  case point => exact point_positional hkey h
  case line => exact onTwo_positional hkey (fun _ _ _ => rfl) h
  case segment => exact onTwo_positional hkey (fun _ _ _ => rfl) h
  case infiniteLine => exact onTwo_positional hkey (fun _ _ _ => rfl) h
  case vector => exact vector_positional hkey h
  case polygon => exact polygon_positional hkey h
  case regularPolygon => exact regularPolygon_positional hkey h
  case circle => exact circle_positional hkey h
  case ellipse => exact ellipse_positional hkey h
  case intersection => exact onTwo_positional hkey (fun _ _ _ => rfl) h
  case perpendicular => exact onTwo_positional hkey (fun _ _ _ => rfl) h
  case parallel => exact onTwo_positional hkey (fun _ _ _ => rfl) h
  case midpoint => exact operationMidpoint_positional hkey h
  case angle => exact operationAngle_positional hkey h
  case text => exact operationText_positional hkey h
  case translate => exact operationTranslate_positional hkey h
  case rotate => exact operationRotate_positional hkey h
  case reflect => exact operationReflect_positional hkey h
  all_goals cases hverb

end

/-! ## Names by keyword -/

variable {bindings : Bindings α}

/-- **The last keyword argument gives the name.** -/
theorem keywordName_of_getLast {kwargs : List (String × Arg α)} {start name : Option String}
    (h : keywordName bindings kwargs start = .ok name) {key : String} {arg : Arg α}
    (hlast : kwargs.getLast? = some (key, arg)) :
    isNameKey key = true ∧ ∃ text, (substitute bindings arg = .quoted text ∨
      substitute bindings arg = .word text) ∧ name = some text := by
  induction kwargs generalizing start with
  | nil => cases hlast
  | cons entry more ih =>
    obtain ⟨key', arg'⟩ := entry
    simp only [keywordName] at h
    split at h
    · rename_i hkey
      -- the first one counts if it is the last
      have hmore : ∀ text, keywordName bindings more (some text) = .ok name →
          (substitute bindings arg' = .quoted text ∨ substitute bindings arg' = .word text) →
          isNameKey key = true ∧ ∃ text, (substitute bindings arg = .quoted text ∨
            substitute bindings arg = .word text) ∧ name = some text := by
        intro text htext harg
        cases more with
        | nil =>
          cases hlast
          cases htext
          exact ⟨hkey, text, harg, rfl⟩
        | cons entry more => exact ih htext (List.getLast?_cons_cons.symm.trans hlast)
      split at h
      · exact hmore _ h (.inl ‹_›)
      · exact hmore _ h (.inr ‹_›)
      · cases h
    · cases h

/-- A name is the only keyword argument that counts. -/
theorem keywordName_single {key text : String} {arg : Arg α} (hkey : isNameKey key = true)
    (harg : substitute bindings arg = .quoted text ∨ substitute bindings arg = .word text) :
    keywordName bindings [(key, arg)] none = .ok (some text) := by
  rcases harg with harg | harg <;> simp [keywordName, hkey, harg]

theorem isNameKey_iff {key : String} : isNameKey key = true ↔ key = "name" ∨ key = "as" := by
  simp [isNameKey]

/-- More arguments are replaced one after another. -/
theorem substituteAll_append (first second : List (Arg α)) :
    substituteAll bindings (first ++ second) =
      substituteAll bindings first ++ substituteAll bindings second := by
  induction first with
  | nil => rfl
  | cons item items ih => rw [List.cons_append, substituteAll, substituteAll, ih]; rfl

theorem length_substituteAll (items : List (Arg α)) :
    (substituteAll bindings items).length = items.length := by
  induction items with
  | nil => rfl
  | cons item items ih => rw [substituteAll, List.length_cons, List.length_cons, ih]

theorem ofCommand_eq_ok_iff {command : Command α} {call : Call α} :
    ofCommand bindings command = .ok call ↔ ∃ name,
      keywordName bindings command.kwargs none = .ok name ∧
        call = ⟨substituteAll bindings command.args, name⟩ := by
  simp only [ofCommand, bind_eq_ok_iff, pure_eq_ok_iff]

/-! ## Verbs that take no name -/

variable [Scalar α] [Numeral α] {c : Call α} {verb : Verb} {op : Operation α} {r : Registry α}

/-- **A verb that takes no name does not look at it.** -/
theorem operation_eq_of_not_takesName (hverb : verb.takesName = false) (name : Option String) :
    c.operation r verb = (⟨c.items, name⟩ : Call α).operation r verb := by
  cases verb <;> first | rfl | cases hverb

omit [Scalar α] [Numeral α] in
theorem size_eq_of_requireCount {n : Nat} {next : Unit → Except Misuse (Operation α)}
    (h : (c.requireCount n n >>= next) = .ok op) : c.size = n := by
  obtain ⟨_, hcount, -⟩ := bind_eq_ok_iff.1 h
  obtain ⟨hleast, hmost⟩ := requireCount_eq_ok_iff.1 hcount
  exact Nat.le_antisymm hmost hleast

omit [Scalar α] [Numeral α] in
theorem requireCount_bind_of_lt {least most : Nat} (h : most < c.size)
    (next : Unit → Except Misuse (Operation α)) :
    (c.requireCount least most >>= next) = .error (.argumentCount least most c.size) := by
  rw [requireCount, if_pos (.inr h)]
  rfl

/-- A verb that takes no name takes one count of arguments, and refuses more. -/
theorem exists_count_of_not_takesName (r : Registry α) (hverb : verb.takesName = false) :
    ∃ count, (∀ (c : Call α) op, c.operation r verb = .ok op → c.size = count) ∧
      ∀ c : Call α, count < c.size →
        c.operation r verb = .error (.argumentCount count count c.size) := by
  -- the arguments are counted first
  obtain ⟨count, next, hop⟩ : ∃ count, ∃ next : Call α → Unit → Except Misuse (Operation α),
      ∀ c, c.operation r verb = c.requireCount count count >>= next c := by
    cases verb
    case distance => exact ⟨2, _, fun _ => rfl⟩
    case color => exact ⟨2, _, fun _ => rfl⟩
    case rename => exact ⟨2, _, fun _ => rfl⟩
    case title => exact ⟨1, _, fun _ => rfl⟩
    case axisLimits => exact ⟨4, _, fun _ => rfl⟩
    case showAxes => exact ⟨1, _, fun _ => rfl⟩
    all_goals cases hverb
  refine ⟨count, fun c op h => ?_, fun c h => ?_⟩
  · rw [hop] at h
    exact size_eq_of_requireCount h
  · rw [hop]
    exact requireCount_bind_of_lt h _

end Call

/-! ## Commands -/

section

variable [Scalar α] [Numeral α]

/-- **Keyword and positional names mean the same.** For every verb that takes a name: if a command
with a name by keyword succeeds, then so does the command with that name as a last quoted argument,
with the same value and the same session. -/
theorem attempt_positional_name {s s' : Session α} {bindings : Bindings α} {command : Command α}
    {verb : Verb} (hverb : verb.takesName = true) {key : String} (hkey : key = "name" ∨ key = "as")
    {name : String} {v : Value α}
    (h : attempt s bindings ⟨{ command with kwargs := [(key, .quoted name)] }, verb⟩ = (.ok v, s')) :
    attempt s bindings
      ⟨{ command with args := command.args ++ [.quoted name], kwargs := [] }, verb⟩ =
        (.ok v, s') := by
  obtain ⟨call, op, hcall, hop, hperform⟩ := attempt_eq_ok_iff.1 h
  have hname := Call.keywordName_single (Call.isNameKey_iff.2 hkey)
    (.inl rfl : substitute bindings (.quoted name) = .quoted name ∨ _)
  obtain ⟨_, hname', rfl⟩ := Call.ofCommand_eq_ok_iff.1 hcall
  cases hname.symm.trans hname'
  obtain ⟨hop', -⟩ := Call.operation_positional rfl hverb hop
  refine attempt_eq_ok_iff.2 ⟨_, op, Call.ofCommand_eq_ok_iff.2 ⟨none, rfl, ?_⟩, hop', hperform⟩
  rw [Call.substituteAll_append]
  rfl

/-- A point in an empty session may be called `A` by keyword. -/
theorem exists_attempt_of_named_point :
    ∃ s', attempt (.new .standard : Session Float) []
      ⟨⟨1, none, "Point", [.number 1, .number 2], [("name", .quoted "A")]⟩, .point⟩ =
        (.ok (.name "A"), s') := by
  let op : Operation Float := .point (.position ⟨1, 2⟩) (some "A")
  have hfinite : (⟨1, 2⟩ : Coord Float).isFinite = true := by decide +kernel
  have hfree : (Session.new .standard : Session Float).registry.requireFree "A" = .ok () :=
    Registry.requireFree_empty (by decide)
  have hplan := Operation.draws_point hfinite "A" (.new .standard) hfree
  obtain ⟨r, -, hperform⟩ := Session.exists_perform_addOne hplan hfree
  exact ⟨_, attempt_eq_ok_iff.2 ⟨_, op, rfl, rfl, hperform⟩⟩

/-- A point that is called `A` by keyword is called so by position. -/
theorem attempt_positional_name_of_point :
    let s : Session Float := .new .standard
    let command : Command Float := ⟨1, none, "Point", [.number 1, .number 2], []⟩
    ∃ s', attempt s [] ⟨{ command with kwargs := [("name", .quoted "A")] }, .point⟩ =
        (.ok (.name "A"), s') ∧
      attempt s [] ⟨{ command with args := command.args ++ [.quoted "A"], kwargs := [] }, .point⟩ =
        (.ok (.name "A"), s') := by
  intro s command
  obtain ⟨s', h⟩ := exists_attempt_of_named_point
  exact ⟨s', h, attempt_positional_name rfl (.inl rfl) h⟩

/-- **What becomes of a name by keyword.** On every reachable session, if a command with keyword
arguments succeeds, then the last of them is a name, and the others count for nothing. A verb that
takes a name makes figures of that name, which was free. A verb that takes none does the same as
without keyword arguments, though it refuses every further argument in place of one. -/
theorem attempt_keyword_name {s s' : Session α} (hs : s.Reachable) {bindings : Bindings α}
    {command : Command α} {verb : Verb} {key : String} {arg : Arg α}
    (hlast : command.kwargs.getLast? = some (key, arg)) {v : Value α}
    (h : attempt s bindings ⟨command, verb⟩ = (.ok v, s')) :
    (key = "name" ∨ key = "as") ∧
      attempt s bindings ⟨{ command with kwargs := [(key, arg)] }, verb⟩ = (.ok v, s') ∧
      ∃ name, (substitute bindings arg = .quoted name ∨ substitute bindings arg = .word name) ∧
        (verb.takesName = true → ∀ n ∈ verb.namesFor name,
          s.registry.get? n = none ∧ ∃ figure, s'.registry.get? n = some figure) ∧
        (verb.takesName = false →
          attempt s bindings ⟨{ command with kwargs := [] }, verb⟩ = (.ok v, s') ∧
          ∀ extra, extra ≠ [] → attempt s bindings
            ⟨{ command with args := command.args ++ extra, kwargs := [] }, verb⟩ =
              (.error ⟨command.line, .misuse verb (.argumentCount command.args.length
                command.args.length (command.args.length + extra.length))⟩, s)) := by
  obtain ⟨call, op, hcall, hop, hperform⟩ := attempt_eq_ok_iff.1 h
  obtain ⟨_, hname, rfl⟩ := Call.ofCommand_eq_ok_iff.1 hcall
  obtain ⟨hkey, name, harg, rfl⟩ := Call.keywordName_of_getLast hname hlast
  have hsingle := Call.keywordName_single hkey harg
  refine ⟨Call.isNameKey_iff.1 hkey, ?_, name, harg, fun hverb n hn => ?_, fun hverb => ⟨?_, ?_⟩⟩
  · exact attempt_eq_ok_iff.2
      ⟨_, op, Call.ofCommand_eq_ok_iff.2 ⟨_, hsingle, rfl⟩, hop, hperform⟩
  · obtain ⟨-, hnames⟩ := Call.operation_positional rfl hverb hop
    exact Session.newNames_of_perform hs hperform (hnames ▸ hn)
  · rw [Call.operation_eq_of_not_takesName hverb none] at hop
    exact attempt_eq_ok_iff.2 ⟨_, op, Call.ofCommand_eq_ok_iff.2 ⟨none, rfl, rfl⟩, hop, hperform⟩
  · intro extra hextra
    obtain ⟨count, hsize, herror⟩ := Call.exists_count_of_not_takesName s.registry hverb
    have hcount : command.args.length = count := by
      rw [← hsize _ op hop, Call.size, Call.length_substituteAll]
    let more : Call α := ⟨substituteAll bindings (command.args ++ extra), none⟩
    have hmore : more.size = command.args.length + extra.length := by
      rw [Call.size, Call.length_substituteAll, List.length_append]
    have hpos := List.length_pos_iff.2 hextra
    have hrefused := herror more (by omega)
    rw [hmore, ← hcount] at hrefused
    exact attempt_of_error hrefused

/-- A point that is called `A` by keyword is found under this name. -/
theorem attempt_keyword_name_of_point :
    ∃ s', attempt (.new .standard : Session Float) []
      ⟨⟨1, none, "Point", [.number 1, .number 2], [("name", .quoted "A")]⟩, .point⟩ =
        (.ok (.name "A"), s') ∧ ∃ figure, s'.registry.get? "A" = some figure := by
  obtain ⟨s', h⟩ := exists_attempt_of_named_point
  obtain ⟨-, -, name, hname, hnew, -⟩ := attempt_keyword_name (.new .standard) rfl h
  -- the text of the keyword argument is the name
  obtain rfl : "A" = name := by
    rcases hname with hname | hname
    · exact Arg.quoted.inj hname
    · cases hname
  exact ⟨s', h, (hnew rfl "A" (List.mem_singleton_self _)).2⟩

/-- A title is set though it is given a name, which no figure has afterwards; with the name as an
argument the title is refused. -/
theorem attempt_of_named_title :
    let s : Session Float := .new .standard
    let s' : Session Float := { s with title := "t" }
    attempt s [] ⟨⟨1, none, "Title", [.quoted "t"], [("name", .quoted "d")]⟩, .title⟩ =
        (.ok .done, s') ∧ s'.registry.get? "d" = none ∧
      attempt s [] ⟨⟨1, none, "Title", [.quoted "t", .quoted "d"], []⟩, .title⟩ =
        (.error ⟨1, .misuse .title (.argumentCount 1 1 2)⟩, s) := by
  intro s s'
  refine ⟨rfl, ?_, rfl⟩
  have hs : s'.registry.Indexed := Registry.indexed_empty
  refine Option.eq_none_iff_forall_ne_some.2 fun figure hfigure => ?_
  rw [hs.get?_eq_some_iff] at hfigure
  cases hfigure

end

end Straightedge.Script
