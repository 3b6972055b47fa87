import Straightedge.Binary64
import Straightedge.Proofs.Script.Calls
import Straightedge.Proofs.Session.FiniteArguments

/-! # Literals that are not finite

A literal of a script may be too large for a finite number. Reading a call loses no number: each one
ends up among the arguments of an operation, counts corners, or is written down as a text. So a
command refuses what its operation refuses. What is written down as a text is not checked: the
literal `1e400` as the text of a label is drawn as `inf`.

* **`ResolvedCommand.numbers`**: the numbers that a command is given, but for those of a text.
* **`Call.Passes`**: an operation that gets all numbers of a call.
* **`Call.passes_of_operation`**: every operation does, but for a text.
* **`notFinite_refused_iff`**: when operations and commands with such numbers that are not finite
  are refused. -/

namespace Straightedge.Script

variable {α : Type}

/-! ## The numbers of a command -/

mutual

/-- The numbers that an argument is written with. -/
def Arg.numbers : Arg α → List α
  | .number x => [x]
  | .pair x y => [x, y]
  | .vector dx dy => [dx, dy]
  | .list items => numbersOf items
  | .quoted _ => []
  | .word _ => []
  | .flag _ => []

/-- The numbers that arguments are written with. -/
def numbersOf : List (Arg α) → List α
  | [] => []
  | item :: items => item.numbers ++ numbersOf items

end

/-- The numbers of arguments are those of each of them. -/
theorem mem_numbersOf {items : List (Arg α)} {x : α} :
    x ∈ numbersOf items ↔ ∃ item ∈ items, x ∈ item.numbers := by
  induction items with
  | nil => simp [numbersOf]
  | cons item items ih => simp [numbersOf, ih]

/-- An argument that is not taken as a text has a place of its own. -/
theorem exists_of_mem_numbersOf_eraseIdx {items : List (Arg α)} {x : α} {i : Nat}
    (h : x ∈ numbersOf (items.eraseIdx i)) :
    ∃ j arg, j ≠ i ∧ j < items.length ∧ items[j]? = some arg ∧ x ∈ arg.numbers := by
  obtain ⟨arg, harg, hx⟩ := mem_numbersOf.1 h
  obtain ⟨j, hj, hget⟩ := List.mem_eraseIdx_iff_getElem?.1 harg
  exact ⟨j, arg, hj, (List.getElem?_eq_some_iff.1 hget).1, hget, hx⟩

/-- The arguments of a verb, but for the one that it takes as a text: there a number is written
down. -/
def Verb.valued : Verb → List (Arg α) → List (Arg α)
  | .text, items => items.eraseIdx 1
  | .color, items => items.eraseIdx 1
  | .title, items => items.eraseIdx 0
  | _, items => items

/-- **The numbers that a command is given**, in its literals and by bound words. A number in the
argument that a label, a color or a title takes as a text is none of them: it is written down,
finite or not. -/
def ResolvedCommand.numbers (bindings : Bindings α) (c : ResolvedCommand α) : List α :=
  numbersOf (c.verb.valued (substituteAll bindings c.command.args)) ++
    numbersOf (c.command.kwargs.map fun entry => substitute bindings entry.2)

namespace Call

/-- A name by keyword is no number. -/
theorem numbersOf_of_keywordName {bindings : Bindings α} {kwargs : List (String × Arg α)}
    {start name : Option String} (h : keywordName bindings kwargs start = .ok name) :
    numbersOf (kwargs.map fun entry => substitute bindings entry.2) = [] := by
  induction kwargs generalizing start with
  | nil => rfl
  | cons entry more ih =>
    obtain ⟨key, arg⟩ := entry
    simp only [keywordName] at h
    rw [List.map_cons, numbersOf, List.append_eq_nil_iff]
    dsimp only
    split at h
    · -- the keyword's argument is a quoted text or a word
      split at h
      · rename_i text htext
        rw [htext]
        exact ⟨rfl, ih h⟩
      · rename_i text htext
        rw [htext]
        exact ⟨rfl, ih h⟩
      · cases h
    · cases h

/-- The numbers that a command is given are those of its call. -/
theorem numbers_of_ofCommand {bindings : Bindings α} {c : ResolvedCommand α} {call : Call α}
    (h : ofCommand bindings c.command = .ok call) :
    c.numbers bindings = numbersOf (c.verb.valued call.items) := by
  simp only [ofCommand, bind_eq_ok_iff, pure_eq_ok_iff] at h
  obtain ⟨name, hname, rfl⟩ := h
  rw [ResolvedCommand.numbers, numbersOf_of_keywordName hname, List.append_nil]

/-! ## Reading arguments -/

variable {c : Call α} {i : Nat} {arg : Arg α}

/-- What is read as a reference has its numbers. -/
theorem numbers_of_toReference? {r : Reference α} (h : toReference? arg = some r) :
    arg.numbers = r.numbers := by
  cases arg <;> simp only [toReference?, Option.some.injEq, reduceCtorEq] at h <;> subst h <;> rfl

theorem numbers_of_reference {r : Reference α} (h : c.reference i = .ok r)
    (harg : c.items[i]? = some arg) : arg.numbers = r.numbers := by
  obtain ⟨_, harg', hr⟩ := reference_eq_ok_iff.1 h
  cases harg.symm.trans harg'
  exact numbers_of_toReference? hr

theorem numbers_of_number {x : α} (h : c.number i = .ok x) (harg : c.items[i]? = some arg) :
    arg.numbers = [x] := by
  cases harg.symm.trans (number_eq_ok_iff.1 h)
  rfl

theorem numbers_of_word {text : String} (h : c.word i = .ok text)
    (harg : c.items[i]? = some arg) : arg.numbers = [] := by
  rcases word_eq_ok_iff.1 h with hquoted | hword
  · cases harg.symm.trans hquoted
    rfl
  · cases harg.symm.trans hword
    rfl

theorem numbers_of_flag {b : Bool} (h : c.flag i = .ok b) (harg : c.items[i]? = some arg) :
    arg.numbers = [] := by
  cases harg.symm.trans (flag_eq_ok_iff.1 h)
  rfl

/-- The argument that may be a name is none or has no numbers. -/
theorem numbers_of_nameAt {name : Option String} (h : c.nameAt i = .ok name)
    (harg : c.items[i]? = some arg) : arg.numbers = [] := by
  have hlt : i < c.size := (List.getElem?_eq_some_iff.1 harg).1
  unfold nameAt at h
  split at h
  · rw [if_pos hlt] at h
    exact absurd h throw_ne_ok
  · rw [if_pos hlt] at h
    simp only [bind_eq_ok_iff] at h
    obtain ⟨text, htext, -⟩ := h
    exact numbers_of_word htext harg

/-- **The arguments from a position on have the given numbers**, as far as there are arguments. -/
def Reads (c : Call α) : Nat → List (List α) → Prop
  | _, [] => True
  | i, numbers :: more =>
    (∀ arg, c.items[i]? = some arg → arg.numbers = numbers) ∧ c.Reads (i + 1) more

/-- Every argument in reach has the numbers at its place. -/
theorem Reads.exists_mem {given : List (List α)} {start : Nat} (h : c.Reads start given)
    (hstart : start ≤ i) (hi : i < start + given.length) (harg : c.items[i]? = some arg) :
    arg.numbers ∈ given := by
  induction given generalizing start with
  | nil =>
    rw [List.length_nil] at hi
    omega
  | cons numbers given ih =>
    obtain ⟨hfirst, hmore⟩ := h
    by_cases hsame : i = start
    · subst hsame
      rw [hfirst arg harg]
      exact List.mem_cons_self
    · rw [List.length_cons] at hi
      exact List.mem_cons_of_mem _ (ih hmore (by omega) (by omega))

/-! ## Reading operations -/

variable [Scalar α]

/-- **An operation gets all numbers of a call**, but for those that count. -/
def Passes (c : Call α) (op : Operation α) : Prop :=
  ∀ x ∈ numbersOf c.items, x ∈ op.numbers ∨ ∃ n, Scalar.toCount? x = some n

variable {op : Operation α}

/-- An operation that has all given numbers gets those of a call that has no more arguments. -/
theorem passes_of_reads (given : List (List α)) (h : c.Reads 0 given)
    (hsize : c.size ≤ given.length)
    (hgiven : ∀ x ∈ given.flatten, x ∈ op.numbers ∨ ∃ n, Scalar.toCount? x = some n) :
    c.Passes op := by
  intro x hx
  obtain ⟨arg, harg, hx⟩ := mem_numbersOf.1 hx
  obtain ⟨i, hi, rfl⟩ := List.mem_iff_getElem.1 harg
  have hlength : i < 0 + given.length := by
    have hi' : i < c.size := hi
    omega
  have hmem := h.exists_mem (Nat.zero_le i) hlength (List.getElem?_eq_getElem hi)
  exact hgiven x (List.mem_flatten.2 ⟨_, hmem, hx⟩)

theorem passes_of_onTwo {make : Reference α → Reference α → Option String → Operation α}
    (hmake : ∀ a b name, (make a b name).numbers = a.numbers ++ b.numbers)
    (h : c.onTwo make = .ok op) : c.Passes op := by
  simp only [onTwo, bind_eq_ok_iff, pure_eq_ok_iff] at h
  obtain ⟨_, hcount, name, hname, a, ha, b, hb, rfl⟩ := h
  refine passes_of_reads [a.numbers, b.numbers, []]
    ⟨fun _ => numbers_of_reference ha, fun _ => numbers_of_reference hb,
      fun _ => numbers_of_nameAt hname, trivial⟩ (requireCount_eq_ok_iff.1 hcount).2 ?_
  simp +contextual [hmake]

theorem passes_of_point (h : c.point = .ok op) : c.Passes op := by
  simp only [point, bind_eq_ok_iff] at h
  obtain ⟨_, -, first, hfirst, h⟩ := h
  rw [argument_eq_ok_iff] at hfirst
  -- two numbers, or a pair of them
  split at h
  · rename_i x
    simp only [bind_eq_ok_iff, pure_eq_ok_iff] at h
    obtain ⟨y, hy, _, hlast, name, hname, rfl⟩ := h
    refine passes_of_reads [[x], [y], []] ⟨?_, fun _ => numbers_of_number hy,
      fun _ => numbers_of_nameAt hname, trivial⟩ (requireLast_eq_ok_iff.1 hlast) ?_
    · intro arg harg
      cases hfirst.symm.trans harg
      rfl
    · simp [Operation.numbers, Reference.numbers]
  · rename_i x y
    simp only [bind_eq_ok_iff, pure_eq_ok_iff] at h
    obtain ⟨_, hlast, name, hname, rfl⟩ := h
    refine passes_of_reads [[x, y], []]
      ⟨?_, fun _ => numbers_of_nameAt hname, trivial⟩ (requireLast_eq_ok_iff.1 hlast) ?_
    · intro arg harg
      cases hfirst.symm.trans harg
      rfl
    · simp [Operation.numbers, Reference.numbers]
  · exact absurd h throw_ne_ok

theorem passes_of_vector (h : c.vector = .ok op) : c.Passes op := by
  simp only [vector, bind_eq_ok_iff] at h
  obtain ⟨_, hcount, h⟩ := h
  -- an end, an end and a name, or a start and an end
  split at h
  · rename_i hitems
    simp only [bind_eq_ok_iff, pure_eq_ok_iff] at h
    obtain ⟨b, hb, rfl⟩ := h
    refine passes_of_reads [b.numbers] ⟨fun _ => numbers_of_reference hb, trivial⟩ ?_ ?_
    · rw [size, hitems]
      exact Nat.le_refl _
    · simp +contextual [Operation.numbers]
  · rename_i hitems
    simp only [bind_eq_ok_iff, pure_eq_ok_iff] at h
    obtain ⟨name, hname, b, hb, rfl⟩ := h
    refine passes_of_reads [b.numbers, []] ⟨fun _ => numbers_of_reference hb,
      fun _ => numbers_of_nameAt hname, trivial⟩ ?_ ?_
    · rw [size, hitems]
      exact Nat.le_refl _
    · simp +contextual [Operation.numbers]
  · simp only [bind_eq_ok_iff, pure_eq_ok_iff] at h
    obtain ⟨name, hname, a, ha, b, hb, rfl⟩ := h
    refine passes_of_reads [a.numbers, b.numbers, []]
      ⟨fun _ => numbers_of_reference ha, fun _ => numbers_of_reference hb,
        fun _ => numbers_of_nameAt hname, trivial⟩ (requireCount_eq_ok_iff.1 hcount).2 ?_
    simp +contextual [Operation.numbers]

/-! ## Polygons -/

/-- A regular polygon gets its direction, if it has one, in front of its name. -/
theorem passes_regularPolygon {direction : Option (Reference α)} {name : Option String}
    {a v : Reference α} {n : Nat}
    (hlast : c.requireLast (regularPolygonPlace direction) = .ok ())
    (hname : c.nameAt (regularPolygonPlace direction) = .ok name)
    (ha : c.reference 0 = .ok a) (hv : c.reference 1 = .ok v) (hn : c.count 2 = .ok n)
    (hdirection : ∀ d, direction = some d → c.reference 3 = .ok d) :
    c.Passes (.regularPolygon a v n direction name) := by
  obtain ⟨x, hx, hcount⟩ := count_eq_ok_iff.1 hn
  have hcounts : ∀ y (numbers : List α), y = x ∨ y ∈ numbers →
      y ∈ numbers ∨ ∃ n, Scalar.toCount? y = some n := by
    rintro y numbers (rfl | hy)
    · exact .inr ⟨n, hcount⟩
    · exact .inl hy
  cases direction with
  | none =>
    refine passes_of_reads [a.numbers, v.numbers, [x], []]
      ⟨fun _ => numbers_of_reference ha, fun _ => numbers_of_reference hv,
        fun _ => numbers_of_number hx, fun _ => numbers_of_nameAt hname, trivial⟩
      (requireLast_eq_ok_iff.1 hlast) ?_
    intro y hy
    refine hcounts y _ ?_
    simp only [List.flatten_cons, List.flatten_nil, List.mem_append, List.mem_singleton,
      List.append_nil] at hy
    simp only [Operation.numbers, Option.map, Option.getD, List.mem_append]
    tauto
  | some d =>
    have hd := hdirection d rfl
    refine passes_of_reads [a.numbers, v.numbers, [x], d.numbers, []]
      ⟨fun _ => numbers_of_reference ha, fun _ => numbers_of_reference hv,
        fun _ => numbers_of_number hx, fun _ => numbers_of_reference hd,
        fun _ => numbers_of_nameAt hname, trivial⟩ (requireLast_eq_ok_iff.1 hlast) ?_
    intro y hy
    refine hcounts y _ ?_
    simp only [List.flatten_cons, List.flatten_nil, List.mem_append, List.mem_singleton,
      List.append_nil] at hy
    simp only [Operation.numbers, Option.map, Option.getD, List.mem_append]
    tauto

theorem passes_of_regularPolygon (h : c.regularPolygon = .ok op) : c.Passes op := by
  simp only [regularPolygon_eq, bind_eq_ok_iff, pure_eq_ok_iff] at h
  obtain ⟨_, -, direction, hdirection, _, hlast, name, hname, a, ha, v, hv, n, hn, rfl⟩ := h
  refine passes_regularPolygon hlast hname ha hv hn fun d hd => ?_
  subst hd
  exact reference_of_direction hdirection

omit [Scalar α] in
/-- Flattening a list of arguments loses no number. -/
theorem numbers_of_mapM {items : List (Arg α)} {refs : List (Reference α)} {misuse : Misuse}
    (h : items.mapM (fun item => match toReference? item with
      | some r => Except.ok r
      | none => Except.error misuse) = .ok refs) :
    numbersOf items = refs.flatMap Reference.numbers := by
  induction items generalizing refs with
  | nil =>
    cases h
    rfl
  | cons item items ih =>
    simp only [List.mapM_cons, bind_eq_ok_iff, pure_eq_ok_iff] at h
    obtain ⟨r, hr, rest, hrest, rfl⟩ := h
    split at hr
    · rename_i r' hr'
      cases hr
      rw [numbersOf, List.flatMap_cons, numbers_of_toReference? hr', ih hrest]
    · cases hr

omit [Scalar α] in
theorem numbers_of_flatten {refs : List (Reference α)} (h : c.flatten i arg = .ok refs) :
    arg.numbers = refs.flatMap Reference.numbers := by
  unfold flatten at h
  rw [← numbers_of_mapM h]
  cases arg <;> simp [Arg.numbers, numbersOf]

omit [Scalar α] in
/-- All references of a call have all its numbers. -/
theorem numbers_of_references {refs : List (Reference α)} (h : c.references = .ok refs) :
    numbersOf c.items = refs.flatMap Reference.numbers := by
  simp only [references, bind_eq_ok_iff, pure_eq_ok_iff] at h
  obtain ⟨parts, hparts, rfl⟩ := h
  have hall : ∀ (items : List (Arg α)) (k : Nat) (parts : List (List (Reference α))),
      (items.zipIdx k).mapM (fun entry => c.flatten entry.2 entry.1) = .ok parts →
        numbersOf items = parts.flatten.flatMap Reference.numbers := by
    intro items
    induction items with
    | nil =>
      intro k parts h
      cases h
      rfl
    | cons item items ih =>
      intro k parts h
      simp only [List.zipIdx_cons, List.mapM_cons, bind_eq_ok_iff, pure_eq_ok_iff] at h
      obtain ⟨first, hfirst, rest, hrest, rfl⟩ := h
      rw [numbersOf, numbers_of_flatten hfirst, ih _ _ hrest, List.flatten_cons,
        List.flatMap_append]
  exact hall _ _ _ hparts

omit [Scalar α] in
/-- References and a name have all numbers of a call: a quoted text at its end has none. -/
theorem numbers_of_referencesAndName {refs : List (Reference α)} {name : Option String}
    (h : c.referencesAndName = .ok (refs, name)) :
    numbersOf c.items = refs.flatMap Reference.numbers := by
  unfold referencesAndName at h
  split at h
  · rename_i last hlast
    simp only [↓ite_throw_bind_eq_ok_iff, bind_eq_ok_iff, pure_eq_ok_iff] at h
    obtain ⟨-, all, hall, heq⟩ := h
    cases heq
    rw [numbers_of_references hall]
    obtain ⟨init, hinit⟩ := List.getLast?_eq_some_iff.1 hlast
    simp only [references, hinit, List.zipIdx_append, List.mapM_append, List.zipIdx_cons,
      List.zipIdx_nil, List.mapM_cons, List.mapM_nil, bind_eq_ok_iff, pure_eq_ok_iff] at hall
    obtain ⟨_, ⟨front, -, _, ⟨final, hfinal, _, rfl, rfl⟩, rfl⟩, rfl⟩ := hall
    obtain rfl : [.name last] = final := Except.ok.inj hfinal
    rw [List.flatten_append, List.flatten_singleton, List.dropLast_concat, List.flatMap_append]
    exact List.append_nil _
  · simp only [bind_eq_ok_iff, pure_eq_ok_iff] at h
    obtain ⟨all, hall, heq⟩ := h
    cases heq
    exact numbers_of_references hall

theorem passes_of_referencesAndName {refs : List (Reference α)} {name : Option String}
    (h : c.referencesAndName = .ok (refs, name))
    (hnumbers : op.numbers = refs.flatMap Reference.numbers) : c.Passes op := by
  intro x hx
  rw [numbers_of_referencesAndName h, ← hnumbers] at hx
  exact .inl hx

theorem passes_of_polygon (h : c.polygon = .ok op) : c.Passes op := by
  unfold polygon at h
  split at h
  · exact passes_of_regularPolygon h
  · simp only [bind_eq_ok_iff, pure_eq_ok_iff] at h
    obtain ⟨⟨refs, name⟩, hrefs, rfl⟩ := h
    exact passes_of_referencesAndName hrefs rfl

/-! ## Circles and ellipses -/

omit [Scalar α] in
theorem numbers_of_circleSize {r : Registry α} {size : CircleSize α}
    (h : c.circleSize r = .ok size) (harg : c.items[1]? = some arg) :
    arg.numbers = size.numbers := by
  simp only [circleSize, bind_eq_ok_iff] at h
  obtain ⟨a, ha, h⟩ := h
  rw [argument_eq_ok_iff, harg] at ha
  cases ha
  -- the size that a word names has no numbers, whatever it names
  have hnamed : ∀ text : String, (namedSize r text).numbers = [] := by
    intro text
    unfold namedSize
    split <;> rfl
  split at h
  · cases h
    rfl
  · cases h
    rfl
  · cases h
    exact (hnamed _).symm
  · cases h
    exact (hnamed _).symm
  · exact absurd h throw_ne_ok

omit [Scalar α] in
/-- A call of four arguments names three points. -/
theorem size_ne_four {r : Registry α} (h : c.hasThreePoints r = false) : c.size ≠ 4 := by
  intro hsize
  unfold hasThreePoints at h
  obtain ⟨a, b, d, e, hitems⟩ : ∃ a b d e, c.items = [a, b, d, e] := List.length_eq_four.1 hsize
  rw [hitems] at h
  cases h

/-- A circle gets its center and its size. -/
theorem passes_circle {r : Registry α} {a : Reference α} {size : CircleSize α}
    {name : Option String} (hsize : c.size ≤ 3) (hradius : c.circleSize r = .ok size)
    (hname : c.nameAt 2 = .ok name) (ha : c.reference 0 = .ok a) :
    c.Passes (.circle a size name) := by
  refine passes_of_reads [a.numbers, size.numbers, []]
    ⟨fun _ => numbers_of_reference ha, fun _ => numbers_of_circleSize hradius,
      fun _ => numbers_of_nameAt hname, trivial⟩ hsize ?_
  simp +contextual [Operation.numbers]

theorem passes_of_circle {r : Registry α} (h : c.circle r = .ok op) : c.Passes op := by
  simp only [circle, bind_eq_ok_iff] at h
  obtain ⟨_, hcount, h⟩ := h
  have hfour := (requireCount_eq_ok_iff.1 hcount).2
  cases hradius : c.hasRadius with
  | true =>
    simp only [hradius, Bool.not_true, Bool.false_and, Bool.false_eq_true, if_true, if_false,
      bind_eq_ok_iff, pure_eq_ok_iff] at h
    obtain ⟨_, hlast, size, hsize, name, hname, a, ha, rfl⟩ := h
    exact passes_circle (requireLast_eq_ok_iff.1 hlast) hsize hname ha
  | false =>
    cases hpoints : c.hasThreePoints r with
    | true =>
      simp only [hradius, hpoints, Bool.not_false, Bool.and_self, Bool.false_eq_true, if_true,
        if_false, bind_eq_ok_iff, pure_eq_ok_iff] at h
      obtain ⟨name, hname, a, ha, b, hb, d, hd, rfl⟩ := h
      refine passes_of_reads [a.numbers, b.numbers, d.numbers, []]
        ⟨fun _ => numbers_of_reference ha, fun _ => numbers_of_reference hb,
          fun _ => numbers_of_reference hd, fun _ => numbers_of_nameAt hname, trivial⟩ hfour ?_
      simp +contextual [Operation.numbers]
    | false =>
      simp only [hradius, hpoints, Bool.and_false, Bool.false_eq_true, if_false, bind_eq_ok_iff,
        pure_eq_ok_iff] at h
      obtain ⟨size, hsize, name, hname, a, ha, rfl⟩ := h
      have hne := size_ne_four hpoints
      exact passes_circle (by omega) hsize hname ha

theorem passes_of_ellipse (h : c.ellipse = .ok op) : c.Passes op := by
  simp only [ellipse, bind_eq_ok_iff] at h
  obtain ⟨_, -, h⟩ := h
  -- with and without a rotation
  split at h
  · rename_i rotation hrotation
    simp only [pure_eq_ok_iff] at h
    obtain ⟨_, hlast, name, hname, a, ha, rx, hrx, ry, hry, rfl⟩ := h
    refine passes_of_reads [a.numbers, [rx], [ry], [rotation], []]
      ⟨fun _ => numbers_of_reference ha, fun _ => numbers_of_number hrx,
        fun _ => numbers_of_number hry, ?_, fun _ => numbers_of_nameAt hname, trivial⟩
      (requireLast_eq_ok_iff.1 hlast) ?_
    · intro arg harg
      cases hrotation.symm.trans harg
      rfl
    · simp +contextual [Operation.numbers]
  · simp only [pure_eq_ok_iff] at h
    obtain ⟨_, hlast, name, hname, a, ha, rx, hrx, ry, hry, rfl⟩ := h
    refine passes_of_reads [a.numbers, [rx], [ry], []]
      ⟨fun _ => numbers_of_reference ha, fun _ => numbers_of_number hrx,
        fun _ => numbers_of_number hry, fun _ => numbers_of_nameAt hname, trivial⟩
      (requireLast_eq_ok_iff.1 hlast) ?_
    simp only [Operation.numbers, List.flatten_cons, List.flatten_nil, List.mem_append,
      List.mem_cons, List.not_mem_nil, or_false]
    tauto

/-! ## The other verbs -/

variable [Numeral α] {r : Registry α}

theorem passes_of_midpoint (h : c.operation r .midpoint = .ok op) : c.Passes op := by
  simp only [operation, bind_eq_ok_iff, pure_eq_ok_iff] at h
  obtain ⟨⟨refs, name⟩, hrefs, rfl⟩ := h
  exact passes_of_referencesAndName hrefs rfl

theorem passes_of_distance (h : c.operation r .distance = .ok op) : c.Passes op := by
  simp only [operation, bind_eq_ok_iff, pure_eq_ok_iff] at h
  obtain ⟨_, hcount, a, ha, b, hb, rfl⟩ := h
  refine passes_of_reads [a.numbers, b.numbers]
    ⟨fun _ => numbers_of_reference ha, fun _ => numbers_of_reference hb, trivial⟩
    (requireCount_eq_ok_iff.1 hcount).2 ?_
  simp +contextual [Operation.numbers]

theorem passes_of_angle (h : c.operation r .angle = .ok op) : c.Passes op := by
  simp only [operation, bind_eq_ok_iff, pure_eq_ok_iff] at h
  obtain ⟨_, hcount, name, hname, a, ha, b, hb, d, hd, rfl⟩ := h
  refine passes_of_reads [a.numbers, b.numbers, d.numbers, []]
    ⟨fun _ => numbers_of_reference ha, fun _ => numbers_of_reference hb,
      fun _ => numbers_of_reference hd, fun _ => numbers_of_nameAt hname, trivial⟩
    (requireCount_eq_ok_iff.1 hcount).2 ?_
  simp +contextual [Operation.numbers]

theorem passes_of_translate (h : c.operation r .translate = .ok op) : c.Passes op := by
  simp only [operation, bind_eq_ok_iff, pure_eq_ok_iff] at h
  obtain ⟨_, hcount, name, hname, element, helement, dx, hdx, dy, hdy, rfl⟩ := h
  refine passes_of_reads [[], [dx], [dy], []]
    ⟨fun _ => numbers_of_word helement, fun _ => numbers_of_number hdx,
      fun _ => numbers_of_number hdy, fun _ => numbers_of_nameAt hname, trivial⟩
    (requireCount_eq_ok_iff.1 hcount).2 ?_
  simp [Operation.numbers]

theorem passes_of_rotate (h : c.operation r .rotate = .ok op) : c.Passes op := by
  simp only [operation, bind_eq_ok_iff, pure_eq_ok_iff] at h
  obtain ⟨_, hcount, name, hname, element, helement, pivot, hpivot, degrees, hdegrees, rfl⟩ := h
  refine passes_of_reads [[], pivot.numbers, [degrees], []]
    ⟨fun _ => numbers_of_word helement, fun _ => numbers_of_reference hpivot,
      fun _ => numbers_of_number hdegrees, fun _ => numbers_of_nameAt hname, trivial⟩
    (requireCount_eq_ok_iff.1 hcount).2 ?_
  simp +contextual [Operation.numbers]

theorem passes_of_reflect (h : c.operation r .reflect = .ok op) : c.Passes op := by
  simp only [operation, bind_eq_ok_iff, pure_eq_ok_iff] at h
  obtain ⟨_, hcount, name, hname, element, helement, mirror, hmirror, rfl⟩ := h
  refine passes_of_reads [[], mirror.numbers, []]
    ⟨fun _ => numbers_of_word helement, fun _ => numbers_of_reference hmirror,
      fun _ => numbers_of_nameAt hname, trivial⟩ (requireCount_eq_ok_iff.1 hcount).2 ?_
  simp +contextual [Operation.numbers]

theorem passes_of_rename (h : c.operation r .rename = .ok op) : c.Passes op := by
  simp only [operation, bind_eq_ok_iff, pure_eq_ok_iff] at h
  obtain ⟨_, hcount, old, hold, new, hnew, rfl⟩ := h
  refine passes_of_reads [[], []]
    ⟨fun _ => numbers_of_word hold, fun _ => numbers_of_word hnew, trivial⟩
    (requireCount_eq_ok_iff.1 hcount).2 ?_
  simp

theorem passes_of_axisLimits (h : c.operation r .axisLimits = .ok op) : c.Passes op := by
  simp only [operation, bind_eq_ok_iff, pure_eq_ok_iff] at h
  obtain ⟨_, hcount, minX, hminX, maxX, hmaxX, minY, hminY, maxY, hmaxY, rfl⟩ := h
  refine passes_of_reads [[minX], [maxX], [minY], [maxY]]
    ⟨fun _ => numbers_of_number hminX, fun _ => numbers_of_number hmaxX,
      fun _ => numbers_of_number hminY, fun _ => numbers_of_number hmaxY, trivial⟩
    (requireCount_eq_ok_iff.1 hcount).2 ?_
  simp +contextual [Operation.numbers]

theorem passes_of_showAxes (h : c.operation r .showAxes = .ok op) : c.Passes op := by
  simp only [operation, bind_eq_ok_iff, pure_eq_ok_iff] at h
  obtain ⟨_, hcount, visible, hvisible, rfl⟩ := h
  refine passes_of_reads [[]] ⟨fun _ => numbers_of_flag hvisible, trivial⟩
    (requireCount_eq_ok_iff.1 hcount).2 ?_
  simp

/-- The operation of a label gets the numbers of its position, and not those of its text. -/
theorem passes_of_text (h : c.operation r .text = .ok op) :
    ∀ x ∈ numbersOf (Verb.text.valued c.items), x ∈ op.numbers := by
  simp only [operation, bind_eq_ok_iff, pure_eq_ok_iff] at h
  obtain ⟨_, hcount, name, hname, a, ha, _, -, rfl⟩ := h
  intro x hx
  obtain ⟨j, arg, hj, hlt, harg, hx⟩ := exists_of_mem_numbersOf_eraseIdx hx
  have hsize : c.items.length ≤ 3 := (requireCount_eq_ok_iff.1 hcount).2
  -- the position and the name are the arguments that are left
  obtain rfl | rfl : j = 0 ∨ j = 2 := by omega
  · rw [numbers_of_reference ha harg] at hx
    exact hx
  · rw [numbers_of_nameAt hname harg] at hx
    cases hx

/-- A color is a text, and the name of the figure that gets it has no numbers. -/
theorem passes_of_color (h : c.operation r .color = .ok op) :
    ∀ x ∈ numbersOf (Verb.color.valued c.items), x ∈ op.numbers := by
  simp only [operation, bind_eq_ok_iff, pure_eq_ok_iff] at h
  obtain ⟨_, hcount, element, helement, _, -, rfl⟩ := h
  intro x hx
  obtain ⟨j, arg, hj, hlt, harg, hx⟩ := exists_of_mem_numbersOf_eraseIdx hx
  have hsize : c.items.length ≤ 2 := (requireCount_eq_ok_iff.1 hcount).2
  obtain rfl : j = 0 := by omega
  rw [numbers_of_word helement harg] at hx
  cases hx

/-- A title is a text and nothing else. -/
theorem passes_of_title (h : c.operation r .title = .ok op) :
    ∀ x ∈ numbersOf (Verb.title.valued c.items), x ∈ op.numbers := by
  simp only [operation, bind_eq_ok_iff] at h
  obtain ⟨_, hcount, -⟩ := h
  intro x hx
  obtain ⟨j, _, hj, hlt, -⟩ := exists_of_mem_numbersOf_eraseIdx hx
  have hsize : c.items.length ≤ 1 := (requireCount_eq_ok_iff.1 hcount).2
  omega

/-! ## All verbs -/

/-- **Every operation gets all numbers of its call**, but for one that is taken as a text and for
those that count. -/
theorem passes_of_operation {verb : Verb} (h : c.operation r verb = .ok op) :
    ∀ x ∈ numbersOf (verb.valued c.items),
      x ∈ op.numbers ∨ ∃ n, Scalar.toCount? x = some n := by
  cases verb with
  | point => exact passes_of_point h
  | line => exact passes_of_onTwo (fun _ _ _ => rfl) h
  | segment => exact passes_of_onTwo (fun _ _ _ => rfl) h
  | infiniteLine => exact passes_of_onTwo (fun _ _ _ => rfl) h
  | vector => exact passes_of_vector h
  | polygon => exact passes_of_polygon h
  | regularPolygon => exact passes_of_regularPolygon h
  | circle => exact passes_of_circle h
  | ellipse => exact passes_of_ellipse h
  | intersection => exact passes_of_onTwo (fun _ _ _ => rfl) h
  | perpendicular => exact passes_of_onTwo (fun _ _ _ => rfl) h
  | parallel => exact passes_of_onTwo (fun _ _ _ => rfl) h
  | midpoint => exact passes_of_midpoint h
  | distance => exact passes_of_distance h
  | angle => exact passes_of_angle h
  | text => exact fun x hx => .inl (passes_of_text h x hx)
  | translate => exact passes_of_translate h
  | rotate => exact passes_of_rotate h
  | reflect => exact passes_of_reflect h
  | color => exact fun x hx => .inl (passes_of_color h x hx)
  | rename => exact passes_of_rename h
  | title => exact fun x hx => .inl (passes_of_title h x hx)
  | axisLimits => exact passes_of_axisLimits h
  | showAxes => exact passes_of_showAxes h

end Call

/-! ## Commands -/

/-- What counts is finite. -/
theorem isFinite_of_toCount? {x : Float} {n : ℕ} (h : Scalar.toCount? x = some n) :
    Scalar.isFinite x = true := by
  change Binary64.toCount? x = some n at h
  show x.toModel.unpack.isFinite = true
  unfold Binary64.toCount? at h
  cases hx : x.toModel.unpack with
  | notANumber =>
    rw [hx] at h
    cases h
  | infinity sign =>
    rw [hx] at h
    cases h
  | zero sign => rfl
  | finite sign mantissa exponent hpos => rfl

/-- A number of a command that is not finite is one of its operation. -/
theorem exists_number_of_reading {s : Session Float} {bindings : Bindings Float}
    {c : ResolvedCommand Float} {op : Operation Float}
    (hreading : reading s bindings c = .ok op)
    (hnumbers : ∃ x ∈ c.numbers bindings, Scalar.isFinite x = false) :
    ∃ x ∈ op.numbers, Scalar.isFinite x = false := by
  obtain ⟨call, hcall, hop⟩ := bind_eq_ok_iff.1 hreading
  obtain ⟨x, hx, hinfinite⟩ := hnumbers
  rw [Call.numbers_of_ofCommand hcall] at hx
  rcases Call.passes_of_operation hop x hx with hmem | ⟨n, hcount⟩
  · exact ⟨x, hmem, hinfinite⟩
  · rw [isFinite_of_toCount? hcount] at hinfinite
    cases hinfinite

/-- **Numbers that are not finite are refused, and the session stays as it was**, exactly unless
they say how an infinite line goes on that has a finite chord all the same. This holds of the
arguments of every operation on every reachable session, and of the numbers that every command is
given, under all bindings; the argument that a label, a color or a title takes as a text is left
out. -/
theorem notFinite_refused_iff {s : Session Float} (hs : s.Reachable) :
    (∀ op : Operation Float, (∃ x ∈ op.numbers, Scalar.isFinite x = false) →
      ((∃ e, s.perform op = (.error e, s)) ↔ ¬s.Overlooks op)) ∧
    ∀ (bindings : Bindings Float) (c : ResolvedCommand Float),
      (∃ x ∈ c.numbers bindings, Scalar.isFinite x = false) →
        ((∃ e, attempt s bindings c = (.error e, s)) ↔
          ∀ op, reading s bindings c = .ok op → ¬s.Overlooks op) := by
  refine ⟨fun op => Session.perform_of_not_finite_iff hs op, fun bindings c hnumbers => ?_⟩
  cases hreading : reading s bindings c with
  | error misuse =>
    -- a command that is misused is refused, whatever its numbers
    exact ⟨fun _ op hop => (nomatch hop), fun _ => ⟨_, attempt_of_error hreading⟩⟩
  | ok op =>
    have hperform := Session.perform_of_not_finite_iff hs op
      (exists_number_of_reading hreading hnumbers)
    rw [attempt_of_ok hreading]
    constructor
    · rintro ⟨e, he⟩ _ ⟨⟩ hoverlooks
      obtain ⟨name, hok⟩ := Session.perform_of_overlooks hs.indexed hoverlooks
      rw [hok] at he
      cases he
    · intro hnone
      obtain ⟨e, he⟩ := hperform.2 (hnone op rfl)
      rw [he]
      exact ⟨_, rfl⟩

/-- A point that is infinitely far away is refused, as an operation and as a command. -/
theorem notFinite_refused_of_far_point :
    let s : Session Float := .new .standard
    let op : Operation Float := .point (.position ⟨Binary64.infinity, 0⟩) none
    let c : ResolvedCommand Float :=
      ⟨⟨1, none, "Point", [.number Binary64.infinity, .number 0], []⟩, .point⟩
    (∃ e, s.perform op = (.error e, s)) ∧ ∃ e, attempt s [] c = (.error e, s) := by
  intro s op c
  have hinfinite : Scalar.isFinite Binary64.infinity = false := by decide +kernel
  obtain ⟨hops, hcommands⟩ := notFinite_refused_iff (s := s) (.new .standard)
  have hop := (hops op ⟨Binary64.infinity, List.mem_cons_self, hinfinite⟩).2 id
  refine ⟨hop, (hcommands [] c ⟨Binary64.infinity, List.mem_cons_self, hinfinite⟩).2 ?_⟩
  intro op' hreading hoverlooks
  have hpoint : reading s [] c = .ok op := by rfl
  cases hpoint.symm.trans hreading
  exact hoverlooks

/-- The literal `1e400` is infinite, and the infinite line from the origin through that far away on
the horizontal axis is drawn: its slope is zero over infinity. -/
theorem attempt_of_far_course :
    let s : Session Float := .new .standard
    let far : Float := Binary64.ofDecimal 1 400
    let op : Operation Float :=
      .infiniteLine (.position ⟨0, 0⟩) (.position ⟨far, 0⟩) (some "g")
    let c : ResolvedCommand Float :=
      ⟨⟨1, none, "InfiniteLine", [.pair 0 0, .pair far 0, .quoted "g"], []⟩, .infiniteLine⟩
    piece '1' ['e', '4', '0', '0'] = .ok (.token (.number far), []) ∧
      far ∈ op.numbers ∧ Scalar.isFinite far = false ∧
      (s.perform op).1 = .ok (.name "g") ∧ (attempt s [] c).1 = .ok (.name "g") ∧
      (attempt s [] c).2.registry.names = ["g"] := by
  intro s far op c
  have hzero : (⟨0, 0⟩ : Coord Float).isFinite = true := by decide +kernel
  have hfinite : ((Line.chord .standard .standard (⟨0, 0⟩ : Coord Float)
      (.through ⟨far, 0⟩)).toOption.any
        fun chord => chord.1.isFinite && chord.2.isFinite) = true := by decide +kernel
  have hfree : s.registry.requireFree "g" = .ok () := Registry.requireFree_empty (by decide)
  obtain ⟨⟨a, b⟩, hchord, hends⟩ := any_toOption_iff.1 hfinite
  rw [Bool.and_eq_true] at hends
  obtain ⟨figure, hplan⟩ : ∃ figure, op.plan s = .ok (.addOne "g" figure) := by
    have hvertices : Curve.requireVertices [a, b] = .ok () :=
      Curve.requireVertices_eq_ok_iff.2 ⟨Nat.le_refl 2, by simp [hends.1, hends.2]⟩
    simp only [op, Operation.plan, Session.infiniteLine, bind_eq_ok_iff, pure_eq_ok_iff]
    refine ⟨_, ⟨0, 0⟩, ?_, _, rfl, (a, b), hchord, "g", ?_, _,
      Curve.polyline_eq_ok_iff.2 ⟨hvertices, rfl⟩, rfl⟩
    · rw [Registry.position, if_pos hzero]
    · simp only [Session.nameFor, hfree]
      rfl
  obtain ⟨r, hinsert, hperform⟩ := Session.exists_perform_addOne hplan hfree
  have hreading : reading s [] c = .ok op := by rfl
  rw [attempt_of_ok hreading, hperform]
  refine ⟨by rfl, by simp [op, Operation.numbers, Reference.numbers], by decide +kernel, rfl, rfl,
    ?_⟩
  simp only [Registry.names, Registry.toList_insert hinsert]
  rfl

end Straightedge.Script
