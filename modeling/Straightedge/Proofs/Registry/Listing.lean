import Straightedge.Proofs.Registry.Index

/-! # The registry as an ordered list

What a registry is to its users: a list of named figures with distinct names. A new figure goes to
the end, and so does a renamed one.

* **`Listing`**: names and figures in order, with the operations of a registry read off the list.
* **`Request`**, **`Reply`**: everything that can be asked of either, and the answers.
* **`Registry.serve_represents`**: one request gets the same answer from both, and leaves the
  registry indexed with the entries of the list.
* **`Registry.serveAll_empty_refines`**: so does any sequence of requests, from nothing on. -/

namespace Straightedge

variable {α : Type}

/-! ## Listings -/

/-- Names and figures in order, and nothing else. -/
abbrev Listing (α : Type) : Type := List (String × Figure α)

namespace Listing

/-- The figure under a name. -/
def get? (l : Listing α) (name : String) : Option (Figure α) := l.lookup name

/-- The figure under a name, which has to exist. -/
def find (l : Listing α) (name : String) : Except ConstructionError (Figure α) :=
  match l.get? name with
  | some figure => .ok figure
  | none => .error (.notFound name)

/-- A new name is not empty and not the name of an entry. -/
def requireFree (l : Listing α) (name : String) : Except ConstructionError Unit :=
  if name = "" then .error (.invalidParameter .emptyName)
  else if name ∈ l.map Prod.fst then .error (.nameCollision name)
  else .ok ()

/-- One more figure at the end. -/
def insert (l : Listing α) (name : String) (figure : Figure α) :
    Except ConstructionError (Listing α) := do
  l.requireFree name
  return l ++ [(name, figure)]

/-- The figure under a name changed by `f`. -/
def update (l : Listing α) (name : String) (f : Figure α → Figure α) :
    Except ConstructionError (Listing α) := do
  let _ ← l.find name
  return l.map fun entry => if entry.1 = name then (entry.1, f entry.2) else entry

/-- The figure under `old` taken out and put at the end under `new`, its tooltip retitled. -/
def rename (l : Listing α) (old new : String) : Except ConstructionError (Listing α) := do
  l.requireFree new
  let figure ← l.find old
  return l.filter (·.1 ≠ old) ++ [(new, figure.retitle old new)]

/-- With distinct names, looking a name up finds its entry. -/
theorem get?_eq_some_iff {l : Listing α} (hnodup : (l.map Prod.fst).Nodup) (name : String)
    (figure : Figure α) : l.get? name = some figure ↔ (name, figure) ∈ l := by
  rw [get?, List.lookup_eq_some_iff]
  constructor
  · rintro ⟨l₁, l₂, rfl, -⟩
    simp
  · intro hmem
    obtain ⟨l₁, l₂, rfl⟩ := List.append_of_mem hmem
    refine ⟨l₁, l₂, rfl, fun entry hentry => ?_⟩
    rw [List.map_append, List.nodup_append] at hnodup
    simpa using (hnodup.2.2 entry.1 (List.mem_map_of_mem hentry) name (by simp)).symm

/-- With distinct names, leaving a name out leaves what stands before its entry and behind it. -/
theorem filter_ne_middle {front back : Listing α} {entry : String × Figure α}
    (hnodup : ((front ++ entry :: back).map Prod.fst).Nodup) :
    (front ++ entry :: back).filter (·.1 ≠ entry.1) = front ++ back := by
  rw [List.map_append, List.map_cons, List.nodup_middle, List.nodup_cons, ← List.map_append]
    at hnodup
  have hkeep : ∀ other ∈ front ++ back, decide (other.1 ≠ entry.1) = true := by
    intro other hother
    exact decide_eq_true fun hc => hnodup.1 (hc ▸ List.mem_map_of_mem hother)
  rw [List.filter_append, List.filter_cons_of_neg (by simp), ← List.filter_append,
    List.filter_eq_self.2 hkeep]

/-- With distinct names, taking the entry at a position out takes out what has its name. -/
theorem eraseIdx_eq_filter {l : Listing α} (hnodup : (l.map Prod.fst).Nodup) {i : Nat}
    {entry : String × Figure α} (hentry : l[i]? = some entry) :
    l.eraseIdx i = l.filter (·.1 ≠ entry.1) := by
  obtain ⟨hlength, rfl⟩ := List.getElem?_eq_some_iff.1 hentry
  have hsplit : l.take i ++ l[i] :: l.drop (i + 1) = l := by
    rw [← List.drop_eq_getElem_cons hlength, List.take_append_drop]
  have hfilter := filter_ne_middle (hsplit.symm ▸ hnodup)
  rw [hsplit] at hfilter
  rw [hfilter, List.eraseIdx_eq_take_drop_succ]

end Listing

/-! ## Requests -/

/-- What can be asked of a registry. -/
inductive Request (α : Type)
  | insert (name : String) (figure : Figure α)
  | edit (name : String) (f : Figure α → Figure α)
  | rename (old new : String)
  | clear
  | get (name : String)
  | find (name : String)
  | contains (name : String)
  | names
  | entries
  | size
  | isEmpty

/-- The answer to a request. -/
inductive Reply (α : Type)
  /-- Whether a change was made. -/
  | change (result : Except ConstructionError Unit)
  /-- A figure, if there is one. -/
  | figure? (figure : Option (Figure α))
  /-- A figure, or why there is none. -/
  | found (result : Except ConstructionError (Figure α))
  /-- Yes or no. -/
  | truth (b : Bool)
  /-- Names in order. -/
  | names (names : List String)
  /-- Names and figures in order. -/
  | entries (entries : List (String × Figure α))
  /-- How many figures there are. -/
  | size (n : Nat)

/-- The answer to a change, and the state afterwards: a refused change leaves the state as it is. -/
def Reply.ofChange {σ : Type} (s : σ) : Except ConstructionError σ → Reply α × σ
  | .ok s' => (.change (.ok ()), s')
  | .error e => (.change (.error e), s)

/-- What a registry answers, and the registry afterwards. -/
def Registry.serve (r : Registry α) : Request α → Reply α × Registry α
  | .insert name figure => Reply.ofChange r (r.insert name figure)
  | .edit name f => Reply.ofChange r (r.update name f)
  | .rename old new => Reply.ofChange r (r.rename old new)
  | .clear => Reply.ofChange r (.ok .empty)
  | .get name => (.figure? (r.get? name), r)
  | .find name => (.found (r.find name), r)
  | .contains name => (.truth (r.contains name), r)
  | .names => (.names r.names, r)
  | .entries => (.entries r.toList, r)
  | .size => (.size r.size, r)
  | .isEmpty => (.truth r.isEmpty, r)

/-- What a listing answers, and the listing afterwards. -/
def Listing.serve (l : Listing α) : Request α → Reply α × Listing α
  | .insert name figure => Reply.ofChange l (l.insert name figure)
  | .edit name f => Reply.ofChange l (l.update name f)
  | .rename old new => Reply.ofChange l (l.rename old new)
  | .clear => Reply.ofChange l (.ok [])
  | .get name => (.figure? (l.get? name), l)
  | .find name => (.found (l.find name), l)
  | .contains name => (.truth (l.map Prod.fst |>.contains name), l)
  | .names => (.names (l.map Prod.fst), l)
  | .entries => (.entries l, l)
  | .size => (.size l.length, l)
  | .isEmpty => (.truth l.isEmpty, l)

/-- The answers of a registry to requests one after another, and the registry afterwards. -/
def Registry.serveAll (r : Registry α) : List (Request α) → List (Reply α) × Registry α
  | [] => ([], r)
  | request :: requests =>
    let rest := Registry.serveAll (r.serve request).2 requests
    ((r.serve request).1 :: rest.1, rest.2)

/-- The answers of a listing to requests one after another, and the listing afterwards. -/
def Listing.serveAll (l : Listing α) : List (Request α) → List (Reply α) × Listing α
  | [] => ([], l)
  | request :: requests =>
    let rest := Listing.serveAll (l.serve request).2 requests
    ((l.serve request).1 :: rest.1, rest.2)

/-! ## The registry answers as its list does -/

namespace Registry

variable {r : Registry α}

/-- Looking a name up is looking it up in the list. -/
theorem Indexed.get?_eq (h : r.Indexed) (name : String) :
    r.get? name = Listing.get? r.toList name := by
  refine Option.ext fun figure => ?_
  rw [h.get?_eq_some_iff, Listing.get?_eq_some_iff h.nodup_names]

/-- An entry of the list is found under its name. -/
theorem Indexed.get?_of_toList (h : r.Indexed) {front back : Listing α} {name : String}
    {figure : Figure α} (hlist : r.toList = front ++ (name, figure) :: back) :
    r.get? name = some figure :=
  (h.get?_eq_some_iff name figure).2 (hlist ▸ List.mem_append_right _ List.mem_cons_self)

/-- A figure that has to exist is found, or missed, as in the list. -/
theorem Indexed.find_eq (h : r.Indexed) (name : String) :
    r.find name = Listing.find r.toList name := by
  have hget := h.get?_eq name
  unfold find Listing.find
  cases hlist : Listing.get? r.toList name with
  | none => rw [hget, hlist]
  | some figure => rw [hget, hlist]

/-- The taken names are those of the list. -/
theorem Indexed.contains_eq (h : r.Indexed) (name : String) :
    r.contains name = (r.toList.map Prod.fst).contains name := by
  rw [Bool.eq_iff_iff, h.contains_iff, List.contains_iff_mem]
  rfl

/-- A name is free in the registry exactly if it is free in the list. -/
theorem Indexed.requireFree_eq (h : r.Indexed) (name : String) :
    r.requireFree name = Listing.requireFree r.toList name := by
  simp only [requireFree, Listing.requireFree, String.isEmpty_iff, h.contains_iff, names]

/-- The position of a name is the position of its entry in the list. -/
theorem Indexed.exists_entry (h : r.Indexed) {name : String} {i : Nat}
    (hi : r.index[name]? = some i) :
    ∃ figure, r.toList[i]? = some (name, figure) ∧ r.find name = .ok figure := by
  have hname := (h.position_iff name i).1 hi
  rw [names, List.getElem?_map, Option.map_eq_some_iff] at hname
  obtain ⟨⟨_, figure⟩, hentry, rfl⟩ := hname
  refine ⟨figure, hentry, ?_⟩
  simp only [find, (h.get?_eq_some_iff _ figure).2 (List.mem_of_getElem? hentry)]

/-- A name without position is missed. -/
theorem find_eq_error {name : String} (hi : r.index[name]? = none) :
    r.find name = .error (.notFound name) := by
  have hget : r.get? name = none := by simp [get?, hi]
  simp only [find, hget]

/-- **Insertion appends to the list.** -/
theorem Indexed.toList_insert (h : r.Indexed) (name : String) (figure : Figure α) :
    (r.insert name figure).map toList = Listing.insert r.toList name figure := by
  rw [Registry.insert, Listing.insert, h.requireFree_eq]
  cases Listing.requireFree r.toList name with
  | error e => rfl
  | ok u => simp [bind, Except.bind, pure, Except.pure, Except.map, toList]

/-- **An update changes the entry of its name in the list.** -/
theorem Indexed.toList_update (h : r.Indexed) (name : String) (f : Figure α → Figure α) :
    (r.update name f).map toList = Listing.update r.toList name f := by
  rw [Registry.update, Listing.update, ← h.find_eq]
  cases hi : r.index[name]? with
  | none => rw [find_eq_error hi]; rfl
  | some i =>
    obtain ⟨figure, hentry, hfind⟩ := h.exists_entry hi
    rw [hfind]
    simp only [Except.map, bind, Except.bind, pure, Except.pure, toList, Array.toList_modify]
    refine congrArg Except.ok (List.ext_getElem (by simp) fun j hj hj' => ?_)
    rw [List.getElem_modify, List.getElem_map]
    -- the entry at `j` has the name exactly if the index points at `j`
    have hlength : j < r.entries.toList.length := by simpa using hj'
    have hname : i = j ↔ (r.entries.toList.get ⟨j, hlength⟩).1 = name := by
      have hposition := h.position_iff name j
      rw [hi, names, toList, List.getElem?_map, List.getElem?_eq_getElem hlength] at hposition
      simpa only [Option.some.injEq, Option.map_some, List.get_eq_getElem] using hposition
    rw [List.get_eq_getElem] at hname
    by_cases hij : i = j
    · rw [if_pos hij, if_pos (hname.1 hij)]
    · rw [if_neg hij, if_neg (mt hname.2 hij)]

/-- **A rename takes the entry out of the list and appends it under the new name.** -/
theorem Indexed.toList_rename (h : r.Indexed) (old new : String) :
    (r.rename old new).map toList = Listing.rename r.toList old new := by
  rw [Registry.rename, Listing.rename, h.requireFree_eq, ← h.find_eq]
  cases Listing.requireFree r.toList new with
  | error e => rfl
  | ok u =>
    cases hi : r.index[old]? with
    | none => rw [find_eq_error hi]; rfl
    | some i =>
      obtain ⟨figure, hentry, hfind⟩ := h.exists_entry hi
      have hentry' : r.entries[i]? = some (old, figure) := by simpa [toList] using hentry
      -- leaving out the position is leaving out the name, since names are distinct
      have herase : r.entries.toList.eraseIdx i = r.entries.toList.filter (·.1 ≠ old) :=
        Listing.eraseIdx_eq_filter h.nodup_names hentry
      rw [hfind]
      simp only [bind, Except.bind, hentry', pure, Except.pure, Except.map, toList,
        Array.toList_push, Array.toList_eraseIdxIfInBounds, herase]

/-- **A figure is renamed to a free name** and goes to the end. -/
theorem Indexed.exists_rename (h : r.Indexed) {front back : Listing α} {old new : String}
    {figure : Figure α} (hlist : r.toList = front ++ (old, figure) :: back)
    (hfree : r.requireFree new = .ok ()) :
    ∃ r', r.rename old new = .ok r' ∧
      r'.toList = front ++ back ++ [(new, figure.retitle old new)] := by
  have hfind : Listing.find r.toList old = .ok figure := by
    rw [Listing.find, ← h.get?_eq, h.get?_of_toList hlist]
  have hnodup : (r.toList.map Prod.fst).Nodup := h.nodup_names
  have hothers : r.toList.filter (·.1 ≠ old) = front ++ back := by
    rw [hlist] at hnodup ⊢
    exact Listing.filter_ne_middle hnodup
  have hrename := h.toList_rename old new
  rw [Listing.rename, ← h.requireFree_eq, hfree, hfind] at hrename
  cases hresult : r.rename old new with
  | error e => rw [hresult] at hrename; cases hrename
  | ok r' =>
    rw [hresult] at hrename
    exact ⟨r', rfl, (Except.ok.inj hrename).trans (by rw [hothers])⟩

/-- **A renamed figure stands behind all others**, which stay in order. -/
theorem Indexed.exists_toList_rename (h : r.Indexed) {r' : Registry α} {old new : String}
    (hrename : r.rename old new = .ok r') :
    ∃ front figure back, r.toList = front ++ (old, figure) :: back ∧
      r'.toList = front ++ back ++ [(new, figure.retitle old new)] := by
  obtain ⟨hfree, i, _, hi, -⟩ := (rename_eq_ok_iff r r' old new).1 hrename
  obtain ⟨figure, hentry, -⟩ := h.exists_entry hi
  obtain ⟨front, back, hlist⟩ := List.append_of_mem (List.mem_of_getElem? hentry)
  obtain ⟨_, hrename', hrenamed⟩ := h.exists_rename hlist hfree
  obtain rfl := Except.ok.inj (hrename.symm.trans hrename')
  exact ⟨front, figure, back, hlist, hrenamed⟩

/-! ## Refinement -/

/-- **The registry stands for a listing**: its index is right and its entries are those listed. -/
structure Represents (r : Registry α) (l : Listing α) : Prop where
  /-- The index agrees with the entries. -/
  indexed : r.Indexed
  /-- The entries are those of the listing. -/
  toList_eq : r.toList = l

/-- The empty registry stands for the empty listing. -/
theorem represents_empty : Represents (empty : Registry α) [] := ⟨indexed_empty, rfl⟩

/-- A change that gives an indexed registry and commutes with the list is answered alike, and
leaves both sides alike. -/
theorem Represents.ofChange {l : Listing α} (h : Represents r l)
    {result : Except ConstructionError (Registry α)}
    {result' : Except ConstructionError (Listing α)}
    (hresult : result.map toList = result') (hindexed : ∀ r', result = .ok r' → r'.Indexed) :
    (Reply.ofChange (α := α) r result).1 = (Reply.ofChange l result').1 ∧
      Represents (Reply.ofChange (α := α) r result).2 (Reply.ofChange (α := α) l result').2 := by
  subst hresult
  cases result with
  | error e => exact ⟨rfl, h⟩
  | ok r' => exact ⟨rfl, hindexed r' rfl, rfl⟩

/-- **One request gets the same answer from the registry and from its list**, and the registry
afterwards stands for the list afterwards. -/
theorem serve_represents {l : Listing α} (h : Represents r l) (request : Request α) :
    (r.serve request).1 = (Listing.serve l request).1 ∧
      Represents (r.serve request).2 (Listing.serve l request).2 := by
  have hr := h.indexed
  obtain rfl := h.toList_eq
  -- changes commute with the list and keep the index right; queries change nothing
  cases request with
  | insert name figure =>
    exact h.ofChange (hr.toList_insert name figure) fun r' hr' => hr.insert hr'
  | edit name f => exact h.ofChange (hr.toList_update name f) fun r' hr' => hr.update hr'
  | rename old new => exact h.ofChange (hr.toList_rename old new) fun r' hr' => hr.rename hr'
  | clear => exact ⟨rfl, represents_empty⟩
  | get name => exact ⟨congrArg Reply.figure? (hr.get?_eq name), h⟩
  | find name => exact ⟨congrArg Reply.found (hr.find_eq name), h⟩
  | contains name => exact ⟨congrArg Reply.truth (hr.contains_eq name), h⟩
  | names => exact ⟨rfl, h⟩
  | entries => exact ⟨rfl, h⟩
  | size => exact ⟨congrArg Reply.size (by simp [size, toList]), h⟩
  | isEmpty => exact ⟨congrArg Reply.truth (by simp [isEmpty, toList]), h⟩

/-- Requests one after another get the same answers from the registry and from its list. -/
theorem serveAll_represents {l : Listing α} (h : Represents r l) (requests : List (Request α)) :
    (r.serveAll requests).1 = (Listing.serveAll l requests).1 ∧
      Represents (r.serveAll requests).2 (Listing.serveAll l requests).2 := by
  induction requests generalizing r l with
  | nil => exact ⟨rfl, h⟩
  | cons request requests ih =>
    obtain ⟨hreply, hnext⟩ := serve_represents h request
    obtain ⟨hreplies, hlast⟩ := ih hnext
    exact ⟨congrArg₂ List.cons hreply hreplies, hlast⟩

/-- **The indexed registry refines an ordered list of named figures.** Starting from nothing, every
sequence of requests gets the same answers from both; afterwards the registry's entries are those of
the list, the index maps each name exactly to the position of its one entry and holds nothing else,
and names are distinct and not empty. -/
theorem serveAll_empty_refines (requests : List (Request α)) :
    let run := (empty : Registry α).serveAll requests
    let listed := Listing.serveAll ([] : Listing α) requests
    run.1 = listed.1 ∧ run.2.toList = listed.2 ∧
      (∀ (name : String) (i : Nat),
        run.2.index[name]? = some i ↔ (listed.2[i]?).map Prod.fst = some name) ∧
      run.2.index.size = listed.2.length ∧ (listed.2.map Prod.fst).Nodup ∧
      ∀ name ∈ listed.2.map Prod.fst, name ≠ "" := by
  intro run listed
  obtain ⟨hreplies, hindexed, hlist⟩ := serveAll_represents represents_empty requests
  have hsize : run.2.size = listed.2.length := by
    rw [← hlist, toList, Array.length_toList, size]
  refine ⟨hreplies, hlist, fun name i => ?_, ?_, ?_, ?_⟩
  · rw [hindexed.position_iff, names, List.getElem?_map, hlist]
  · rw [hindexed.size_index, hsize]
  · exact hlist ▸ hindexed.nodup_names
  · exact hlist ▸ hindexed.name_ne_empty

end Registry

end Straightedge
