import Std.Data.HashMap
import Straightedge.Figure.Basic

/-! # The registry of named figures

Figures are kept in the order in which they were named, each under a name of its own. An index finds
the position of a name.

* **`Registry`**: the figures and the index.
* **`Registry.toList`**: the registry as a list of names and figures.
* **`Registry.insert`**: a new figure at the end; a taken name is refused.
* **`Registry.update`**: another figure under the same name, at the same place.
* **`Registry.rename`**: a figure moved to the end under another name. -/

namespace Straightedge

/-- Named figures in order. -/
structure Registry (α : Type) where
  /-- Names and figures in order. -/
  entries : Array (String × Figure α)
  /-- The position of each name. -/
  index : Std.HashMap String Nat

namespace Registry

variable {α : Type}

/-- The registry without figures. -/
def empty : Registry α := ⟨#[], ∅⟩

instance : Inhabited (Registry α) := ⟨empty⟩

/-! ## Queries -/

/-- Names and figures in order. -/
def toList (r : Registry α) : List (String × Figure α) := r.entries.toList

/-- Names in order. -/
def names (r : Registry α) : List String := r.toList.map Prod.fst

/-- How many figures there are. -/
def size (r : Registry α) : Nat := r.entries.size

/-- Whether there are no figures. -/
def isEmpty (r : Registry α) : Bool := r.entries.isEmpty

/-- Whether a name is taken. -/
def contains (r : Registry α) (name : String) : Bool := r.index.contains name

/-- The figure under a name. -/
def get? (r : Registry α) (name : String) : Option (Figure α) := do
  let i ← r.index[name]?
  let entry ← r.entries[i]?
  return entry.2

/-- The figure under a name, which has to exist. -/
def find (r : Registry α) (name : String) : Except ConstructionError (Figure α) :=
  match r.get? name with
  | some figure => .ok figure
  | none => .error (.notFound name)

/-- All positions of all figures in order. -/
def coords (r : Registry α) : List (Coord α) := r.toList.flatMap fun entry => entry.2.coords

/-! ## Changes -/

/-- A name for a new figure is not empty and not taken. -/
def requireFree (r : Registry α) (name : String) : Except ConstructionError Unit :=
  if name.isEmpty then .error (.invalidParameter .emptyName)
  else if r.contains name then .error (.nameCollision name)
  else .ok ()

/-- The registry with one more figure at the end. -/
def insert (r : Registry α) (name : String) (figure : Figure α) :
    Except ConstructionError (Registry α) := do
  r.requireFree name
  return ⟨r.entries.push (name, figure), r.index.insert name r.entries.size⟩

/-- The registry with the figure under a name, which has to exist, changed by `f`. -/
def update (r : Registry α) (name : String) (f : Figure α → Figure α) :
    Except ConstructionError (Registry α) :=
  match r.index[name]? with
  | some i => .ok { r with entries := r.entries.modify i fun entry => (entry.1, f entry.2) }
  | none => .error (.notFound name)

/-- The index of names in the given order. -/
def indexOf (entries : Array (String × Figure α)) : Std.HashMap String Nat :=
  entries.toList.zipIdx.foldl (fun index (entry, i) => index.insert entry.1 i) ∅

/-- The registry with the figure under the name `old` moved to the end under the name `new`, which
has to be free. -/
def rename (r : Registry α) (old new : String) :
    Except ConstructionError (Registry α) := do
  r.requireFree new
  match r.index[old]? with
  | none => throw (.notFound old)
  | some i =>
    match r.entries[i]? with
    | none => throw (.notFound old)
    | some (_, figure) =>
      let entries := (r.entries.eraseIdxIfInBounds i).push (new, figure.retitle old new)
      return ⟨entries, indexOf entries⟩

/-! ## What the empty registry answers -/

@[simp] theorem toList_empty : (empty : Registry α).toList = [] := rfl

@[simp] theorem size_empty : (empty : Registry α).size = 0 := rfl

@[simp] theorem contains_empty (name : String) : (empty : Registry α).contains name = false := by
  simp [contains, empty]

@[simp] theorem get?_empty (name : String) : (empty : Registry α).get? name = none := by
  simp [get?, empty]

end Registry

end Straightedge
