import Straightedge.Script.Command
import Straightedge.Script.ScriptError
import Straightedge.Session.Operation

/-! # Calls

The arguments of a command, with bound words replaced by their values and the name given by keyword
set apart. Reading a call only looks at the registry.

* **`Bindings`**: the values that words stand for.
* **`Call`**: the arguments of a command.
* **`Call.ofCommand`**: bound words replaced, the keyword name set apart.
* **`Call.nameAt`**: the name that a call gives by position or by keyword.
* **`Call.operation`**: the operation that a verb and its arguments ask for. -/

namespace Straightedge.Script

variable {α : Type}

/-! ## Bindings -/

/-- The values that words stand for, the latest first. -/
abbrev Bindings (α : Type) : Type := List (String × Value α)

/-- The argument that a bare word is under bindings. Nothing stands for nothing. -/
def resolveWord (bindings : Bindings α) (text : String) : Arg α :=
  match bindings.lookup text with
  | some (.name name) => .word name
  | some (.number x) => .number x
  | some (.angle _ shown) => .quoted shown
  | some .done => .word text
  | none => .word text

mutual

/-- An argument with its bound words replaced. -/
def substitute (bindings : Bindings α) : Arg α → Arg α
  | .word text => resolveWord bindings text
  | .list items => .list (substituteAll bindings items)
  | other => other

/-- Arguments with their bound words replaced. -/
def substituteAll (bindings : Bindings α) : List (Arg α) → List (Arg α)
  | [] => []
  | item :: items => substitute bindings item :: substituteAll bindings items

end

/-! ## Calls -/

/-- The arguments of a command. -/
structure Call (α : Type) where
  /-- Positional arguments. -/
  items : List (Arg α)
  /-- The name given by keyword. -/
  keyName : Option String

namespace Call

/-- Whether a keyword gives a name. -/
def isNameKey (key : String) : Bool := key = "name" || key = "as"

/-- The name that keyword arguments give; the last one counts. -/
def keywordName (bindings : Bindings α) :
    List (String × Arg α) → Option String → Except Misuse (Option String)
  | [], name => .ok name
  | (key, arg) :: more, _ =>
    if isNameKey key then
      match substitute bindings arg with
      | .quoted text => keywordName bindings more (some text)
      | .word text => keywordName bindings more (some text)
      | other => .error (.nameNotText key other.describe)
    else .error (.unknownKeyword key)

/-- The call of a command under bindings. -/
def ofCommand (bindings : Bindings α) (c : Command α) : Except Misuse (Call α) := do
  return ⟨substituteAll bindings c.args, ← keywordName bindings c.kwargs none⟩

/-! ## Reading arguments -/

/-- How many positional arguments there are. -/
def size (c : Call α) : Nat := c.items.length

/-- There are at least `least` and at most `most` positional arguments. -/
def requireCount (c : Call α) (least most : Nat) : Except Misuse Unit :=
  if c.size < least ∨ most < c.size then .error (.argumentCount least most c.size) else .ok ()

/-- The argument at a position, if there is one. -/
def argument? (c : Call α) (i : Nat) : Option (Arg α) := c.items[i]?

/-- The argument at a position. -/
def argument (c : Call α) (i : Nat) : Except Misuse (Arg α) :=
  match c.argument? i with
  | some arg => .ok arg
  | none => .error (.missing i)

/-- The misuse that the argument at a position is of the wrong kind. -/
def wrong (c : Call α) (i : Nat) (expected : String) : Misuse :=
  .wrong i expected (((c.argument? i).map Arg.describe).getD "nothing")

/-- There is no argument after the position `i`. -/
def requireLast (c : Call α) (i : Nat) : Except Misuse Unit :=
  if i + 1 < c.size then .error (c.wrong (i + 1) "nothing") else .ok ()

/-- The reference that an argument is. -/
def toReference? : Arg α → Option (Reference α)
  | .number x => some (.number x)
  | .quoted text => some (.name text)
  | .word text => some (.name text)
  | .pair x y => some (.position ⟨x, y⟩)
  | .vector dx dy => some (.direction ⟨dx, dy⟩)
  | .flag _ => none
  | .list _ => none

/-- The argument at a position as a reference. -/
def reference (c : Call α) (i : Nat) : Except Misuse (Reference α) := do
  match toReference? (← c.argument i) with
  | some r => return r
  | none => throw (c.wrong i "a name, a coordinate, a vector or a number")

/-- The argument at a position as a number. -/
def number (c : Call α) (i : Nat) : Except Misuse α := do
  match ← c.argument i with
  | .number x => return x
  | _ => throw (c.wrong i "a number")

/-- The argument at a position as a count. -/
def count [Scalar α] (c : Call α) (i : Nat) : Except Misuse Nat := do
  match Scalar.toCount? (← c.number i) with
  | some n => return n
  | none => throw (c.wrong i "a non-negative whole number")

/-- The argument at a position as a name. -/
def word (c : Call α) (i : Nat) : Except Misuse String := do
  match ← c.argument i with
  | .quoted text => return text
  | .word text => return text
  | _ => throw (c.wrong i "a name")

/-- The argument at a position as a text. -/
def text [Scalar α] [Numeral α] (c : Call α) (i : Nat) : Except Misuse String := do
  match ← c.argument i with
  | .quoted text => return text
  | .word text => return text
  | .number x => return Numeral.shown x
  | _ => throw (c.wrong i "a string")

/-- The argument at a position as a truth value. -/
def flag (c : Call α) (i : Nat) : Except Misuse Bool := do
  match ← c.argument i with
  | .flag b => return b
  | _ => throw (c.wrong i "true or false")

/-- The name that a call gives by keyword or as its argument at position `i`, not both. -/
def nameAt (c : Call α) (i : Nat) : Except Misuse (Option String) := do
  match c.keyName with
  | some name => if i < c.size then throw .nameTwice else return some name
  | none => if i < c.size then return some (← c.word i) else return none

/-- The references in the argument at position `i`: those of a list, or itself. -/
def flatten (c : Call α) (i : Nat) (arg : Arg α) : Except Misuse (List (Reference α)) :=
  let items := match arg with
    | .list items => items
    | single => [single]
  items.mapM fun item =>
    match toReference? item with
    | some r => .ok r
    | none => .error (c.wrong i "point references")

/-- All positional arguments as references, lists flattened. -/
def references (c : Call α) : Except Misuse (List (Reference α)) := do
  let parts ← c.items.zipIdx.mapM fun (arg, i) => c.flatten i arg
  return parts.flatten

/-- All references of a call and the name it gives: a quoted text at the end is a name, everything
before it a reference. -/
def referencesAndName (c : Call α) :
    Except Misuse (List (Reference α) × Option String) := do
  match c.items.getLast? with
  | some (.quoted last) =>
    if c.keyName.isSome then throw .nameTwice
    return ((← c.references).dropLast, some last)
  | _ => return (← c.references, c.keyName)

/-! ## Operations -/

variable [Scalar α]

/-- A point at two numbers or a pair of them. -/
def point (c : Call α) : Except Misuse (Operation α) := do
  c.requireCount 1 3
  let first ← c.argument 0
  match first with
  | .number x =>
    let y ← c.number 1
    c.requireLast 2
    return .point (.position ⟨x, y⟩) (← c.nameAt 2)
  | .pair x y =>
    c.requireLast 1
    return .point (.position ⟨x, y⟩) (← c.nameAt 1)
  | _ => throw (c.wrong 0 "x, y or [x, y]")

/-- An operation on two references with an optional name. -/
def onTwo (c : Call α) (make : Reference α → Reference α → Option String → Operation α) :
    Except Misuse (Operation α) := do
  c.requireCount 2 3
  let name ← c.nameAt 2
  return make (← c.reference 0) (← c.reference 1) name

/-- A vector to one point or between two; a quoted second argument is its name. -/
def vector (c : Call α) : Except Misuse (Operation α) := do
  c.requireCount 1 3
  match c.items with
  | [_] => return .vector none (← c.reference 0) c.keyName
  | [_, .quoted _] =>
    let name ← c.nameAt 1
    return .vector none (← c.reference 0) name
  | _ =>
    let name ← c.nameAt 2
    return .vector (some (← c.reference 0)) (← c.reference 1) name

/-- A regular polygon; a vector or a pair after the number of corners is a direction. -/
def regularPolygon (c : Call α) : Except Misuse (Operation α) := do
  c.requireCount 3 5
  let direction ← match c.argument? 3 with
    | some (.vector _ _) => some <$> c.reference 3
    | some (.pair _ _) => some <$> c.reference 3
    | _ => pure none
  let place := if direction.isSome then 4 else 3
  c.requireLast place
  let name ← c.nameAt place
  return .regularPolygon (← c.reference 0) (← c.reference 1) (← c.count 2) direction name

/-- A polygon; a number as third argument asks for a regular one. -/
def polygon (c : Call α) : Except Misuse (Operation α) := do
  match c.argument? 2 with
  | some (.number _) => c.regularPolygon
  | _ =>
    let (refs, name) ← c.referencesAndName
    return .polygon refs name

/-- Whether an argument is a position or the bare name of a point. -/
def isPoint (r : Registry α) : Arg α → Bool
  | .pair _ _ => true
  | .word text =>
    match r.get? text with
    | some (.point _) => true
    | _ => false
  | _ => false

/-- The radius that a word gives: the length of a curve, or the distance to a point. -/
def namedSize (r : Registry α) (text : String) : CircleSize α :=
  match r.get? text with
  | some (.curve _) => .segment text
  | _ => .through (.name text)

/-- The radius that the second argument gives. -/
def circleSize (c : Call α) (r : Registry α) : Except Misuse (CircleSize α) := do
  let second ← c.argument 1
  match second with
  | .number x => return .radius x
  | .pair x y => return .through (.position ⟨x, y⟩)
  | .quoted text => return namedSize r text
  | .word text => return namedSize r text
  | _ => throw (c.wrong 1 "a radius, a segment or a point")

/-- Whether the second argument is a number, which is a radius. -/
def hasRadius (c : Call α) : Bool :=
  match c.argument? 1 with
  | some (.number _) => true
  | _ => false

/-- Whether a call without a radius names three points: four arguments, or three of which the last
is a point. -/
def hasThreePoints (c : Call α) (r : Registry α) : Bool :=
  match c.items with
  | [_, _, third] => isPoint r third
  | [_, _, _, _] => true
  | _ => false

/-- A circle around a point, or through three points. -/
def circle (c : Call α) (r : Registry α) : Except Misuse (Operation α) := do
  c.requireCount 2 4
  if c.hasRadius then c.requireLast 2
  if !c.hasRadius && c.hasThreePoints r then
    let name ← c.nameAt 3
    return .circleThrough (← c.reference 0) (← c.reference 1) (← c.reference 2) name
  else
    let size ← c.circleSize r
    let name ← c.nameAt 2
    return .circle (← c.reference 0) size name

/-- An ellipse; a number after the semi-axes is its rotation. -/
def ellipse (c : Call α) : Except Misuse (Operation α) := do
  c.requireCount 3 5
  let (rotation, place) := match c.argument? 3 with
    | some (.number x) => (x, 4)
    | _ => (Scalar.zero, 3)
  c.requireLast place
  let name ← c.nameAt place
  return .ellipse (← c.reference 0) (← c.number 1) (← c.number 2) rotation name

/-- The operation that a verb and its arguments ask for. -/
def operation [Numeral α] (c : Call α) (r : Registry α) : Verb → Except Misuse (Operation α)
  | .point => c.point
  | .line => c.onTwo .line
  | .segment => c.onTwo .segment
  | .infiniteLine => c.onTwo .infiniteLine
  | .vector => c.vector
  | .polygon => c.polygon
  | .regularPolygon => c.regularPolygon
  | .circle => c.circle r
  | .ellipse => c.ellipse
  | .midpoint => do
    let (refs, name) ← c.referencesAndName
    return .midpoint refs name
  | .intersection => c.onTwo .intersection
  | .perpendicular => c.onTwo .perpendicular
  | .parallel => c.onTwo .parallel
  | .distance => do
    c.requireCount 2 2
    return .distance (← c.reference 0) (← c.reference 1)
  | .angle => do
    c.requireCount 3 4
    let name ← c.nameAt 3
    return .angle (← c.reference 0) (← c.reference 1) (← c.reference 2) name
  | .text => do
    c.requireCount 2 3
    let name ← c.nameAt 2
    return .label (← c.reference 0) (← c.text 1) name
  | .translate => do
    c.requireCount 3 4
    let name ← c.nameAt 3
    return .translate (← c.word 0) (← c.number 1) (← c.number 2) name
  | .rotate => do
    c.requireCount 3 4
    let name ← c.nameAt 3
    return .rotate (← c.word 0) (← c.reference 1) (← c.number 2) name
  | .reflect => do
    c.requireCount 2 3
    let name ← c.nameAt 2
    return .reflect (← c.word 0) (← c.reference 1) name
  | .color => do
    c.requireCount 2 2
    return .recolor (← c.word 0) (← c.text 1)
  | .rename => do
    c.requireCount 2 2
    return .rename (← c.word 0) (← c.word 1)
  | .title => do
    c.requireCount 1 1
    return .setTitle (← c.text 0)
  | .axisLimits => do
    c.requireCount 4 4
    return .setAxisLimits (← c.number 0) (← c.number 1) (← c.number 2) (← c.number 3)
  | .showAxes => do
    c.requireCount 1 1
    return .showAxes (← c.flag 0)

end Call

end Straightedge.Script
