import Straightedge.Json.NumberValue

/-! # Records in JSON

A record with named fields is written as an object, or as a list of the values of its first fields.

* **`Document.record?`**: the values of the fields of a record.
* **`Document.scalar?`**, **`Document.count?`**, **`Document.word?`**: values of simple fields. -/

namespace Straightedge.Document

/-! ## Simple values -/

/-- The scalar that a value is. -/
def scalar? {α : Type} [Scalar α] : Document → Option α
  | number token => token.scalar?
  | _ => none

/-- The whole number that a value is. -/
def count? : Document → Option Nat
  | number token => token.count?
  | _ => none

/-- The text that a value is. -/
def word? : Document → Option String
  | text characters => characters.map String.ofList
  | _ => none

/-! ## Records -/

/-- The value of one field: fails if the key stands twice; `none` inside if it is absent. -/
def fieldValue? (fields : List (String × Document)) (key : String) : Option (Option Document) :=
  match fields.filter (·.1 = key) with
  | [] => some none
  | [(_, value)] => some (some value)
  | _ => none

/-- The fields of an object by their keys; fails if a key has no characters. -/
def named? (fields : List (Option (List Char) × Document)) : Option (List (String × Document)) :=
  fields.mapM fun (key, value) => key.map fun cs => (String.ofList cs, value)

/-- The values of the fields of a record, in the order of its keys. An object may leave fields out
and have others; a list gives the first fields and nothing more. -/
def record? (keys : List String) : Document → Option (List (Option Document))
  | object fields => do
    let fields ← named? fields
    keys.mapM (fieldValue? fields)
  | list items =>
    if items.length ≤ keys.length then some ((List.range keys.length).map (items[·]?)) else none
  | _ => none

/-- The value of a field that may be absent. -/
def optionalField {β : Type} (standard : β) (read : Document → Option β) :
    Option Document → Option β
  | some value => read value
  | none => some standard

/-- The value of a field that has to be there. -/
def requiredField {β : Type} (read : Document → Option β) (value : Option Document) : Option β :=
  value.bind read

end Straightedge.Document
