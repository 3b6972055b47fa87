/-! # File paths

Paths are sequences of parts between slashes; empty parts and the part for "here" say nothing.

* **`Path.directory?`**: the directory that a file lies in.
* **`Path.stem`**: a file name without its extension.
* **`Path.sibling`**: a path to another file in the same directory. -/

namespace Straightedge.Path

/-- The parts of a path that say something. -/
def parts (path : String) : List String :=
  (path.splitOn "/").filter fun part => part ≠ "" ∧ part ≠ "."

/-- Whether a path starts at the root. -/
def isAbsolute (path : String) : Bool := path.startsWith "/"

/-- A path from its parts. -/
def ofParts (absolute : Bool) (parts : List String) : String :=
  (if absolute then "/" else "") ++ String.intercalate "/" parts

/-- The directory that a file lies in, if the path names one. -/
def directory? (path : String) : Option String :=
  let directory := ofParts (isAbsolute path) (parts path).dropLast
  if directory.isEmpty then none else some directory

/-- The file that a path names, unless it leads upwards. -/
def fileName? (path : String) : Option String :=
  (parts path).getLast?.filter (· ≠ "..")

/-- A file name without what follows its last point; a point at the front starts no extension. -/
def stem (name : String) : String :=
  let extension := name.toList.reverse.takeWhile (· ≠ '.')
  let front := (name.toList.reverse.drop (extension.length + 1)).reverse
  if front.isEmpty then name else String.ofList front

/-- The path of a file in the directory of another file. -/
def sibling (path name : String) : String :=
  let before := if (fileName? path).isSome then (parts path).dropLast else parts path
  ofParts (isAbsolute path) (before ++ [name])

end Straightedge.Path
