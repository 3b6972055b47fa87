import Straightedge.Binary64
import Straightedge.CommandLine.Execution

/-! # The program

* **`machine`**: the files and streams of the machine that the program runs on.
* **`main`**: carries the command line out. -/

namespace Straightedge.CommandLine

/-- The result of an action; a failure in words. -/
def attempted {β : Type} (action : IO β) : IO (Except String β) := do
  match ← action.toBaseIO with
  | .ok b => return .ok b
  | .error e => return .error (toString e)

/-- The files and streams of the machine that the program runs on. The revision of the program is
told by the environment. -/
def machine : Host IO where
  load path := attempted (IO.FS.readFile path)
  input := attempted do (← IO.getStdin).readToEnd
  ensureDirectory path := attempted (IO.FS.createDirAll path)
  save path content := attempted (IO.FS.writeFile path content)
  print content := do (← IO.getStdout).putStr content
  complain content := do (← IO.getStderr).putStr content
  revision := do
    let told ← IO.getEnv "GIT_COMMIT"
    return (told.filter (· ≠ "")).getD "unknown"

end Straightedge.CommandLine

/-- Carries the command line out. -/
def main (words : List String) : IO UInt32 :=
  Straightedge.CommandLine.answer Float Straightedge.CommandLine.machine words
