import Unbundle.Failure
import Unbundle.Notice
import Unbundle.Path

/-! What a run asks of its surroundings. -/
namespace Unbundle

/-- A place to run: a file system, an output and a log. -/
class Host (m : Type → Type) where
  isDir : Path → m Bool
  isFile : Path → m Bool
  readText : Path → m (Except DiskError String)
  /-- The names in a directory. -/
  names : Path → m (List String)
  /-- Makes a directory in one that exists. -/
  makeDir : Path → m (Except DiskError Unit)
  /-- Makes a directory in another, with a new name that starts as given. -/
  makeTempDir : Path → String → m (Except DiskError Path)
  /-- Writes a file, instead of the one that is there. -/
  writeText : Path → String → m (Except DiskError Unit)
  removeFile : Path → m (Except DiskError Unit)
  /-- Removes a directory with everything in it. -/
  removeDirAll : Path → m (Except DiskError Unit)
  /-- Moves a directory. -/
  rename : Path → Path → m (Except DiskError Unit)
  print : String → m Unit
  tell : Notice → m Unit

/-- An activity that may fail. -/
abbrev Run (m : Type → Type) := ExceptT Failure m

variable {m : Type → Type} [Monad m]

namespace Run

/-- Turns to the host. -/
def ask {α : Type} (action : m α) : Run m α := ExceptT.lift action

def fail {α : Type} (text : String) : Run m α := throw (.ofMessage text)

/-- Does something to files; `context` says what, should it fail. -/
def attempt {α : Type} (context : String) (action : m (Except DiskError α)) : Run m α := do
  match ← ask action with
  | .ok a => return a
  | .error e => throw ⟨[context], .disk e⟩

/-- Marks the failures of an activity as part of something larger. -/
def inContext {α : Type} (context : String) (action : Run m α) : Run m α :=
  ExceptT.adapt (Failure.within context) action

def ofChecked {α : Type} : Checked α → Run m α
  | .ok a => return a
  | .error f => throw ⟨[], .fault f⟩

/-- Runs `cleanUp` after a failure of `action`. -/
def onFailure {α : Type} (action : Run m α) (cleanUp : m Unit) : Run m α :=
  tryCatch action fun f => do
    ask cleanUp
    throw f

end Run

namespace Host

variable [Host m]

/-- There is something at a path. -/
def isThere (p : Path) : m Bool := do
  if ← isDir p then return true else isFile p

/-- Makes a directory, or finds it made. -/
def ensureDir (p : Path) : m (Except DiskError Unit) := do
  match ← makeDir p with
  | .ok _ => return .ok ()
  | .error e => if ← isDir p then return .ok () else return .error e

/-- Makes a directory, given with those above it from the path upwards. -/
def ensureChain : List Path → m (Except DiskError Unit)
  | [] => return .ok ()
  | p :: above => do
    if p.text.isEmpty then return .ok ()
    else
      match ← makeDir p with
      | .ok _ => return .ok ()
      | .error .notFound =>
        match ← ensureChain above with
        | .ok _ => ensureDir p
        | .error e => return .error e
      | .error e => if ← isDir p then return .ok () else return .error e

/-- Makes a directory with those above it. -/
def makeDirs (p : Path) : m (Except DiskError Unit) := ensureChain p.ancestors

end Host
end Unbundle
