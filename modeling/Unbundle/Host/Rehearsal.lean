import Unbundle.Host
import Unbundle.Tree

/-! Runs on a tree in memory. -/
namespace Unbundle

/-- The state of such a run. -/
structure Session where
  tree : Tree
  /-- Where relative paths start. -/
  cwd : Place
  printed : String
  notices : List Notice
deriving DecidableEq, Repr

/-- A run on a tree in memory. -/
abbrev Rehearsal := StateM Session

namespace Session

def start (tree : Tree) (cwd : Place) : Session := ⟨tree, cwd, "", []⟩

/-- The session after a change to its tree; a change that fails changes nothing. -/
def change (s : Session) (update : Tree → Place → Except DiskError Tree) :
    Except DiskError Unit × Session :=
  match update s.tree s.cwd with
  | .ok t => (.ok (), { s with tree := t })
  | .error e => (.error e, s)

/-- The session after a new directory is made. -/
def makeTempDir (s : Session) (parent : Path) (stem : String) : Except DiskError Path × Session :=
  match s.tree.makeTempDir s.cwd parent stem with
  | .ok (p, t) => (.ok p, { s with tree := t })
  | .error e => (.error e, s)

/-- The session after a directory is removed, as far as it could be. -/
def removeDirAll (s : Session) (p : Path) : Except DiskError Unit × Session :=
  let (result, t) := s.tree.removeDirAll s.cwd p
  (result, { s with tree := t })

/-- The names in a directory. -/
def names (s : Session) (p : Path) : List String :=
  match s.tree.locate s.cwd p with
  | .ok place => s.tree.names place
  | .error _ => []

end Session

instance : Host Rehearsal where
  isDir p := fun s => (s.tree.isDir s.cwd p, s)
  isFile p := fun s => (s.tree.isFile s.cwd p, s)
  readText p := fun s => (s.tree.readText s.cwd p, s)
  names p := fun s => (s.names p, s)
  makeDir p := fun s => s.change fun t cwd => t.makeDir cwd p
  makeTempDir parent stem := fun s => s.makeTempDir parent stem
  writeText p text := fun s => s.change fun t cwd => t.writeText cwd p text
  removeFile p := fun s => s.change fun t cwd => t.removeFile cwd p
  removeDirAll p := fun s => s.removeDirAll p
  rename p q := fun s => s.change fun t cwd => t.rename cwd p q
  print text := fun s => ((), { s with printed := s.printed ++ text })
  tell n := fun s => ((), { s with notices := s.notices ++ [n] })

/-- Runs an activity on a tree in memory. -/
def Run.rehearse {α : Type} (action : Run Rehearsal α) (s : Session) : Except Failure α × Session :=
  StateT.run action.run s

end Unbundle
