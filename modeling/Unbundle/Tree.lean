import Unbundle.DiskError
import Unbundle.Path

/-! Directory trees, and the file operations on them. There are no links and no permissions. -/
namespace Unbundle

/-- What a file holds. -/
inductive Contents
  | text (s : String)
  /-- Bytes that are no text. -/
  | binary (bytes : List UInt8)
deriving DecidableEq, Repr

inductive Node
  | dir
  | file (contents : Contents)
deriving DecidableEq, Repr

/-- A place in a tree: the names on the way from its root. -/
abbrev Place := List String

/-- Everything in a tree but its root, which is a directory. -/
structure Tree where
  entries : List (Place × Node)
deriving DecidableEq, Repr

namespace Tree

def empty : Tree := ⟨[]⟩

/-- What is at a place. -/
def node? (t : Tree) (place : Place) : Option Node :=
  if place = [] then some .dir else t.entries.lookup place

/-- Drops everything below a place and keeps the place itself. -/
def clear (t : Tree) (place : Place) : Tree :=
  ⟨t.entries.filter fun e => !(place.isPrefixOf e.1 && place != e.1)⟩

/-- Drops a place and keeps what is below it. -/
def drop (t : Tree) (place : Place) : Tree := ⟨t.entries.filter (·.1 != place)⟩

/-- Puts something at a place, instead of what was there. -/
def put (t : Tree) (place : Place) (node : Node) : Tree :=
  ⟨(t.drop place).entries ++ [(place, node)]⟩

/-- Drops a place with everything below it. -/
def prune (t : Tree) (place : Place) : Tree := (t.clear place).drop place

/-- Moves a place with everything below it. -/
def graft (t : Tree) (source target : Place) : Tree :=
  ⟨t.entries.map fun e =>
    if source.isPrefixOf e.1 then (target ++ e.1.drop source.length, e.2) else e⟩

/-- The names in a directory. -/
def names (t : Tree) (place : Place) : List String :=
  t.entries.filterMap fun e => if e.1.dropLast = place then e.1.getLast? else none

theorem node?_nil (t : Tree) : t.node? [] = some .dir := by simp [node?]

theorem lookup_filter (keep : Place → Bool) (place : Place) (entries : List (Place × Node)) :
    (entries.filter fun e => keep e.1).lookup place =
      if keep place then entries.lookup place else none := by
  induction entries with
  | nil => simp
  | cons e es ih =>
    obtain ⟨p, n⟩ := e
    by_cases hp : place = p
    · subst hp
      rw [List.filter_cons]
      cases hk : keep place <;> simp [hk, ih]
    · have hb : (place == p) = false := beq_eq_false_iff_ne.mpr hp
      cases hk : keep p <;> simp [hk, hb, ih, List.lookup_cons]

/-- A place other than the root is dropped, and the others stay. -/
theorem node?_drop {t : Tree} {p q : Place} (hq : q ≠ []) :
    (t.drop p).node? q = if q = p then none else t.node? q := by
  simp only [node?, drop, hq, if_false]
  rw [lookup_filter (· != p)]
  by_cases h : q = p <;> simp [h]

/-- Below a cleared place nothing is left, and all else stays. -/
theorem node?_clear {t : Tree} {p q : Place} (hq : q ≠ []) :
    (t.clear p).node? q = if p.isPrefixOf q && p != q then none else t.node? q := by
  simp only [node?, clear, hq, if_false]
  rw [lookup_filter fun e => !(p.isPrefixOf e && p != e)]
  by_cases h : (p.isPrefixOf q && p != q) = true <;> simp [h]

/-- What was put at a place is there, and all else stays. -/
theorem node?_put {t : Tree} {p q : Place} {n : Node} (hq : q ≠ []) :
    (t.put p n).node? q = if q = p then some n else t.node? q := by
  have hd := node?_drop (t := t) (p := p) hq
  simp only [node?, hq, if_false] at hd
  simp only [node?, put, hq, if_false, List.lookup_append, hd]
  by_cases h : q = p
  · subst h; simp
  · have hb : (q == p) = false := beq_eq_false_iff_ne.mpr h
    simp [h, hb, List.lookup_cons]

/-- One step from a place. The root is above itself. -/
def step (place : Place) (piece : Text) : Place :=
  if piece = [] ∨ piece = ['.'] then place
  else if piece = ['.', '.'] then place.dropLast
  else place ++ [String.ofList piece]

/-- The longest name, in bytes. -/
def nameLimit : Nat := 255

/-- Paths are shorter than this, in bytes. -/
def pathLimit : Nat := 4096

/-- Follows the pieces of a path, each from a directory. -/
def follow (t : Tree) : Place → List Text → Except DiskError Place
  | place, [] => .ok place
  | place, piece :: rest =>
    match t.node? place with
    | some .dir =>
      if byteLength piece ≤ nameLimit then follow t (step place piece) rest else .error .nameTooLong
    | some (.file _) => .error .notADirectory
    | none => .error .notFound

/-- Follows some pieces of a path from the directory `cwd`, unless the path as a whole is no
path. -/
def reach (t : Tree) (cwd : Place) (p : Path) (pieces : List Text) : Except DiskError Place :=
  if p.text.isEmpty then .error .notFound
  else if p.text.toList.contains '\x00' then .error .zeroInPath
  else if p.text.utf8ByteSize ≥ pathLimit then .error .nameTooLong
  else t.follow (if p.isAbsolute then [] else cwd) pieces

/-- The place a path leads to; there need not be anything there. A slash at the end asks for a
directory before it. -/
def locate (t : Tree) (cwd : Place) (p : Path) : Except DiskError Place := t.reach cwd p p.pieces

/-- The place a path names, whatever slashes it ends with. -/
def locateName (t : Tree) (cwd : Place) (p : Path) : Except DiskError Place :=
  t.reach cwd p p.namedPieces

/-- What a path leads to. -/
def find? (t : Tree) (cwd : Place) (p : Path) : Option Node :=
  match t.locate cwd p with
  | .ok place => t.node? place
  | .error _ => none

def isDir (t : Tree) (cwd : Place) (p : Path) : Bool := t.find? cwd p == some .dir

def isFile (t : Tree) (cwd : Place) (p : Path) : Bool :=
  match t.find? cwd p with
  | some (.file _) => true
  | _ => false

/-- The text of a file. -/
def readText (t : Tree) (cwd : Place) (p : Path) : Except DiskError String :=
  match t.locate cwd p with
  | .error e => .error e
  | .ok place =>
    match t.node? place with
    | none => .error .notFound
    | some .dir => .error .isADirectory
    | some (.file (.binary _)) => .error .notText
    | some (.file (.text s)) => .ok s

/-- Makes a directory in one that exists. -/
def makeDir (t : Tree) (cwd : Place) (p : Path) : Except DiskError Tree :=
  match t.locateName cwd p with
  | .error e => .error e
  | .ok place =>
    match t.node? place with
    | some _ => .error .alreadyThere
    | none => .ok (t.put place .dir)

/-- Six digits. -/
def sixDigits (n : Nat) : String :=
  let digits := toString n
  "".pushn '0' (6 - digits.length) ++ digits

/-- Makes a directory with a new name that starts with `stem`. -/
def makeTempDir (t : Tree) (cwd : Place) (parent : Path) (stem : String) :
    Except DiskError (Path × Tree) :=
  let candidates :=
    (List.range (t.entries.length + 1)).map fun n => parent.join ⟨stem ++ sixDigits n⟩
  match candidates.find? fun p => (t.find? cwd p).isNone with
  | none => .error .alreadyThere
  | some p => (t.makeDir cwd p).map fun made => (p, made)

/-- Writes a file in a directory that exists. A path that ends with a slash names a directory. -/
def writeText (t : Tree) (cwd : Place) (p : Path) (s : String) : Except DiskError Tree :=
  match t.locateName cwd p with
  | .error e => .error e
  | .ok place =>
    if p.namedPieces.length < p.pieces.length then .error .isADirectory
    else
      match t.node? place with
      | some .dir => .error .isADirectory
      | _ => .ok (t.put place (.file (.text s)))

def removeFile (t : Tree) (cwd : Place) (p : Path) : Except DiskError Tree :=
  match t.locate cwd p with
  | .error e => .error e
  | .ok place =>
    match t.node? place with
    | none => .error .notFound
    | some .dir => .error .isADirectory
    | some (.file _) => .ok (t.drop place)

/-- Removes an empty directory. The path must not end in a dot. -/
def removeEmpty (t : Tree) (cwd : Place) (p : Path) : Except DiskError Tree :=
  match t.locate cwd p with
  | .error e => .error e
  | .ok place =>
    if place = [] then .error .busy
    else if p.namedPieces.getLast? = some ['.'] then .error .invalid
    else if p.namedPieces.getLast? = some ['.', '.'] then .error .notEmpty
    else .ok (t.drop place)

/-- Removes a directory with everything in it: first what it holds, then the directory itself, so
that a failure of the second step leaves it empty. The path may lead through what was removed first;
then there is nothing left to remove. -/
def removeDirAll (t : Tree) (cwd : Place) (p : Path) : Except DiskError Unit × Tree :=
  match t.locate cwd p with
  | .error e => (.error e, t)
  | .ok place =>
    match t.node? place with
    | none => (.error .notFound, t)
    | some (.file _) => (.error .notADirectory, t)
    | some .dir =>
      let cleared := t.clear place
      match cleared.removeEmpty cwd p with
      | .ok removed => (.ok (), removed)
      | .error .notFound => (.ok (), cleared)
      | .error e => (.error e, cleared)

/-- Moves a directory to a place where there is nothing, or an empty directory. -/
def rename (t : Tree) (cwd : Place) (p q : Path) : Except DiskError Tree :=
  match t.locate cwd p, t.locateName cwd q with
  | .error e, _ => .error e
  | _, .error e => .error e
  | .ok source, .ok target =>
    match t.node? source, t.node? target with
    | none, _ => .error .notFound
    | _, none => .ok (t.graft source target)
    | _, some (.file _) => .error .notADirectory
    | _, some .dir =>
      if (t.names target).isEmpty then .ok ((t.drop target).graft source target)
      else .error .notEmpty

/-- Writes a file or makes a directory, with the directories above it. -/
def plant (t : Tree) (place : Place) (node : Node) : Tree :=
  let above := (List.range place.length).map place.take
  let t := above.foldl (fun t p => if (t.node? p).isSome then t else t.put p .dir) t
  match node with
  | .dir => if (t.node? place).isSome then t else t.put place node
  | .file _ => t.put place node

/-- The files and the empty directories below a place, by their paths from there. -/
def listing (t : Tree) (place : Place) : List (String × Node) :=
  t.entries.filterMap fun e =>
    if place.isPrefixOf e.1 && place != e.1 then
      match e.2 with
      | .file c => some ("/".intercalate (e.1.drop place.length), .file c)
      | .dir =>
        if (t.names e.1).isEmpty then some ("/".intercalate (e.1.drop place.length), .dir) else none
    else none

end Tree
end Unbundle
