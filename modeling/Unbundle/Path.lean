import Unbundle.Text

/-! File paths: texts whose parts are divided by slashes. -/
namespace Unbundle

structure Path where
  text : String
deriving DecidableEq, Repr

/-- The pieces of a text between slashes. -/
def slashPieces : Text → List Text
  | [] => [[]]
  | c :: cs =>
    if c = '/' then [] :: slashPieces cs
    else
      match slashPieces cs with
      | p :: ps => (c :: p) :: ps
      | [] => [[c]]

/-- One step of a path. -/
inductive PathPart
  | root
  | here
  | up
  | name (s : String)
deriving DecidableEq, Repr

namespace Path

/-- The path starts at the root of all files. -/
def isAbsolute (p : Path) : Bool := p.text.toList.head? == some '/'

def pieces (p : Path) : List Text := slashPieces p.text.toList

/-- The pieces without the empty ones at the end. -/
def namedPieces (p : Path) : List Text := (p.pieces.reverse.dropWhile List.isEmpty).reverse

/-- The step a piece stands for. Empty pieces and dots stand for none, but for a dot at the very
start. -/
def partOf? (first : Bool) (piece : Text) : Option PathPart :=
  if piece = [] then none
  else if piece = ['.'] then if first then some .here else none
  else if piece = ['.', '.'] then some .up
  else some (.name (String.ofList piece))

/-- The steps of a path. -/
def parts (p : Path) : List PathPart :=
  match p.pieces with
  | [] => []
  | q :: qs =>
    (if p.isAbsolute then [.root] else (partOf? true q).toList) ++ qs.filterMap (partOf? false)

/-- Two paths lead the same way. -/
def sameWay (p q : Path) : Bool := p.parts == q.parts

/-- The path `q` seen from the directory `p`. -/
def join (p q : Path) : Path :=
  if q.isAbsolute || p.text.isEmpty then q
  else if p.text.toList.getLast? = some '/' then ⟨p.text ++ q.text⟩
  else ⟨p.text ++ "/" ++ q.text⟩

/-- Drops the pieces at the end that are no steps, given the pieces from the last to the first. -/
def dropIdle (absolute : Bool) : List Text → List Text
  | [] => []
  | [p] => if p.isEmpty && !absolute then [] else [p]
  | p :: q :: ps => if p = [] ∨ p = ['.'] then dropIdle absolute (q :: ps) else p :: q :: ps

/-- The path that pieces spell, given from the last to the first. -/
def ofReversed (absolute : Bool) (ps : List Text) : Path :=
  if absolute && ps.length ≤ 1 then ⟨"/"⟩ else ⟨String.ofList (joinWith ['/'] ps.reverse)⟩

/-- The pieces of a path from its last step to its first. -/
def reversed (p : Path) : List Text := dropIdle p.isAbsolute p.pieces.reverse

/-- The path without its last step; `none` when it has no step to lose. -/
def parent? (p : Path) : Option Path :=
  match p.reversed with
  | [] => none
  | q :: ps =>
    if p.isAbsolute && q.isEmpty then none
    else some (ofReversed p.isAbsolute (dropIdle p.isAbsolute ps))

/-- The path and those above it, from the path upwards. -/
def upwards : Nat → Path → List Path
  | 0, _ => []
  | n + 1, p =>
    match p.parent? with
    | some q => p :: upwards n q
    | none => [p]

/-- The path and all those above it: each has at least one piece less. -/
def ancestors (p : Path) : List Path := upwards (p.pieces.length + 1) p

/-- The directory that holds what the path names. -/
def container (p : Path) : Path :=
  match p.parent? with
  | some q => if q.text.isEmpty then ⟨"."⟩ else q
  | none => ⟨"."⟩

/-- The name at the end of the path. -/
def fileName? (p : Path) : Option Text :=
  match p.reversed with
  | q :: _ => if q = [] ∨ q = ['.'] ∨ q = ['.', '.'] then none else some q
  | [] => none

/-- A name without its last dot and what follows it; a dot at the start does not count. -/
def stemOf (name : Text) : Text :=
  let before := (name.reverse.dropWhile (· != '.')).drop 1
  if before.isEmpty then name else before.reverse

/-- The name at the end of the path, without its ending. -/
def fileStem? (p : Path) : Option String := p.fileName?.map fun name => String.ofList (stemOf name)

end Path
end Unbundle
