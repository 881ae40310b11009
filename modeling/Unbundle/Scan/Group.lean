import Unbundle.Scan
import Unbundle.Text.Quoted

/-! Groups: from an opening bracket to where it closes, and the token that ends an item. -/
namespace Unbundle

/-- Where a group closes: the first and the last byte of its closing bracket. A group that is never
closed ends with the text, and then `close` is the last character. -/
structure Group where
  close : Nat
  stop : Nat
  closed : Bool
deriving DecidableEq, Repr

/-- Why no group starts at an offset. -/
inductive GroupError
  | outOfBounds (offset length : Nat)
  | notAnOpener (offset : Nat) (found : Char)
deriving DecidableEq, Repr

def GroupError.message : GroupError → String
  | outOfBounds offset length => s!"offset {offset} is outside the source ({length} bytes)"
  | notAnOpener offset found =>
    s!"expected an opening delimiter at offset {offset}, found " ++ quotedChar found

/-- How the tokens of an item end. -/
inductive Terminator
  /-- At the semicolon with this index. -/
  | semicolon (i : Nat)
  /-- With the block that the brace with this index opens. -/
  | block (i : Nat)
deriving DecidableEq, Repr

namespace Scan

variable (s : Scan)

/-- The group that runs to the end of the text. -/
def openEnded : Group := ⟨lastOffset s.text, byteLength s.text, false⟩

/-- The group that the token at `i` opens. -/
def group (i : Nat) : Group :=
  match s.partner? i with
  | some j =>
    match s.token? j with
    | some t => if i < j then ⟨t.start, t.stop, true⟩ else s.openEnded
    | none => s.openEnded
  | none => s.openEnded

/-- Names the character at an offset where no group opens. -/
def notAnOpenerAt (offset : Nat) : Checked GroupError := do
  let after ← textFrom s.text offset
  return .notAnOpener offset (after.headD '\x00')

/-- The group that opens at a byte offset of the text. -/
def groupAt (offset : Nat) : Checked (Except GroupError Group) :=
  if byteLength s.text ≤ offset then .ok (.error (.outOfBounds offset (byteLength s.text)))
  else
    match s.tokenAt? offset with
    | some i =>
      if (s.token? i).any Token.isOpener then .ok (.ok (s.group i))
      else (s.notAnOpenerAt offset).map .error
    | none => (s.notAnOpenerAt offset).map .error

/-- Walks from the token at `i` to the one that ends an item: a semicolon, or an opening brace when
`blockEnds`. Groups are passed whole, so the semicolon of `[u8; 4]` ends nothing; a group that is
never closed has no end to walk to. -/
def terminator? (blockEnds : Bool) (i : Nat) : Option Terminator :=
  if h : i < s.tokens.size then
    match s.tokens[i].kind with
    | .punct ';' => some (.semicolon i)
    | .opener d =>
      if d = .brace ∧ blockEnds then some (.block i)
      else
        match s.partner? i with
        | some j => if i ≤ j then terminator? blockEnds (j + 1) else none
        | none => none
    | _ => terminator? blockEnds (i + 1)
  else none
termination_by s.tokens.size - i

end Scan

/-- The group that opens at a byte offset, read from there on without regard to what comes
before. -/
def matchingBracket (text : Text) (offset : Nat) : Except GroupError Group :=
  match cutAt offset text with
  | some (_, c :: cs) =>
    if (Delimiter.ofOpener? c).isSome then
      let g := (Scan.ofText (c :: cs)).group 0
      .ok ⟨g.close + offset, g.stop + offset, g.closed⟩
    else .error (.notAnOpener offset c)
  | _ => .error (.outOfBounds offset (byteLength text))

end Unbundle
