import Unbundle.Scan.Pairing
import Unbundle.Token.Lexer

/-! A text with its tokens and its brackets paired. -/
namespace Unbundle

structure Scan where
  text : Text
  tokens : Array Token
  depths : Array Nat
  pairing : Pairing

namespace Scan

/-- Reads a text and pairs its brackets. -/
def ofText (text : Text) : Scan :=
  let tokens := tokenize text
  let pairing := Pairing.ofKinds [] 0 (tokens.map Token.kind)
  ⟨text, tokens.toArray, pairing.depths.toArray, pairing⟩

variable (s : Scan)

/-- The number of tokens. -/
def size : Nat := s.tokens.size

def token? (i : Nat) : Option Token := s.tokens[i]?

/-- The token at an index, which must be in range. -/
def token (i : Nat) : Checked Token :=
  match s.tokens[i]? with
  | some t => .ok t
  | none => .error (.index i)

def kind? (i : Nat) : Option TokenKind := (s.token? i).map Token.kind

/-- The token at the index is the word `w`. -/
def isWord (i : Nat) (w : String) : Bool := (s.token? i).any (·.isWord w)

/-- The number of groups around the token at an index, which must be in range. -/
def depth (i : Nat) : Checked Nat :=
  match s.depths[i]? with
  | some d => .ok d
  | none => .error (.index i)

/-- The token at the index is outside every group. -/
def isTopLevel (i : Nat) : Bool := s.depths[i]? == some 0

def partner? (i : Nat) : Option Nat := s.pairing.partner? i

/-- The starts of literals and comments that ran into the end of the text. -/
def unclosed : List Nat := Token.unclosed s.tokens.toList

/-- The index of the token that starts at `offset`. -/
def tokenAt? (offset : Nat) : Option Nat := s.tokens.findIdx? (·.start == offset)

/-- The index of the first token that starts at or after `offset`; the number of tokens when there
is none. -/
def firstFrom (offset : Nat) : Nat := s.tokens.findIdx (offset ≤ ·.start)

/-- The tokens that start inside a span. A reversed span is refused when its ends fall on different
tokens. -/
def tokensIn (span : Span) : Checked (List Token) :=
  let first := s.firstFrom span.start
  let last := s.firstFrom span.stop
  if first ≤ last then .ok (s.tokens.extract first last).toList else .error (.slice first last)

/-- The first index from `i` on whose token is no comment. -/
def codeFrom? (i : Nat) : Option Nat :=
  if h : i < s.tokens.size then
    if s.tokens[i].isComment then codeFrom? (i + 1) else some i
  else none
termination_by s.tokens.size - i

/-- The next token after `i` that is no comment. -/
def nextCode? (i : Nat) : Option Nat := s.codeFrom? (i + 1)

/-- `nextCode?` on an index that may be the largest machine word, whose successor does not exist. -/
def nextCode (i : Nat) : Checked (Option Nat) :=
  if i + 1 < wordBound then .ok (s.nextCode? i) else .error .overflow

/-- The last token before `i` that is no comment. -/
def prevCode? : Nat → Option Nat
  | 0 => none
  | i + 1 =>
    match s.tokens[i]? with
    | some t => if t.isComment then prevCode? i else some i
    | none => none

/-- The characters between two byte offsets. -/
def slice (start stop : Nat) : Checked Text := Unbundle.slice s.text start stop

/-- The line that holds the byte at `offset`. -/
def line (offset : Nat) : Nat := lineOf s.text offset

end Scan
end Unbundle
