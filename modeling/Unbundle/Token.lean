import Unbundle.Text

/-! Tokens: the pieces a source text is read as. -/
namespace Unbundle

/-- The three kinds of bracket. -/
inductive Delimiter
  | paren
  | bracket
  | brace
deriving DecidableEq, Repr

namespace Delimiter

/-- The bracket a character opens. -/
def ofOpener? : Char → Option Delimiter
  | '(' => some paren
  | '[' => some bracket
  | '{' => some brace
  | _ => none

/-- The bracket a character closes. -/
def ofCloser? : Char → Option Delimiter
  | ')' => some paren
  | ']' => some bracket
  | '}' => some brace
  | _ => none

end Delimiter

inductive LiteralKind
  | str
  | rawStr
  | byteStr
  | rawByteStr
  | cStr
  | rawCStr
  | char
  | byte
  | number
deriving DecidableEq, Repr

inductive CommentKind
  | line
  | block
  | outerDoc
  | innerDoc
deriving DecidableEq, Repr

inductive TokenKind
  /-- A word; keywords are words. -/
  | ident
  /-- A word after `r#`. -/
  | rawIdent
  /-- A quote and a word: a lifetime or a loop label. -/
  | lifetime
  | literal (kind : LiteralKind)
  | comment (kind : CommentKind)
  | opener (delimiter : Delimiter)
  | closer (delimiter : Delimiter)
  /-- Any other single character. -/
  | punct (c : Char)
deriving DecidableEq, Repr

/-- A token with its first byte and its characters. It is not `closed` when it is a literal or a
block comment that ran into the end of the text. -/
structure Token where
  kind : TokenKind
  start : Nat
  chars : Text
  closed : Bool
deriving DecidableEq, Repr

namespace Token

/-- The byte after the token. -/
def stop (t : Token) : Nat := t.start + byteLength t.chars

def span (t : Token) : Span := ⟨t.start, t.stop⟩

def text (t : Token) : String := String.ofList t.chars

def isComment (t : Token) : Bool :=
  match t.kind with
  | .comment _ => true
  | _ => false

/-- The token is the word `w`, written plainly. -/
def isWord (t : Token) (w : String) : Bool := t.kind == .ident && t.chars == w.toList

/-- The token can name an item. -/
def isName (t : Token) : Bool := t.kind == .ident || t.kind == .rawIdent

/-- The token is a string that may name a calling convention. -/
def isPlainString (t : Token) : Bool :=
  t.kind == .literal .str || t.kind == .literal .rawStr

def isOpener (t : Token) : Bool :=
  match t.kind with
  | .opener _ => true
  | _ => false

/-- The starts of the tokens that ran into the end of the text. -/
def unclosed (ts : List Token) : List Nat := (ts.filter fun t => !t.closed).map start

end Token
end Unbundle
