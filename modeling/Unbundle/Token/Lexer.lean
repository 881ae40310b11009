import Unbundle.Text.Blank
import Unbundle.Text.Letter
import Unbundle.Text.Numeral
import Unbundle.Token

/-! Reading a text as tokens. Literals, lifetimes and comments come out as single tokens, so
brackets inside them are never seen. Every reader takes a first part of its text and leaves the
rest, and the rest of a token is shorter than the text it was read from. -/
namespace Unbundle

def isIdentStart (c : Char) : Bool := c == '_' || isLetter c

def isIdentContinue (c : Char) : Bool := c == '_' || isLetter c || isNumeral c

/-- A text cut in two. It is not `closed` when the cut is the end of the text and the first part was
still open there. -/
structure Cut where
  taken : Text
  rest : Text
  closed : Bool
deriving DecidableEq, Repr

namespace Cut

/-- Puts characters in front of the first part. -/
def after (cs : Text) (c : Cut) : Cut := { c with taken := cs ++ c.taken }

/-- The longest first part all of whose characters pass `p`. -/
def run (p : Char → Bool) (cs : Text) : Cut := ⟨cs.takeWhile p, cs.dropWhile p, true⟩

/-- The two parts together. -/
def whole (c : Cut) : Text := c.taken ++ c.rest

@[simp] theorem whole_after (cs : Text) (c : Cut) : (c.after cs).whole = cs ++ c.whole := by
  simp [whole, after]

@[simp] theorem rest_after (cs : Text) (c : Cut) : (c.after cs).rest = c.rest := rfl

@[simp] theorem whole_run (p : Char → Bool) (cs : Text) : (run p cs).whole = cs := by
  simp [whole, run]

end Cut

/-- The rest of a quoted literal after its opening quote. A backslash takes the next character with
it. -/
def quotedBody (quote : Char) : Text → Cut
  | [] => ⟨[], [], false⟩
  | ['\\'] => ⟨['\\'], [], false⟩
  | '\\' :: c :: cs => (quotedBody quote cs).after ['\\', c]
  | c :: cs => if c = quote then ⟨[c], cs, true⟩ else (quotedBody quote cs).after [c]

@[simp] theorem whole_quotedBody (quote : Char) (cs : Text) : (quotedBody quote cs).whole = cs := by
  fun_induction quotedBody quote cs <;> simp_all [Cut.whole, Cut.after]

/-- The rest of a raw string with `hashes` hashes after its opening quote. -/
def rawBody (hashes : Nat) : Text → Cut
  | [] => ⟨[], [], false⟩
  | c :: cs =>
    if c = '"' ∧ (List.replicate hashes '#').isPrefixOf cs then
      ⟨c :: cs.take hashes, cs.drop hashes, true⟩
    else (rawBody hashes cs).after [c]

@[simp] theorem whole_rawBody (hashes : Nat) (cs : Text) : (rawBody hashes cs).whole = cs := by
  fun_induction rawBody hashes cs <;> simp_all [Cut.whole, Cut.after]

/-- The rest of a block comment inside which `depth` further comments are open. -/
def blockBody : Nat → Text → Cut
  | _, [] => ⟨[], [], false⟩
  | depth, '/' :: '*' :: cs => (blockBody (depth + 1) cs).after ['/', '*']
  | 0, '*' :: '/' :: cs => ⟨['*', '/'], cs, true⟩
  | depth + 1, '*' :: '/' :: cs => (blockBody depth cs).after ['*', '/']
  | depth, c :: cs => (blockBody depth cs).after [c]

@[simp] theorem whole_blockBody (depth : Nat) (cs : Text) : (blockBody depth cs).whole = cs := by
  fun_induction blockBody depth cs <;> simp_all [Cut.whole, Cut.after]

/-- The hashes, quote and body of a raw string, when one starts here. -/
def rawString? (cs : Text) : Option Cut :=
  match cs.dropWhile (· == '#') with
  | '"' :: body =>
    let hashes := cs.takeWhile (· == '#')
    some ((rawBody hashes.length body).after (hashes ++ ['"']))
  | _ => none

theorem whole_rawString? {cs : Text} {cut : Cut} (h : rawString? cs = some cut) :
    cut.whole = cs := by
  unfold rawString? at h
  split at h
  · rename_i body hb
    simp only [Option.some.injEq] at h
    subst h
    have := List.takeWhile_append_dropWhile (p := (· == '#')) (l := cs)
    rw [hb] at this
    simp [this]
  · simp at h

/-- The rest of a number: letters, digits and underscores, and a point where a digit follows. So the
points of `0..9` and `1.max(2)` do not belong to the number. -/
def numberTail : Text → Cut
  | [] => ⟨[], [], true⟩
  | c :: cs =>
    if isIdentContinue c || (c == '.' && cs.head?.any Char.isDigit) then (numberTail cs).after [c]
    else ⟨[], c :: cs, true⟩

@[simp] theorem whole_numberTail (cs : Text) : (numberTail cs).whole = cs := by
  fun_induction numberTail cs <;> simp_all [Cut.whole, Cut.after]

/-- What is read at the start of a text: a token's kind and its cut. -/
structure Lexeme extends Cut where
  kind : TokenKind
deriving DecidableEq, Repr

/-- The rest of a word. -/
def identTail (cs : Text) : Cut := .run isIdentContinue cs

/-- A line comment is a doc comment after exactly three slashes, or `//!`. -/
def lineCommentKind : Text → CommentKind
  | '/' :: '/' :: '/' :: '/' :: _ => .line
  | '/' :: '/' :: '/' :: _ => .outerDoc
  | '/' :: '/' :: '!' :: _ => .innerDoc
  | _ => .line

/-- A block comment is a doc comment after exactly two stars, or `/*!`; `/**/` is none. -/
def blockCommentKind : Text → CommentKind
  | '/' :: '*' :: '*' :: '*' :: _ => .block
  | '/' :: '*' :: '*' :: '/' :: _ => .block
  | '/' :: '*' :: '*' :: _ => .outerDoc
  | '/' :: '*' :: '!' :: _ => .innerDoc
  | _ => .block

/-- What a quote starts, given the text after it: an escaped character, a character, a lifetime, or
nothing but itself. -/
def afterQuote : Text → Lexeme
  | '\\' :: cs => ⟨(quotedBody '\x27' ('\\' :: cs)).after ['\x27'], .literal .char⟩
  | c :: '\x27' :: cs =>
    if c = '\x27' then ⟨⟨['\x27'], c :: '\x27' :: cs, true⟩, .punct '\x27'⟩
    else ⟨⟨['\x27', c, '\x27'], cs, true⟩, .literal .char⟩
  | c :: cs =>
    if isIdentStart c then ⟨(identTail (c :: cs)).after ['\x27'], .lifetime⟩
    else ⟨⟨['\x27'], c :: cs, true⟩, .punct '\x27'⟩
  | [] => ⟨⟨['\x27'], [], true⟩, .punct '\x27'⟩

@[simp] theorem whole_afterQuote (cs : Text) : (afterQuote cs).whole = '\x27' :: cs := by
  unfold afterQuote
  split <;> (try split) <;> simp [Cut.whole, Cut.after, identTail, Cut.run]
  exact whole_quotedBody _ _

/-- A word that starts with `c`. -/
def word (c : Char) (cs : Text) : Lexeme := ⟨(identTail cs).after [c], .ident⟩

@[simp] theorem whole_word (c : Char) (cs : Text) : (word c cs).whole = c :: cs := by
  simp [word, identTail]

/-- A raw string after the characters `before`, or else a word that starts with `c`. -/
def rawOrWord (kind : LiteralKind) (before cs : Text) (orElse : Lexeme) : Lexeme :=
  match rawString? cs with
  | some cut => ⟨cut.after before, .literal kind⟩
  | none => orElse

theorem whole_rawOrWord {kind : LiteralKind} {before cs : Text} {l : Lexeme}
    (h : l.whole = before ++ cs) : (rawOrWord kind before cs l).whole = before ++ cs := by
  unfold rawOrWord
  split
  · rename_i cut hc
    simp [whole_rawString? hc]
  · exact h

/-- What follows the letters `r`, `b` and `c`: they may start a literal or a raw word. -/
def lettered : Char → Text → Lexeme
  | 'r', '"' :: cs => rawOrWord .rawStr ['r'] ('"' :: cs) (word 'r' ('"' :: cs))
  | 'r', '#' :: cs =>
    rawOrWord .rawStr ['r'] ('#' :: cs)
      (if cs.head?.any isIdentStart then ⟨(identTail cs).after ['r', '#'], .rawIdent⟩
       else word 'r' ('#' :: cs))
  | 'b', '"' :: cs => ⟨(quotedBody '"' cs).after ['b', '"'], .literal .byteStr⟩
  | 'b', '\x27' :: cs => ⟨(quotedBody '\x27' cs).after ['b', '\x27'], .literal .byte⟩
  | 'b', 'r' :: cs => rawOrWord .rawByteStr ['b', 'r'] cs (word 'b' ('r' :: cs))
  | 'c', '"' :: cs => ⟨(quotedBody '"' cs).after ['c', '"'], .literal .cStr⟩
  | 'c', 'r' :: cs => rawOrWord .rawCStr ['c', 'r'] cs (word 'c' ('r' :: cs))
  | c, cs => word c cs

@[simp] theorem whole_lettered (c : Char) (cs : Text) : (lettered c cs).whole = c :: cs := by
  unfold lettered
  split
  · exact whole_rawOrWord (by simp)
  · refine whole_rawOrWord ?_
    split <;> simp [identTail]
  · simp
  · simp
  · exact whole_rawOrWord (by simp)
  · simp
  · exact whole_rawOrWord (by simp)
  · simp

/-- A bracket, or a character that stands for itself. -/
def mark (c : Char) (cs : Text) : Lexeme :=
  ⟨⟨[c], cs, true⟩,
    match Delimiter.ofOpener? c, Delimiter.ofCloser? c with
    | some d, _ => .opener d
    | none, some d => .closer d
    | none, none => .punct c⟩

@[simp] theorem whole_mark (c : Char) (cs : Text) : (mark c cs).whole = c :: cs := rfl

/-- Reads one token at the start of the text `c :: cs`, whose first character is not blank. -/
def lexeme (c : Char) (cs : Text) : Lexeme :=
  match c, cs with
  | '/', '/' :: _ => ⟨(Cut.run (· != '\n') cs).after ['/'], .comment (lineCommentKind ('/' :: cs))⟩
  | '/', '*' :: body =>
    ⟨(blockBody 0 body).after ['/', '*'], .comment (blockCommentKind ('/' :: cs))⟩
  | '"', _ => ⟨(quotedBody '"' cs).after ['"'], .literal .str⟩
  | '\x27', _ => afterQuote cs
  | _, _ =>
    if c = 'r' ∨ c = 'b' ∨ c = 'c' then lettered c cs
    else if isIdentStart c then word c cs
    else if c.isDigit then ⟨(numberTail cs).after [c], .literal .number⟩
    else mark c cs

/-- Reading loses and repeats nothing. -/
@[simp] theorem whole_lexeme (c : Char) (cs : Text) : (lexeme c cs).whole = c :: cs := by
  unfold lexeme
  split <;> (try split) <;> (try split) <;> (try split) <;> simp

theorem head?_rawOrWord {kind : LiteralKind} {c : Char} {before cs : Text} {l : Lexeme}
    (h : l.taken.head? = some c) : (rawOrWord kind (c :: before) cs l).taken.head? = some c := by
  unfold rawOrWord
  split <;> simp [Cut.after, h]

theorem head?_lettered (c : Char) (cs : Text) : (lettered c cs).taken.head? = some c := by
  unfold lettered
  split
  · exact head?_rawOrWord (by simp [word, Cut.after])
  · refine head?_rawOrWord ?_
    split <;> simp [word, Cut.after]
  · simp [Cut.after]
  · simp [Cut.after]
  · exact head?_rawOrWord (by simp [word, Cut.after])
  · simp [Cut.after]
  · exact head?_rawOrWord (by simp [word, Cut.after])
  · simp [word, Cut.after]

theorem head?_afterQuote (cs : Text) : (afterQuote cs).taken.head? = some '\x27' := by
  unfold afterQuote
  split <;> (try split) <;> simp [Cut.after]

/-- A token starts with the character it was read at. -/
theorem head?_lexeme (c : Char) (cs : Text) : (lexeme c cs).taken.head? = some c := by
  unfold lexeme
  split
  · simp [Cut.after]
  · simp [Cut.after]
  · simp [Cut.after]
  · exact head?_afterQuote _
  · split
    · exact head?_lettered _ _
    · split
      · simp [word, Cut.after]
      · split <;> simp [mark, Cut.after]

/-- Reading a token makes the text shorter. -/
theorem length_rest_lexeme (c : Char) (cs : Text) :
    (lexeme c cs).rest.length < (c :: cs).length := by
  have hw := congrArg List.length (whole_lexeme c cs)
  have hh := head?_lexeme c cs
  simp only [Cut.whole, List.length_append] at hw
  cases ht : (lexeme c cs).taken with
  | nil => simp [ht] at hh
  | cons d ds => rw [ht, List.length_cons] at hw; omega

/-- A place in a text: its byte offset and what follows it. -/
structure Cursor where
  offset : Nat
  rest : Text
deriving DecidableEq, Repr

namespace Cursor

/-- The next token, blanks skipped, and the place after it. -/
def next? (cur : Cursor) : Option (Token × Cursor) :=
  match cur.rest.dropWhile isBlank with
  | [] => none
  | c :: cs =>
    let l := lexeme c cs
    let start := cur.offset + byteLength (cur.rest.takeWhile isBlank)
    some (⟨l.kind, start, l.taken, l.closed⟩, ⟨start + byteLength l.taken, l.rest⟩)

theorem length_rest_next? {cur after : Cursor} {t : Token} (h : cur.next? = some (t, after)) :
    after.rest.length < cur.rest.length := by
  unfold next? at h
  split at h
  · simp at h
  · rename_i c cs hd
    simp only [Option.some.injEq, Prod.mk.injEq] at h
    obtain ⟨-, rfl⟩ := h
    have hl := length_rest_lexeme c cs
    have hs := (List.dropWhile_suffix (l := cur.rest) isBlank).length_le
    rw [hd] at hs
    show (lexeme c cs).rest.length < _
    omega

/-- The tokens from here to the end of the text. -/
def tokens (cur : Cursor) : List Token :=
  match _h : cur.next? with
  | none => []
  | some (t, after) => t :: after.tokens
termination_by cur.rest.length
decreasing_by exact length_rest_next? _h

end Cursor

/-- The tokens of a text, comments included. -/
def tokenize (text : Text) : List Token := Cursor.tokens ⟨0, text⟩

end Unbundle
