import Unbundle.Scan
import Unbundle.Visibility

/-! The head of an item: its docs, attributes, visibility and qualifiers. -/
namespace Unbundle

/-- Where an item starts. -/
structure Head where
  /-- The first byte, with attached comments and attributes. -/
  start : Nat
  /-- The first byte of the visibility, of a qualifier, or of the keyword. -/
  itemStart : Nat
  /-- The attached comments and attributes. -/
  leading : Option Span
  visibility : Visibility
  visibilitySpan : Option Span
deriving DecidableEq, Repr

/-- The words that may stand between an item's visibility and its keyword. -/
def qualifierWords : List String := ["const", "async", "unsafe", "extern", "default", "auto"]

def Token.isQualifier (t : Token) : Bool := qualifierWords.any (t.isWord ·)

/-- How far a walk back from a keyword came: the first token of the item proper. -/
structure Reach where
  first : Nat
  visibility : Visibility
  visibilitySpan : Option Span
deriving DecidableEq, Repr

namespace Scan

variable (s : Scan)

/-- The closing parenthesis at `close` may end a restricted visibility, `pub(…)`. -/
def restrictedReach? (close : Nat) (t : Token) : Checked (Option Reach) :=
  match s.partner? close with
  | some (o + 1) =>
    if s.isWord o "pub" then do
      let opened ← s.token (o + 1)
      let pub ← s.token o
      let inside ← s.slice opened.stop t.start
      let span ← Span.make pub.start t.stop
      return some ⟨o, .restricted inside, some span⟩
    else .ok none
  | _ => .ok none

/-- Walks back from the token at `i` over qualifiers and calling conventions to the visibility. -/
def reach : Nat → Checked Reach
  | 0 => .ok ⟨0, .priv, none⟩
  | i + 1 => do
    let t ← s.token i
    if t.isWord "pub" then return ⟨i, .pub, some t.span⟩
    else if t.isQualifier then reach i
    else if t.isPlainString && i != 0 && s.isWord (i - 1) "extern" then reach i
    else if t.kind = .closer .paren then
      return (← s.restrictedReach? i t).getD ⟨i + 1, .priv, none⟩
    else return ⟨i + 1, .priv, none⟩

/-- Only blanks stand before the offset on its line. -/
def startsLine (offset : Nat) : Checked Bool := do
  let before ← textBefore s.text offset
  return (before.reverse.takeWhile (· != '\n')).all isBlank

/-- No blank line lies between two offsets. -/
def directlyAbove (stop nextStart : Nat) : Checked Bool := do
  return (← s.slice stop nextStart).count '\n' ≤ 1

/-- The comment before the token at `lead` stands on its own line, with no blank line after it. -/
def isAttached (comment lead : Token) : Checked Bool := do
  if ← s.startsLine comment.start then s.directlyAbove comment.stop lead.start
  else return false

/-- The closing bracket at `close` ends an outer attribute, `#[…]`; gives the index of its hash. An
inner attribute has an exclamation mark before the bracket. -/
def attributeStart? (close : Nat) : Option Nat :=
  match s.partner? close with
  | some (h + 1) => if s.kind? h = some (.punct '#') then some h else none
  | _ => none

/-- Walks back from the token at `lead` over doc comments, attached comments and attributes. -/
def leadFrom (lead : Nat) : Checked Nat :=
  match lead with
  | 0 => .ok 0
  | i + 1 => do
    let t ← s.token i
    match t.kind with
    | .comment .outerDoc => leadFrom i
    | .comment .line | .comment .block =>
      if ← s.isAttached t (← s.token (i + 1)) then leadFrom i else return i + 1
    | .closer .bracket =>
      match s.attributeStart? i with
      | some h => if h < i then leadFrom h else return i + 1
      | none => return i + 1
    | _ => return i + 1
termination_by lead

/-- The head of the item whose keyword is the token at `keyword`. -/
def head (keyword : Nat) : Checked Head := do
  let r ← s.reach keyword
  let itemStart := (← s.token r.first).start
  let lead ← s.leadFrom r.first
  let start := (← s.token lead).start
  let leading ← if start < itemStart then (Span.make start itemStart).map some else pure none
  return ⟨start, itemStart, leading, r.visibility, r.visibilitySpan⟩

end Scan
end Unbundle
