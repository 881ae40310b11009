/-! Requests that lie outside what they are made of. -/
namespace Unbundle

/-- Why a checked operation refuses. -/
inductive Fault
  /-- A slice that is reversed, out of range, or begins or ends inside a character. -/
  | slice (start stop : Nat)
  /-- A token index past the last token. -/
  | index (i : Nat)
  /-- A span whose start is past its end. -/
  | reversed (start stop : Nat)
  /-- A number past the largest machine word. -/
  | overflow
  /-- A text with more equal quotes in a row than a document may hold. -/
  | quotes
deriving DecidableEq, Repr

/-- The result of an operation that refuses requests out of range. -/
abbrev Checked := Except Fault

/-- Machine words are below this bound. -/
def wordBound : Nat := Nat.pow 2 64

end Unbundle
