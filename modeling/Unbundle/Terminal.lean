import Unbundle.Text

/-! Control sequences for terminals, and what is left of a text where no terminal reads them. -/
namespace Unbundle.Terminal

/-- How far a control sequence has come. -/
inductive Mode
  /-- Outside every sequence. -/
  | ground
  /-- After the escape character. -/
  | escape
  /-- In an escape sequence, before its last character. -/
  | intermediate
  /-- In a control sequence, which starts with `[`. -/
  | control
  /-- At the start of a device string, which starts with `P`. -/
  | deviceStart
  /-- In the numbers of a device string. -/
  | deviceParam
  /-- After the numbers of a device string. -/
  | deviceIntermediate
  /-- In a device string or a message, which run to a terminator. -/
  | string
  /-- In a system command, which starts with `]` and runs to a terminator or a bell. -/
  | command
deriving DecidableEq, Repr

namespace Mode

/-- The characters that move the cursor and show as blanks. -/
def isLayout (c : Char) : Bool := c == '\t' || c == '\n' || c == '\x0c' || c == '\r'

/-- Control characters take effect in the midst of the sequence. -/
def executes : Mode → Bool
  | ground | escape | intermediate | control => true
  | _ => false

/-- The character is shown. -/
def shows (m : Mode) (c : Char) : Bool :=
  (m == ground && ' ' ≤ c && c != '\x7f') || (m.executes && isLayout c)

/-- The mode after a character from `' '` to `'~'`. -/
def afterPlain (m : Mode) (c : Char) : Mode :=
  match m with
  | ground => ground
  | escape =>
    if c < '0' then intermediate
    else if c = '[' then control
    else if c = ']' then command
    else if c = 'P' then deviceStart
    else if c = 'X' ∨ c = '^' ∨ c = '_' then string
    else ground
  | intermediate => if c < '0' then intermediate else ground
  | control => if c < '@' then control else ground
  | deviceStart => if c < '0' then deviceIntermediate else if c < '@' then deviceParam else string
  | deviceParam => if c < '0' then deviceIntermediate else if c < '<' then deviceParam else string
  | deviceIntermediate => if c < '0' then deviceIntermediate else string
  | string => string
  | command => command

/-- The bytes of the character hold the one that terminates strings. -/
def holdsTerminator (c : Char) : Bool := (String.singleton c).toUTF8.toList.contains 0x9c

/-- The mode after any character. Two controls end every sequence, and the escape character starts a
new one. -/
def next (m : Mode) (c : Char) : Mode :=
  if c = '\x18' ∨ c = '\x1a' then ground
  else if c = '\x1b' then escape
  else if m = command ∧ c = '\x07' then ground
  else if c < ' ' ∨ c = '\x7f' then m
  else if c < '\x7f' then m.afterPlain c
  else if m = string ∧ holdsTerminator c then ground
  else m

end Mode

/-- The characters of a text that show. After one of them (`showing`) all that could be shown
outside a sequence are shown, up to a control character; there an open sequence goes on, unless a
character past ASCII has closed it. -/
def shownFrom (m : Mode) (showing : Bool) : Text → Text
  | [] => []
  | c :: cs =>
    if (if showing then Mode.ground else m).shows c then
      c :: shownFrom (if c < '\x7f' then m else .ground) true cs
    else shownFrom (m.next c) false cs

/-- The text without control sequences and control characters. -/
def plain (s : String) : String := String.ofList (shownFrom .ground false s.toList)

end Unbundle.Terminal
