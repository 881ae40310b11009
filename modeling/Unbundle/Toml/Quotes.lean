import Unbundle.Toml.Number

/-! TOML strings: basic and literal, on one line or on several. -/
namespace Unbundle.Toml

/-- A character that may stand in a string or a comment: no control character but the tab. -/
def isPlain (c : Char) : Bool := c == '\t' || (' ' ≤ c && c != '\x7f')

/-- A line break, which is a line feed with or without a carriage return. -/
def newline? : Text → Option Text
  | '\n' :: cs => some cs
  | '\r' :: '\n' :: cs => some cs
  | _ => none

def isSpace (c : Char) : Bool := c == ' ' || c == '\t'

def skipSpaces (cs : Text) : Text := cs.dropWhile isSpace

/-- Skips spaces and line breaks. -/
def skipLines : Text → Text
  | '\r' :: '\n' :: cs => skipLines cs
  | c :: cs => if isSpace c || c == '\n' then skipLines cs else c :: cs
  | [] => []

/-- The character with a code point of `n` hexadecimal digits. -/
def codePoint (n : Nat) (cs : Text) : Option (Char × Text) :=
  let ds := cs.take n
  let code := numberOf 16 ds
  if ds.length = n && ds.all isHexDigit && code.isValidChar then some (Char.ofNat code, cs.drop n)
  else none

/-- The character an escape stands for, after its backslash. -/
def escape : Reader Char
  | 'b' :: cs => some ('\x08', cs)
  | 't' :: cs => some ('\t', cs)
  | 'n' :: cs => some ('\n', cs)
  | 'f' :: cs => some ('\x0c', cs)
  | 'r' :: cs => some ('\r', cs)
  | '"' :: cs => some ('"', cs)
  | '\\' :: cs => some ('\\', cs)
  | 'u' :: cs => codePoint 4 cs
  | 'U' :: cs => codePoint 8 cs
  | _ => none

/-- Puts a character in front of a string that was read. -/
def push (c : Char) (r : Option (Text × Text)) : Option (Text × Text) :=
  r.map fun (inside, rest) => (c :: inside, rest)

/-- The rest of a basic string on one line, in at most `fuel` steps. -/
def basicBody : Nat → Reader Text
  | 0, _ => none
  | fuel + 1, cs =>
    match cs with
    | '"' :: rest => some ([], rest)
    | '\\' :: rest =>
      match escape rest with
      | some (c, rest) => push c (basicBody fuel rest)
      | none => none
    | c :: rest => if isPlain c then push c (basicBody fuel rest) else none
    | [] => none

/-- The rest of a literal string on one line. -/
def literalBody : Reader Text
  | c :: cs =>
    if c = '\x27' then some ([], cs)
    else if isPlain c then push c (literalBody cs)
    else none
  | [] => none

/-- Three quotes or more close a string of several lines; up to two before the last three belong to
it. -/
def closing? (quote : Char) (cs : Text) : Option (Text × Text) :=
  let run := (cs.takeWhile (· == quote)).length
  if run < 3 then none
  else
    let extra := min (run - 3) 2
    some (List.replicate extra quote, cs.drop (extra + 3))

/-- The text after a line break that a backslash hides, with the blanks that follow it. -/
def hiddenBreak? (cs : Text) : Option Text := (newline? (skipSpaces cs)).map skipLines

/-- The rest of a string of several lines, in at most `fuel` steps. Only a basic one, whose quote is
the double quote, has escapes. -/
def linesBody (quote : Char) : Nat → Reader Text
  | 0, _ => none
  | fuel + 1, cs =>
    match closing? quote cs with
    | some closed => some closed
    | none =>
      match newline? cs with
      | some rest => push '\n' (linesBody quote fuel rest)
      | none =>
        match cs with
        | c :: rest =>
          if c = '\\' && quote == '"' then
            match hiddenBreak? rest with
            | some rest => linesBody quote fuel rest
            | none =>
              match escape rest with
              | some (e, rest) => push e (linesBody quote fuel rest)
              | none => none
          else if isPlain c then push c (linesBody quote fuel rest)
          else none
        | [] => none

/-- A string on one line, which may also be a key. -/
def lineString : Reader Text
  | '"' :: cs => basicBody (cs.length + 1) cs
  | '\x27' :: cs => literalBody cs
  | _ => none

/-- A string of several lines after its opening quotes; a line break right after them does not
count. -/
def linesString (quote : Char) (cs : Text) : Option (Text × Text) :=
  linesBody quote (cs.length + 1) ((newline? cs).getD cs)

/-- A string of either form. -/
def quotes : Reader Text
  | '"' :: '"' :: '"' :: cs => linesString '"' cs
  | '\x27' :: '\x27' :: '\x27' :: cs => linesString '\x27' cs
  | cs => lineString cs

end Unbundle.Toml
