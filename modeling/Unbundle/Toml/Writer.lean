import Unbundle.Text

/-! Writing TOML strings and arrays of strings. -/
namespace Unbundle.Toml

/-- A control character other than the tab and the line feed. -/
def isControl (c : Char) : Bool := (c < ' ' && c != '\t' && c != '\n') || c == '\x7f'

/-- The longest run of a character. -/
def longestRun (q : Char) : Text → Nat → Nat → Nat
  | [], run, best => max run best
  | c :: cs, run, best =>
    if c = q then longestRun q cs (run + 1) best else longestRun q cs 0 (max run best)

/-- The most equal quotes in a row that are written. The count fills one byte. -/
def quoteLimit : Nat := 255

/-- The string can be written. -/
def isWritable (s : String) : Bool :=
  longestRun '"' s.toList 0 0 ≤ quoteLimit && longestRun '\x27' s.toList 0 0 ≤ quoteLimit

/-- How a string is written. -/
inductive QuoteStyle
  | basic
  | literal
  | basicLines
  | literalLines
deriving DecidableEq, Repr

/-- The first style that can hold the text without escapes of more than tabs. Escapes are left to
the basic styles, on several lines when the text has a line break. -/
def quoteStyle (cs : Text) : QuoteStyle :=
  let has (c : Char) : Bool := cs.contains c
  let control := cs.any isControl
  if !has '"' && !has '\\' && !has '\n' && !control then .basic
  else if !has '\x27' && !has '\n' && !control then .literal
  else if !has '\\' && !control && longestRun '"' cs 0 0 ≤ 2 then .basicLines
  else if !control && longestRun '\x27' cs 0 0 ≤ 2 then .literalLines
  else if has '\n' then .basicLines
  else .basic

/-- Four upper-case hexadecimal digits. -/
def upperHex4 (n : Nat) : Text :=
  let ds := (Nat.toDigits 16 n).map Char.toUpper
  List.replicate (4 - ds.length) '0' ++ ds

/-- The inside of a basic string. On several lines line breaks stand for themselves, and so do
quotes but for every third in a row; `row` counts the quotes just before. -/
def basicInside (lines : Bool) (row : Nat) : Text → Text
  | [] => []
  | c :: cs =>
    if c = '"' then
      if lines && row < 2 then c :: basicInside lines (row + 1) cs
      else '\\' :: '"' :: basicInside lines 0 cs
    else if c = '\\' then '\\' :: '\\' :: basicInside lines 0 cs
    else if c = '\t' then '\\' :: 't' :: basicInside lines 0 cs
    else if c = '\x08' then '\\' :: 'b' :: basicInside lines 0 cs
    else if c = '\x0c' then '\\' :: 'f' :: basicInside lines 0 cs
    else if c = '\r' then '\\' :: 'r' :: basicInside lines 0 cs
    else if c = '\n' then
      if lines then c :: basicInside lines 0 cs else '\\' :: 'n' :: basicInside lines 0 cs
    else if isControl c then '\\' :: 'u' :: upperHex4 c.toNat ++ basicInside lines 0 cs
    else c :: basicInside lines 0 cs

/-- A string as it is written. On several lines, a text with a line break starts on a line of its
own. -/
def writeString (s : String) : String :=
  let cs := s.toList
  let first : Text := if cs.contains '\n' then ['\n'] else []
  String.ofList <|
    match quoteStyle cs with
    | .basic => '"' :: basicInside false 0 cs ++ ['"']
    | .literal => '\x27' :: cs ++ ['\x27']
    | .basicLines =>
      List.replicate 3 '"' ++ first ++ basicInside true 0 cs ++ List.replicate 3 '"'
    | .literalLines => List.replicate 3 '\x27' ++ first ++ cs ++ List.replicate 3 '\x27'

/-- An array of strings: on one line with at most one item, else one item to a line. -/
def writeStrings : List String → String
  | [] => "[]"
  | [s] => "[" ++ writeString s ++ "]"
  | ss => "[\n" ++ String.join (ss.map fun s => "    " ++ writeString s ++ ",\n") ++ "]"

end Unbundle.Toml
