import Unbundle.Toml.Quotes

/-! Reading a TOML document. -/
namespace Unbundle.Toml

/-- Arrays, inline tables and dotted keys have fewer levels than this. -/
def nestingBound : Nat := 80

def isBareKeyChar (c : Char) : Bool := c.isAlphanum || c == '_' || c == '-'

/-- One part of a key: bare or quoted. -/
def keyPart (cs : Text) : Option (Text × Text) :=
  match cs with
  | '"' :: _ => lineString cs
  | '\x27' :: _ => lineString cs
  | _ =>
    let part := cs.takeWhile isBareKeyChar
    if part.isEmpty then none else some (part, cs.dropWhile isBareKeyChar)

/-- The parts of a dotted key with spaces around them, in at most `fuel` steps. -/
def keyParts : Nat → Reader (List String)
  | 0, _ => none
  | fuel + 1, cs => do
    let (part, rest) ← keyPart (skipSpaces cs)
    match skipSpaces rest with
    | '.' :: rest =>
      let (parts, rest) ← keyParts fuel rest
      some (String.ofList part :: parts, rest)
    | rest => some ([String.ofList part], rest)

/-- A key: its path and its last part. -/
def key (cs : Text) : Option ((List String × String) × Text) := do
  let (parts, rest) ← keyParts (cs.length + 1) cs
  if parts.length < nestingBound then some ((parts.dropLast, parts.getLastD ""), rest) else none

/-- What is left after a comment, which ends before the line break. -/
def skipComment (cs : Text) : Text :=
  match cs with
  | '#' :: rest => rest.dropWhile isPlain
  | _ => cs

/-- What is left after the end of a line: spaces, a comment, and a line break or the end. -/
def lineEnd (cs : Text) : Option Text :=
  match skipComment (skipSpaces cs) with
  | [] => some []
  | rest => newline? rest

/-- Skips spaces, line breaks and comments, in at most `fuel` steps. -/
def skipTrivia : Nat → Text → Text
  | 0, cs => cs
  | fuel + 1, cs =>
    match skipLines cs with
    | '#' :: rest =>
      match newline? (rest.dropWhile isPlain) with
      | some rest => skipTrivia fuel rest
      | none => '#' :: rest
    | rest => rest

mutual

/-- A value with at most `room` levels below it, in at most `fuel` steps. -/
def value : Nat → Nat → Reader Value
  | 0, _, _ => none
  | fuel + 1, room, cs =>
    match cs with
    | '"' :: _ => (quotes cs).map fun (s, rest) => (.text (String.ofList s), rest)
    | '\x27' :: _ => (quotes cs).map fun (s, rest) => (.text (String.ofList s), rest)
    | 't' :: 'r' :: 'u' :: 'e' :: rest => some (.truth true, rest)
    | 'f' :: 'a' :: 'l' :: 's' :: 'e' :: rest => some (.truth false, rest)
    | '[' :: rest =>
      if room = 0 then none
      else (elements fuel (room - 1) rest).map fun (vs, rest) => (.array vs, rest)
    | '{' :: rest =>
      if room = 0 then none
      else
        match skipSpaces rest with
        | '}' :: rest => some (.table [], rest)
        | rest =>
          (pairs fuel (room - 1) [] rest).map fun (es, rest) => (.table (entryValues es), rest)
    | _ => numeric cs

/-- The values of an array up to its closing bracket; a comma may follow the last. -/
def elements : Nat → Nat → Reader (List Value)
  | 0, _, _ => none
  | fuel + 1, room, cs =>
    match skipTrivia cs.length cs with
    | ']' :: rest => some ([], rest)
    | cs => do
      let (v, rest) ← value fuel room cs
      match skipTrivia rest.length rest with
      | ',' :: rest =>
        let (vs, rest) ← elements fuel room rest
        some (v :: vs, rest)
      | ']' :: rest => some ([v], rest)
      | _ => none

/-- The pairs of an inline table up to its closing brace, added to the entries read before. -/
def pairs : Nat → Nat → Entries → Reader Entries
  | 0, _, _, _ => none
  | fuel + 1, room, es, cs => do
    let ((path, last), rest) ← key cs
    let (v, rest) ← value fuel room (skipSpaces (← expect '=' rest))
    let es ← insertDotted last v path es
    match skipSpaces rest with
    | ',' :: rest => pairs fuel room es rest
    | '}' :: rest => some (es, rest)
    | _ => none

end

/-- One statement of a document. -/
inductive Statement
  | pair (path : List String) (key : String) (v : Value)
  /-- `[path.key]` -/
  | table (path : List String) (key : String)
  /-- `[[path.key]]` -/
  | row (path : List String) (key : String)

/-- The statement at the start of a line. -/
def statement (cs : Text) : Option (Statement × Text) :=
  match cs with
  | '[' :: '[' :: rest => do
    let ((path, last), rest) ← key rest
    some (.row path last, ← lineEnd (← expect ']' (← expect ']' rest)))
  | '[' :: rest => do
    let ((path, last), rest) ← key rest
    some (.table path last, ← lineEnd (← expect ']' rest))
  | _ => do
    let ((path, last), rest) ← key cs
    let rest := skipSpaces (← expect '=' rest)
    let (v, rest) ← value (rest.length + 1) (nestingBound - 1) rest
    some (.pair path last v, ← lineEnd rest)

/-- The statements of a document, in at most `fuel` steps. -/
def statements : Nat → Text → Option (List Statement)
  | 0, _ => none
  | fuel + 1, cs =>
    match skipSpaces cs with
    | [] => some []
    | '#' :: rest => do statements fuel (← lineEnd ('#' :: rest))
    | rest =>
      match newline? rest with
      | some rest => statements fuel rest
      | none => do
        let (st, rest) ← statement rest
        return st :: (← statements fuel rest)

/-- A document so far: the table its pairs go to, and everything read. -/
structure Document where
  current : List String
  entries : Entries

/-- Adds a statement, unless it defines a key or a table twice. -/
def Document.add (d : Document) : Statement → Option Document
  | .pair path last v => do
    return { d with entries := ← changeAt (insertDotted last v path) d.current d.entries }
  | .table path last => do
    return ⟨path ++ [last], ← changeAt (openTable last) path d.entries⟩
  | .row path last => do
    return ⟨path ++ [last], ← changeAt (openRow last) path d.entries⟩

/-- Reads a document; `none` when it is not TOML. A byte order mark before it does not count. -/
def parse (text : Text) : Option (List (String × Value)) := do
  let text := if text.head? = some '\uFEFF' then text.drop 1 else text
  let sts ← statements (text.length + 1) text
  let d ← sts.foldlM Document.add ⟨[], []⟩
  return entryValues d.entries

end Unbundle.Toml
