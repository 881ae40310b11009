import Unbundle.Report

/-! Reports as JSON. -/
namespace Unbundle

/-- A JSON value; an object keeps the order of its fields. -/
inductive Json
  | null
  | number (n : Nat)
  | text (s : String)
  | array (items : List Json)
  | object (fields : List (String × Json))

namespace Json

/-- Four hexadecimal digits. -/
def hex4 (n : Nat) : Text :=
  let digits := Nat.toDigits 16 n
  List.replicate (4 - digits.length) '0' ++ digits

/-- A character inside a JSON string. -/
def escapeChar (c : Char) : Text :=
  if c = '"' then ['\\', '"']
  else if c = '\\' then ['\\', '\\']
  else if c = '\x08' then ['\\', 'b']
  else if c = '\x0c' then ['\\', 'f']
  else if c = '\n' then ['\\', 'n']
  else if c = '\r' then ['\\', 'r']
  else if c = '\t' then ['\\', 't']
  else if c.toNat < 0x20 then '\\' :: 'u' :: hex4 c.toNat
  else [c]

/-- A JSON string with its quotes. -/
def string (s : String) : String := String.ofList ('"' :: s.toList.flatMap escapeChar ++ ['"'])

/-- A line break and two spaces for each level. -/
def lineBreak (level : Nat) : String := "\n".pushn ' ' (2 * level)

/-- Items between brackets, each on a line of its own; without items, the brackets alone. -/
def enclose (level : Nat) (opener closer : String) (items : List String) : String :=
  if items.isEmpty then opener ++ closer
  else opener ++ ",".intercalate (items.map (lineBreak (level + 1) ++ ·)) ++ lineBreak level ++
    closer

mutual

/-- The value over several lines. -/
def pretty (level : Nat) : Json → String
  | null => "null"
  | number n => toString n
  | text s => string s
  | array items => enclose level "[" "]" (prettyItems (level + 1) items)
  | object fields => enclose level "\x7b" "\x7d" (prettyFields (level + 1) fields)

def prettyItems (level : Nat) : List Json → List String
  | [] => []
  | v :: vs => pretty level v :: prettyItems level vs

def prettyFields (level : Nat) : List (String × Json) → List String
  | [] => []
  | (k, v) :: fs => (string k ++ ": " ++ pretty level v) :: prettyFields level fs

end

end Json

def AppletEntry.toJson (e : AppletEntry) : Json :=
  .object [("name", .text e.name), ("file", .text e.file), ("line", .number e.line)]

def ItemEntry.toJson (e : ItemEntry) : Json :=
  .object [("kind", .text e.kind), ("name", .text e.name), ("line", .number e.line)]

def SkippedItem.toJson (item : SkippedItem) : Json :=
  .object [("kind", .text item.kind.label), ("name", (item.name.map Json.text).getD .null),
    ("line", .number item.line)]

/-- The fields of a report; the error is left out when there is none. -/
def FileReport.toJson (r : FileReport) : Json :=
  .object ([("path", .text r.path), ("category", .text r.category),
    ("applets", .array (r.applets.map AppletEntry.toJson)),
    ("helpers", .array (r.helpers.map ItemEntry.toJson)),
    ("declarations", .array (r.declarations.map ItemEntry.toJson)),
    ("skipped", .array (r.skipped.map SkippedItem.toJson)),
    ("malformed", .array (r.unclosed.map ItemEntry.toJson))] ++
    (r.error.map fun e => ("error", Json.text e)).toList)

end Unbundle
