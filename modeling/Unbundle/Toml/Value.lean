import Unbundle.Text

/-! TOML values, and tables while a document is being read. -/
namespace Unbundle.Toml

/-- A value. Floats and times are kept as they are spelled. -/
inductive Value
  | text (s : String)
  | integer (n : Int)
  | float (spelling : String)
  | truth (b : Bool)
  | time (spelling : String)
  | array (items : List Value)
  | table (entries : List (String × Value))

/-- How a table came to be. -/
inductive Origin
  /-- By a header that names a table below it. -/
  | implied
  /-- By a dotted key. -/
  | dotted
  /-- By a header of its own. -/
  | header
deriving DecidableEq, Repr

/-- What a key stands for. -/
inductive Item
  | value (v : Value)
  | table (origin : Origin) (entries : List (String × Item))
  /-- An array of tables, in the order of their headers. -/
  | rows (rows : List (List (String × Item)))

/-- The keys of a table, in order. -/
abbrev Entries := List (String × Item)

/-- Changes what a key stands for; a new key comes last. -/
def alter (key : String) (change : Option Item → Option Item) : Entries → Option Entries
  | [] => (change none).map fun item => [(key, item)]
  | (k, item) :: es =>
    if k = key then (change (some item)).map fun new => (k, new) :: es
    else (alter key change es).map ((k, item) :: ·)

/-- Changes the last of several tables. -/
def changeLast (change : Entries → Option Entries) : List Entries → Option (List Entries)
  | [] => none
  | [row] => (change row).map ([·])
  | row :: rows => (changeLast change rows).map (row :: ·)

/-- Changes the table that headers call `path`, which leads through the last of several tables.
Tables on the way that are missing are implied. -/
def changeAt (change : Entries → Option Entries) : List String → Entries → Option Entries
  | [], es => change es
  | k :: ks, es =>
    alter k (fun
      | none => (changeAt change ks []).map (.table .implied)
      | some (.table origin inner) => (changeAt change ks inner).map (.table origin)
      | some (.rows rows) => (changeLast (changeAt change ks) rows).map .rows
      | some (.value _) => none) es

/-- Gives a key of a table its value, once. -/
def insertNew (key : String) (v : Value) : Entries → Option Entries :=
  alter key fun
    | none => some (.value v)
    | some _ => none

/-- Gives a dotted key its value. The tables on its way must not have a header of their own, and the
last of them must come from dotted keys only. -/
def insertDotted (key : String) (v : Value) : List String → Entries → Option Entries
  | [], es => insertNew key v es
  | k :: ks, es =>
    alter k (fun
      | none => (insertDotted key v ks []).map (.table .dotted)
      | some (.table .header _) => none
      | some (.table origin inner) =>
        if ks.isEmpty && origin != .dotted then none
        else (insertDotted key v ks inner).map (.table origin)
      | some (.rows rows) =>
        if ks.isEmpty then none else (changeLast (insertDotted key v ks) rows).map .rows
      | some (.value _) => none) es

/-- Opens a table by its header: it must be new, or implied so far. -/
def openTable (key : String) : Entries → Option Entries :=
  alter key fun
    | none => some (.table .header [])
    | some (.table .implied inner) => some (.table .header inner)
    | some _ => none

/-- Opens one more table of an array of tables. -/
def openRow (key : String) : Entries → Option Entries :=
  alter key fun
    | none => some (.rows [[]])
    | some (.rows rows) => some (.rows (rows ++ [[]]))
    | some _ => none

mutual

/-- The value an item stands for. -/
def Item.toValue : Item → Value
  | .value v => v
  | .table _ entries => .table (entryValues entries)
  | .rows rows => .array (rowValues rows)

/-- The values of a table's keys. -/
def entryValues : List (String × Item) → List (String × Value)
  | [] => []
  | (k, item) :: es => (k, item.toValue) :: entryValues es

/-- The values of an array of tables. -/
def rowValues : List (List (String × Item)) → List Value
  | [] => []
  | row :: rows => .table (entryValues row) :: rowValues rows

end

end Unbundle.Toml
