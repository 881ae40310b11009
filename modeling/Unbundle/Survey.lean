import Unbundle.Item.Declaration
import Unbundle.Item.Function
import Unbundle.Notice

/-! The survey of one category file: everything at its top level, and its partition into applets,
helpers, declarations and items left behind. -/
namespace Unbundle

/-- One category file. -/
structure Source where
  category : String
  text : Text

namespace Source

def ofString (category text : String) : Source := ⟨category, text.toList⟩

def length (source : Source) : Nat := byteLength source.text

def isEmpty (source : Source) : Bool := source.text.isEmpty

def slice (source : Source) (span : Span) : Checked Text :=
  Unbundle.slice source.text span.start span.stop

def lineOf (source : Source) (offset : Nat) : Nat := Unbundle.lineOf source.text offset

end Source

/-- Why a category cannot be split. -/
inductive SplitError
  | duplicateApplet (name : String) (firstLine secondLine : Nat)
  | fileNameCollision (first second file : String)
  | sharedModuleCollision (name moduleName : String)
deriving DecidableEq, Repr

def SplitError.message : SplitError → String
  | duplicateApplet name first second =>
    s!"applet `{name}` is defined more than once (lines {first} and {second})"
  | fileNameCollision first second file =>
    s!"applets `{first}` and `{second}` would both be written to `{file}`"
  | sharedModuleCollision name moduleName =>
    s!"applet `{name}` would overwrite the shared module `{moduleName}.rs`"

/-- The partition of one category file. -/
structure Inventory where
  applets : List Function
  helpers : List Function
  declarations : List Declaration
  skipped : List SkippedItem
deriving DecidableEq, Repr

namespace Inventory

/-- There is something for a shared module to hold. -/
def hasShared (u : Inventory) : Bool := !u.declarations.isEmpty || !u.helpers.isEmpty

/-- The names and starts of the items that run into the end of the text. -/
def unclosed (u : Inventory) : List (String × Nat) :=
  ((u.applets ++ u.helpers).filter (!·.closed)).map (fun f => (f.name, f.head.itemStart)) ++
    (u.declarations.filter (!·.closed)).map (fun d => (d.name, d.head.itemStart))

end Inventory

/-- The first applet whose name an earlier one bears, with the start of that one. `seen` holds the
names met so far and where they start. -/
def firstDuplicate? (seen : List (String × Nat)) : List Function → Option (Function × Nat)
  | [] => none
  | f :: fs =>
    match seen.lookup f.name with
    | some first => some (f, first)
    | none => firstDuplicate? ((f.name, f.head.itemStart) :: seen) fs

/-- Refuses applets of one name. -/
def checkNames (text : Text) (applets : List Function) : Except SplitError Unit :=
  match firstDuplicate? [] applets with
  | some (f, first) =>
    .error (.duplicateApplet f.name (lineOf text first) (lineOf text f.head.itemStart))
  | none => .ok ()

/-- The spans of functions, in order. -/
def functionSpans (fs : List Function) : List Span := (fs.map Function.span).mergeSort Span.notAfter

/-- What the top level of a scan holds. The findings are those outside the functions. -/
structure Survey where
  sites : List FunctionSite
  findings : List Finding

namespace Survey

/-- The functions with a body, nested ones included. -/
def allFunctions (v : Survey) : List Function := v.sites.filterMap FunctionSite.function?

def functions (v : Survey) : List Function := keptFunctions v.allFunctions

def applets (v : Survey) : List Function := v.functions.filter Function.isApplet

def helpers (v : Survey) : List Function := v.functions.filter (!·.isApplet)

/-- The partition, unless two applets have one name. -/
def inventory (v : Survey) (text : Text) : Except SplitError Inventory := do
  checkNames text v.applets
  return ⟨v.applets, v.helpers, v.findings.filterMap Finding.declaration?,
    v.findings.filterMap Finding.skipped?⟩

end Survey

/-- Surveys the top level of a scan. -/
def Scan.survey (s : Scan) : Checked Survey := do
  let sites ← s.functionSites
  let kept := keptFunctions (sites.filterMap FunctionSite.function?)
  let spans := functionSpans (kept.filter Function.isApplet ++ kept.filter (!·.isApplet))
  return ⟨sites, ← s.findings spans⟩

/-- Finds and partitions the items of a category file. -/
def analyze (source : Source) : Checked (Except SplitError Inventory) := do
  return (← (Scan.ofText source.text).survey).inventory source.text

end Unbundle
