import Unbundle.Manifest
import Unbundle.Styled
import Unbundle.Survey.Notices

/-! The report on one file: what a check found in it. -/
namespace Unbundle

structure AppletEntry where
  name : String
  file : String
  line : Nat
deriving DecidableEq, Repr

structure ItemEntry where
  kind : String
  name : String
  line : Nat
deriving DecidableEq, Repr

structure FileReport where
  path : String
  category : String
  applets : List AppletEntry
  helpers : List ItemEntry
  declarations : List ItemEntry
  skipped : List SkippedItem
  unclosed : List ItemEntry
  /-- Why the file could not be looked into. -/
  error : Option String
deriving DecidableEq, Repr

/-- The keyword of a declaration. -/
def DeclarationKind.keyword : DeclarationKind → String
  | const => "const"
  | static => "static"
  | typeAlias => "type"
  | aggregate .struct => "struct"
  | aggregate .enum => "enum"
  | aggregate .union => "union"
  | aggregate .trait => "trait"
  | aggregate .impl => "impl"

namespace FileReport

/-- The report on a partitioned source. -/
def ofInventory (path : String) (source : Source) (u : Inventory) (config : Config) :
    FileReport where
  path := path
  category := source.category
  applets := u.applets.map fun f =>
    ⟨f.name, moduleFile (moduleName f.name config.rawSubstitute), source.lineOf f.head.itemStart⟩
  helpers := u.helpers.map fun f => ⟨"fn", f.name, source.lineOf f.head.itemStart⟩
  declarations := u.declarations.map fun d =>
    ⟨d.kind.keyword, d.name, source.lineOf d.head.itemStart⟩
  skipped := u.skipped
  unclosed := u.unclosed.map fun (name, offset) => ⟨"unclosed", name, source.lineOf offset⟩
  error := none

/-- The report on a file that could not be looked into. -/
def failed (path category error : String) : FileReport :=
  ⟨path, category, [], [], [], [], [], some error⟩

/-- Nothing is wrong with the file. -/
def isClean (r : FileReport) : Bool := r.error.isNone && r.unclosed.isEmpty

/-- The first line of the report on a file that was looked into. -/
def title (r : FileReport) (colours : Bool) : String :=
  let mark := if r.isClean then (Style.inColour .green).paint colours "✓"
    else (Style.inColour .yellow).paint colours "!"
  mark ++ " " ++ r.path ++ s!" - {r.applets.length} applets, {r.helpers.length} helpers, " ++
    s!"{r.declarations.length} declarations\n"

def appletLine (e : AppletEntry) : String :=
  "  applet " ++ padRight 20 e.name ++ " -> " ++ e.file ++ s!" (line {e.line})\n"

/-- A line on an item, its kind filled up to six columns. -/
def itemLine (kind : String) (e : ItemEntry) : String :=
  "  " ++ padRight 6 kind ++ " " ++ padRight 20 e.name ++ s!" (line {e.line})\n"

def skippedLine (colours : Bool) (item : SkippedItem) : String :=
  "  " ++ (Style.inColour .yellow).paint colours "skipped" ++ " " ++ item.kind.label ++ " " ++
    item.name.getD "" ++ s!" (line {item.line}) is not carried over\n"

def unclosedLine (colours : Bool) (e : ItemEntry) : String :=
  "  " ++ (Style.inColour .red).paint colours "unclosed" ++ " `" ++ e.name ++
    s!"` (line {e.line}) runs to the end of the file\n"

/-- The report as text. -/
def render (r : FileReport) (colours : Bool) : String :=
  match r.error with
  | some error =>
    let red := Style.inColour .red
    red.paint colours "✗" ++ " " ++ r.path ++ " - " ++ red.paint colours error ++ "\n"
  | none =>
    r.title colours ++ String.join (r.applets.map appletLine) ++
      String.join (r.helpers.map (itemLine "helper")) ++
      String.join (r.declarations.map fun e => itemLine e.kind e) ++
      String.join (r.skipped.map (skippedLine colours)) ++
      String.join (r.unclosed.map (unclosedLine colours))

end FileReport
end Unbundle
