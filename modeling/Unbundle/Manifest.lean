import Unbundle.Config
import Unbundle.Imports
import Unbundle.Item.Promotion
import Unbundle.Path
import Unbundle.Survey

/-! The files of one category: the shared module, one file per applet, and the file that joins
them. -/
namespace Unbundle

/-- One file of a category. -/
structure UnitFile where
  name : String
  header : List String
  body : String
deriving DecidableEq, Repr

/-- The text of the file: its header lines, a blank line, its body. -/
def UnitFile.render (u : UnitFile) : String :=
  if u.header.isEmpty then u.body else "\n".intercalate u.header ++ "\n\n" ++ u.body

/-- All files of a category, in the order they are written. -/
structure Manifest where
  category : String
  units : List UnitFile
  hasShared : Bool
  /-- The exported applets, sorted. -/
  appletNames : List String
deriving DecidableEq, Repr

namespace Manifest

def fileNames (m : Manifest) : List String := m.units.map UnitFile.name

/-- The file that a name leads to. -/
def unit? (m : Manifest) (fileName : String) : Option UnitFile :=
  m.units.find? fun u => Path.sameWay ⟨u.name⟩ ⟨fileName⟩

def totalBytes (m : Manifest) : Nat := m.units.foldl (fun n u => n + u.render.utf8ByteSize) 0

end Manifest

/-- The name of the file that joins the others. -/
def aggregateFile : String := "mod.rs"

/-- The name without `r#`, when it is raw. -/
def bareName? (applet : String) : Option String :=
  match applet.toList with
  | 'r' :: '#' :: bare => some (String.ofList bare)
  | _ => none

/-- The module an applet goes to: its name, with `r#` replaced. -/
def moduleName (applet rawSubstitute : String) : String :=
  match bareName? applet with
  | some bare => rawSubstitute ++ bare
  | none => applet

/-- The applet's name as it reads in prose. -/
def displayName (applet : String) : String := (bareName? applet).getD applet

/-- The file a module is written to. -/
def moduleFile (moduleName : String) : String := moduleName ++ ".rs"

/-- Fills in a header line. The category is filled in first, so that a category may bring in the
placeholder of the applet. -/
def expandLine (category : String) (applet : Option String) (line : String) : String :=
  let line := substitute "\x7bcategory\x7d" category line
  match applet with
  | some name => substitute "\x7bapplet\x7d" (displayName name) line
  | none => line

/-- An applet with its module. -/
structure Assignment where
  stem : String
  applet : Function
deriving DecidableEq, Repr

/-- Gives each applet its module, in source order, and refuses modules that clash. -/
def assignModules (config : Config) (hasShared : Bool) (assigned : List Assignment) :
    List Function → Except SplitError (List Assignment)
  | [] => .ok assigned
  | f :: fs =>
    let stem := moduleName f.name config.rawSubstitute
    if hasShared && stem == config.sharedModule then .error (.sharedModuleCollision f.name stem)
    else
      match assigned.find? (·.stem == stem) with
      | some first => .error (.fileNameCollision first.applet.name f.name (moduleFile stem))
      | none => assignModules config hasShared (assigned ++ [⟨stem, f⟩]) fs

/-- The order of files: by module name. -/
def Assignment.notAfter (a b : Assignment) : Bool := a.stem ≤ b.stem

/-- An exported applet with its module; the order of exports is by name, then by module. -/
structure Export where
  name : String
  stem : String
deriving DecidableEq, Repr

def Export.notAfter (a b : Export) : Bool :=
  a.name < b.name || (a.name == b.name && a.stem ≤ b.stem)

/-- The span and head of an item of the shared module. -/
abbrev SharedItem := Span × Head

/-- The declarations and helpers in source order. -/
def Inventory.sharedItems (u : Inventory) : List SharedItem :=
  (u.declarations.map (fun d => (d.span, d.head)) ++
    u.helpers.map fun f => (f.span, f.head)).mergeSort
      fun a b => a.1.start ≤ b.1.start

/-- The shared module: every declaration and helper, with a blank line between neighbours. -/
def sharedUnit (config : Config) (source : Source) (u : Inventory) : Checked UnitFile := do
  let texts ← u.sharedItems.mapM fun (span, head) => promote source.text span head
  return {
    name := moduleFile config.sharedModule
    header := config.headers.shared.map (expandLine source.category none)
    body := String.ofList (joinWith ['\n', '\n'] texts ++ ['\n']) }

/-- The file of one applet: its text as it stands, after the imports it needs. -/
def appletUnit (config : Config) (source : Source) (s : Scan) (hasShared : Bool) (a : Assignment) :
    Checked UnitFile := do
  let text ← a.applet.text source.text
  let sharedLines := if hasShared then ["use super::" ++ config.sharedModule ++ "::*;"] else []
  return {
    name := moduleFile a.stem
    header := config.headers.applet.map (expandLine source.category (some a.applet.name)) ++
      sharedLines ++ config.imports.linesFor s a.applet.span
    body := String.ofList (text ++ ['\n']) }

/-- The file that joins the modules and exports the applets. -/
def aggregateUnit (config : Config) (category : String) (hasShared : Bool) (exports : List Export) :
    UnitFile where
  name := aggregateFile
  header := config.headers.aggregate.map (expandLine category none)
  body :=
    (if hasShared then "pub mod " ++ config.sharedModule ++ ";\n\n" else "") ++
      String.join (exports.map fun e => "mod " ++ e.stem ++ ";\n") ++ "\n" ++
      String.join (exports.map fun e => "pub use " ++ e.stem ++ "::" ++ e.name ++ ";\n")

/-- The files of modules already assigned. -/
def layOut (config : Config) (source : Source) (s : Scan) (u : Inventory)
    (assigned : List Assignment) : Checked Manifest := do
  let sorted := assigned.mergeSort Assignment.notAfter
  let shared ← if u.hasShared then (sharedUnit config source u).map ([·]) else pure []
  let applets ← sorted.mapM (appletUnit config source s u.hasShared)
  let exports := (sorted.map fun a => (⟨a.applet.name, a.stem⟩ : Export)).mergeSort Export.notAfter
  return {
    category := source.category
    units := shared ++ applets ++ [aggregateUnit config source.category u.hasShared exports]
    hasShared := u.hasShared
    appletNames := exports.map Export.name }

/-- Lays out the files of a category. -/
def generate (config : Config) (source : Source) (s : Scan) (u : Inventory) :
    Checked (Except SplitError Manifest) :=
  match assignModules config u.hasShared [] u.applets with
  | .error e => .ok (.error e)
  | .ok assigned => (layOut config source s u assigned).map .ok

/-- What a manifest gives notice of. -/
def Manifest.notice (m : Manifest) : Notice :=
  ⟨.debug, .generation,
    m.category ++ s!": {m.units.length} units ({m.appletNames.length} applets, " ++
    s!"shared module: {m.hasShared})"⟩

end Unbundle
