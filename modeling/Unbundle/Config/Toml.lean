import Unbundle.Config
import Unbundle.Toml.Reader
import Unbundle.Toml.Writer

/-! The configuration as a TOML document. -/
namespace Unbundle

open Toml

/-- The named fields of a record. A table gives them by name, an array by position; a time is a
record with no field of these names. -/
def fieldsOf (names : List String) : Value → Option (List (Option Value))
  | .table entries => some (names.map fun name => entries.lookup name)
  | .array items => some ((List.range names.length).map fun i => items[i]?)
  | .time _ => some (names.map fun _ => none)
  | _ => none

def textOf? : Value → Option String
  | .text s => some s
  | _ => none

def textsOf? : Value → Option (List String)
  | .array items => items.mapM textOf?
  | _ => none

/-- A field that has a default. -/
def fieldOr {α : Type} (read : Value → Option α) (default : α) : Option Value → Option α
  | some v => read v
  | none => some default

def Headers.ofToml? (v : Value) : Option Headers := do
  match ← fieldsOf ["applet", "shared", "aggregate"] v with
  | [applet, shared, aggregate] =>
    let d := Headers.default
    return ⟨← fieldOr textsOf? d.applet applet, ← fieldOr textsOf? d.shared shared,
      ← fieldOr textsOf? d.aggregate aggregate⟩
  | _ => none

def ImportMode.ofName? : String → Option ImportMode
  | "usage" => some .usage
  | "all" => some .all
  | _ => none

/-- A mode by its name, or as a table whose one key is its name and holds nothing. -/
def ImportMode.ofToml? : Value → Option ImportMode
  | .text s => ofName? s
  | .table [(name, .table [])] => ofName? name
  | .table [(name, .array [])] => ofName? name
  | _ => none

/-- A rule has no defaults. -/
def ImportRule.ofToml? (v : Value) : Option ImportRule := do
  match ← fieldsOf ["tag", "triggers", "lines"] v with
  | [some tag, some triggers, some lines] =>
    return ⟨← textOf? tag, ← textsOf? triggers, ← textsOf? lines⟩
  | _ => none

def ImportRule.listOfToml? : Value → Option (List ImportRule)
  | .array items => items.mapM ImportRule.ofToml?
  | _ => none

def ImportSettings.ofToml? (v : Value) : Option ImportSettings := do
  match ← fieldsOf ["mode", "rules"] v with
  | [mode, rules] =>
    let d := ImportSettings.default
    return ⟨← fieldOr ImportMode.ofToml? d.mode mode,
      ← fieldOr ImportRule.listOfToml? d.rules rules⟩
  | _ => none

/-- Reads a configuration. What it does not name has its default, and unknown keys are passed
over. -/
def Config.ofToml? (text : Text) : Option Config := do
  let entries ← Toml.parse text
  let d := Config.default
  return {
    categories := ← fieldOr textsOf? d.categories (entries.lookup "categories")
    sharedModule := ← fieldOr textOf? d.sharedModule (entries.lookup "shared_module")
    rawSubstitute := ← fieldOr textOf? d.rawSubstitute (entries.lookup "raw_prefix_substitute")
    headers := ← fieldOr Headers.ofToml? d.headers (entries.lookup "headers")
    imports := ← fieldOr ImportSettings.ofToml? d.imports (entries.lookup "imports") }

def ImportMode.name : ImportMode → String
  | usage => "usage"
  | all => "all"

def textPair (key value : String) : String := key ++ " = " ++ writeString value ++ "\n"

def textsPair (key : String) (values : List String) : String :=
  key ++ " = " ++ writeStrings values ++ "\n"

def ImportRule.toToml (r : ImportRule) : String :=
  "\n[[imports.rules]]\n" ++ textPair "tag" r.tag ++ textsPair "triggers" r.triggers ++
    textsPair "lines" r.lines

/-- Writes a configuration: the plain fields first, then each table after a blank line. -/
def Config.toToml (c : Config) : String :=
  textsPair "categories" c.categories ++ textPair "shared_module" c.sharedModule ++
    textPair "raw_prefix_substitute" c.rawSubstitute ++
    "\n[headers]\n" ++ textsPair "applet" c.headers.applet ++ textsPair "shared" c.headers.shared ++
    textsPair "aggregate" c.headers.aggregate ++
    "\n[imports]\n" ++ textPair "mode" c.imports.mode.name ++
    if c.imports.rules.isEmpty then "rules = []\n"
    else String.join (c.imports.rules.map ImportRule.toToml)

def ImportRule.texts (r : ImportRule) : List String := [r.tag] ++ r.triggers ++ r.lines

/-- All texts in a configuration. -/
def Config.texts (c : Config) : List String :=
  c.categories ++ [c.sharedModule, c.rawSubstitute] ++ c.headers.applet ++ c.headers.shared ++
    c.headers.aggregate ++ c.imports.rules.flatMap ImportRule.texts

/-- The configuration as it is written, provided that each of its texts can be. -/
def Config.document (c : Config) : Checked String :=
  if c.texts.all isWritable then .ok c.toToml else .error .quotes

end Unbundle
