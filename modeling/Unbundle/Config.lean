import Unbundle.Text.Quoted

/-! The configuration: which categories there are, how files are named, what they start with, and
which imports an applet gets. -/
namespace Unbundle

/-- The first lines of each kind of file. In them `{category}` is replaced, and `{applet}` in those
of an applet. -/
structure Headers where
  applet : List String
  shared : List String
  aggregate : List String
deriving DecidableEq, Repr

/-- When an import rule applies. -/
inductive ImportMode
  /-- To an applet that uses one of the rule's triggers. -/
  | usage
  /-- To every applet. -/
  | all
deriving DecidableEq, Repr

/-- Lines to import with. A trigger is an identifier, or a macro's name and an exclamation mark. -/
structure ImportRule where
  tag : String
  triggers : List String
  lines : List String
deriving DecidableEq, Repr

structure ImportSettings where
  mode : ImportMode
  rules : List ImportRule
deriving DecidableEq, Repr

structure Config where
  /-- The categories taken when none are named. -/
  categories : List String
  /-- The name of the shared module in each category. -/
  sharedModule : String
  /-- What stands for `r#` in the file name of a raw name. -/
  rawSubstitute : String
  headers : Headers
  imports : ImportSettings
deriving DecidableEq, Repr

def Headers.default : Headers where
  applet := ["//! \x7bapplet\x7d applet", "", "use crate::io;", "use crate::sys;",
    "use super::super::\x7bget_arg, has_opt\x7d;"]
  shared := ["//! Shared helper functions and constants", "", "use crate::io;", "use crate::sys;",
    "", "#[cfg(feature = \"alloc\")]", "use alloc::vec::Vec;", "#[cfg(feature = \"alloc\")]",
    "use alloc::string::String;"]
  aggregate := ["//! \x7bcategory\x7d applets"]

def ImportSettings.default : ImportSettings where
  mode := .usage
  rules := [
    ⟨"sequence", ["Vec", "vec!"], ["#[cfg(feature = \"alloc\")]", "use alloc::vec::Vec;"]⟩,
    ⟨"text", ["String"], ["#[cfg(feature = \"alloc\")]", "use alloc::string::String;"]⟩,
    ⟨"interop-text", ["CString"], ["#[cfg(feature = \"alloc\")]", "use alloc::ffi::CString;"]⟩]

def Config.default : Config where
  categories := ["text", "file", "system", "network", "misc", "archive", "init", "editors", "shell",
    "package"]
  sharedModule := "common"
  rawSubstitute := "r_"
  headers := .default
  imports := .default

/-- Why a configuration is not valid. -/
inductive ConfigError
  | invalidSharedModule (name : String)
  | invalidRawSubstitute (text : String)
  | noTriggers (rule : String)
  | invalidTrigger (rule trigger : String)
deriving DecidableEq, Repr

def ConfigError.message : ConfigError → String
  | invalidSharedModule name => "shared_module must be a plain identifier, got " ++ quoted name
  | invalidRawSubstitute text =>
    "raw_prefix_substitute must start a valid identifier, got " ++ quoted text
  | noTriggers rule => "import rule " ++ quoted rule ++ " has no triggers"
  | invalidTrigger rule trigger =>
    "import rule " ++ quoted rule ++ " has an invalid trigger " ++ quoted trigger

/-- An identifier of ASCII letters, digits and underscores that starts with no digit. -/
def isPlainIdentifier (name : String) : Bool :=
  match name.toList with
  | [] => false
  | c :: cs => (c == '_' || c.isAlpha) && cs.all fun d => d == '_' || d.isAlphanum

/-- A trigger without the exclamation mark of a macro. -/
def triggerName (trigger : String) : String :=
  if trigger.toList.getLast? = some '!' then String.ofList trigger.toList.dropLast else trigger

def ImportRule.check (r : ImportRule) : Except ConfigError Unit :=
  if r.triggers.isEmpty then .error (.noTriggers r.tag)
  else
    match r.triggers.find? fun t => !isPlainIdentifier (triggerName t) with
    | some bad => .error (.invalidTrigger r.tag bad)
    | none => .ok ()

/-- Finds the first fault of a configuration. -/
def Config.check (c : Config) : Except ConfigError Unit :=
  if !isPlainIdentifier c.sharedModule || c.sharedModule == "mod" then
    .error (.invalidSharedModule c.sharedModule)
  else if c.rawSubstitute.isEmpty || !isPlainIdentifier (c.rawSubstitute ++ "x") then
    .error (.invalidRawSubstitute c.rawSubstitute)
  else c.imports.rules.forM ImportRule.check

end Unbundle
