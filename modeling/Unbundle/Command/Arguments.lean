import Unbundle.Notice
import Unbundle.Path

/-! The arguments of a run. -/
namespace Unbundle

inductive Command
  /-- Writes a configuration file. -/
  | init (path : Option Path)
  /-- Looks into files and reports on them. -/
  | check (files : List Path) (json : Bool)
deriving DecidableEq, Repr

/-- What a run is asked to do; without a command it splits categories. -/
structure Arguments where
  input : Option Path
  categories : List String
  all : Bool
  output : Option Path
  config : Option Path
  dryRun : Bool
  force : Bool
  removeSource : Bool
  verbose : Bool
  quiet : Bool
  command : Option Command
deriving DecidableEq, Repr

/-- A level by its name, in letters of either case. Traces are part of the details; when the log is
off there is no level. -/
def Level.ofName? (name : String) : Option Level :=
  match String.ofList (name.toList.map Char.toLower) with
  | "" => some .error
  | "error" => some .error
  | "warn" => some .warn
  | "info" => some .info
  | "debug" => some .debug
  | "trace" => some .debug
  | _ => none

/-- The level of the log. `named` is the level the environment asks for, which wins over the
arguments. -/
def Arguments.logLevel? (a : Arguments) (named : Option String) : Option Level :=
  match named with
  | some name => Level.ofName? name
  | none => some (if a.verbose then .debug else if a.quiet then .error else .warn)

end Unbundle
