import Unbundle.Command.Split
import Unbundle.Report.Json

/-! The command that reports on files and writes nothing. -/
namespace Unbundle

variable {m : Type → Type} [Monad m] [Host m]

/-- The report on a file whose text is `text`. -/
def reportOnText (config : Config) (path : Path) (category text : String) : Run m FileReport := do
  let source := Source.ofString category text
  match ← planAloud source config with
  | .error e => return .failed path.text category e.message
  | .ok p => return .ofInventory path.text source p.inventory config

/-- The report on a file. Its category is its name without the ending. -/
def reportOn (config : Config) (path : Path) : Run m FileReport := do
  let category := path.fileStem?.getD "unknown"
  match ← Run.ask (Host.readText path) with
  | .error e => return .failed path.text category ("Failed to read file: " ++ e.message)
  | .ok text => reportOnText config path category text

/-- Reports as they are printed. -/
def showReports (colours json : Bool) (reports : List FileReport) : String :=
  if json then (Json.array (reports.map FileReport.toJson)).pretty 0 ++ "\n"
  else String.join (reports.map (·.render colours))

/-- Reports on files, and fails when one of them could not be looked into. -/
def checkFiles (colours : Bool) (config : Config) (files : List Path) (json : Bool) :
    Run m Unit := do
  let reports ← files.mapM (reportOn config)
  Run.ask (Host.print (showReports colours json reports))
  let failed := (reports.filter (·.error.isSome)).length
  if failed > 0 then Run.fail s!"{failed} of {reports.length} files could not be split"

end Unbundle
