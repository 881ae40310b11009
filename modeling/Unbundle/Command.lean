import Unbundle.Command.Check
import Unbundle.Command.Usage

/-! The program: what it does with its arguments. -/
namespace Unbundle

variable {m : Type → Type} [Monad m] [Host m]

/-- Runs the program. -/
def run (colours : Bool) (args : Arguments) : Run m Unit := do
  match args.command with
  | some (.init path) => writeDefaultConfig colours path
  | some (.check files json) =>
    checkFiles colours (← Config.loadOrDefault args.config (args.input.getD ⟨"."⟩)) files json
  | none =>
    let summary ← splitCategories colours args
    if !args.quiet then Run.ask (Host.print (summary.render colours))

/-- The name and version of the program. -/
def versionText : String := "applet-split 0.1.0\n"

end Unbundle
