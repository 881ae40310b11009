import Unbundle.Config.File
import Unbundle.Styled

/-! The command that writes a configuration file with the defaults. -/
namespace Unbundle

variable {m : Type → Type} [Monad m] [Host m]

/-- The file to write: the one named, or in the directory named. -/
def initTarget : Option Path → m Path
  | none => return configFileName
  | some p => do
    if ← Host.isDir p then return p.join configFileName else return p

/-- The mark of success. -/
def tick (colours : Bool) : String := (Style.inColour .green).paint colours "✓"

/-- Writes the default configuration where there is no file yet. -/
def writeDefaultConfig (colours : Bool) (path : Option Path) : Run m Unit := do
  let target ← Run.ask (initTarget path)
  if ← Run.ask (Host.isThere target) then Run.fail (target.text ++ " already exists")
  Config.default.save target
  Run.ask (Host.print (tick colours ++ " Wrote default configuration to " ++ target.text ++ "\n"))

end Unbundle
