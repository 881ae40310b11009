import Unbundle.Host
import Unbundle.Manifest

/-! Manifests on disk. All files of a category are written to a staging directory, which takes the
place of the category's directory once it is complete: a failure leaves no half-written category. -/
namespace Unbundle.Manifest

variable {m : Type → Type} [Monad m] [Host m]

/-- How the name of the staging directory starts. -/
def stagingStem (manifest : Manifest) : String := "." ++ manifest.category ++ ".staging"

/-- Writes the files into a directory. -/
def writeUnits (dir : Path) : List UnitFile → Run m Unit
  | [] => return ()
  | u :: us => do
    let path := dir.join ⟨u.name⟩
    Run.attempt ("Failed to create file: " ++ path.text) (Host.writeText path u.render)
    writeUnits dir us

/-- Puts the staging directory in the place of `dir`. -/
def moveIntoPlace (staging dir : Path) : Run m Unit := do
  if ← Run.ask (Host.isThere dir) then
    Run.attempt ("Failed to remove existing directory: " ++ dir.text) (Host.removeDirAll dir)
  Run.attempt ("Failed to move " ++ staging.text ++ " into place at " ++ dir.text)
    (Host.rename staging dir)

/-- Writes the category to the directory `dir`. One that exists is replaced only when asked for. -/
def write (manifest : Manifest) (dir : Path) (overwrite : Bool) : Run m Unit := do
  if (← Run.ask (Host.isThere dir)) && !overwrite then
    Run.fail ("Output directory " ++ dir.text ++ " already exists (use --force to replace it)")
  let parent := dir.container
  Run.attempt ("Failed to create directory: " ++ parent.text) (Host.makeDirs parent)
  let staging ← Run.attempt ("Failed to create staging directory in " ++ parent.text)
    (Host.makeTempDir parent manifest.stagingStem)
  Run.onFailure
    (do
      writeUnits staging manifest.units
      moveIntoPlace staging dir)
    (do
      let _ ← Host.removeDirAll staging)
  Run.ask (Host.tell ⟨.info, .layout, s!"Wrote {manifest.units.length} files to " ++ dir.text⟩)

end Unbundle.Manifest
