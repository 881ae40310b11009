import Unbundle.Config.Toml
import Unbundle.Host

/-! Configuration files. -/
namespace Unbundle

/-- The name of a configuration file that is found without being named. -/
def configFileName : Path := ⟨"applet-split.toml"⟩

namespace Config

variable {m : Type → Type} [Monad m] [Host m]

/-- The configuration in the text of the file `path`. -/
def read (path : Path) (text : String) : Except Failure Config :=
  match Config.ofToml? text.toList with
  | none => .error ⟨["Failed to parse config file: " ++ path.text], .toml⟩
  | some config =>
    match config.check with
    | .error e => .error ⟨["Invalid config " ++ path.text], .config e⟩
    | .ok _ => .ok config

/-- Loads a configuration file. -/
def load (path : Path) : Run m Config := do
  let text ← Run.attempt ("Failed to read config file: " ++ path.text) (Host.readText path)
  ExceptT.mk (pure (read path text))

/-- Loads the file named, else the one found in the input directory, else takes the defaults. -/
def loadOrDefault (named : Option Path) (input : Path) : Run m Config := do
  match named with
  | some path => load path
  | none =>
    let found := input.join configFileName
    if ← Run.ask (Host.isFile found) then
      Run.ask (Host.tell ⟨.info, .config, "Using configuration from " ++ found.text⟩)
      load found
    else return .default

/-- Writes a configuration file, with the directories above it. -/
def save (config : Config) (path : Path) : Run m Unit := do
  match path.parent? with
  | some parent =>
    Run.attempt ("Failed to create directory: " ++ parent.text) (Host.makeDirs parent)
  | none => pure ()
  let text ← Run.ofChecked config.document
  Run.attempt ("Failed to write config file: " ++ path.text) (Host.writeText path text)

end Config
end Unbundle
