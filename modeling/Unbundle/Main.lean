import Unbundle.Command

/-! The program on a real file system. -/
namespace Unbundle

/-- A run that logs up to a level, if at all. -/
abbrev Console := ReaderT (Option Level) IO

namespace Console

/-- The reason for a failure of the system. -/
def reason : IO.Error → DiskError
  | .noFileOrDirectory _ _ _ => .notFound
  | .alreadyExists _ _ _ => .alreadyThere
  | .inappropriateType _ 20 _ => .notADirectory
  | .inappropriateType _ 21 _ => .isADirectory
  | .unsatisfiedConstraints _ _ => .notEmpty
  | e => .other (toString e)

/-- What an action gives, or why it fails. -/
def tried {α : Type} (action : IO α) : Console (Except DiskError α) := do
  match ← (action.toBaseIO : BaseIO (Except IO.Error α)) with
  | .ok a => return .ok a
  | .error e => return .error (reason e)

/-- Whether something holds; a failure counts as no. -/
def holds (action : IO Bool) : Console Bool := do
  match ← tried action with
  | .ok b => return b
  | .error _ => return false

def isDir (p : Path) : IO Bool := do (← IO.FS.realPath p.text).isDir

def isThere (p : Path) : IO Bool := do (← IO.FS.realPath p.text).pathExists

def readText (p : Path) : Console (Except DiskError String) := do
  if ← holds (isDir p) then return .error .isADirectory
  match ← tried (IO.FS.readBinFile p.text) with
  | .error e => return .error e
  | .ok bytes =>
    match String.fromUTF8? bytes with
    | some text => return .ok text
    | none => return .error .notText

def names (p : Path) : IO (List String) := do
  return (← (← IO.FS.realPath p.text).readDir).toList.map fun e => e.fileName

/-- Makes a directory with a new name, in at most `tries` tries. -/
def makeTempDir (parent : Path) (stem : String) : Nat → Console (Except DiskError Path)
  | 0 => return .error .alreadyThere
  | tries + 1 => do
    let p := parent.join ⟨stem ++ toString (← (IO.rand 100000 999999 : IO Nat))⟩
    match ← tried (IO.FS.createDir p.text) with
    | .ok _ => return .ok p
    | .error .alreadyThere => makeTempDir parent stem tries
    | .error e => return .error e

end Console

instance : Host Console where
  isDir p := Console.holds (Console.isDir p)
  isFile p := do
    if ← Console.holds (Console.isDir p) then return false
    else Console.holds (Console.isThere p)
  readText := Console.readText
  names p := do return (← Console.tried (Console.names p)).toOption.getD []
  makeDir p := Console.tried (IO.FS.createDir p.text)
  makeTempDir parent stem := Console.makeTempDir parent stem 1000
  writeText p text := Console.tried (IO.FS.writeFile p.text text)
  removeFile p := Console.tried (IO.FS.removeFile p.text)
  removeDirAll p := Console.tried (IO.FS.removeDirAll p.text)
  rename p q := Console.tried (IO.FS.rename p.text q.text)
  print text := (IO.print text : IO Unit)
  tell n := do
    match ← read with
    | some level =>
      if n.level.rank ≤ level.rank then
        if ← (← IO.getStderr).isTty then (IO.eprint n.record : IO Unit)
        else (IO.eprint n.plainRecord : IO Unit)
    | none => return ()

/-- What the program says about its use. -/
def usageText : String :=
  "Usage: applet-split [OPTIONS] [INPUT_DIR] [COMMAND]\n"

/-- Answers words that are no arguments of a run. -/
def explain (e : UsageError) : IO UInt32 := do
  match e with
  | .version => IO.print versionText
  | .help => IO.print usageText
  | _ => IO.eprint usageText
  return e.exitCode.toUInt32

/-- Runs the program and gives its exit code. -/
def perform (args : Arguments) : IO UInt32 := do
  let colours := (← (← IO.getStdout).isTty) && (← IO.getEnv "NO_COLOR").isNone
  let action : Run Console Unit := run colours args
  match ← action.run.run (args.logLevel? (← IO.getEnv "RUST_LOG")) with
  | .ok _ => return 0
  | .error f =>
    IO.eprint f.display
    return 1

end Unbundle

/-- The entry point: reads the command line and runs the program. -/
def main (words : List String) : IO UInt32 := do
  match Unbundle.Arguments.ofWords ("applet-split" :: words)
    (← IO.getEnv "APPLET_SPLIT_CONFIG") with
  | .ok args => Unbundle.perform args
  | .error e => Unbundle.explain e
