import Unbundle.Config
import Unbundle.DiskError
import Unbundle.Survey

/-! Why a run fails: the cause, and what the run was about to do. -/
namespace Unbundle

inductive Cause
  | message (text : String)
  | disk (error : DiskError)
  /-- A configuration that is no TOML, or not of the right shape. -/
  | toml
  | config (error : ConfigError)
  | split (error : SplitError)
  | fault (fault : Fault)
deriving DecidableEq, Repr

/-- The text of a cause, where it has one. -/
def Cause.text? : Cause → Option String
  | message text => some text
  | disk error => some error.message
  | toml => none
  | config error => some error.message
  | split error => some error.message
  | fault _ => none

structure Failure where
  /-- What was being done, the outermost first. -/
  contexts : List String
  cause : Cause
deriving DecidableEq, Repr

namespace Failure

def ofMessage (text : String) : Failure := ⟨[], .message text⟩

/-- The failure as part of something larger. -/
def within (context : String) (f : Failure) : Failure :=
  { f with contexts := context :: f.contexts }

/-- All texts of the failure, the outermost first. -/
def chain (f : Failure) : List String := f.contexts ++ f.cause.text?.toList

/-- The failure on one line. -/
def message (f : Failure) : String := ": ".intercalate f.chain

/-- The causes, one below the other: numbered when there are several. -/
def causeLines : List String → List String
  | [cause] => ["    " ++ hang "    " cause]
  | causes => causes.mapIdx fun i cause => s!"    {i}: " ++ hang "       " cause

/-- The failure as it is shown at the end of a run: the outermost text, then its causes. -/
def display (f : Failure) : String :=
  match f.chain with
  | [] => "Error: \n"
  | [only] => "Error: " ++ only ++ "\n"
  | outer :: causes =>
    "Error: " ++ outer ++ "\n\nCaused by:\n" ++ "\n".intercalate (causeLines causes) ++ "\n"

end Failure
end Unbundle
