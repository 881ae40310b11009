import Unbundle.Manifest
import Unbundle.Survey.Notices

/-! The plan for one category: what it holds and the files it becomes. -/
namespace Unbundle

structure Plan where
  inventory : Inventory
  /-- The files; `none` when there are no applets and nothing is to be written. -/
  manifest : Option Manifest
deriving DecidableEq, Repr

/-- The plan for a partition of a scanned source. -/
def Inventory.plan (u : Inventory) (config : Config) (source : Source) (s : Scan) :
    Checked (Except SplitError Plan) := do
  if u.applets.isEmpty then return .ok ⟨u, none⟩
  else return (← generate config source s u).map fun m => ⟨u, some m⟩

/-- Plans a category. -/
def plan (source : Source) (config : Config) : Checked (Except SplitError Plan) := do
  let s := Scan.ofText source.text
  match (← s.survey).inventory source.text with
  | .error e => return .error e
  | .ok u => u.plan config source s

/-- The files of a category; `none` when it has no applets. -/
def split (source : Source) (config : Config) : Checked (Except SplitError (Option Manifest)) := do
  return (← plan source config).map Plan.manifest

/-- The notices of `plan`. -/
def planNotices (source : Source) (config : Config) : Checked (List Notice) := do
  let before ← analysisNotices source
  match ← plan source config with
  | .ok ⟨_, some m⟩ => return before ++ [m.notice]
  | _ => return before

end Unbundle
