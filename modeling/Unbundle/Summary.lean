import Unbundle.Fault
import Unbundle.Styled

/-! The summary of a run: what became of each category. -/
namespace Unbundle

/-- Why a category was left alone. -/
inductive SkipReason
  | missingFile
  | noApplets
deriving DecidableEq, Repr

def SkipReason.describe : SkipReason → String
  | missingFile => "file not found"
  | noApplets => "no applets found"

inductive CategoryOutcome
  | split (category : String) (applets helpers declarations files : Nat)
  | skipped (category : String) (reason : SkipReason)
deriving DecidableEq, Repr

structure Summary where
  dryRun : Bool
  outcomes : List CategoryOutcome
deriving DecidableEq, Repr

namespace CategoryOutcome

def applets : CategoryOutcome → Nat
  | split _ n _ _ _ => n
  | skipped _ _ => 0

/-- The row of a category that was split. -/
def row? (colours : Bool) : CategoryOutcome → Option String
  | split category applets helpers declarations files =>
    some ("  " ++ padRight 12 category ++ " " ++
      (Style.inColour .green).paint colours (padLeft 8 (toString applets)) ++ " " ++
      padLeft 8 (toString helpers) ++ " " ++ padLeft 8 (toString declarations) ++ " " ++
      padLeft 6 (toString files) ++ "\n")
  | skipped _ _ => none

/-- The row of a category that was left alone. -/
def skippedRow? (colours : Bool) : CategoryOutcome → Option String
  | split _ _ _ _ _ => none
  | skipped category reason =>
    some ("  " ++ padRight 12 category ++ " " ++
      (Style.inColour .yellow).paint colours reason.describe ++ "\n")

end CategoryOutcome

namespace Summary

def empty (dryRun : Bool) : Summary := ⟨dryRun, []⟩

def record (s : Summary) (outcome : CategoryOutcome) : Summary :=
  { s with outcomes := s.outcomes ++ [outcome] }

def totalApplets (s : Summary) : Nat := s.outcomes.foldl (fun n o => n + o.applets) 0

/-- The total, refused when it does not fit a machine word. -/
def wordTotal (s : Summary) : Checked Nat :=
  if s.totalApplets < wordBound then .ok s.totalApplets else .error .overflow

def title (s : Summary) : String := if s.dryRun then "Summary (dry run)" else "Summary"

/-- The summary as text: a table of the categories that were split, the total, and the others. -/
def render (s : Summary) (colours : Bool) : String :=
  let skipped := s.outcomes.filterMap (·.skippedRow? colours)
  "\n" ++ Style.bright.paint colours s.title ++ "\n" ++
    "  category      applets  helpers    decls  files\n" ++
    String.join (s.outcomes.filterMap (·.row? colours)) ++
    "  " ++ Style.bright.paint colours (padRight 12 "Total") ++ " " ++
    (Style.mk true (some .green)).paint colours (padLeft 8 (toString s.totalApplets)) ++ "\n" ++
    if skipped.isEmpty then ""
    else "\n" ++ (Style.mk true (some .yellow)).paint colours "Skipped" ++ "\n" ++
      String.join skipped

end Summary
end Unbundle
