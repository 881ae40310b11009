import Unbundle.Config
import Unbundle.Scan

/-! Which imports a piece of code needs, told from the identifiers it uses. -/
namespace Unbundle

/-- The identifiers among tokens. A name directly before an exclamation mark also counts as a macro,
with the mark. Words inside literals and comments do not count, as these are single tokens. -/
def usedNames : List Token → List String
  | [] => []
  | t :: ts =>
    if t.kind = .ident then
      if ts.head?.any (·.kind == .punct '!') then (t.text ++ "!") :: t.text :: usedNames ts
      else t.text :: usedNames ts
    else usedNames ts

/-- The identifiers used by the code in a span. -/
def Scan.usage (s : Scan) (span : Span) : List String :=
  usedNames (s.tokens.extract (s.firstFrom span.start) (s.firstFrom span.stop)).toList

/-- The rules that apply to code with the given usage, in the order of the settings. -/
def ImportSettings.detect (settings : ImportSettings) (usage : List String) : List ImportRule :=
  settings.rules.filter fun rule =>
    match settings.mode with
    | .all => true
    | .usage => rule.triggers.any (usage.contains ·)

/-- The import lines for the code in a span. -/
def ImportSettings.linesFor (settings : ImportSettings) (s : Scan) (span : Span) : List String :=
  (settings.detect (s.usage span)).flatMap ImportRule.lines

end Unbundle
