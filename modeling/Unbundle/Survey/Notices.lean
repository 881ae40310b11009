import Unbundle.Survey

/-! What a survey gives notice of. -/
namespace Unbundle

/-- The spelling of kinds in notices. -/
def FunctionKind.label : FunctionKind → String
  | applet => "Applet"
  | helper => "Helper"

def AggregateKind.label : AggregateKind → String
  | struct => "Struct"
  | enum => "Enum"
  | union => "Union"
  | trait => "Trait"
  | impl => "Impl"

def DeclarationKind.label : DeclarationKind → String
  | const => "Const"
  | static => "Static"
  | typeAlias => "TypeAlias"
  | aggregate kind => "Aggregate(" ++ kind.label ++ ")"

def SkippedKind.label : SkippedKind → String
  | macroRules => "MacroRules"
  | inlineModule => "Module"
  | externBlock => "ExternBlock"

/-- An item as notices name it. -/
def itemLabel (kind name : String) (line : Nat) : String := s!"{kind} `{name}` at line {line}"

/-- Bodiless functions are passed over; of the others, unclosed ones are warned about. -/
def FunctionSite.notices (text : Text) : FunctionSite → List Notice
  | bodiless name line =>
    [⟨.debug, .functions, "skipping bodiless " ++ itemLabel "function" name line⟩]
  | function f =>
    let line := lineOf text f.head.itemStart
    let warning : Notice := ⟨.warn, .functions, itemLabel "function" f.name line ++
      " is never closed; its body runs to the end of input"⟩
    (if f.closed then [] else [warning]) ++
      [⟨.debug, .functions, "found " ++ itemLabel f.kind.label f.name line⟩]

def nestedNotice (f : Function) : Notice :=
  ⟨.debug, .functions, "dropping helper `" ++ f.name ++ "` nested inside another function"⟩

def Finding.notices (text : Text) : Finding → List Notice
  | skipped item =>
    [⟨.warn, .declarations, item.kind.label ++ " " ++ item.name.getD "" ++
      s!" at line {item.line} is not carried into the split layout"⟩]
  | declaration d =>
    let line := lineOf text d.head.itemStart
    let warning : Notice := ⟨.warn, .declarations, itemLabel d.kind.label d.name line ++
      " is never closed; it runs to the end of input"⟩
    (if d.closed then [] else [warning]) ++
      [⟨.debug, .declarations, "found " ++ itemLabel d.kind.label d.name line⟩]

def functionNotices (text : Text) (sites : List FunctionSite) : List Notice :=
  sites.flatMap (FunctionSite.notices text) ++
    (nestedHelpers (sites.filterMap FunctionSite.function?)).map nestedNotice

/-- Literals and comments left open. -/
def unclosedNotices (source : Source) (s : Scan) : List Notice :=
  s.unclosed.map fun offset =>
    ⟨.warn, .pipeline, source.category ++
      s!": literal or comment at line {source.lineOf offset} is never closed"⟩

def Inventory.notice (category : String) (u : Inventory) : Notice :=
  ⟨.debug, .pipeline, category ++ s!": {u.applets.length} applets, {u.helpers.length} helpers, " ++
    s!"{u.declarations.length} shared declarations, {u.skipped.length} skipped items"⟩

/-- The notices of a survey, in order. After two applets of one name nothing more is looked for. -/
def Survey.notices (v : Survey) (source : Source) : List Notice :=
  functionNotices source.text v.sites ++
    match v.inventory source.text with
    | .error _ => []
    | .ok u => v.findings.flatMap (Finding.notices source.text) ++ [u.notice source.category]

/-- The notices of `analyze`. -/
def analysisNotices (source : Source) : Checked (List Notice) := do
  let s := Scan.ofText source.text
  return unclosedNotices source s ++ (← s.survey).notices source

end Unbundle
