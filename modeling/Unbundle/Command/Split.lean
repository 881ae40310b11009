import Unbundle.Command.Arguments
import Unbundle.Command.Init
import Unbundle.Manifest.Write
import Unbundle.Plan
import Unbundle.Summary

/-! The run that splits categories: the files of a category are written to a directory of its
own. -/
namespace Unbundle

variable {m : Type → Type} [Monad m] [Host m]

/-- Plans a category and gives its notices. -/
def planAloud (source : Source) (config : Config) : Run m (Except SplitError Plan) := do
  (← Run.ofChecked (planNotices source config)).forM fun n => Run.ask (Host.tell n)
  Run.ofChecked (plan source config)

/-- The stems of files that hold no category. -/
def reservedStems : List String := ["mod", "lib", "main"]

/-- The category that a file named so holds. -/
def categoryOf? (name : String) : Option String :=
  if [ '.', 'r', 's' ].isSuffixOf name.toList then
    let stem := String.ofList (Path.stemOf name.toList)
    if reservedStems.contains stem then none else some stem
  else none

/-- The categories that the files named so hold, sorted. -/
def categoriesAmong (names : List String) : List String :=
  (names.filterMap categoryOf?).mergeSort fun a b => a ≤ b

/-- Files can be looked for under the path. The search follows it piece by piece, and an empty piece
leads nowhere as long as the search is where it started. -/
def isSearchable (p : Path) : Bool :=
  p.isAbsolute || (p.pieces.dropWhile (· == ['.'])).head? != some []

/-- The categories of a run: all that are there, those named, or those of the configuration. -/
def selectedCategories (args : Arguments) (config : Config) (input : Path) : m (List String) := do
  if args.all then
    if isSearchable input then return categoriesAmong (← Host.names input) else return []
  else if args.categories.isEmpty then return config.categories
  else return args.categories

/-- Prints a line, unless the run is to be quiet. -/
def sayLine (args : Arguments) (line : String) : m Unit :=
  if args.quiet then pure () else Host.print (line ++ "\n")

/-- What would be done to a category. -/
def rehearsalLines (args : Arguments) (manifest : Manifest) (source output : Path) : List String :=
  ["Would write " ++ output.text ++ "/"] ++
    manifest.units.map (fun u => "  " ++ u.name ++ s!" ({u.render.utf8ByteSize} bytes)") ++
    if args.removeSource then ["Would remove " ++ source.text] else []

/-- Writes a category, and then removes its source when asked to. -/
def writeCategory (colours : Bool) (args : Arguments) (manifest : Manifest) (source output : Path) :
    Run m Unit := do
  manifest.write output args.force
  Run.ask (sayLine args (tick colours ++ " " ++ manifest.category ++
    s!": {manifest.appletNames.length} applets -> " ++ output.text))
  if args.removeSource then
    Run.attempt ("Failed to remove " ++ source.text) (Host.removeFile source)
    Run.ask (Host.tell ⟨.info, .command, "Removed " ++ source.text⟩)

/-- The outcome for a category that was split. -/
def Plan.outcome (p : Plan) (manifest : Manifest) : CategoryOutcome :=
  .split manifest.category manifest.appletNames.length p.inventory.helpers.length
    p.inventory.declarations.length manifest.units.length

/-- Splits one category whose text is `text`. -/
def splitText (colours : Bool) (args : Arguments) (config : Config) (category : String)
    (source output : Path) (text : String) : Run m CategoryOutcome := do
  match ← planAloud (.ofString category text) config with
  | .error e => throw ⟨[], .split e⟩
  | .ok p =>
    match p.manifest with
    | none =>
      Run.ask (Host.tell ⟨.warn, .command,
        "No applets found in " ++ source.text ++ ", leaving it untouched"⟩)
      return .skipped category .noApplets
    | some manifest =>
      if args.dryRun then
        (rehearsalLines args manifest source output).forM fun line => Run.ask (sayLine args line)
      else writeCategory colours args manifest source output
      return p.outcome manifest

/-- The file that holds a category. -/
def categoryFile (input : Path) (category : String) : Path := input.join ⟨category ++ ".rs"⟩

/-- Splits one category. -/
def splitCategory (colours : Bool) (args : Arguments) (config : Config) (input output : Path)
    (category : String) : Run m CategoryOutcome := do
  let source := categoryFile input category
  if ← Run.ask (Host.isFile source) then
    let text ← Run.attempt ("Failed to read " ++ source.text) (Host.readText source)
    splitText colours args config category source (output.join ⟨category⟩) text
  else
    Run.ask (Host.tell ⟨.info, .command, "Skipping " ++ category ++ " - file not found"⟩)
    return .skipped category .missingFile

/-- Splits categories one after the other, up to the first that fails. -/
def splitAll (colours : Bool) (args : Arguments) (config : Config) (input output : Path) :
    Summary → List String → Run m Summary
  | summary, [] => return summary
  | summary, category :: rest => do
    let outcome ← Run.inContext ("Failed to split category " ++ category)
      (splitCategory colours args config input output category)
    splitAll colours args config input output (summary.record outcome) rest

/-- Splits the categories of a run. -/
def splitCategories (colours : Bool) (args : Arguments) : Run m Summary := do
  match args.input with
  | none => Run.fail "An input directory is required"
  | some input =>
    if ← Run.ask (Host.isDir input) then
      let config ← Config.loadOrDefault args.config input
      let categories ← Run.ask (selectedCategories args config input)
      splitAll colours args config input (args.output.getD input) (.empty args.dryRun) categories
    else Run.fail ("Input directory does not exist: " ++ input.text)

end Unbundle
