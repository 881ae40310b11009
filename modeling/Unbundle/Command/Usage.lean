import Unbundle.Command.Arguments
import Unbundle.Command.Nearness

/-! The command line: how words become the arguments of a run. Words are read from left to right; a
value given to an option or a place is looked at when the next one begins. -/
namespace Unbundle

/-- Why words are no arguments of a run, or what they ask for instead of one. -/
inductive UsageError
  | unknownArgument
  | conflict
  | invalidValue
  | missingRequired
  | tooManyValues
  | invalidSubcommand
  | help
  | version
deriving DecidableEq, Repr

/-- To ask for help or the version is no error. -/
def UsageError.exitCode : UsageError → Nat
  | help => 0
  | version => 0
  | _ => 2

/-- What is switched on. -/
inductive Flag
  | all
  | dryRun
  | force
  | removeSource
  | verbose
  | quiet
  | json
deriving DecidableEq, Repr

/-- What is given a value: the first three by an option, the others by their place. -/
inductive Slot
  | category
  | output
  | config
  | input
  | initPath
  | checkFile
deriving DecidableEq, Repr

namespace Slot

/-- The slot takes one value. -/
def isSingle : Slot → Bool
  | category => false
  | checkFile => false
  | _ => true

/-- The slot takes paths, which are not empty. -/
def isPath : Slot → Bool
  | category => false
  | _ => true

/-- The slot is filled by an option. -/
def isOption : Slot → Bool
  | category => true
  | output => true
  | config => true
  | _ => false

end Slot

inductive Switch
  | flag (f : Flag)
  | option (s : Slot)
  | help
  | version
deriving DecidableEq, Repr

/-- What may be said to a command. -/
structure Grammar where
  long : List (String × Switch)
  short : List (Char × Switch)
  /-- What words without a dash fill. -/
  place : Slot
  subcommands : List String

namespace Grammar

/-- The words before a subcommand. -/
def top : Grammar where
  long := [("category", .option .category), ("all", .flag .all), ("output", .option .output),
    ("config", .option .config), ("dry-run", .flag .dryRun), ("force", .flag .force),
    ("remove-source", .flag .removeSource), ("verbose", .flag .verbose), ("quiet", .flag .quiet),
    ("help", .help), ("version", .version)]
  short :=
    [('c', .option .category), ('a', .flag .all), ('o', .option .output), ('n', .flag .dryRun),
      ('f', .flag .force), ('v', .flag .verbose), ('q', .flag .quiet), ('h', .help),
      ('V', .version)]
  place := .input
  subcommands := ["init", "check", "help"]

def init : Grammar where
  long := [("help", .help)]
  short := [('h', .help)]
  place := .initPath
  subcommands := []

def check : Grammar where
  long := [("json", .flag .json), ("help", .help)]
  short := [('h', .help)]
  place := .checkFile
  subcommands := []

end Grammar

/-- What has been read so far. -/
structure Reading where
  flags : List Flag
  /-- The values that have been looked at. -/
  values : List (Slot × String)
  /-- The slot being filled, and the values it has so far. -/
  pending : Option (Slot × List String)
  /-- A double dash was read: all that follows has its place. -/
  escaped : Bool
deriving DecidableEq, Repr

namespace Reading

def start : Reading := ⟨[], [], none, false⟩

/-- The values of a slot. -/
def valuesOf (r : Reading) (slot : Slot) : List String :=
  r.values.filterMap fun (s, v) => if s = slot then some v else none

/-- The path in a slot. -/
def path? (r : Reading) (slot : Slot) : Option Path := (r.valuesOf slot).head?.map Path.mk

def has (r : Reading) (f : Flag) : Bool := r.flags.contains f

/-- The slot is filled or being filled. -/
def holds (r : Reading) (slot : Slot) : Bool :=
  !(r.valuesOf slot).isEmpty || r.pending.any (·.1 == slot)

/-- The next word is the value of an option. -/
def awaits (r : Reading) : Bool :=
  match r.pending with
  | some (slot, []) => slot.isOption
  | _ => false

/-- Fills a slot. To fill one again that takes one value is a conflict. -/
def fill (r : Reading) (slot : Slot) (values : List String) : Except UsageError Reading :=
  if slot.isSingle && !(r.valuesOf slot).isEmpty then .error .conflict
  else if slot.isPath && values.any String.isEmpty then .error .invalidValue
  else .ok { r with values := r.values ++ values.map fun v => (slot, v) }

/-- Looks at the values being given. -/
def settle (r : Reading) : Except UsageError Reading :=
  match r.pending with
  | none => .ok r
  | some (_, []) => .error .invalidValue
  | some (slot, values) => { r with pending := none }.fill slot values

/-- Throws a switch; `value` is the value written in the same word. -/
def apply (r : Reading) : Switch → Option String → Except UsageError Reading
  | .option slot, none => do return { ← r.settle with pending := some (slot, []) }
  | .option slot, some value => do (← r.settle).fill slot [value]
  | _, some _ => .error .tooManyValues
  | .flag f, none => do
    let r ← r.settle
    if r.has f then .error .conflict else return { r with flags := f :: r.flags }
  | .help, none => do
    let _ ← r.settle
    .error .help
  | .version, none => do
    let _ ← r.settle
    .error .version

/-- Gives a value to the option that waits for one. -/
def supply (r : Reading) (value : String) : Reading :=
  { r with pending := r.pending.map fun (slot, values) => (slot, values ++ [value]) }

end Reading

namespace Grammar

/-- Reads a word after its two dashes: a name, and a value after an equals sign. -/
def readLong (g : Grammar) (r : Reading) (word : Text) : Except UsageError Reading :=
  let name := word.takeWhile (· != '=')
  let value := (word.dropWhile (· != '=')).tail?.map String.ofList
  match g.long.lookup (String.ofList name) with
  | some switch => r.apply switch value
  | none => .error .unknownArgument

/-- Reads a word after its one dash: letters, the last of which may be followed by its value. -/
def readShort (g : Grammar) (r : Reading) : Text → Except UsageError Reading
  | [] => .ok r
  | c :: cs =>
    match g.short.lookup c with
    | none => .error .unknownArgument
    | some (.option slot) =>
      match cs with
      | [] => r.apply (.option slot) none
      | '=' :: value => r.apply (.option slot) (some (String.ofList value))
      | value => r.apply (.option slot) (some (String.ofList value))
    | some switch => do g.readShort (← r.apply switch none) cs

/-- What is wrong with a word that has no place: it may be meant as a subcommand. -/
def stray (g : Grammar) (r : Reading) (word : String) : UsageError :=
  if r.escaped && g.subcommands.contains word then .unknownArgument
  else if g.subcommands.any (isMistakenFor word) then .invalidSubcommand
  else .unknownArgument

/-- Reads a word by its place. -/
def readPlace (g : Grammar) (r : Reading) (word : String) : Except UsageError Reading :=
  if g.place.isSingle && r.holds g.place then .error (g.stray r word)
  else if r.pending.any (·.1 == g.place) then .ok (r.supply word)
  else do return { ← r.settle with pending := some (g.place, [word]) }

/-- Reads one word that is no subcommand. -/
def readWord (g : Grammar) (r : Reading) (word : String) : Except UsageError Reading :=
  if r.escaped then g.readPlace r word
  else
    match word.toList with
    | ['-', '-'] => .ok { r with escaped := true }
    | '-' :: '-' :: long => g.readLong r long
    | '-' :: c :: short => g.readShort r (c :: short)
    | _ => if r.awaits then .ok (r.supply word) else g.readPlace r word

/-- Reads words up to a subcommand, and gives it with the words after it. -/
def readWords (g : Grammar) (r : Reading) :
    List String → Except UsageError (Reading × Option (String × List String))
  | [] => .ok (r, none)
  | word :: rest =>
    if !r.escaped && !r.awaits && g.subcommands.contains word then .ok (r, some (word, rest))
    else do g.readWords (← g.readWord r word) rest

/-- Reads all words of a command that has no subcommands. -/
def readAll (g : Grammar) (words : List String) : Except UsageError Reading := do
  let (r, _) ← g.readWords .start words
  r.settle

end Grammar

/-- Help may be asked for on one subcommand, or on none. -/
def helpOn : List String → UsageError
  | [] => .help
  | [name] => if Grammar.top.subcommands.contains name then .help else .invalidSubcommand
  | _ => .invalidSubcommand

/-- Reads a subcommand with the words after it. -/
def Command.ofWords (name : String) (words : List String) : Except UsageError Command :=
  match name with
  | "init" => do return .init ((← Grammar.init.readAll words).path? .initPath)
  | "check" => do
    let r ← Grammar.check.readAll words
    let files := r.valuesOf .checkFile
    if files.isEmpty then .error .missingRequired
    else return .check (files.map Path.mk) (r.has .json)
  | _ => .error (helpOn words)

namespace Reading

/-- Takes the configuration file from the environment when no option names one. -/
def withDefaultConfig (r : Reading) : Option String → Except UsageError Reading
  | some path => if r.holds .config then .ok r else r.fill .config [path]
  | none => .ok r

/-- Two switches exclude each other. -/
def isContradictory (r : Reading) : Bool :=
  (r.has .all && !(r.valuesOf .category).isEmpty) || (r.has .verbose && r.has .quiet)

def arguments (r : Reading) (command : Option Command) : Arguments where
  input := r.path? .input
  categories := r.valuesOf .category
  all := r.has .all
  output := r.path? .output
  config := r.path? .config
  dryRun := r.has .dryRun
  force := r.has .force
  removeSource := r.has .removeSource
  verbose := r.has .verbose
  quiet := r.has .quiet
  command := command

end Reading

/-- Reads the words of a command line, the first of which names the program. `envConfig` is the
configuration file that the environment names. The errors of a subcommand come first. -/
def Arguments.ofWords (words : List String) (envConfig : Option String) :
    Except UsageError Arguments := do
  let (r, sub) ← Grammar.top.readWords .start (words.drop 1)
  let command ← sub.mapM fun (name, rest) => Command.ofWords name rest
  let r ← r.settle
  let r ← r.withDefaultConfig envConfig
  if r.isContradictory then .error .conflict else return r.arguments command

end Unbundle
