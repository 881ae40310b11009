import Unbundle.Terminal

/-! Notices: what a run tells about its progress, apart from its results. -/
namespace Unbundle

/-- How much a notice matters, the gravest first. -/
inductive Level
  | error
  | warn
  | info
  | debug
deriving DecidableEq, Repr

namespace Level

def rank : Level → Nat
  | error => 0
  | warn => 1
  | info => 2
  | debug => 3

def label : Level → String
  | error => "ERROR"
  | warn => "WARN"
  | info => "INFO"
  | debug => "DEBUG"

end Level

/-- The part of the program that gives a notice. -/
inductive Component
  | command
  | config
  | functions
  | declarations
  | pipeline
  | generation
  | layout
deriving DecidableEq, Repr

/-- The name of the component in a log. -/
def Component.target : Component → String
  | command => "applet_splitter::cli"
  | config => "applet_splitter::config"
  | functions => "applet_splitter::parser::extractor"
  | declarations => "applet_splitter::resolver::item_classifier"
  | pipeline => "applet_splitter::splitter"
  | generation => "applet_splitter::generator::code_gen"
  | layout => "applet_splitter::generator::layout"

structure Notice where
  level : Level
  component : Component
  text : String
deriving DecidableEq, Repr

namespace Notice

/-- The notice with its level. -/
def entry (n : Notice) : String := n.level.label ++ " " ++ n.text

/-- The notice as it is logged: the level fills five columns, and more lines are indented. -/
def record (n : Notice) : String :=
  "[" ++ n.level.label ++ "".pushn ' ' (5 - n.level.label.length) ++ " " ++ n.component.target ++
    "] " ++ hang "    " n.text ++ "\n"

/-- The notice in a log that is no terminal. A sequence left open takes the end of the line with
it. -/
def plainRecord (n : Notice) : String := Terminal.plain n.record

/-- The notices as grave as `level` or graver. -/
def upTo (level : Level) (ns : List Notice) : List Notice :=
  ns.filter fun n => n.level.rank ≤ level.rank

end Notice
end Unbundle
