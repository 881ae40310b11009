import Unbundle.Text.Blank

/-! Who may see an item, and what its visibility becomes in another file. -/
namespace Unbundle

inductive Visibility
  /-- The item takes no visibility at all. -/
  | inherited
  | priv
  | pub
  | crate
  | super
  | selfOnly
  | inPath (path : String)
deriving DecidableEq, Repr

namespace Visibility

/-- The path that words spell. -/
def ofPathWords (ws : List Text) : Visibility := .inPath (String.ofList (joinWith [' '] ws))

/-- Reads the inside of `pub(…)`. Only its words count, and a leading `in` is not part of a path. -/
def restricted (inside : Text) : Visibility :=
  let ws := words inside
  if ws = ["crate".toList] then .crate
  else if ws = ["super".toList] then .super
  else if ws = ["self".toList] then .selfOnly
  else
    match ws with
    | w :: v :: vs => if w = "in".toList then ofPathWords (v :: vs) else ofPathWords ws
    | _ => ofPathWords ws

/-- The visibility as it is written before an item. -/
def text : Visibility → String
  | inherited | priv => ""
  | pub => "pub"
  | crate => "pub(crate)"
  | super => "pub(super)"
  | selfOnly => "pub(self)"
  | inPath path => s!"pub(in {path})"

end Visibility

/-- The kind of file an item moves to. -/
inductive Destination
  | sharedModule
  | appletFile
deriving DecidableEq, Repr

/-- The visibility an item needs at its destination: the applet files must be able to use what lies
in the shared module. -/
def Visibility.widen (v : Visibility) : Destination → Visibility
  | .sharedModule =>
    match v with
    | .priv | .selfOnly => .pub
    | _ => v
  | .appletFile => v

end Unbundle
