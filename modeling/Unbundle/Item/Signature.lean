import Unbundle.Text.Blank
import Unbundle.Text.Name

/-! The applet calling convention,
`pub fn NAME(argc: i32, argv: *const *const u8) -> i32`. The two parameters may have a leading
underscore, a comma may follow the second, and the name may be any identifier, raw or plain. -/
namespace Unbundle

namespace Signature

/-- What is left after the literal text `w`. -/
def lit (w : String) (cs : Text) : Option Text :=
  if w.toList.isPrefixOf cs then some (cs.drop w.length) else none

/-- What is left after the literal text `w`, if it is there. -/
def optLit (w : String) (cs : Text) : Text := (lit w cs).getD cs

/-- What is left after any blanks. -/
def blanks (cs : Text) : Text := cs.dropWhile isBlank

/-- What is left after one blank or more. -/
def someBlanks (cs : Text) : Option Text :=
  match cs with
  | c :: rest => if isBlank c then some (blanks rest) else none
  | [] => none

/-- The literal `w` after any blanks. -/
def next (w : String) (cs : Text) : Option Text := lit w (blanks cs)

/-- A name at the start of a text, and what is left after it. -/
def name? (cs : Text) : Option (Text × Text) :=
  let marker := if (lit "r#" cs).isSome then ['r', '#'] else []
  match optLit "r#" cs with
  | c :: rest =>
    if c == '_' || isNameStart c then
      some (marker ++ c :: rest.takeWhile isNameContinue, rest.dropWhile isNameContinue)
    else none
  | [] => none

/-- What is left after the parameter list and the result of an applet. -/
def afterName (cs : Text) : Option Text := do
  let cs ← next "(" cs
  let cs ← lit "argc" (optLit "_" (blanks cs))
  let cs ← next ":" cs
  let cs ← next "i32" cs
  let cs ← next "," cs
  let cs ← lit "argv" (optLit "_" (blanks cs))
  let cs ← next ":" cs
  let cs ← next "*" cs
  let cs ← next "const" cs
  let cs ← lit "*" (← someBlanks cs)
  let cs ← next "const" cs
  let cs ← lit "u8" (← someBlanks cs)
  let cs ← next ")" (optLit "," (blanks cs))
  let cs ← next "->" cs
  next "i32" cs

end Signature

open Signature in
/-- The name of the applet that a signature declares; `none` when it is no applet's signature.
Blanks around the signature do not count. -/
def appletName? (signature : Text) : Option Text := do
  let cs ← lit "pub" (trim signature)
  let cs ← lit "fn" (← someBlanks cs)
  let (name, cs) ← name? (← someBlanks cs)
  if (← afterName cs).isEmpty then some name else none

end Unbundle
