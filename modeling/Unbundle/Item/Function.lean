import Unbundle.Item.Head
import Unbundle.Item.Signature
import Unbundle.Scan.Group

/-! The functions at the top level of a text. -/
namespace Unbundle

inductive FunctionKind
  /-- A function with the applet calling convention. -/
  | applet
  /-- Any other function. -/
  | helper
deriving DecidableEq, Repr

/-- A function with a body. -/
structure Function where
  name : String
  kind : FunctionKind
  /-- From the attached comments to the end of the body. -/
  span : Span
  head : Head
  /-- The body with its braces. -/
  body : Span
  /-- The body does not run into the end of the text. -/
  closed : Bool
deriving DecidableEq, Repr

namespace Function

def isApplet (f : Function) : Bool := f.kind == .applet

/-- The characters of the function. -/
def text (f : Function) (source : Text) : Checked Text := slice source f.span.start f.span.stop

/-- The attached comments and attributes. -/
def leadingDoc (f : Function) (source : Text) : Checked (Option Text) :=
  match f.head.leading with
  | some span => (slice source span.start span.stop).map some
  | none => .ok none

end Function

/-- What a `fn` at the top level turns out to be. -/
inductive FunctionSite
  /-- A function that ends without a body. -/
  | bodiless (name : String) (line : Nat)
  | function (f : Function)
deriving DecidableEq, Repr

def FunctionSite.function? : FunctionSite → Option Function
  | bodiless _ _ => none
  | function f => some f

namespace Scan

variable (s : Scan)

/-- The function whose `fn` is the token at `i` and whose body the brace at `opened` opens. -/
def functionAt (i opened : Nat) (name : String) : Checked Function := do
  let head ← s.head i
  let body := s.group opened
  let brace ← s.token opened
  let signature ← s.slice head.itemStart brace.start
  let kind := if (appletName? signature).isSome then FunctionKind.applet else .helper
  let span ← Span.make head.start body.stop
  let bodySpan ← Span.make brace.start body.stop
  return ⟨name, kind, span, head, bodySpan, body.closed⟩

/-- The function at the token `i`: a top-level `fn` with a name after it. Pointer types such as
`fn(u8) -> u8` have none. -/
def functionSite? (i : Nat) : Checked (Option FunctionSite) :=
  if s.isTopLevel i && s.isWord i "fn" then
    match s.nextCode? i with
    | none => .ok none
    | some n => do
      let nameToken ← s.token n
      if nameToken.isName then
        match s.terminator? true (n + 1) with
        | some (.block opened) => return some (.function (← s.functionAt i opened nameToken.text))
        | _ => return some (.bodiless nameToken.text (s.line (← s.token i).start))
      else return none
  else .ok none

/-- Every function at the top level, in source order. -/
def functionSites : Checked (List FunctionSite) := do
  return (← (List.range s.size).mapM s.functionSite?).filterMap id

end Scan

/-- Marks each function that is kept. Applets are; a helper is unless it starts inside an applet or
inside a helper kept before it. -/
def keptMarks (applets kept : List Span) : List Function → List (Function × Bool)
  | [] => []
  | f :: fs =>
    if f.isApplet then (f, true) :: keptMarks applets kept fs
    else if (applets ++ kept).any (·.contains f.span.start) then
      (f, false) :: keptMarks applets kept fs
    else (f, true) :: keptMarks applets (f.span :: kept) fs

/-- The functions with their marks. -/
def markFunctions (fs : List Function) : List (Function × Bool) :=
  keptMarks ((fs.filter Function.isApplet).map Function.span) [] fs

/-- The functions without the helpers nested inside another function. -/
def keptFunctions (fs : List Function) : List Function :=
  ((markFunctions fs).filter Prod.snd).map Prod.fst

/-- The helpers nested inside another function. -/
def nestedHelpers (fs : List Function) : List Function :=
  ((markFunctions fs).filter (!·.2)).map Prod.fst

/-- The top-level functions of a text that have a body and are not nested, in source order. -/
def Scan.functions (s : Scan) : Checked (List Function) := do
  return keptFunctions ((← s.functionSites).filterMap FunctionSite.function?)

end Unbundle
