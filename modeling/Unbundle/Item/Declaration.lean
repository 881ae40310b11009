import Unbundle.Item.Head
import Unbundle.Scan.Group

/-! The declarations at the top level of a text, and the items that are left behind. -/
namespace Unbundle

inductive AggregateKind
  | struct
  | enum
  | union
  | trait
  | impl
deriving DecidableEq, Repr

inductive DeclarationKind
  | const
  | static
  | typeAlias
  | aggregate (kind : AggregateKind)
deriving DecidableEq, Repr

/-- The item ends with its block, where it has one, and not at a semicolon after it. -/
def DeclarationKind.endsWithBlock : DeclarationKind → Bool
  | aggregate _ => true
  | _ => false

/-- A top-level declaration; it moves to the shared module. -/
structure Declaration where
  kind : DeclarationKind
  name : String
  span : Span
  head : Head
  /-- The declaration does not run into the end of the text. -/
  closed : Bool
deriving DecidableEq, Repr

/-- The characters of the declaration. -/
def Declaration.text (d : Declaration) (source : Text) : Checked Text :=
  slice source d.span.start d.span.stop

inductive SkippedKind
  | macroRules
  | inlineModule
  | externBlock
deriving DecidableEq, Repr

/-- A top-level item that is neither a function nor a declaration and is not carried over. -/
structure SkippedItem where
  kind : SkippedKind
  name : Option String
  line : Nat
deriving DecidableEq, Repr

/-- What a scan of the top level comes upon outside functions. -/
inductive Finding
  | skipped (item : SkippedItem)
  | declaration (d : Declaration)
deriving DecidableEq, Repr

namespace Finding

def declaration? : Finding → Option Declaration
  | skipped _ => none
  | declaration d => some d

def skipped? : Finding → Option SkippedItem
  | skipped item => some item
  | declaration _ => none

end Finding

namespace Scan

variable (s : Scan)

/-- The name that the token at `i` spells. -/
def nameAt? (i : Nat) : Option String :=
  match s.token? i with
  | some t => if t.isName then some t.text else none
  | none => none

/-- The first token of the block of an item that is left behind, with the item's kind and name. -/
def skippedBlock? (next : Nat) (t : Token) : Option (SkippedKind × Option String × Nat) := do
  if t.isWord "macro_rules" then
    if s.kind? next = some (.punct '!') then
      let name ← s.nextCode? next
      let block ← s.nextCode? name
      some (.macroRules, (s.token? name).map Token.text, block)
    else none
  else if t.isWord "mod" then
    let block ← s.nextCode? next
    some (.inlineModule, (s.token? next).map Token.text, block)
  else if t.isWord "extern" then
    if (← s.token? next).isPlainString then
      some (.externBlock, none, ← s.nextCode? next)
    else some (.externBlock, none, next)
  else none

/-- A `macro_rules!`, module or foreign block at the token `i`, and the token to go on from: the one
after its block, or the end of the tokens when the block is never closed. -/
def skippedItem? (i : Nat) (t : Token) : Option (SkippedItem × Nat) := do
  let next ← s.nextCode? i
  let (kind, name, block) ← s.skippedBlock? next t
  if (← s.token? block).isOpener then
    let resume := match s.partner? block with
      | some close => close + 1
      | none => s.size
    some (⟨kind, name, s.line t.start⟩, resume)
  else none

/-- The words after which `const` is a qualifier. -/
def constQualified : List String := ["fn", "unsafe", "async", "extern"]

/-- The token before `i` is a star, as in the pointer type `*const T`. -/
def afterStar (i : Nat) : Bool :=
  match s.prevCode? i with
  | some p => s.kind? p == some (.punct '*')
  | none => false

/-- An `impl` is named by its header, from the token at `next` to its block. -/
def implName? (next : Nat) : Checked (Option String) :=
  match s.terminator? true next with
  | some (.block opened) => do
    let header ← s.slice (← s.token next).start (← s.token opened).start
    return some (String.ofList (squeeze header))
  | _ => .ok none

/-- `union` starts an item only before a name and then a brace or an angle bracket. -/
def unionName? (next : Nat) : Option String := do
  let name ← s.nameAt? next
  let after ← s.kind? (← s.nextCode? next)
  if after = .opener .brace ∨ after = .punct '<' then some name else none

/-- The kind and name of the declaration whose keyword is the token at `i`. -/
def declarationName? (i : Nat) (t : Token) :
    Checked (Option (DeclarationKind × String)) :=
  match s.nextCode? i with
  | none => .ok none
  | some next =>
    let named (kind : DeclarationKind) (name : Option String) :
        Checked (Option (DeclarationKind × String)) := .ok (name.map (kind, ·))
    if t.isWord "const" then
      if s.afterStar i || (s.token? next).any (fun n => constQualified.any (n.text == ·)) then
        .ok none
      else named .const (s.nameAt? next)
    else if t.isWord "static" then
      if s.isWord next "mut" then named .static (s.nextCode? next >>= s.nameAt?)
      else named .static (s.nameAt? next)
    else if t.isWord "type" then named .typeAlias (s.nameAt? next)
    else if t.isWord "struct" then named (.aggregate .struct) (s.nameAt? next)
    else if t.isWord "enum" then named (.aggregate .enum) (s.nameAt? next)
    else if t.isWord "trait" then named (.aggregate .trait) (s.nameAt? next)
    else if t.isWord "union" then named (.aggregate .union) (s.unionName? next)
    else if t.isWord "impl" then do
      return (← s.implName? next).map (.aggregate .impl, ·)
    else .ok none

/-- Where a declaration of this kind ends whose keyword is the token at `i`, and whether it is
closed. -/
def declarationEnd (i : Nat) (kind : DeclarationKind) : Checked (Nat × Bool) :=
  match s.terminator? kind.endsWithBlock (i + 1) with
  | some (.semicolon j) => do return ((← s.token j).stop, true)
  | some (.block opened) => .ok ((s.group opened).stop, (s.group opened).closed)
  | none => .ok (byteLength s.text, false)

/-- The declaration of the given kind and name at the token `i`. An `impl` has no visibility of its
own. -/
def declarationAt (i : Nat) (kind : DeclarationKind) (name : String) (head : Head) :
    Checked Declaration := do
  let (stop, closed) ← s.declarationEnd i kind
  let head := if kind = .aggregate .impl then { head with visibility := .inherited } else head
  return ⟨kind, name, ← Span.make head.start stop, head, closed⟩

/-- What the token at `i` starts outside the functions, and the token to go on from. A declaration
is passed over when its head begins inside a function. -/
def finding? (functions : List Span) (i : Nat) (t : Token) : Checked (Option (Finding × Nat)) :=
  if s.isTopLevel i && t.kind == .ident then
    match s.skippedItem? i t with
    | some (item, resume) => .ok (some (.skipped item, resume))
    | none => do
      match ← s.declarationName? i t with
      | none => return none
      | some (kind, name) =>
        let head ← s.head i
        if functions.any (·.strictlyContains head.start) then return none
        else
          let d ← s.declarationAt i kind name head
          return some (.declaration d, s.firstFrom d.span.stop)
  else .ok none

/-- The findings from the token `i` on, in source order. -/
def findingsFrom (functions : List Span) (i : Nat) : Checked (List Finding) :=
  if h : i < s.tokens.size then
    match functions.find? (·.contains s.tokens[i].start) with
    | some span => findingsFrom functions (max (s.firstFrom span.stop) (i + 1))
    | none => do
      match ← s.finding? functions i s.tokens[i] with
      | none => findingsFrom functions (i + 1)
      | some (f, resume) => return f :: (← findingsFrom functions (max resume (i + 1)))
  else .ok []
termination_by s.tokens.size - i
decreasing_by all_goals omega

/-- The declarations and skipped items at the top level, outside the given function spans. -/
def findings (functions : List Span) : Checked (List Finding) := s.findingsFrom functions 0

end Scan
end Unbundle
