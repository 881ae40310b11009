import Unbundle.Text

/-! Columns, and text in bold or in colour for a terminal. -/
namespace Unbundle

/-- Fills a text up with spaces on its right. -/
def padRight (width : Nat) (s : String) : String := s ++ "".pushn ' ' (width - s.length)

/-- Fills a text up with spaces on its left. -/
def padLeft (width : Nat) (s : String) : String := "".pushn ' ' (width - s.length) ++ s

inductive Colour
  | red
  | green
  | yellow
deriving DecidableEq, Repr

def Colour.code : Colour → String
  | red => "31"
  | green => "32"
  | yellow => "33"

/-- How a text looks. -/
structure Style where
  bold : Bool
  colour : Option Colour
deriving DecidableEq, Repr

namespace Style

def bright : Style := ⟨true, none⟩

def inColour (c : Colour) : Style := ⟨false, some c⟩

/-- The sequence that switches a style on: bold first. -/
def opening (st : Style) : String :=
  let codes := (if st.bold then ["1"] else []) ++ (st.colour.map Colour.code).toList
  "\x1b[" ++ ";".intercalate codes ++ "m"

/-- The sequence that switches every style off. -/
def reset : String := "\x1b[0m"

/-- A text in a style, for a terminal that shows colours. A reset inside the text is followed by the
style again. -/
def paint (st : Style) (colours : Bool) (s : String) : String :=
  if colours then st.opening ++ substitute reset (reset ++ st.opening) s ++ reset else s

end Style
end Unbundle
