import Unbundle.Text

/-! White space, and the texts between it. -/
namespace Unbundle

/-- White space: the 25 characters with the Unicode property White_Space. -/
def isBlank (c : Char) : Bool :=
  c == ' ' || ('\t' ≤ c && c ≤ '\r') || c == '\u0085' || c == '\u00A0' || c == '\u1680' ||
    ('\u2000' ≤ c && c ≤ '\u200A') || c == '\u2028' || c == '\u2029' || c == '\u202F' ||
    c == '\u205F' || c == '\u3000'

/-- A text without the blanks at its two ends. -/
def trim (text : Text) : Text :=
  ((text.dropWhile isBlank).reverse.dropWhile isBlank).reverse

/-- The runs of characters between blanks. -/
def words : Text → List Text
  | [] => []
  | c :: cs =>
    if isBlank c then words cs
    else
      match cs with
      | [] => [[c]]
      | d :: _ =>
        if isBlank d then [c] :: words cs
        else
          match words cs with
          | w :: ws => (c :: w) :: ws
          | [] => [[c]]

/-- The words of a text with one space between neighbours. -/
def squeeze (text : Text) : Text := joinWith [' '] (words text)

end Unbundle
