import Unbundle.Text
import Unbundle.Text.Printing

/-! Texts and characters as messages quote them. -/
namespace Unbundle

/-- The code point in lower-case hexadecimal, without padding. -/
def hexDigits (n : Nat) : Text := Nat.toDigits 16 n

/-- A character by its code point. -/
def codeEscape (c : Char) : Text := "\\u\x7b".toList ++ hexDigits c.toNat ++ ['}']

/-- A character inside quotes of the kind `quote`. Marks are escaped, so that they join neither a
quote nor the character before them. -/
def escape (quote c : Char) : Text :=
  if c = '\x00' then ['\\', '0']
  else if c = '\t' then ['\\', 't']
  else if c = '\r' then ['\\', 'r']
  else if c = '\n' then ['\\', 'n']
  else if c = '\\' then ['\\', '\\']
  else if c = quote then ['\\', quote]
  else if isMark c || !isPrinting c then codeEscape c
  else [c]

/-- A text between double quotes. -/
def quoted (s : String) : String := String.ofList ('"' :: s.toList.flatMap (escape '"') ++ ['"'])

/-- A character between single quotes. -/
def quotedChar (c : Char) : String := String.ofList ('\x27' :: escape '\x27' c ++ ['\x27'])

end Unbundle
