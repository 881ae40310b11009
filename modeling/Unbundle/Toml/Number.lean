import Unbundle.Toml.Value

/-! TOML numbers, dates and times. Every reader gives what it read and the text after it. -/
namespace Unbundle.Toml

abbrev Reader (α : Type) := Text → Option (α × Text)

/-- The characters that were read, given the text before and after. -/
def readPart (before after : Text) : String :=
  String.ofList (before.take (before.length - after.length))

/-- Digits of a base, with single underscores between them, and the text after them. -/
def digitRun (isDigit : Char → Bool) : Text → Text × Text
  | '_' :: d :: cs =>
    if isDigit d then
      let (ds, rest) := digitRun isDigit cs
      (d :: ds, rest)
    else ([], '_' :: d :: cs)
  | c :: cs =>
    if isDigit c then
      let (ds, rest) := digitRun isDigit cs
      (c :: ds, rest)
    else ([], c :: cs)
  | [] => ([], [])

/-- One digit, and then more with underscores between them. -/
def digits (isDigit : Char → Bool) : Reader Text
  | c :: cs =>
    if isDigit c then
      let (ds, rest) := digitRun isDigit cs
      some (c :: ds, rest)
    else none
  | [] => none

def digitValue (c : Char) : Nat :=
  if c.isDigit then c.toNat - '0'.toNat
  else if c.toNat < 'a'.toNat then c.toNat - 'A'.toNat + 10
  else c.toNat - 'a'.toNat + 10

def isHexDigit (c : Char) : Bool :=
  c.isDigit || ('a' ≤ c && c ≤ 'f') || ('A' ≤ c && c ≤ 'F')

/-- The number that digits spell in a base. -/
def numberOf (base : Nat) (ds : Text) : Nat := ds.foldl (fun n d => n * base + digitValue d) 0

/-- A sign, if there is one; true for a minus. -/
def sign : Text → Bool × Text
  | '+' :: cs => (false, cs)
  | '-' :: cs => (true, cs)
  | cs => (false, cs)

/-- A decimal integer without leading zeros: its sign and digits. -/
def decimal (cs : Text) : Option ((Bool × Text) × Text) :=
  let (minus, cs) := sign cs
  match cs with
  | '0' :: rest => some ((minus, ['0']), rest)
  | _ => (digits Char.isDigit cs).map fun (ds, rest) => ((minus, ds), rest)

/-- The bounds of an integer: 64 bits with a sign. -/
def inRange (n : Int) : Bool :=
  let bound := Int.ofNat (Nat.pow 2 63)
  n < bound && -bound ≤ n

/-- An integer: decimal, or in base 16, 8 or 2 without a sign. -/
def integer (cs : Text) : Option (Value × Text) :=
  let based (base : Nat) (isDigit : Char → Bool) (rest : Text) : Option (Int × Text) :=
    (digits isDigit rest).map fun (ds, rest) => (Int.ofNat (numberOf base ds), rest)
  let read : Option (Int × Text) :=
    match cs with
    | '0' :: 'x' :: rest => based 16 isHexDigit rest
    | '0' :: 'o' :: rest => based 8 (fun c => '0' ≤ c && c ≤ '7') rest
    | '0' :: 'b' :: rest => based 2 (fun c => c == '0' || c == '1') rest
    | _ => (decimal cs).map fun ((minus, ds), rest) =>
      let n := Int.ofNat (numberOf 10 ds)
      (if minus then -n else n, rest)
  match read with
  | some (n, rest) => if inRange n then some (.integer n, rest) else none
  | none => none

/-- The fraction of a float, its point included. -/
def fraction : Reader Text
  | '.' :: cs => digits Char.isDigit cs
  | _ => none

/-- The exponent of a float. -/
def exponent (cs : Text) : Option (Int × Text) :=
  let read (rest : Text) : Option (Int × Text) :=
    let (minus, rest) := sign rest
    (digits Char.isDigit rest).map fun (ds, rest) =>
      (if minus then -(Int.ofNat (numberOf 10 ds)) else Int.ofNat (numberOf 10 ds), rest)
  match cs with
  | 'e' :: rest => read rest
  | 'E' :: rest => read rest
  | _ => none

/-- `m · 10 ^ e` rounds to no finite double: it is at least the middle between the largest one and
`2 ^ 1024`. The exponent is compared with the length of `m` first, so that no power is large. -/
def tooLarge (m : Nat) (e : Int) : Bool :=
  let bound := Nat.pow 2 1024 - Nat.pow 2 970
  if m = 0 || (Nat.toDigits 10 m).length + e ≤ 308 then false
  else if 309 ≤ e then true
  else if 0 ≤ e then bound ≤ m * Nat.pow 10 e.toNat
  else bound * Nat.pow 10 (-e).toNat ≤ m

/-- Infinity or not-a-number after an optional sign. -/
def specialFloat (cs : Text) : Option (Value × Text) :=
  match (sign cs).2 with
  | 'i' :: 'n' :: 'f' :: rest => some (.float (readPart cs rest), rest)
  | 'n' :: 'a' :: 'n' :: rest => some (.float (readPart cs rest), rest)
  | _ => none

/-- A float: a decimal integer with a fraction, an exponent, or both. Only positive numbers can be
too large. -/
def float (cs : Text) : Option (Value × Text) := do
  let ((minus, whole), rest) ← decimal cs
  let finish (frac : Text) (e : Int) (rest : Text) : Option (Value × Text) :=
    if !minus && tooLarge (numberOf 10 (whole ++ frac)) (e - frac.length) then none
    else some (.float (readPart cs rest), rest)
  match fraction rest with
  | some (frac, rest) =>
    match exponent rest with
    | some (e, rest) => finish frac e rest
    | none => finish frac 0 rest
  | none =>
    let (e, rest) ← exponent rest
    finish [] e rest

/-- A number of exactly two digits. -/
def twoDigits : Reader Nat
  | a :: b :: cs => if a.isDigit && b.isDigit then some (numberOf 10 [a, b], cs) else none
  | _ => none

/-- A number of two digits between two bounds. -/
def twoDigitsIn (lo hi : Nat) (cs : Text) : Option (Nat × Text) := do
  let (n, rest) ← twoDigits cs
  if lo ≤ n && n ≤ hi then some (n, rest) else none

/-- What is left after the character `c`. -/
def expect (c : Char) : Text → Option Text
  | d :: cs => if d = c then some cs else none
  | [] => none

def isLeapYear (year : Nat) : Bool := year % 4 == 0 && (year % 100 != 0 || year % 400 == 0)

def daysIn (year month : Nat) : Nat :=
  if month == 2 then if isLeapYear year then 29 else 28
  else if month == 4 || month == 6 || month == 9 || month == 11 then 30
  else 31

/-- What is left after a calendar date. -/
def date (cs : Text) : Option Text := do
  let (century, cs) ← twoDigits cs
  let (yearOfCentury, cs) ← twoDigits cs
  let (month, cs) ← twoDigitsIn 1 12 (← expect '-' cs)
  let (day, cs) ← twoDigitsIn 1 31 (← expect '-' cs)
  if day ≤ daysIn (century * 100 + yearOfCentury) month then some cs else none

/-- What is left after a time of day, with or without a fraction of the second. -/
def timeOfDay (cs : Text) : Option Text := do
  let (_, cs) ← twoDigitsIn 0 23 cs
  let (_, cs) ← twoDigitsIn 0 59 (← expect ':' cs)
  let (_, cs) ← twoDigitsIn 0 60 (← expect ':' cs)
  match cs with
  | '.' :: d :: rest => if d.isDigit then some (rest.dropWhile Char.isDigit) else some cs
  | _ => some cs

/-- What is left after an offset from universal time, if there is one. -/
def offset (cs : Text) : Text :=
  let signed (rest : Text) : Option Text := do
    let (_, rest) ← twoDigitsIn 0 23 rest
    let (_, rest) ← twoDigitsIn 0 59 (← expect ':' rest)
    some rest
  match cs with
  | 'Z' :: rest => rest
  | 'z' :: rest => rest
  | '+' :: rest => (signed rest).getD cs
  | '-' :: rest => (signed rest).getD cs
  | _ => cs

/-- A date, a time of day, or both with an optional offset. -/
def time (cs : Text) : Option (Value × Text) :=
  let made (rest : Text) : Value × Text := (.time (readPart cs rest), rest)
  match date cs with
  | some rest =>
    match rest with
    | d :: after =>
      if d == 'T' || d == 't' || d == ' ' then
        match timeOfDay after with
        | some rest => some (made (offset rest))
        | none => some (made rest)
      else some (made rest)
    | [] => some (made rest)
  | none => (timeOfDay cs).map made

/-- A number or a time, whichever reads first. -/
def numeric (cs : Text) : Option (Value × Text) :=
  time cs <|> float cs <|> specialFloat cs <|> integer cs

end Unbundle.Toml
