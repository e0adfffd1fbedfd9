/-!
# The characters of TOML

The classes of characters that the format speaks of, and what stands between values: blanks, line
ends and comments. Outside of ASCII every character is text.
-/

namespace StallRecovery.Toml

/-- A blank within a line. -/
def isBlank (c : Char) : Bool := c == ' ' || c == '\t'

/-- A character that may stand in a comment or a string: no control but the tab. -/
def isText (c : Char) : Bool := c == '\t' || (32 ≤ c.toNat && c.toNat != 127)

/-- A character of a name that is written without quotes. -/
def isNameChar (c : Char) : Bool := c.isAlphanum || c == '-' || c == '_'

/-- A digit in the given base, at most sixteen. -/
def digit? (base : Nat) (c : Char) : Option Nat :=
  let value :=
    if c.isDigit then c.toNat - '0'.toNat
    else if 'a' ≤ c ∧ c ≤ 'f' then c.toNat - 'a'.toNat + 10
    else if 'A' ≤ c ∧ c ≤ 'F' then c.toNat - 'A'.toNat + 10
    else base
  if value < base then some value else none

/-- The number that digits write, the most significant first. -/
def ofDigits (base : Nat) (digits : List Nat) : Nat := digits.foldl (fun n d => n * base + d) 0

/-- Drops the blanks at the front. -/
def skipBlanks (s : List Char) : List Char := s.dropWhile isBlank

/-- What follows a line end at the front. -/
def lineEnd? : List Char → Option (List Char)
  | '\n' :: rest => some rest
  | '\r' :: '\n' :: rest => some rest
  | _ => none

/-- What follows the rest of a line that holds nothing more, except perhaps a comment. -/
def restOfLine? (s : List Char) : Option (List Char) :=
  let s := match skipBlanks s with
    | '#' :: rest => rest.dropWhile isText
    | s => s
  if s.isEmpty then some [] else lineEnd? s

mutual

/-- Drops blanks, line ends and comments at the front. A comment has to end with its line. -/
def skipLayout? : List Char → Option (List Char)
  | [] => some []
  | '\r' :: '\n' :: rest => skipLayout? rest
  | '#' :: rest => skipComment? rest
  | c :: rest => if isBlank c || c == '\n' then skipLayout? rest else some (c :: rest)

/-- Drops the rest of a comment and the layout after it. -/
def skipComment? : List Char → Option (List Char)
  | [] => none
  | '\n' :: rest => skipLayout? rest
  | '\r' :: '\n' :: rest => skipLayout? rest
  | c :: rest => if isText c then skipComment? rest else none

end

end StallRecovery.Toml
