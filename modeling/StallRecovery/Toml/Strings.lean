import StallRecovery.Toml.Characters

/-!
# TOML strings

The four ways to write a string. Each reader starts after the opening mark and gives the text and
what follows the closing mark.

The marks are given by their codes: `\x22` is the quote around basic strings, `\x27` the apostrophe
around literal ones, and `\x5c` the backslash that starts an escape.

In the forms that span lines, a line end is always read as one newline, and one or two closing marks
in a row are text. A run of three ends the string; of a longer run, one or two are text first.
-/

namespace StallRecovery.Toml

/-- A text and what follows it. -/
abbrev Scanned := Option (List Char × List Char)

/-- Puts a character in front of a scanned text. -/
def Scanned.cons (c : Char) (s : Scanned) : Scanned := s.map fun (text, rest) => (c :: text, rest)

/-- The character that a letter stands for after a backslash. -/
def escaped? (c : Char) : Option Char :=
  if c == 'b' then some '\x08'
  else if c == 't' then some '\t'
  else if c == 'n' then some '\n'
  else if c == 'f' then some '\x0c'
  else if c == 'r' then some '\r'
  else if c == '\x22' || c == '\x5c' then some c
  else none

/-- The character with a code point written in hexadecimal. -/
def codePoint? (digits : List Char) : Option Char := do
  let n := ofDigits 16 (← digits.mapM (digit? 16))
  if n.isValidChar then some (Char.ofNat n) else none

/-- Reads a basic string. -/
def basicString? : List Char → Scanned
  | [] => none
  | '\x22' :: rest => some ([], rest)
  | '\x5c' :: 'u' :: a :: b :: c :: d :: rest =>
    (codePoint? [a, b, c, d]).bind fun x => (basicString? rest).cons x
  | '\x5c' :: 'U' :: a :: b :: c :: d :: e :: f :: g :: h :: rest =>
    (codePoint? [a, b, c, d, e, f, g, h]).bind fun x => (basicString? rest).cons x
  | '\x5c' :: c :: rest => (escaped? c).bind fun x => (basicString? rest).cons x
  | c :: rest => if isText c && c != '\x5c' then (basicString? rest).cons c else none

/-- Reads a literal string. -/
def literalString? (s : List Char) : Scanned :=
  let isInner c := isText c && c != '\x27'
  match s.dropWhile isInner with
  | '\x27' :: rest => some (s.takeWhile isInner, rest)
  | _ => none

/-- Whether the rest of the line is blank and a line end follows. -/
def endsLine (s : List Char) : Bool := (lineEnd? (skipBlanks s)).isSome

/-- Reads a basic string of several lines. `skipping` is set after a backslash at the end of a line,
until something other than layout follows. -/
def basicLines? (skipping : Bool) : List Char → Scanned
  | [] => none
  | '\x22' :: '\x22' :: '\x22' :: '\x22' :: '\x22' :: rest => some (['\x22', '\x22'], rest)
  | '\x22' :: '\x22' :: '\x22' :: '\x22' :: rest => some (['\x22'], rest)
  | '\x22' :: '\x22' :: '\x22' :: rest => some ([], rest)
  | '\r' :: '\n' :: rest =>
    if skipping then basicLines? true rest else (basicLines? false rest).cons '\n'
  | '\x5c' :: 'u' :: a :: b :: c :: d :: rest =>
    (codePoint? [a, b, c, d]).bind fun x => (basicLines? false rest).cons x
  | '\x5c' :: 'U' :: a :: b :: c :: d :: e :: f :: g :: h :: rest =>
    (codePoint? [a, b, c, d, e, f, g, h]).bind fun x => (basicLines? false rest).cons x
  | '\x5c' :: c :: rest =>
    match escaped? c with
    | some x => (basicLines? false rest).cons x
    | none => if endsLine (c :: rest) then basicLines? true (c :: rest) else none
  | c :: rest =>
    if skipping && (isBlank c || c == '\n') then basicLines? true rest
    else if (isText c && c != '\x5c') || c == '\n' then (basicLines? false rest).cons c
    else none

/-- Reads a literal string of several lines. -/
def literalLines? : List Char → Scanned
  | [] => none
  | '\x27' :: '\x27' :: '\x27' :: '\x27' :: '\x27' :: rest =>
    some (['\x27', '\x27'], rest)
  | '\x27' :: '\x27' :: '\x27' :: '\x27' :: rest => some (['\x27'], rest)
  | '\x27' :: '\x27' :: '\x27' :: rest => some ([], rest)
  | '\r' :: '\n' :: rest => (literalLines? rest).cons '\n'
  | c :: rest => if isText c || c == '\n' then (literalLines? rest).cons c else none

/-- Drops one line end at the front. -/
def skipLineEnd (s : List Char) : List Char := (lineEnd? s).getD s

/-- Reads a string that stands on one line, its opening mark included. -/
def lineString? : List Char → Scanned
  | '\x22' :: rest => basicString? rest
  | '\x27' :: rest => literalString? rest
  | _ => none

/-- Reads a string, its opening mark included. -/
def string? : List Char → Scanned
  | '\x22' :: '\x22' :: '\x22' :: rest => basicLines? false (skipLineEnd rest)
  | '\x27' :: '\x27' :: '\x27' :: rest => literalLines? (skipLineEnd rest)
  | s => lineString? s

end StallRecovery.Toml
