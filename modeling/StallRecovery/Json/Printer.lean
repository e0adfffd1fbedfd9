import StallRecovery.Json

/-!
# Printing JSON

Two layouts of the same text: on one line without blanks, and indented by two blanks a level, where
an empty list or object stays on one line. In strings only what must be escaped is escaped.
-/

namespace StallRecovery.Json

/-- The hexadecimal digit of a number below sixteen. -/
def hexDigit (n : Nat) : Char := "0123456789abcdef".toList.getD n '0'

/-- A character as it stands in a JSON string. -/
def escapeChar (c : Char) : List Char :=
  if c = '"' then ['\\', '"']
  else if c = '\\' then ['\\', '\\']
  else if c = '\n' then ['\\', 'n']
  else if c = '\r' then ['\\', 'r']
  else if c = '\t' then ['\\', 't']
  else if c = '\x08' then ['\\', 'b']
  else if c = '\x0c' then ['\\', 'f']
  else if c.toNat < 32 then
    ['\\', 'u', '0', '0', hexDigit (c.toNat / 16), hexDigit (c.toNat % 16)]
  else [c]

/-- A string in quotes. -/
def quote (s : String) : String :=
  "\"" ++ String.ofList (s.toList.flatMap escapeChar) ++ "\""

/-- The texts of the members of a list or object between its brackets, on one line. -/
def enclose (left right : String) (members : List String) : String :=
  left ++ ",".intercalate members ++ right

/-- The texts of the members of a list or object between its brackets, one to a line. -/
def encloseLines (left right : String) (depth : Nat) (members : List String) : String :=
  if members.isEmpty then left ++ right
  else
    let margin := String.ofList (List.replicate (2 * depth) ' ')
    left ++ "\n" ++ ",\n".intercalate (members.map (margin ++ "  " ++ ·))
      ++ "\n" ++ margin ++ right

mutual

/-- A value on one line. -/
def compact : Json → String
  | .null => "null"
  | .bool b => if b then "true" else "false"
  | .int n => toString n
  | .real text => text
  | .str s => quote s
  | .arr items => enclose "[" "]" (compactItems items)
  | .obj fields => enclose "\x7b" "\x7d" (compactFields fields)

/-- The elements of a list, each on one line. -/
def compactItems : List Json → List String
  | [] => []
  | j :: rest => j.compact :: compactItems rest

/-- The fields of an object, each on one line. -/
def compactFields : List (String × Json) → List String
  | [] => []
  | (name, j) :: rest => (quote name ++ ":" ++ j.compact) :: compactFields rest

end

mutual

/-- A value indented, as it stands at a depth. -/
def indented (depth : Nat) : Json → String
  | .null => "null"
  | .bool b => if b then "true" else "false"
  | .int n => toString n
  | .real text => text
  | .str s => quote s
  | .arr items => encloseLines "[" "]" depth (indentedItems (depth + 1) items)
  | .obj fields => encloseLines "\x7b" "\x7d" depth (indentedFields (depth + 1) fields)

/-- The elements of a list, indented. -/
def indentedItems (depth : Nat) : List Json → List String
  | [] => []
  | j :: rest => j.indented depth :: indentedItems depth rest

/-- The fields of an object, indented. -/
def indentedFields (depth : Nat) : List (String × Json) → List String
  | [] => []
  | (name, j) :: rest => (quote name ++ ": " ++ j.indented depth) :: indentedFields depth rest

end

/-- A value indented by two blanks a level. -/
def pretty (j : Json) : String := j.indented 0

end StallRecovery.Json
