import StallRecovery.Toml.Numbers
import StallRecovery.Toml.Strings

/-!
# The statements of a TOML document

A document is a list of statements: names with their values, and headers that open a table or the
next element of a list of tables. This module reads names, values and statements; what the
statements add up to is the subject of `StallRecovery.Toml.Document`.

Lists and inline tables nest at most `maxDepth` deep, and a dotted name has at most as many parts.
Reading a value is recursion on the depth that is left, so a level of nesting is read by the reader
of the level below.
-/

namespace StallRecovery.Toml

/-- How deep lists and inline tables nest, and how many parts a dotted name has, at most. -/
def maxDepth : Nat := 79

/-- A dotted name: the parts that lead to a table, and the name in it. -/
structure Name where
  path : List String
  last : String

/-- Puts a part in front of a name. -/
def Name.cons (part : String) (n : Name) : Name := { n with path := part :: n.path }

/-- A name and what follows it. -/
abbrev ReadName := Option (Name × List Char)

/-- Reads one part of a name. -/
def namePart? (s : List Char) : Scanned :=
  match lineString? s with
  | some scanned => some scanned
  | none =>
    let part := s.takeWhile isNameChar
    if part.isEmpty then none else some (part, s.dropWhile isNameChar)

/-- Reads a name of at most so many parts, with the blanks around it and around its dots. -/
def name? : Nat → List Char → ReadName
  | 0, _ => none
  | limit + 1, s => do
    let (part, rest) ← namePart? (skipBlanks s)
    match skipBlanks rest with
    | '.' :: rest => (name? limit rest).map fun (n, rest) => (n.cons (String.ofList part), rest)
    | rest => some (⟨[], String.ofList part⟩, rest)

/-! ## Tables under construction -/

/-- How a table came to be. -/
inductive Origin where
  /-- By a header of its own, or as an element of a list of tables. -/
  | header
  /-- On the way to the table that a header names. -/
  | passage
  /-- By the dots of a name. -/
  | dots
deriving DecidableEq

/-- An entry of a table that is being built. -/
inductive Node where
  /-- A value as it was written; nothing can be added to it. -/
  | value (v : Value)
  | table (origin : Origin) (entries : List (String × Node))
  /-- A list of tables, the latest first: the one that can be added to. -/
  | tables (latestFirst : List (List (String × Node)))

/-- The entries of a table that is being built. -/
abbrev Entries := List (String × Node)

/-- The entry of a name. -/
def Entries.find? (name : String) (entries : Entries) : Option Node :=
  (List.find? (·.1 == name) entries).map (·.2)

/-- The entries with one put in place of the entry of that name, or added. -/
def Entries.put (name : String) (node : Node) : Entries → Entries
  | [] => [(name, node)]
  | (n, old) :: rest =>
    if n == name then (n, node) :: rest else (n, old) :: Entries.put name node rest

/-- Adds an entry, unless the name is taken. -/
def Entries.add? (name : String) (node : Node) (entries : Entries) : Option Entries :=
  match entries.find? name with
  | none => some (entries.put name node)
  | some _ => none

/-- Changes the table at the end of a path; tables that are missing on the way are made. A value is
no table, and the dots of a name do not lead into a table that has a header. Of a list of tables the
latest is meant. -/
def Entries.under? (made : Origin) (change : Origin → Entries → Option Entries) :
    List String → Origin → Entries → Option Entries
  | [], origin, entries => change origin entries
  | part :: path, _, entries =>
    match entries.find? part with
    | none => do
      let inner ← Entries.under? made change path made []
      some (entries.put part (.table made inner))
    | some (.value _) => none
    | some (.tables []) => none
    | some (.tables (latest :: earlier)) => do
      let inner ← Entries.under? made change path .header latest
      some (entries.put part (.tables (inner :: earlier)))
    | some (.table origin inner) =>
      if made == .dots && origin == .header then none
      else do
        let inner ← Entries.under? made change path origin inner
        some (entries.put part (.table origin inner))

/-- Adds a value under a name. The dots of a name lead only through tables made by dots. -/
def Entries.addValue? (name : Name) (v : Value) (entries : Entries) : Option Entries :=
  let add (origin : Origin) (inner : Entries) : Option Entries :=
    if !name.path.isEmpty && origin != .dots then none else inner.add? name.last (.value v)
  entries.under? .dots add name.path .header

mutual

/-- The value that a finished entry is. -/
def Node.toValue : Node → Value
  | .value v => v
  | .table _ entries => .table (valuesOf entries)
  | .tables latestFirst => .list (tablesOf latestFirst).reverse

/-- The values of finished entries. -/
def valuesOf : List (String × Node) → List (String × Value)
  | [] => []
  | (name, node) :: rest => (name, node.toValue) :: valuesOf rest

/-- The values of finished tables. -/
def tablesOf : List (List (String × Node)) → List Value
  | [] => []
  | entries :: rest => .table (valuesOf entries) :: tablesOf rest

end

/-! ## Values -/

/-- Reads a value that holds no others. -/
def scalar? (s : List Char) : ReadValue :=
  match s with
  | 't' :: _ => (skip? "true".toList s).map (.boolean true, ·)
  | 'f' :: _ => (skip? "false".toList s).map (.boolean false, ·)
  | 'i' :: _ => (skip? "inf".toList s).map (.float, ·)
  | 'n' :: _ => (skip? "nan".toList s).map (.float, ·)
  | c :: _ =>
    if c == '\x22' || c == '\x27' then
      (string? s).map fun (text, rest) => (.string (String.ofList text), rest)
    else if c == '+' || c == '-' || c.isDigit then numberOrDate? s
    else none
  | [] => none

/-- Reads the elements of a list after its bracket, with their layout. A comma may stand after the
last one. The first argument bounds the number of elements. -/
def elements? (element? : List Char → ReadValue) : Nat → List Char →
    Option (List Value × List Char)
  | 0, _ => none
  | bound + 1, s => do
    match ← skipLayout? s with
    | ']' :: rest => some ([], rest)
    | s =>
      let (v, rest) ← element? s
      match ← skipLayout? rest with
      | ',' :: rest =>
        (elements? element? bound rest).map fun (vs, rest) => (v :: vs, rest)
      | ']' :: rest => some ([v], rest)
      | _ => none

/-- Reads a name, an equals sign and a value. -/
def pair? (value? : List Char → ReadValue) (s : List Char) :
    Option (Name × Value × List Char) := do
  let (name, rest) ← name? maxDepth s
  let rest ← skip? ['='] rest
  let (v, rest) ← value? (skipBlanks rest)
  some (name, v, rest)

/-- Reads the entries of an inline table, of which some were read. No comma may stand after the last
one. The first argument bounds the number of entries. -/
def inlineEntries? (value? : List Char → ReadValue) : Nat → Entries → List Char →
    Option (Entries × List Char)
  | 0, _, _ => none
  | bound + 1, entries, s => do
    let (name, v, rest) ← pair? value? s
    let entries ← entries.addValue? name v
    match skipBlanks rest with
    | ',' :: rest => inlineEntries? value? bound entries rest
    | '\x7d' :: rest => some (entries, rest)
    | _ => none

/-- Reads a value in which lists and inline tables nest at most so deep. -/
def value? : Nat → List Char → ReadValue
  | 0, s => scalar? s
  | depth + 1, s =>
    match s with
    | '[' :: rest =>
      (elements? (value? depth) (rest.length + 1) rest).map fun (vs, rest) => (.list vs, rest)
    | '\x7b' :: rest =>
      match skipBlanks rest with
      | '\x7d' :: rest => some (.table [], rest)
      | _ => (inlineEntries? (value? depth) (rest.length + 1) [] rest).map fun (entries, rest) =>
        (.table (valuesOf entries), rest)
    | _ => scalar? s

/-! ## Statements -/

/-- A statement of a document. -/
inductive Statement where
  /-- A name and its value. -/
  | pair (name : Name) (value : Value)
  /-- The header of a table. -/
  | table (name : Name)
  /-- The header of an element of a list of tables. -/
  | element (name : Name)

/-- Reads a header after its first bracket. -/
def header? (s : List Char) : Option (Statement × List Char) :=
  match s with
  | '[' :: rest => do
    let (name, rest) ← name? maxDepth rest
    let rest ← skip? [']', ']'] rest
    some (.element name, ← restOfLine? rest)
  | _ => do
    let (name, rest) ← name? maxDepth s
    let rest ← skip? [']'] rest
    some (.table name, ← restOfLine? rest)

/-- Reads statements to the end of the text. The first argument bounds the number of lines. -/
def statements? : Nat → List Char → Option (List Statement)
  | 0, _ => none
  | bound + 1, s =>
    match skipBlanks s with
    | [] => some []
    | '[' :: rest => do
      let (statement, rest) ← header? rest
      some (statement :: (← statements? bound rest))
    | s =>
      match restOfLine? s with
      | some rest => statements? bound rest
      | none => do
        let (name, v, rest) ← pair? (value? maxDepth) s
        some (.pair name v :: (← statements? bound (← restOfLine? rest)))

end StallRecovery.Toml
