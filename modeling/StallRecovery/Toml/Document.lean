import StallRecovery.Toml.Statements

/-!
# TOML documents

The statements of a document add up to one table. A header opens a table for the names after it, up
to the next header. A table is defined only once: a header may name a table that exists only if that
came to be on the way to another one, and a name is given only one value.
-/

namespace StallRecovery.Toml

/-- Adds the pairs at the front of some statements to a table, up to the next header. -/
def addPairs? (entries : Entries) : List Statement → Option (Entries × List Statement)
  | .pair name v :: rest => do addPairs? (← entries.addValue? name v) rest
  | rest => some (entries, rest)

/-- The entries with which a table starts whose header names this node. -/
def opened? : Option Node → Option Entries
  | none => some []
  | some (.table .passage inner) => some inner
  | some _ => none

/-- The earlier elements of a list of tables, the latest first, to which a header adds another. -/
def earlier? : Option Node → Option (List Entries)
  | none => some []
  | some (.tables latestFirst) => some latestFirst
  | some _ => none

/-- Adds a section to a document: the table that its header names and the pairs in it. -/
def addSection? (statement : Statement) (pairs : List Statement) (root : Entries) :
    Option Entries :=
  match statement with
  | .pair _ _ => none
  | .table name =>
    let place (_ : Origin) (entries : Entries) : Option Entries := do
      let inner ← opened? (entries.find? name.last)
      let (inner, _) ← addPairs? inner pairs
      some (entries.put name.last (.table .header inner))
    root.under? .passage place name.path .header
  | .element name =>
    let place (_ : Origin) (entries : Entries) : Option Entries := do
      let earlier ← earlier? (entries.find? name.last)
      let (inner, _) ← addPairs? [] pairs
      some (entries.put name.last (.tables (inner :: earlier)))
    root.under? .passage place name.path .header

/-- Whether a statement gives a value. -/
def Statement.isPair : Statement → Bool
  | .pair _ _ => true
  | _ => false

/-- Adds section after section. Pairs belong to the header before them. -/
def addSections? (root : Entries) : List Statement → Option Entries
  | [] => some root
  | statement :: rest =>
    if statement.isPair then addSections? root rest
    else do addSections? (← addSection? statement (rest.takeWhile Statement.isPair) root) rest

/-- The table that a document says. A byte-order mark in front is ignored. -/
def document? (text : String) : Option (List (String × Value)) := do
  let s := match text.toList with
    | '\ufeff' :: rest => rest
    | s => s
  let statements ← statements? (s.length + 1) s
  let (root, rest) ← addPairs? [] statements
  let root ← addSections? root rest
  some (valuesOf root)

end StallRecovery.Toml
