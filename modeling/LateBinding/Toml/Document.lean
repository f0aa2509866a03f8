import LateBinding.Toml.Parser

/-!
**A TOML document and its tables.**

A document is a list of lines, each a header or an entry. Headers name the table that the entries
after them fill. A table may be *defined* once, by its header or by being written as a value; one
that is only on the way to a table with a header is *implied*, and one on the way of a key of
several parts is *dotted*. A header may define an implied table but none that is defined or dotted,
and a key of several parts may pass through implied and dotted tables but not through defined ones.

Main definitions:

* `LateBinding.Toml.Node`, `LateBinding.Toml.Origin` — the tables of a document while it is read;
* `LateBinding.Toml.parse?` — the root table of a document.
-/

set_option autoImplicit false

namespace LateBinding.Toml

/-- How a table came about: by a header, on the way to a header, or on the way of a key. -/
inductive Origin where
  | defined
  | implied
  | dotted
deriving DecidableEq, Repr

/-- A table's entry while a document is read: a value, a table, or a list of tables in the order
newest first. -/
inductive Node where
  | value (v : Toml)
  | table (origin : Origin) (entries : List (String × Node))
  | tables (newest : List (List (String × Node)))

/-- The entries of a table while a document is read. -/
abbrev Entries := List (String × Node)

mutual

/-- The finished value of a node. -/
def Node.finish : Node → Toml
  | .value v => v
  | .table _ entries => .table (finishNodes entries)
  | .tables newest => .array (finishTables newest).reverse

/-- The finished values of entries. -/
def finishNodes : List (String × Node) → List (String × Toml)
  | [] => []
  | (k, n) :: rest => (k, n.finish) :: finishNodes rest

/-- The finished values of a list of tables. -/
def finishTables : List (List (String × Node)) → List Toml
  | [] => []
  | t :: rest => .table (finishNodes t) :: finishTables rest

end

/-- The entries with the table at a path changed by `f`. Tables missing on the way are implied; of a
list of tables the newest is meant. -/
def changeAt (f : Entries → Option Entries) : List String → Entries → Option Entries
  | [], entries => f entries
  | part :: path, entries =>
    alterEntry part (fun
      | none => (changeAt f path []).map (.table .implied)
      | some (.table origin inner) => (changeAt f path inner).map (.table origin)
      | some (.tables (newest :: older)) =>
        (changeAt f path newest).map fun t => .tables (t :: older)
      | some (.tables []) => none
      | some (.value _) => none) entries

/-- The entries with a value added under a key of several parts. The tables on its way are dotted if
they are new, and must not be defined. The table that takes the value must not be implied. -/
def insertValue (last : String) (v : Toml) : List String → Entries → Option Entries
  | [], entries => addEntry last (.value v) entries
  | part :: path, entries =>
    alterEntry part (fun
      | none => (insertValue last v path []).map (.table .dotted)
      | some (.table .defined _) => none
      | some (.table .implied inner) =>
        if path.isEmpty then none else (insertValue last v path inner).map (.table .implied)
      | some (.table .dotted inner) => (insertValue last v path inner).map (.table .dotted)
      | some (.tables (newest :: older)) =>
        if path.isEmpty then none
        else (insertValue last v path newest).map fun t => .tables (t :: older)
      | some (.tables []) => none
      | some (.value _) => none) entries

/-- The entries with a table defined under a key: a new one, or one that was implied. -/
def defineTable (last : String) (entries : Entries) : Option Entries :=
  alterEntry last (fun
    | none => some (.table .defined [])
    | some (.table .implied inner) => some (.table .defined inner)
    | some _ => none) entries

/-- The entries with an empty table appended to the list of tables under a key. -/
def appendTable (last : String) (entries : Entries) : Option Entries :=
  alterEntry last (fun
    | none => some (.tables [[]])
    | some (.tables newest) => some (.tables ([] :: newest))
    | some _ => none) entries

/-- A document while it is read: its root, and the path of the table that entries go to. -/
structure Reading where
  root : Entries
  path : List String

/-- A header, after its opening brackets: its key, and the text after its line. -/
def readHeader (close s : List Char) : Option ((List String × String) × List Char) := do
  let (key, s) ← readKey s
  let (path, last) ← splitLast key
  let s ← word close s
  let s ← lineEnd s
  return ((path, last), s)

/-- One line that is not blank and holds no comment alone. -/
def readStatement (r : Reading) (s : List Char) : Option (Reading × List Char) :=
  match s with
  | '[' :: '[' :: s => do
    let ((path, last), s) ← readHeader [']', ']'] s
    let root ← changeAt (appendTable last) path r.root
    return (⟨root, path ++ [last]⟩, s)
  | '[' :: s => do
    let ((path, last), s) ← readHeader [']'] s
    let root ← changeAt (defineTable last) path r.root
    return (⟨root, path ++ [last]⟩, s)
  | s => do
    let ((path, last, v), s) ← readEntry (readValue (depthLimit - 1)) s
    let s ← lineEnd s
    let root ← changeAt (insertValue last v path) r.path r.root
    return (⟨root, r.path⟩, s)

/-- The lines of a document; `fuel` bounds their number. -/
def readLines : Nat → Reading → List Char → Option Reading
  | 0, _, _ => none
  | fuel + 1, r, s =>
    match skipBlank s with
    | [] => some r
    | '#' :: rest =>
      match comment ('#' :: rest) with
      | some s => readLines fuel r s
      | none => none
    | c :: rest =>
      if c = '\n' ∨ c = '\r' then
        match newline (c :: rest) with
        | some s => readLines fuel r s
        | none => none
      else
        match readStatement r (c :: rest) with
        | some (r, s) => readLines fuel r s
        | none => none

/-- The text after a byte-order mark, if one stands at its front. -/
def dropMark : List Char → List Char
  | [] => []
  | c :: rest => if c = '\uFEFF' then rest else c :: rest

/-- The entries of a document's root table. -/
def parse? (s : String) : Option (List (String × Toml)) :=
  let cs := dropMark s.toList
  (readLines (cs.length + 1) ⟨[], []⟩ cs).map fun r => finishNodes r.root

end LateBinding.Toml
