import LateBinding.Toml.Scalar
import LateBinding.Toml.Text

/-!
**Keys and values of TOML.**

Arrays and inline tables may stand at most 79 deep inside one another, and a key may have at most
79 parts: both are what the readers recurse on or check.

Inside an inline table a key of several parts makes the tables on its way. Such a table may be
extended by further keys of the same inline table, while one that was written as a value may not.

Main definitions:

* `LateBinding.Toml.readKey` — a key of one or several parts;
* `LateBinding.Toml.Draft` — a value in which inline tables are still open to further keys;
* `LateBinding.Toml.readValue` — a value at the front of a text.
-/

set_option autoImplicit false

namespace LateBinding.Toml

/-- The depth that parts of keys, and values inside one another, do not reach. -/
def depthLimit : Nat := 80

/-! ### Keys -/

/-- One part of a key. -/
def readKeyPart (s : List Char) : Option (String × List Char) :=
  match s with
  | '"' :: _ => readLine s
  | '\'' :: _ => readLine s
  | _ =>
    match s.takeWhile isBare with
    | [] => none
    | cs => some (String.ofList cs, s.dropWhile isBare)

/-- The parts of a key, separated by dots with blanks around them; `fuel` bounds their number. -/
def readKeyParts : Nat → List String → Reader (List String)
  | 0, _, _ => none
  | fuel + 1, acc, s =>
    match readKeyPart (skipBlank s) with
    | none => none
    | some (part, s) =>
      match skipBlank s with
      | '.' :: rest => readKeyParts fuel (part :: acc) rest
      | rest => some ((part :: acc).reverse, rest)

/-- A key. -/
def readKey (s : List Char) : Option (List String × List Char) :=
  match readKeyParts (s.length + 1) [] s with
  | some (parts, rest) => if parts.length < depthLimit then some (parts, rest) else none
  | none => none

/-! ### Inline tables -/

/-- A value while the inline table that holds it is being read: a finished value, or a table that
keys of several parts have made and may extend. -/
inductive Draft where
  | value (v : Toml)
  | open (entries : List (String × Draft))

mutual

/-- The finished value of a draft. -/
def Draft.finish : Draft → Toml
  | .value v => v
  | .open entries => .table (finishEntries entries)

/-- The finished values of entries. -/
def finishEntries : List (String × Draft) → List (String × Toml)
  | [] => []
  | (k, d) :: rest => (k, d.finish) :: finishEntries rest

end

/-- The entries with a value added under a key that must be new. -/
def addEntry {α : Type} (key : String) (v : α) : List (String × α) → Option (List (String × α))
  | [] => some [(key, v)]
  | (k, w) :: rest => if k = key then none else (addEntry key v rest).map ((k, w) :: ·)

/-- The entries with the one under a key changed, or made from nothing. -/
def alterEntry {α : Type} (key : String) (f : Option α → Option α) :
    List (String × α) → Option (List (String × α))
  | [] => (f none).map fun v => [(key, v)]
  | (k, w) :: rest =>
    if k = key then (f (some w)).map fun v => (k, v) :: rest
    else (alterEntry key f rest).map ((k, w) :: ·)

/-- The entries of an inline table with a value added under a key of several parts. -/
def insertDraft (last : String) (v : Toml) :
    List String → List (String × Draft) → Option (List (String × Draft))
  | [], entries => addEntry last (.value v) entries
  | part :: path, entries =>
    alterEntry part (fun
      | none => (insertDraft last v path []).map .open
      | some (.open inner) => (insertDraft last v path inner).map .open
      | some (.value _) => none) entries

/-- A key split into the path to its last part, and that part. -/
def splitLast : List String → Option (List String × String)
  | [] => none
  | [k] => some ([], k)
  | k :: rest => (splitLast rest).map fun r => (k :: r.1, r.2)

/-! ### Values -/

/-- The items of an array after its opening bracket, collected in reverse; a comma may follow the
last one. `fuel` bounds their number. -/
def readArrayItems (value : Reader Toml) : Nat → List Toml → Reader Toml
  | 0, _, _ => none
  | fuel + 1, acc, s =>
    match skipFiller s with
    | none => none
    | some (']' :: rest) => some (.array acc.reverse, rest)
    | some s =>
      match value s with
      | none => none
      | some (v, s) =>
        match skipFiller s with
        | some (',' :: rest) => readArrayItems value fuel (v :: acc) rest
        | some (']' :: rest) => some (.array (v :: acc).reverse, rest)
        | _ => none

/-- A key and its value. -/
def readEntry (value : Reader Toml) (s : List Char) :
    Option ((List String × String × Toml) × List Char) := do
  let (key, s) ← readKey s
  let (path, last) ← splitLast key
  match s with
  | '=' :: s =>
    let (v, s) ← value (skipBlank s)
    return ((path, last, v), s)
  | _ => none

/-- The entries of an inline table, on one line and without a comma after the last one; `fuel`
bounds their number. -/
def readInlineEntries (value : Reader Toml) : Nat → List (String × Draft) → Reader Toml
  | 0, _, _ => none
  | fuel + 1, entries, s =>
    match readEntry value s with
    | none => none
    | some ((path, last, v), s) =>
      match insertDraft last v path entries with
      | none => none
      | some entries =>
        match skipBlank s with
        | ',' :: rest => readInlineEntries value fuel entries rest
        | '\x7d' :: rest => some (.table (finishEntries entries), rest)
        | _ => none

/-- A value at the front of a text; `depth` is how many arrays and inline tables may still be
opened. -/
def readValue : Nat → Reader Toml
  | depth, s =>
    match s with
    | [] => none
    | c :: rest =>
      if c = '"' ∨ c = '\'' then (readString s).map fun r => (.string r.1, r.2)
      else if c = '[' then
        match depth with
        | 0 => none
        | depth + 1 => readArrayItems (readValue depth) (rest.length + 1) [] rest
      else if c = '\x7b' then
        match depth with
        | 0 => none
        | depth + 1 =>
          match skipBlank rest with
          | '\x7d' :: rest => some (.table [], rest)
          | rest => readInlineEntries (readValue depth) (rest.length + 1) [] rest
      else if c = 't' then (word "true".toList s).map fun r => (.boolean true, r)
      else if c = 'f' then (word "false".toList s).map fun r => (.boolean false, r)
      else readScalar s

end LateBinding.Toml
