import LateBinding.Text.Quoted

/-!
**Paths.**

A path is a string of bytes, whatever their encoding. It is split at slashes into components; an
empty component and a dot in the middle name nothing. Two paths with the same components are
*alike*, and that is how paths are compared.

Main definitions:

* `LateBinding.Path`, with `isAbsolute`, `join` and `components`;
* `LateBinding.Path.parent?` — a path without its last component;
* `LateBinding.Path.ancestors` — a path, its parent, its parent's parent and so on;
* `LateBinding.Path.display`, `LateBinding.Path.quoted` — a path in a message;
* `LateBinding.Path.splitList` — the directories of a search variable.
-/

set_option autoImplicit false

namespace LateBinding

/-- A path: any bytes. -/
structure Path where
  bytes : List UInt8
deriving DecidableEq, Repr, Inhabited

namespace Path

/-- The byte that separates components. -/
def slash : UInt8 := 47

/-- The byte of which the names of a directory itself and of its parent consist. -/
def dot : UInt8 := 46

/-- The path that a text writes. -/
def ofString (s : String) : Path := ⟨Text.Utf8.bytes s⟩

/-- Whether a path begins at the root. -/
def isAbsolute (p : Path) : Bool := p.bytes.head? == some slash

/-- A path below another one. An absolute second path replaces the first, and no slash is
doubled. -/
def join (p q : Path) : Path :=
  if q.isAbsolute then q
  else if p.bytes.isEmpty || p.bytes.getLast? == some slash then ⟨p.bytes ++ q.bytes⟩
  else ⟨p.bytes ++ slash :: q.bytes⟩

/-- Bytes split at every slash. -/
def pieces (bs : List UInt8) : List (List UInt8) := bs.splitOn slash

/-- A component that names nothing: an empty one, or a dot. -/
def isNameless (c : List UInt8) : Bool := c == [] || c == [dot]

/-- A component of a path. -/
inductive Component where
  | root
  | here
  | above
  | name (n : List UInt8)
deriving DecidableEq, Repr

/-- The part of a path that stands before its body: the root's slash, or a leading dot. -/
def leadLength (p : Path) : Nat :=
  if p.isAbsolute then 1
  else if (pieces p.bytes).head? == some [dot] then 1
  else 0

/-- The component that a path begins with outside its body. -/
def lead (p : Path) : Option Component :=
  if p.isAbsolute then some .root
  else if p.leadLength = 1 then some .here
  else none

/-- The components of a path, those that name nothing left out. -/
def components (p : Path) : List Component :=
  let body := (pieces (p.bytes.drop p.leadLength)).filter fun c => !isNameless c
  p.lead.toList ++ body.map fun c => if c = [dot, dot] then .above else .name c

/-- Paths are alike if they have the same components. -/
def alike (p q : Path) : Bool := p.components == q.components

/-- A body, its bytes in reverse, without the components at its end that name nothing; `fuel`
bounds their number. -/
def dropNameless : Nat → List UInt8 → List UInt8
  | 0, r => r
  | fuel + 1, r =>
    if r.isEmpty then []
    else if isNameless (r.takeWhile (· != slash)) then
      dropNameless fuel ((r.dropWhile (· != slash)).drop 1)
    else r

/-- A path without its last component; none where there is nothing left to take off. -/
def parent? (p : Path) : Option Path :=
  let body := (p.bytes.drop p.leadLength).reverse
  match dropNameless (body.length + 1) body with
  | [] => if p.lead = some .here then some ⟨[]⟩ else none
  | r =>
    let above := (r.dropWhile (· != slash)).drop 1
    some ⟨p.bytes.take p.leadLength ++ (dropNameless (above.length + 1) above).reverse⟩

/-- The ancestors of a path, nearest first; `fuel` bounds their number. -/
def ancestorsFrom : Nat → Path → List Path
  | 0, _ => []
  | fuel + 1, p =>
    p :: match p.parent? with
      | some q => ancestorsFrom fuel q
      | none => []

/-- A path, its parent, its parent's parent and so on. Each is shorter than the one before. -/
def ancestors (p : Path) : List Path := ancestorsFrom (p.bytes.length + 1) p

/-- A path as a message shows it, repaired where it is not UTF-8. -/
def display (p : Path) : String := Text.Utf8.toText p.bytes

/-- A path in quotation marks. -/
def quoted (p : Path) : String := Text.quoteBytes p.bytes

/-- The text of a path that is UTF-8. -/
def toText? (p : Path) : Option String := Text.Utf8.toText? p.bytes

/-- The directories of a search variable: its parts between colons, empty ones left out. -/
def splitList (value : List UInt8) : List Path :=
  ((value.splitOn 58).filter fun d => !d.isEmpty).map Path.mk

end Path

end LateBinding
