import LateBinding.FileSystem
import LateBinding.Symbol.Resolution

/-!
**Opening a library and binding its functions.**

A path with a slash is opened as a file. A path without one is a bare name, which is looked up in
the directories of the search variable and in the system's own, and **not in the working directory**
unless the variable names it. The empty path means the program itself, which exports none of the
functions.

Main definitions:

* `LateBinding.Library.Bound` — a library with all its functions bound;
* `LateBinding.Library.resolve` — binding from any source;
* `LateBinding.Library.imageAt`, `LateBinding.Library.exportsAt` — the library that a path means and
  what it exports, or why it cannot be opened;
* `LateBinding.Library.openAt`, `LateBinding.Library.audit`.
-/

set_option autoImplicit false

namespace LateBinding.Library

/-- A library with all its functions bound: where it came from, whether the functions for
floating-point numbers are bound, and whether it was opened from a file. -/
structure Bound where
  path : Path
  float : Bool
  opened : Bool
deriving DecidableEq, Repr

namespace Bound

/-- The number of bound functions. -/
def symbolCount (b : Bound) : Nat :=
  Symbol.mainTable.length + if b.float then Symbol.floatTable.length else 0

/-- A truth value in a message. -/
def boolText (b : Bool) : String := if b then "true" else "false"

/-- A library in a diagnostic. -/
def debug (b : Bound) : String :=
  "NativeLibrary \x7b path: " ++ b.path.quoted ++ ", symbols: " ++ toString b.symbolCount ++
    ", opened: " ++ boolText b.opened ++ " \x7d"

end Bound

/-- The number of slots of a table in a diagnostic. -/
def debugTable (name : String) (table : List Symbol.Slot) : String :=
  name ++ " \x7b slots: " ++ toString table.length ++ " \x7d"

/-- The outcome of binding: the symbols that were asked for, and the library or an error. -/
structure Binding where
  asked : List String
  outcome : Except Error Bound

/-- The names that are bound, in order. -/
def registered (support : Symbol.FloatSupport) : List String :=
  (Symbol.mainTable ++ support.table).map Symbol.Slot.symbol

/-- Binds all functions from a source. -/
def resolve (support : Symbol.FloatSupport) (origin : Path) (source : Symbol.Source) : Binding :=
  let (asked, stop) := Symbol.bindAll source (registered support)
  match stop with
  | some symbol => ⟨asked, .error (.symbolMissing symbol)⟩
  | none => ⟨asked, .ok ⟨origin, support.isSupported, false⟩⟩

/-! ### Files -/

/-- The size of the smallest file that has the header of a library, in bytes. -/
def headerSize : Nat := 64

/-- The first bytes of a library's file. -/
def magic : List UInt8 := [0x7f, 0x45, 0x4c, 0x46]

/-- Why a file cannot be loaded of which only the bytes are known. -/
def fileFlaw (content : List UInt8) : String :=
  if content.length < headerSize then "file too short"
  else if magic.isPrefixOf content then "dynamic loading is not available"
  else "invalid ELF header"

/-- Why nothing can be opened at a path. -/
def openFlaw : FileSystem.Error → String
  | .notADirectory => "cannot open shared object file: Not a directory"
  | .nameTooLong => "cannot open shared object file: File name too long"
  | _ => "cannot open shared object file: No such file or directory"

/-- The source of a library that lacks some symbols. -/
def sourceLacking (lacks : List String) : Symbol.Source := Symbol.sourceOf lacks []

/-- The program itself as a library: it exports none of the functions. -/
def ownImage : FileSystem.Image := ⟨Symbol.allSlots.map Symbol.Slot.symbol, none, none⟩

/-- The pieces of a search variable at colons and semicolons; none if it is empty. -/
def loaderPieces (value : List UInt8) : List (List UInt8) :=
  if value.isEmpty then [] else value.splitOnP fun b => b == 58 || b == 59

/-- Where the system looks for a library of a bare name: in the directories of the search variable,
of which an empty one is the working directory, and in its own. -/
def loaderPlaces (libraryPath : Option (List UInt8)) (name : Path) : List Path :=
  let own := [Path.ofString "/lib", Path.ofString "/usr/lib"]
  let place (piece : List UInt8) : Path := if piece.isEmpty then name else Path.join ⟨piece⟩ name
  ((libraryPath.map loaderPieces).getD []).map place ++ own.map fun dir => dir.join name

/-- The library that stands at a place, or the reason why it cannot be opened. -/
def imageOf : Except FileSystem.Error (List FileSystem.Name × FileSystem.Node) →
    Except String FileSystem.Image
  | .error e => .error (openFlaw e)
  | .ok (_, .directory) => .error "cannot read file data: Is a directory"
  | .ok (_, .file content) => .error (fileFlaw content)
  | .ok (_, .library image) => .ok image

/-- The library that a path means, or the reason why it cannot be opened. -/
def imageAt (fs : FileSystem) (libraryPath : Option (List UInt8)) (p : Path) :
    Except String FileSystem.Image :=
  if p.bytes.contains 0 then .error "could not create a C string from bytes"
  else if p.bytes.isEmpty then .ok ownImage
  else
    let place :=
      if p.bytes.contains Path.slash then some p
      else (loaderPlaces libraryPath p).find? fs.exists?
    match imageOf ((place.map fs.find).getD (.error .missing)) with
    | .ok image => .ok image
    | .error reason => .error (p.display ++ ": " ++ reason)

/-- What the library at a path exports, or the reason why it cannot be opened. -/
def exportsAt (fs : FileSystem) (libraryPath : Option (List UInt8)) (p : Path) :
    Except String Symbol.Source :=
  (imageAt fs libraryPath p).map fun image => sourceLacking image.lacks

/-- Opens the library at a path and binds all functions. -/
def openAt (fs : FileSystem) (libraryPath : Option (List UInt8)) (p : Path) : Except Error Bound :=
  match exportsAt fs libraryPath p with
  | .error reason => .error (.openFailed p reason)
  | .ok source =>
    match (resolve .active p source).outcome with
    | .ok b => .ok { b with opened := true }
    | .error e => .error e

/-- The symbols that the library at a path lacks. -/
def audit (fs : FileSystem) (libraryPath : Option (List UInt8)) (p : Path) :
    Except Error (List String) :=
  match exportsAt fs libraryPath p with
  | .error reason => .error (.openFailed p reason)
  | .ok source =>
    .ok (Symbol.missing source Symbol.mainTable ++
      Symbol.missing source Symbol.FloatSupport.active.table)

end LateBinding.Library
