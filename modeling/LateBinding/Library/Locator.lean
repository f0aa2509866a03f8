import LateBinding.FileSystem

/-!
**Where the library is looked for.**

A path that is given or configured is the only place looked at. Otherwise the library's file name
is looked for in a list of directories: that of the program, those of the search variables, the
system's, and further ones, in this order; **the first place where a file exists wins**.

Main definitions:

* `LateBinding.Library.Environment` — what the process contributes to the search;
* `LateBinding.Library.Locator` — the plan of a search;
* `LateBinding.Library.Locator.searchDirs`, `LateBinding.Library.Locator.candidates`;
* `LateBinding.Library.Locator.locate` — the outcome of a search.
-/

set_option autoImplicit false

namespace LateBinding.Library

/-- What the process contributes to a search: the directory of its program and the values of the
search variables. -/
structure Environment where
  exeDir : Option Path := none
  libraryPath : Option (List UInt8) := none
  dyldLibraryPath : Option (List UInt8) := none
deriving DecidableEq, Repr

/-- The file name of the library. -/
def defaultFilename : String := "libcronet.so"

/-- The directories of the system. -/
def defaultSystemDirs : List Path := [Path.ofString "/usr/local/lib", Path.ofString "/usr/lib"]

/-- The plan of a search. -/
structure Locator where
  explicit : Option Path := none
  systemDirs : List Path := defaultSystemDirs
  extraDirs : List Path := []
  filename : String := defaultFilename
  useDyldPath : Bool := false
deriving DecidableEq, Repr

namespace Locator

/-- The directories of a search variable, none if it is not set. -/
def variableDirs (value : Option (List UInt8)) : List Path :=
  (value.map Path.splitList).getD []

/-- The directories in search order. -/
def searchDirs (l : Locator) (env : Environment) : List Path :=
  env.exeDir.toList ++ variableDirs env.libraryPath ++
    (if l.useDyldPath then variableDirs env.dyldLibraryPath else []) ++
    l.systemDirs ++ l.extraDirs

/-- The candidates in search order. -/
def candidates (l : Locator) (env : Environment) : List Path :=
  (l.searchDirs env).map fun dir => dir.join (Path.ofString l.filename)

/-- The path that a search must take: the requested one, else the configured one. -/
def required (l : Locator) (request : Option Path) : Option Path := request.or l.explicit

/-- The path of the library, or the places where it was looked for. -/
def locate (l : Locator) (request : Option Path) (env : Environment) (fs : FileSystem) :
    Except (List Path) Path :=
  match l.required request with
  | some p => if fs.exists? p then .ok p else .error [p]
  | none =>
    match (l.candidates env).find? fs.exists? with
    | some p => .ok p
    | none => .error (l.candidates env)

end Locator

end LateBinding.Library
