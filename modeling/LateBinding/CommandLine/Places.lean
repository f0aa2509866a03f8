import LateBinding.CommandLine.Inspect

/-!
**The places that an invocation looks at.**

A report depends on the files at a few places only: those where a configuration may be, and those
that the command names or that the search for the library goes through. Both lists can be written
down before any file is read, the second one once the configuration is known.

Main definitions:

* `LateBinding.CommandLine.Invocation.configPlaces` — where the configuration may be;
* `LateBinding.CommandLine.Invocation.places` — where the command looks;
* `LateBinding.FileSystem.resolve` — the absolute name that a path leads to.
-/

set_option autoImplicit false

namespace LateBinding

/-- The absolute name that components lead to from a directory, links left aside. -/
def FileSystem.resolve (start : List FileSystem.Name) (components : List FileSystem.Name) :
    List FileSystem.Name :=
  components.foldl (fun at_ c =>
    if Path.isNameless c then at_
    else if c = [Path.dot, Path.dot] then at_.dropLast
    else at_ ++ [c]) start

namespace CommandLine

/-- Where the configuration of an invocation may be. -/
def Invocation.configPlaces (i : Invocation) (h : Host) : List Path :=
  match i.config with
  | some path => [path]
  | none =>
    (Config.workingDirectory h.files).ancestors.map fun dir =>
      dir.join (Path.ofString Config.fileName)

/-- The places that the search for the library goes through, and those where the system looks for
what it finds. -/
def searchPlaces (h : Host) (l : Library.Locator) (request : Option Path) : List Path :=
  let found := match l.required request with
    | some path => [path]
    | none => []
  found ++ l.candidates h.environment ++
    found.flatMap (Library.loaderPlaces h.environment.libraryPath)

/-- Where an invocation looks under a configuration. -/
def Invocation.places (i : Invocation) (h : Host) (config : Config) : List Path :=
  match i.command with
  | .info library => searchPlaces h config.locator library
  | .locate _ => searchPlaces h config.locator none
  | .pin certificate _ => [certificate]
  | .symbols none _ => []
  | .symbols (some library) _ =>
    library :: Library.loaderPlaces h.environment.libraryPath library

end CommandLine

end LateBinding
