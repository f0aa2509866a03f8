import LateBinding.Library.Locator
import LateBinding.Toml.Document
import LateBinding.Toml.Printer

/-!
**The configuration file.**

A configuration says where the library is: its file, or further directories to search. It is kept in
a file `cronet.toml`, of which the one nearest to the working directory counts, and an environment
variable may replace the path of the library.

A configuration is read leniently: other keys are ignored, an absent key has its default, and a
table may be written as the list of its fields in order.

Main definitions:

* `LateBinding.Config`, `LateBinding.Config.Error`;
* `LateBinding.Config.ofToml?`, `LateBinding.Config.render?` — reading and writing;
* `LateBinding.Config.load`, `LateBinding.Config.findAndLoad`, `LateBinding.Config.save`;
* `LateBinding.Config.override` — the environment variable applied;
* `LateBinding.Config.locator` — the search that a configuration plans.
-/

set_option autoImplicit false

namespace LateBinding

/-- Where the library is: its file, and directories searched after the standard ones. -/
structure Config where
  path : Option Path := none
  searchPaths : List Path := []
deriving DecidableEq, Repr, Inhabited

namespace Config

/-- Why a configuration cannot be used. -/
inductive Error where
  | io (cause : FileSystem.Error)
  | malformed
  | notFound (path : Path)
deriving DecidableEq, Repr

/-- The wording of an error; what is wrong with a malformed file is not fixed. -/
def Error.message : Error → String
  | .io cause => "Failed to read config file: " ++ cause.message
  | .malformed => "Failed to parse config:"
  | .notFound path => "Config file not found: " ++ path.display

/-- The name of the configuration file. -/
def fileName : String := "cronet.toml"

/-- The environment variable that replaces the path of the library. -/
def pathVariable : String := "CRONET_LIBRARY_PATH"

/-! ### Reading -/

/-- A path from a value. -/
def pathOfToml? : Toml → Option Path
  | .string s => some (Path.ofString s)
  | _ => none

/-- Paths from a value. -/
def pathsOfToml? : Toml → Option (List Path)
  | .array items => items.mapM pathOfToml?
  | _ => none

/-- A field: its default if it is absent, else what its value says. -/
def field {α : Type} (read : Toml → Option α) (default : α) : Option Toml → Option α
  | none => some default
  | some v => read v

/-- The library's table, or the list of its fields. -/
def libraryOfToml? : Toml → Option Config
  | .table entries => do
    let path ← field (fun v => (pathOfToml? v).map some) none (Toml.lookup "path" entries)
    let dirs ← field pathsOfToml? [] (Toml.lookup "search_paths" entries)
    return ⟨path, dirs⟩
  | .array fields => do
    let path ← field (fun v => (pathOfToml? v).map some) none fields[0]?
    let dirs ← field pathsOfToml? [] fields[1]?
    return ⟨path, dirs⟩
  | _ => none

/-- The configuration of a document's root. -/
def ofToml? (root : List (String × Toml)) : Option Config :=
  field libraryOfToml? {} (Toml.lookup "library" root)

/-- The configuration that a text writes. -/
def parse? (s : String) : Option Config :=
  (Toml.parse? s).bind ofToml?

/-! ### Writing -/

/-- The text of a configuration whose paths are all UTF-8. -/
def render? (c : Config) : Option String := do
  let path ← match c.path with
    | none => some none
    | some p => p.toText?.map some
  let dirs ← c.searchPaths.mapM Path.toText?
  let pathLine := match path with
    | none => []
    | some p => "path = ".toList ++ Toml.renderString p ++ ['\n']
  return String.ofList <| "[library]\n".toList ++ pathLine ++
    "search_paths = ".toList ++ Toml.renderStrings dirs ++ ['\n']

/-! ### Files -/

/-- The configuration of a file. -/
def load (fs : FileSystem) (p : Path) : Except Error Config :=
  if fs.exists? p then
    match fs.readText p with
    | .error e => .error (.io e)
    | .ok s =>
      match parse? s with
      | some c => .ok c
      | none => .error .malformed
  else .error (.notFound p)

/-- The configuration of the nearest file on the way from a directory upward, or the default where
there is none. A file that is there and cannot be used is an error. -/
def findAndLoad (fs : FileSystem) (start : Path) : Except Error Config :=
  match (start.ancestors.map fun dir => dir.join (Path.ofString fileName)).find? fs.exists? with
  | some p => load fs p
  | none => .ok {}

/-- The file system with a configuration saved to a file. -/
def save (c : Config) (fs : FileSystem) (p : Path) : Except Error FileSystem :=
  match c.render? with
  | none => .error (.io .pathNotUtf8)
  | some s =>
    match fs.write p (Text.Utf8.bytes s) with
    | .ok fs => .ok fs
    | .error e => .error (.io e)

/-! ### Use -/

/-- A configuration with the path of the library replaced by a value that is not empty. -/
def override (c : Config) (value : Option (List UInt8)) : Config :=
  match value with
  | some (b :: bs) => { c with path := some ⟨b :: bs⟩ }
  | _ => c

/-- The search that a configuration plans. -/
def locator (c : Config) : Library.Locator :=
  { explicit := c.path, extraDirs := c.searchPaths }

/-- Configurations are alike if their paths are. -/
def alike (c d : Config) : Bool :=
  (match c.path, d.path with
    | none, none => true
    | some p, some q => p.alike q
    | _, _ => false) &&
  c.searchPaths.length == d.searchPaths.length &&
  (c.searchPaths.zip d.searchPaths).all fun r => r.1.alike r.2

/-- The working directory as a path. -/
def workingDirectory (fs : FileSystem) : Path :=
  if fs.cwd.isEmpty then ⟨[Path.slash]⟩ else ⟨fs.cwd.flatMap fun n => Path.slash :: n⟩

/-- The configuration for the working directory, the environment variable applied. -/
def loadNearest (fs : FileSystem) (value : Option (List UInt8)) : Except Error Config :=
  match findAndLoad fs (workingDirectory fs) with
  | .ok c => .ok (c.override value)
  | .error e => .error e

end Config

end LateBinding
