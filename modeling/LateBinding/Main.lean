import LateBinding.CommandLine.Places

/-!
**The inspector as a program.**

The program reads the environment and the files at the places where an invocation looks, and prints
what comes of the invocation for these. Nothing is decided here. A shared library is known by the
bytes of its file only, so that it is found but not loaded.

Main definitions:

* `LateBinding.CommandLine.hostFor` — what an invocation finds;
* `LateBinding.CommandLine.invoke`, `main`.
-/

set_option autoImplicit false

namespace LateBinding.CommandLine

/-- The number by which the system says that a directory cannot be read as a file. -/
def directoryCode : UInt32 := 21

/-- What stands at a place, as far as it can be read. -/
def probe (place : Path) : IO (Option FileSystem.Node) :=
  match place.toText? with
  | none => return none
  | some name => do
    try
      let content ← IO.FS.readBinFile name
      return some (.file content.toList)
    catch e =>
      match e with
      | .inappropriateType _ code _ =>
        return if code = directoryCode then some .directory else none
      | _ => return none

/-- A file system with what stands at a place and at the directories on the way there. -/
def gather (fs : FileSystem) (place : Path) : IO FileSystem := do
  let pieces := Path.pieces place.bytes
  let mut fs := fs
  for count in List.range pieces.length do
    let way := pieces.take (count + 1)
    let name := FileSystem.resolve (fs.origin place) way
    if (fs.node? name).isNone then
      match ← probe ⟨List.intercalate [Path.slash] way⟩ with
      | some node => fs := fs.put name node
      | none => pure ()
  return fs

/-- A host with what stands at some places. -/
def gatherAll (h : Host) (places : List Path) : IO Host := do
  let files ← places.foldlM gather h.files
  return { h with files := files }

/-- What the process finds before any file is read. -/
def bareHost : IO Host := do
  let cwd := (← IO.currentDir).toString
  let exeDir := (← IO.appDir).toString
  let libraryPath ← IO.getEnv "LD_LIBRARY_PATH"
  let pathOverride ← IO.getEnv Config.pathVariable
  return {
    files := ⟨(Path.pieces (Text.Utf8.bytes cwd)).filter fun c => !c.isEmpty, []⟩
    environment :=
      { exeDir := some (Path.ofString exeDir)
        libraryPath := libraryPath.map Text.Utf8.bytes }
    pathOverride := pathOverride.map Text.Utf8.bytes }

/-- The host with all that an invocation looks at. -/
def hostFor (i : Invocation) : IO Host := do
  let bare ← bareHost
  let h ← gatherAll bare (i.configPlaces bare)
  match configuration h i.config with
  | .error _ => return h
  | .ok config => gatherAll h (i.places h config)

/-- An invocation as a whole: its arguments are read, its report is printed, and its exit code is
given. -/
def invoke (args : List String) : IO UInt32 := do
  let args := args.map Text.Utf8.bytes
  let host ← match Invocation.read args with
    | .ok i => hostFor i
    | .error _ => bareHost
  let outcome := run host args
  IO.print outcome.output
  IO.eprint outcome.errors
  return UInt32.ofNat outcome.code

end LateBinding.CommandLine

/-- The inspector. -/
def main (args : List String) : IO UInt32 := LateBinding.CommandLine.invoke args
