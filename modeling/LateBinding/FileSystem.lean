import LateBinding.Path

/-!
**A file system as a value.**

A file system maps absolute names, lists of components from the root on, to what stands there: a
file, a directory, or a shared library, of which its contents as a library are known. A path
is followed one component at a time; every component but the last must lead to a directory, also
where the next one steps back.

Main definitions:

* `LateBinding.FileSystem`, `LateBinding.FileSystem.Node`;
* `LateBinding.FileSystem.Error` — why a path cannot be used;
* `LateBinding.FileSystem.find` — what stands at a path;
* `LateBinding.FileSystem.exists`, `LateBinding.FileSystem.readText`,
  `LateBinding.FileSystem.write`.
-/

set_option autoImplicit false

namespace LateBinding

namespace FileSystem

/-- The name of an entry of a directory. -/
abbrev Name := List UInt8

/-- A shared library: the symbols that it lacks, and the texts that it answers for its version and
its user agent. -/
structure Image where
  lacks : List String
  version : Option (List UInt8) := none
  userAgent : Option (List UInt8) := none
deriving DecidableEq, Repr

/-- What stands at a name: a file, a shared library, or a directory. -/
inductive Node where
  | file (content : List UInt8)
  | library (image : Image)
  | directory
deriving DecidableEq, Repr

/-- Why a path cannot be used. -/
inductive Error where
  | missing
  | notADirectory
  | isADirectory
  | nameTooLong
  | zeroByte
  | contentNotUtf8
  | pathNotUtf8
deriving DecidableEq, Repr

/-- The wording of an error; those that the operating system reports carry its number. -/
def Error.message : Error → String
  | .missing => "No such file or directory (os error 2)"
  | .notADirectory => "Not a directory (os error 20)"
  | .isADirectory => "Is a directory (os error 21)"
  | .nameTooLong => "File name too long (os error 36)"
  | .zeroByte => "file name contained an unexpected NUL byte"
  | .contentNotUtf8 => "stream did not contain valid UTF-8"
  | .pathNotUtf8 => "path contains invalid UTF-8 characters"

end FileSystem

/-- A file system: the working directory and what stands at each name. The root is always a
directory. -/
structure FileSystem where
  cwd : List FileSystem.Name
  entries : List (List FileSystem.Name × FileSystem.Node)
deriving Repr

namespace FileSystem

/-- What stands at an absolute name. -/
def node? (fs : FileSystem) (name : List Name) : Option Node :=
  if name.isEmpty then some .directory
  else (fs.entries.find? fun e => e.1 == name).map (·.2)

/-- The longest name of an entry, in bytes. -/
def maxName : Nat := 255

/-- The shortest path that is too long, in bytes. -/
def maxPath : Nat := 4096

/-- Follows components from a directory, or from a file if none are left. -/
def follow (fs : FileSystem) : List Name → Node → List Name → Except Error (List Name × Node)
  | at_, node, [] => .ok (at_, node)
  | at_, node, c :: rest =>
    if c.isEmpty && !rest.isEmpty then follow fs at_ node rest
    else if node != .directory then .error .notADirectory
    else if Path.isNameless c then follow fs at_ node rest
    else if c = [Path.dot, Path.dot] then follow fs at_.dropLast .directory rest
    else if c.length > maxName then .error .nameTooLong
    else
      match fs.node? (at_ ++ [c]) with
      | none => .error .missing
      | some node => follow fs (at_ ++ [c]) node rest

/-- The directory that a path starts from. -/
def origin (fs : FileSystem) (p : Path) : List Name := if p.isAbsolute then [] else fs.cwd

/-- What is wrong with a path as such, whatever the file system holds. -/
def flaw? (p : Path) : Option Error :=
  if p.bytes.contains 0 then some .zeroByte
  else if p.bytes.isEmpty then some .missing
  else if p.bytes.length ≥ maxPath then some .nameTooLong
  else none

/-- What stands at a path, and its absolute name. -/
def find (fs : FileSystem) (p : Path) : Except Error (List Name × Node) :=
  match flaw? p with
  | some e => .error e
  | none => fs.follow (fs.origin p) .directory (Path.pieces p.bytes)

/-- Whether anything stands at a path. -/
def exists? (fs : FileSystem) (p : Path) : Bool := (fs.find p).toOption.isSome

/-- The text of the file at a path. -/
def readText (fs : FileSystem) (p : Path) : Except Error String :=
  match fs.find p with
  | .error e => .error e
  | .ok (_, .directory) => .error .isADirectory
  | .ok (_, .library _) => .error .contentNotUtf8
  | .ok (_, .file content) =>
    match Text.Utf8.toText? content with
    | some s => .ok s
    | none => .error .contentNotUtf8

/-- A file system with a node put at an absolute name. -/
def put (fs : FileSystem) (name : List Name) (node : Node) : FileSystem :=
  { fs with entries := (name, node) :: fs.entries.filter fun e => e.1 != name }

/-- A file system with the file at a path written, made if it was not there. A path that ends in a
slash, a dot or two dots can only mean a directory. -/
def write (fs : FileSystem) (p : Path) (content : List UInt8) : Except Error FileSystem :=
  match flaw? p with
  | some e => .error e
  | none =>
    let backward := (Path.pieces p.bytes).reverse
    match backward.dropWhile List.isEmpty with
    | [] => .error .isADirectory
    | last :: above =>
      match fs.follow (fs.origin p) .directory (above.reverse ++ [[Path.dot]]) with
      | .error e => .error e
      | .ok (dir, _) =>
        if backward.head? == some [] || last = [Path.dot] || last = [Path.dot, Path.dot] then
          .error .isADirectory
        else if last.length > maxName then .error .nameTooLong
        else
          match fs.node? (dir ++ [last]) with
          | some .directory => .error .isADirectory
          | _ => .ok (fs.put (dir ++ [last]) (.file content))

/-- A file system with a directory at an absolute name and at all names above it. -/
def makeDirectories (fs : FileSystem) (name : List Name) : FileSystem :=
  (List.range (name.length + 1)).foldl (fun fs n =>
    let above := name.take n
    if (fs.node? above).isSome then fs else fs.put above .directory) fs

/-- A file system with a node at a name, and directories at all names above it. -/
def install (fs : FileSystem) (name : List Name) (node : Node) : FileSystem :=
  (fs.makeDirectories name.dropLast).put name node

end FileSystem

end LateBinding
