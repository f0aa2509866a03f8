import LateBinding.Config
import LateBinding.Error
import LateBinding.Pin

/-!
**What a command reports.**

A report has lines for standard output and, if the command failed, what it was about and why. The
reason is an error of the part that failed, with the error behind it where there is one.

Main definitions:

* `LateBinding.CommandLine.Cause`, `LateBinding.CommandLine.Failure`;
* `LateBinding.CommandLine.Report` — the lines and the failure;
* `LateBinding.CommandLine.Report.output`, `LateBinding.CommandLine.Failure.render` — what is
  printed.
-/

set_option autoImplicit false

namespace LateBinding.CommandLine

/-- Why a command failed. -/
inductive Cause where
  | config (e : Config.Error)
  | file (e : FileSystem.Error)
  | library (e : Error)
  | pin (e : Pin.Error)
deriving DecidableEq, Repr

/-- The wording of a cause, followed by that of the error behind it. -/
def Cause.chain : Cause → List String
  | .config (.io e) => [(Config.Error.io e).message, e.message]
  | .config e => [e.message]
  | .file e => [e.message]
  | .library e => [e.message]
  | .pin e => [e.message]

/-- A failure: what failed, and why. -/
structure Failure where
  what : String
  cause : Option Cause := none
deriving DecidableEq, Repr

/-- The text of a failure for standard error. Several causes are numbered. -/
def Failure.render (f : Failure) : String :=
  let lines := match f.cause.map Cause.chain with
    | none => []
    | some [c] => ["    " ++ c]
    | some cs => cs.mapIdx fun i c => "    " ++ toString i ++ ": " ++ c
  let behind := if lines.isEmpty then [] else "" :: "Caused by:" :: lines
  String.join (("Error: " ++ f.what) :: behind |>.map fun l => l ++ "\n")

/-- What a command reports. -/
structure Report where
  lines : List String := []
  failure : Option Failure := none
deriving DecidableEq, Repr

namespace Report

/-- The report of a failure, after some lines. -/
def fail (lines : List String) (what : String) (cause : Option Cause) : Report :=
  ⟨lines, some ⟨what, cause⟩⟩

/-- The exit code: zero exactly for success. -/
def code (r : Report) : Nat := if r.failure.isSome then 1 else 0

/-- The text for standard output. -/
def output (r : Report) : String := String.join (r.lines.map fun l => l ++ "\n")

end Report

end LateBinding.CommandLine
