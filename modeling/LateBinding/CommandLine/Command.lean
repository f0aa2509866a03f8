import LateBinding.CommandLine.Arguments
import LateBinding.Path

/-!
**The commands of the inspector.**

Four subcommands, and a switch for the configuration file that may stand before or after the
subcommand's name; where it stands in both places, the later one counts.

Main definitions:

* `LateBinding.CommandLine.Command`, `LateBinding.CommandLine.Invocation`;
* `LateBinding.CommandLine.Invocation.read` — an invocation from its arguments.
-/

set_option autoImplicit false

namespace LateBinding.CommandLine

/-- What the inspector is asked to do. -/
inductive Command where
  | info (library : Option Path)
  | locate (verbose : Bool)
  | pin (certificate : Path) (hex : Bool)
  | symbols (check : Option Path) (group : Option String)
deriving DecidableEq, Repr

/-- A command, and the configuration file if one is given. -/
structure Invocation where
  config : Option Path
  command : Command
deriving DecidableEq, Repr

/-- The switches that every level has. -/
def commonSwitches : List Switch := [⟨"config", .path, none⟩, ⟨"help", .help, some 'h'⟩]

/-- The names of the subcommands. -/
def subcommands : List String := ["info", "locate", "pin", "symbols"]

/-- What may be given before the subcommand's name. -/
def topLevel : Level where
  switches := commonSwitches ++ [⟨"version", .version, some 'V'⟩]
  subcommands := subcommands ++ ["help"]

/-- What may be given to `info`. -/
def infoLevel : Level where
  switches := commonSwitches ++ [⟨"library", .path, none⟩]

/-- What may be given to `locate`. -/
def locateLevel : Level where
  switches := commonSwitches ++ [⟨"verbose", .flag, some 'v'⟩]

/-- What may be given to `pin`. -/
def pinLevel : Level where
  switches := commonSwitches ++ [⟨"hex", .flag, none⟩]
  operand := true

/-- What may be given to `symbols`. -/
def symbolsLevel : Level where
  switches := commonSwitches ++ [⟨"check", .path, none⟩, ⟨"group", .text, none⟩]

namespace Given

/-- The path that a switch gives. -/
def path? (g : Given) (long : String) : Option Path := (g.value? long).map Path.mk

/-- The text that a switch gives. -/
def text? (g : Given) (long : String) : Option String := (g.value? long).map Text.Utf8.toText

end Given

namespace Command

/-- What a subcommand's arguments ask for, and the configuration file if they name one. -/
def read (name : Argument) (args : List Argument) : Except Stop (Given × Command) :=
  if name = Text.Utf8.bytes "info" then do
    let (g, _) ← infoLevel.read args
    return (g, .info (g.path? "library"))
  else if name = Text.Utf8.bytes "locate" then do
    let (g, _) ← locateLevel.read args
    return (g, .locate (g.has "verbose"))
  else if name = Text.Utf8.bytes "pin" then do
    let (g, _) ← pinLevel.read args
    return (g, .pin ⟨g.operand.getD []⟩ (g.has "hex"))
  else if name = Text.Utf8.bytes "symbols" then do
    let (g, _) ← symbolsLevel.read args
    return (g, .symbols (g.path? "check") (g.text? "group"))
  else .error .usage

/-- What follows the name `help`: nothing, or the name of one subcommand. -/
def readHelp : List Argument → Stop
  | [] => .help
  | [name] => if topLevel.isSubcommand name then .help else .usage
  | _ => .usage

end Command

/-- An invocation from its arguments, or what ends their reading. -/
def Invocation.read (args : List Argument) : Except Stop Invocation :=
  match topLevel.read args with
  | .error stop => .error stop
  | .ok (_, []) => .error .usage
  | .ok (outer, name :: rest) =>
    if name = Text.Utf8.bytes "help" then .error (Command.readHelp rest)
    else
      match Command.read name rest with
      | .error stop => .error stop
      | .ok (inner, command) => .ok ⟨(inner.path? "config").or (outer.path? "config"), command⟩

end LateBinding.CommandLine
