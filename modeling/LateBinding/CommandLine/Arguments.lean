import LateBinding.Text.Utf8

/-!
**Reading the arguments of a command.**

An argument is a long switch `--name` or `--name=value`, a group of short switches `-ab`, or an
operand; a lone hyphen is an operand, and so is all that follows `--`. A switch is given at most
once, and one that takes a value takes the next argument, which must not look like a switch. The
arguments are read from left to right, and the first thing that ends the reading decides: an error,
or a wish for help or for the version.

Main definitions:

* `LateBinding.CommandLine.Switch`, `LateBinding.CommandLine.Level` — what may be given;
* `LateBinding.CommandLine.Given` — what has been given;
* `LateBinding.CommandLine.Level.read` — the arguments up to the name of a subcommand.
-/

set_option autoImplicit false

namespace LateBinding.CommandLine

/-- An argument: any bytes. -/
abbrev Argument := List UInt8

/-- The code of a hyphen. -/
@[match_pattern] def hyphen : UInt8 := 45

/-- The code of an equals sign. -/
def equals : UInt8 := 61

/-- What a switch takes, or what it asks for. -/
inductive Shape where
  | flag
  | path
  | text
  | help
  | version
deriving DecidableEq, Repr

/-- Whether a switch takes a value. -/
def Shape.takesValue : Shape → Bool
  | .path => true
  | .text => true
  | _ => false

/-- Whether a value fits: a path is not empty, a text is UTF-8. -/
def Shape.accepts : Shape → Argument → Bool
  | .path, a => !a.isEmpty
  | .text, a => (Text.Utf8.toText? a).isSome
  | _, _ => true

/-- A switch, with its long name and its short one if it has one. -/
structure Switch where
  long : String
  shape : Shape
  short : Option Char := none
deriving DecidableEq, Repr

/-- What may be given at one level of the command: switches, whether an operand is wanted, and the
names of subcommands. -/
structure Level where
  switches : List Switch
  operand : Bool := false
  subcommands : List String := []

/-- Why the reading ends early. -/
inductive Stop where
  | usage
  | help
  | version
deriving DecidableEq, Repr

/-- What has been given at one level: the values of switches by long name, empty for a flag, and
the operand. -/
structure Given where
  values : List (String × Argument) := []
  operand : Option Argument := none
deriving DecidableEq, Repr

namespace Given

/-- The value of a switch. -/
def value? (g : Given) (long : String) : Option Argument :=
  (g.values.find? fun v => v.1 == long).map (·.2)

/-- Whether a flag is given. -/
def has (g : Given) (long : String) : Bool := (g.value? long).isSome

/-- A switch is given, with its value if it takes one. -/
def give (g : Given) (s : Switch) (value : Argument) : Except Stop Given :=
  match s.shape with
  | .help => .error .help
  | .version => .error .version
  | shape =>
    if g.has s.long || !shape.accepts value then .error .usage
    else .ok { g with values := (s.long, value) :: g.values }

/-- An operand is given. -/
def giveOperand (g : Given) (level : Level) (value : Argument) : Except Stop Given :=
  if level.operand && g.operand.isNone && !value.isEmpty then .ok { g with operand := some value }
  else .error .usage

/-- A group of short switches is given. -/
def giveGroup (level : Level) : Argument → Given → Except Stop Given
  | [], g => .ok g
  | b :: bs, g =>
    match level.switches.find? fun s => s.short == some (Char.ofNat b.toNat) with
    | none => .error .usage
    | some s =>
      match g.give s [] with
      | .error stop => .error stop
      | .ok g => giveGroup level bs g

end Given

/-- Whether an argument looks like a switch. -/
def looksLikeSwitch : Argument → Bool
  | b :: _ :: _ => b == hyphen
  | _ => false

/-- The name and the value of a long switch, given without its hyphens. -/
def splitLong (a : Argument) : Argument × Option Argument :=
  match a.dropWhile (· != equals) with
  | [] => (a, none)
  | _ :: value => (a.takeWhile (· != equals), some value)

/-- The long switch of a name. -/
def Level.long? (level : Level) (name : Argument) : Option Switch :=
  level.switches.find? fun s => Text.Utf8.bytes s.long == name

/-- Whether an argument names a subcommand. -/
def Level.isSubcommand (level : Level) (a : Argument) : Bool :=
  level.subcommands.any fun s => Text.Utf8.bytes s == a

/-- How far the reading is: what has been given, the switch whose value comes next, and whether
only operands may follow. -/
structure Progress where
  given : Given := {}
  pending : Option Switch := none
  operandsOnly : Bool := false

/-- One argument is read. -/
def Progress.next (level : Level) (p : Progress) (a : Argument) : Except Stop Progress :=
  let withGiven (given : Except Stop Given) : Except Stop Progress :=
    given.map fun g => { p with given := g, pending := none }
  match p.pending with
  | some s => if looksLikeSwitch a then .error .usage else withGiven (p.given.give s a)
  | none =>
    if p.operandsOnly then withGiven (p.given.giveOperand level a)
    else
      match a with
      | [hyphen, hyphen] => .ok { p with operandsOnly := true }
      | hyphen :: hyphen :: word =>
        let (name, value) := splitLong word
        match level.long? name with
        | none => .error .usage
        | some s =>
          match s.shape.takesValue, value with
          | true, some v => withGiven (p.given.give s v)
          | true, none => .ok { p with pending := some s }
          | false, some _ => .error .usage
          | false, none => withGiven (p.given.give s [])
      | hyphen :: b :: bs => withGiven (p.given.giveGroup level (b :: bs))
      | _ => withGiven (p.given.giveOperand level a)

/-- The arguments up to the name of a subcommand, and that name with what follows it. -/
def Level.readFrom (level : Level) : List Argument → Progress →
    Except Stop (Given × List Argument)
  | [], p => if p.pending.isSome then .error .usage else .ok (p.given, [])
  | a :: rest, p =>
    if p.pending.isNone && !p.operandsOnly && level.isSubcommand a then .ok (p.given, a :: rest)
    else
      match p.next level a with
      | .error stop => .error stop
      | .ok p => level.readFrom rest p

/-- What the arguments give, up to the name of a subcommand. A wanted operand must be there. -/
def Level.read (level : Level) (args : List Argument) : Except Stop (Given × List Argument) :=
  match level.readFrom args {} with
  | .error stop => .error stop
  | .ok (g, rest) => if level.operand && g.operand.isNone then .error .usage else .ok (g, rest)

end LateBinding.CommandLine
