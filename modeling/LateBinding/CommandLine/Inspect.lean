import LateBinding.CommandLine.Command
import LateBinding.CommandLine.Report
import LateBinding.Native.CString
import LateBinding.Host

/-!
**The inspector.**

It shows where the library would be loaded from, what a library exports and which version it is,
and computes public-key pins. **The configuration is read first, whatever the command.**

Main definitions:

* `LateBinding.CommandLine.configuration` — the configuration of an invocation;
* `LateBinding.CommandLine.infoReport`, `LateBinding.CommandLine.locateReport`,
  `LateBinding.CommandLine.pinReport`, `LateBinding.CommandLine.symbolsReport` — the reports of the
  commands;
* `LateBinding.CommandLine.Outcome`, `LateBinding.CommandLine.run` — a whole invocation.
-/

set_option autoImplicit false

namespace LateBinding.CommandLine

/-- The configuration of an invocation: the given file, else that for the working directory. The
environment variable is applied to both. -/
def configuration (h : Host) : Option Path → Except Failure Config
  | some path =>
    match Config.load h.files path with
    | .ok c => .ok (c.override h.pathOverride)
    | .error e => .error ⟨"Failed to load config: " ++ path.display, some (.config e)⟩
  | none =>
    match Config.loadNearest h.files h.pathOverride with
    | .ok c => .ok c
    | .error e => .error ⟨"Failed to load cronet.toml", some (.config e)⟩

/-! ### The library -/

/-- A text that the library answers. -/
def answerText (answer : Option (List UInt8)) : String :=
  Native.readCString (answer.map fun bs => (⟨bs⟩ : Native.CString).withTerminator)

/-- The report on a library that has been loaded. -/
def loadedLines (h : Host) (b : Library.Bound) : List String :=
  let image := (Library.imageAt h.files h.environment.libraryPath b.path).toOption
  [ "Library:  " ++ b.path.display,
    "Symbols:  " ++ toString b.symbolCount,
    "Version:  " ++ answerText (image.bind FileSystem.Image.version),
    "User agent: " ++ answerText (image.bind FileSystem.Image.userAgent) ]

/-- The library is loaded and tells about itself. -/
def infoReport (h : Host) (config : Config) (library : Option Path) : Report :=
  let fresh : Library.Guard := { locator := config.locator }
  let (settled, _) := fresh.load h.files h.environment library
  match settled.outcome.getD Library.missingOutcome with
  | .ok b => { lines := loadedLines h b }
  | .error e => .fail [] "Failed to load cronet" (some (.library e))

/-! ### The search -/

/-- A line of a numbered list; the numbers end in one column. -/
def numbered (i : Nat) (text : String) : String :=
  let n := toString (i + 1)
  "  " ++ (if n.length < 2 then " " ++ n else n) ++ ". " ++ text

/-- A candidate with the mark that says whether it is there. -/
def markedCandidate (fs : FileSystem) (candidate : Path) : String :=
  candidate.display ++ (if fs.exists? candidate then " [found]" else " [-]")

/-- The places of a search in order: its directories, or its marked candidates. -/
def searchLines (h : Host) (l : Library.Locator) (verbose : Bool) : List String :=
  if verbose then
    (l.candidates h.environment).mapIdx fun i c => numbered i (markedCandidate h.files c)
  else (l.searchDirs h.environment).mapIdx fun i d => numbered i d.display

/-- The plan of a search in words. -/
def planLines (h : Host) (l : Library.Locator) (verbose : Bool) : List String :=
  ("Library file: " ++ Library.defaultFilename) ::
    l.explicit.toList.map (fun path => "Explicit path: " ++ path.display) ++
    "Search order:" :: searchLines h l verbose

/-- The search is shown, and which place wins. -/
def locateReport (h : Host) (config : Config) (verbose : Bool) : Report :=
  let l := config.locator
  let plan := planLines h l verbose
  match l.locate none h.environment h.files with
  | .ok path => { lines := plan ++ ["Selected: " ++ path.display] }
  | .error searched => .fail plan (Error.notFound searched).message none

/-! ### Pins -/

/-- The pins of the certificates in a file, or their digests. -/
def pinReport (h : Host) (certificate : Path) (hex : Bool) : Report :=
  match h.files.readText certificate with
  | .error e => .fail [] ("Failed to read " ++ certificate.display) (some (.file e))
  | .ok pem =>
    match Pin.ofPem pem with
    | .error e => .fail [] ("Failed to compute pins for " ++ certificate.display) (some (.pin e))
    | .ok digests => { lines := digests.map fun d => if hex then Hex.encode d else Pin.render d }

/-! ### Symbols -/

/-- Whether a group is wanted. -/
def wants (group : Option String) (name : String) : Bool :=
  match group with
  | none => true
  | some wanted => name == wanted

/-- The registered slots of a group, or of all groups. -/
def wantedSlots (group : Option String) : List Symbol.Slot :=
  Symbol.allSlots.filter fun s => wants group s.group

/-- Whether a symbol is registered in a wanted group. -/
def wantsSymbol (group : Option String) (symbol : String) : Bool :=
  match group with
  | none => true
  | some wanted => Symbol.groupOf? symbol == some wanted

/-- The width of the column of groups. -/
def groupWidth : Nat := 24

/-- A slot in the listing. -/
def slotLine (s : Symbol.Slot) : String :=
  s.group ++ String.ofList (List.replicate (groupWidth - s.group.length) ' ') ++ " " ++ s.symbol

/-- The listing of a group, or of all groups. -/
def listingReport (group : Option String) : Report :=
  let slots := wantedSlots group
  { lines := slots.map slotLine ++ [toString slots.length ++ " symbols"] }

/-- The symbols of a group, or of all groups, that a library lacks. -/
def checkReport (h : Host) (library : Path) (group : Option String) : Report :=
  match Library.audit h.files h.environment.libraryPath library with
  | .error e => .fail [] ("Failed to open " ++ library.display) (some (.library e))
  | .ok lacking =>
    let missing := lacking.filter (wantsSymbol group)
    let count := toString (wantedSlots group).length
    if missing.isEmpty then
      { lines := [library.display ++ ": all " ++ count ++ " symbols present"] }
    else
      .fail (missing.map fun s => "missing  " ++ s)
        (library.display ++ ": " ++ toString missing.length ++ " of " ++ count ++
          " symbols missing") none

/-- The bound symbols, or those that a library lacks. -/
def symbolsReport (h : Host) (library : Option Path) (group : Option String) : Report :=
  match library with
  | none => listingReport group
  | some path => checkReport h path group

/-! ### A whole invocation -/

/-- The report of a command under a configuration. -/
def Command.report (h : Host) (config : Config) : Command → Report
  | .info library => infoReport h config library
  | .locate verbose => locateReport h config verbose
  | .pin certificate hex => pinReport h certificate hex
  | .symbols library group => symbolsReport h library group

/-- The report of an invocation. -/
def Invocation.report (h : Host) (i : Invocation) : Report :=
  match configuration h i.config with
  | .ok config => i.command.report h config
  | .error failure => ⟨[], some failure⟩

/-- What comes of the arguments: a report, or something about the inspector itself. -/
inductive Outcome where
  | report (r : Report)
  | usage
  | help
  | version
deriving DecidableEq, Repr

/-- The name and the version of the inspector. -/
def versionLine : String := "cronet-inspect 0.1.0\n"

/-- How the inspector is called. -/
def usageLine : String := "Usage: cronet-inspect [OPTIONS] <COMMAND>\n"

/-- What the inspector can do. -/
def helpText : String :=
  "Inspect and load the cronet native library\n\n" ++ usageLine ++
    "\nCommands:\n" ++
    "  info     Load the library and print its version and default user agent\n" ++
    "  locate   Show the library search order and which candidate wins\n" ++
    "  pin      Compute SPKI SHA-256 pins for the certificates in a PEM file\n" ++
    "  symbols  List the bound symbols, optionally checking a library for them\n" ++
    "  help     Print this message or the help of the given subcommand(s)\n" ++
    "\nOptions:\n" ++
    "      --config <CONFIG>  Config file (default: nearest cronet.toml)\n" ++
    "  -h, --help             Print help\n" ++
    "  -V, --version          Print version\n"

/-- The outcome of an invocation with some arguments. -/
def run (h : Host) (args : List Argument) : Outcome :=
  match Invocation.read args with
  | .ok i => .report (i.report h)
  | .error .usage => .usage
  | .error .help => .help
  | .error .version => .version

namespace Outcome

/-- The exit code. -/
def code : Outcome → Nat
  | .report r => r.code
  | .usage => 2
  | _ => 0

/-- The text for standard output. -/
def output : Outcome → String
  | .report r => r.output
  | .usage => ""
  | .help => helpText
  | .version => versionLine

/-- The text for standard error. -/
def errors : Outcome → String
  | .report r => (r.failure.map Failure.render).getD ""
  | .usage => usageLine
  | _ => ""

end Outcome

end LateBinding.CommandLine
