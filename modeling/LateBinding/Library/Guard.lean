import LateBinding.Library.Locator
import LateBinding.Library.Open

/-!
**One load attempt for all callers.**

A guard runs at most one attempt to load a library and gives its outcome to every caller, early or
late. Callers move in atomic steps: a caller first reads the outcome without the lock; if there is
none it looks at the phase under the lock, and either sleeps until the attempt is settled or takes
the attempt for itself. The caller that took it opens the library, stores the outcome, and only then
declares the attempt done and wakes the sleepers. An attempt that panics is settled as a failure
before the panic goes on, so that nobody waits for ever.

Main definitions:

* `LateBinding.Library.Phase`, `LateBinding.Library.Attempt`;
* `LateBinding.Library.Guard` — what the callers share;
* `LateBinding.Library.Caller`, `LateBinding.Library.step` — **one atomic step of one caller**;
* `LateBinding.Library.Crowd` — several callers at one guard, and their interleavings;
* `LateBinding.Library.Guard.load` — a call by itself.
-/

set_option autoImplicit false

namespace LateBinding.Library

/-- How far the attempt is. -/
inductive Phase where
  | unstarted
  | inProgress
  | done
deriving DecidableEq, Repr

/-- The name of a phase. -/
def Phase.name : Phase → String
  | .unstarted => "Unstarted"
  | .inProgress => "InProgress"
  | .done => "Done"

/-- What a panic carries: a text, or something else. -/
inductive Payload where
  | text (s : String)
  | other
deriving DecidableEq, Repr

/-- What a panic says about its reason. -/
def Payload.reason : Payload → String
  | .text s => s
  | .other => "unknown panic"

/-- The outcome of loading. -/
abbrev Outcome := Except Error Bound

/-- What an opener does when it is run: it ends with an outcome, or panics. -/
inductive Attempt where
  | ended (outcome : Outcome)
  | panicked (payload : Payload)

/-- What the callers of a guard share. `openings` are the phases that openers have seen, one for
each opener that was run. -/
structure Guard where
  locator : Locator := {}
  phase : Phase := .unstarted
  locked : Bool := false
  outcome : Option Outcome := none
  attempts : Nat := 0
  openings : List Phase := []

/-- Where a caller stands. -/
inductive Caller where
  | arriving
  | entering
  | asleep
  | taking
  | counting
  | opening
  | settling
  | announcing
  | reading
  | returned (outcome : Outcome)
  | unwound (payload : Payload)

/-- Whether a call is over. -/
def Caller.isOver : Caller → Bool
  | .returned _ => true
  | .unwound _ => true
  | _ => false

/-- What a caller is told that finds no outcome where there must be one. -/
def missingOutcome : Outcome := .error (.openFailed ⟨[]⟩ "load outcome missing")

/-- The outcome as which an attempt is settled. -/
def Attempt.settled (a : Attempt) (l : Locator) : Outcome :=
  match a with
  | .ended outcome => outcome
  | .panicked payload =>
    .error (.openFailed (l.explicit.getD ⟨[]⟩) ("load attempt panicked: " ++ payload.reason))

/-- One atomic step of a caller whose opener does `own`: the guard and the caller after it, and
whether the sleepers are woken. There is none while the caller sleeps, waits for the lock or is
over. -/
def step (own : Attempt) (g : Guard) : Caller → Option (Guard × Caller × Bool)
  | .arriving =>
    match g.outcome with
    | some _ => some (g, .reading, false)
    | none => some (g, .entering, false)
  | .entering =>
    if g.locked then none
    else
      match g.phase with
      | .done => some (g, .reading, false)
      | .inProgress => some (g, .asleep, false)
      | .unstarted => some ({ g with locked := true }, .taking, false)
  | .taking => some ({ g with phase := .inProgress, locked := false }, .counting, false)
  | .counting => some ({ g with attempts := g.attempts + 1 }, .opening, false)
  | .opening => some ({ g with openings := g.phase :: g.openings }, .settling, false)
  | .settling =>
    let outcome := match g.outcome with
      | some outcome => outcome
      | none => own.settled g.locator
    some ({ g with outcome := some outcome }, .announcing, false)
  | .announcing =>
    if g.locked then none
    else
      let after := match own with
        | .ended _ => Caller.reading
        | .panicked payload => .unwound payload
      some ({ g with phase := .done }, after, true)
  | .reading => some (g, .returned (g.outcome.getD missingOutcome), false)
  | .asleep => none
  | .returned _ => none
  | .unwound _ => none

/-! ### Several callers -/

/-- A caller and what its opener does. -/
structure Call where
  own : Attempt
  caller : Caller

/-- Several callers at one guard. -/
structure Crowd where
  guard : Guard
  calls : List Call

/-- A caller that sleeps is woken and looks at the phase again. -/
def Call.wake (c : Call) : Call :=
  match c.caller with
  | .asleep => { c with caller := .entering }
  | _ => c

/-- One atomic step of the caller at a place. -/
def Crowd.stepAt (s : Crowd) (i : Nat) : Option Crowd :=
  match s.calls[i]? with
  | none => none
  | some c =>
    match step c.own s.guard c.caller with
    | none => none
    | some (guard, caller, wakes) =>
      let calls := if wakes then s.calls.map Call.wake else s.calls
      some ⟨guard, calls.set i { c with caller := caller }⟩

/-- A sleeper at a place wakes without having been woken. -/
def Crowd.wakeAt (s : Crowd) (i : Nat) : Option Crowd :=
  match s.calls[i]? with
  | some ⟨own, .asleep⟩ => some { s with calls := s.calls.set i ⟨own, .entering⟩ }
  | _ => none

/-- What can happen to a crowd: a step of one caller, or a sleeper waking by itself. -/
inductive Crowd.Step (s t : Crowd) : Prop where
  | move (i : Nat) (h : s.stepAt i = some t)
  | spurious (i : Nat) (h : s.wakeAt i = some t)

/-- The crowd of callers that all arrive at a fresh guard. -/
def Crowd.arrive (l : Locator) (attempts : List Attempt) : Crowd :=
  ⟨{ locator := l }, attempts.map fun a => ⟨a, .arriving⟩⟩

/-- Every caller in turn takes a step if it can. -/
def Crowd.round (s : Crowd) : Crowd :=
  (List.range s.calls.length).foldl (fun s i => (s.stepAt i).getD s) s

/-- Rounds of steps. -/
def Crowd.rounds : Nat → Crowd → Crowd
  | 0, s => s
  | n + 1, s => Crowd.rounds n s.round

/-- Steps enough for every caller: those of the attempt, and those of a sleeper afterwards. -/
def enoughRounds : Nat := 16

/-- All callers run to their end, taking turns. -/
def Crowd.run (s : Crowd) : Crowd := s.rounds enoughRounds

/-! ### A single caller -/

/-- A call by itself, run to its end; `fuel` bounds its steps. -/
def runAlone (own : Attempt) : Nat → Guard → Caller → Guard × Caller
  | 0, g, c => (g, c)
  | fuel + 1, g, c =>
    match step own g c with
    | some (g, c, _) => runAlone own fuel g c
    | none => (g, c)

namespace Guard

/-- A call with an opener, while nobody else calls. -/
def loadWith (g : Guard) (own : Attempt) : Guard × Caller :=
  runAlone own enoughRounds g .arriving

/-- The library, if it has been loaded. -/
def loaded (g : Guard) : Option Bound :=
  match g.outcome with
  | some (.ok b) => some b
  | _ => none

/-- What finding and opening the library does. -/
def find (l : Locator) (fs : FileSystem) (env : Environment) (request : Option Path) : Attempt :=
  .ended <| match l.locate request env fs with
    | .error searched => .error (.notFound searched)
    | .ok p => openAt fs env.libraryPath p

/-- A call that finds and opens the library. A requested path counts only in the attempt itself. -/
def load (g : Guard) (fs : FileSystem) (env : Environment) (request : Option Path) :
    Guard × Caller :=
  g.loadWith (find g.locator fs env request)

/-- A guard in a diagnostic. -/
def debug (g : Guard) : String :=
  "LoadGuard \x7b phase: " ++ g.phase.name ++ ", attempts: " ++ toString g.attempts ++
    ", loaded: " ++ (match g.loaded with
      | some b => "Some(" ++ b.debug ++ ")"
      | none => "None") ++ " \x7d"

end Guard

end LateBinding.Library
