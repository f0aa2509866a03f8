import LateBinding.Proofs.Load.Outcome
import LateBinding.Proofs.Simulation.Enactment

/-!
**An operation whose library failed to load does nothing.**

An operation demands the library before it asks for anything else, so a load that failed ends it
there: it panics with the text of the error, and **nothing has happened besides**. No native
function was called, no handler was registered, marked, retired or called, and the guard through
which the library was demanded is as it was. There is one operation that does not demand the
library: the time of the null date.

Main definitions:

* `LateBinding.Library.Caller.verdict` — what a call to load means for the operation that needs it;
* `LateBinding.Client.Program.Demands` — a program asks for the library before anything else;
* `LateBinding.Client.Program.Grant.through` — requests granted by a client that loads the library
  through a guard.

Main results:

* `LateBinding.Client.Operation.demands` — **every operation but one demands the library first**;
* `LateBinding.Client.Program.Demands.interpret_of_refused` — a refused demand ends a program, and
  nothing else is granted;
* `LateBinding.Simulation.perform_call` — what an operation does in a session;
* `LateBinding.Simulation.failed_load_stops_operations` — all of it together.
-/

set_option autoImplicit false

namespace LateBinding.Library

/-- What a call to load the library means for the operation that needs it: it goes on, or it panics
with a text. -/
def Caller.verdict : Caller → Except String Unit
  | .returned (.error e) => .error e.message
  | .unwound p => .error p.reason
  | _ => .ok ()

end LateBinding.Library

namespace LateBinding.Client

open Library (Guard Environment)

namespace Program

variable {σ α : Type}

/-- Before anything else, a program asks for the library. -/
def Demands (p : Program α) : Prop := ∃ next, p = .demand next

/-- **A refused demand ends a program**: nothing else is granted, and the state stays as it is. -/
theorem Demands.interpret_of_refused {p : Program α} (hp : p.Demands)
    {g : Grant (ExceptT String (StateM σ))} {text : String} {st : σ}
    (hg : g.demand.run st = (.error text, st)) :
    (p.interpret g).run st = (.error text, st) := by
  obtain ⟨next, rfl⟩ := hp
  have hbind : ∀ {β γ : Type} (a : StateM σ β) (f : β → StateM σ γ),
      (a >>= f) st = f (a st).1 (a st).2 := fun a f => rfl
  rw [interpret, ExceptT.run_bind, hbind]
  rw [show g.demand.run st = (.error text, st) from hg]
  rfl

/-- An action beside a guard that it leaves alone. -/
def beside {α : Type} (a : ExceptT String (StateM σ) α) : ExceptT String (StateM (Guard × σ)) α :=
  fun (guard, st) =>
    let (r, st) := a.run st
    (r, guard, st)

/-- Requests granted to a client that loads the library through a guard; whatever else is asked for
leaves the guard alone. -/
def Grant.through (fs : FileSystem) (env : Environment) (g : Grant (ExceptT String (StateM σ))) :
    Grant (ExceptT String (StateM (Guard × σ))) where
  demand := fun (guard, st) =>
    let (guard, caller) := guard.load fs env none
    (caller.verdict, guard, st)
  call symbol args := beside (g.call symbol args)
  register key := beside (g.register key)
  destroy key symbol args := beside (g.destroy key symbol args)

end Program

/-- **Every operation but one demands the library first.** -/
theorem Operation.demands {op : Operation} (hop : op ≠ .dateTimeMillis nullHandle) :
    op.program.Demands := by
  cases op with
  | dateTimeMillis date =>
      have hd : date ≠ nullHandle := by
        rintro rfl
        exact hop rfl
      rw [Operation.program, Client.dateTimeMillis, if_neg hd]
      exact ⟨_, rfl⟩
  | _ => exact ⟨_, rfl⟩

end LateBinding.Client

namespace LateBinding.Simulation

open Client (Operation Program nullHandle)
open Library (Guard Environment)

variable {S : Type} {e : Error} {guard : Guard}

/-- A guard that was settled with an error refuses the library and stays as it is. -/
theorem demand_through_of_error {σ : Type} (ho : guard.outcome = some (.error e)) (fs : FileSystem)
    (env : Environment) (g : Program.Grant (ExceptT String (StateM σ))) (st : σ) :
    (g.through fs env).demand.run (guard, st) = (.error e.message, guard, st) := by
  have hload : guard.load fs env none = (guard, .returned (.error e)) :=
    Library.Guard.load_of_outcome ho fs env none
  change (let (guard, caller) := guard.load fs env none; (caller.verdict, guard, st)) = _
  rw [hload]
  rfl

/-- So does a session in which loading has failed. -/
theorem demand_of_failure {st : State S} (hst : st.failure = some e) (inner : Inner S)
    (h : Handler S) : (grant inner h).demand.run st = (.error e.message, st) := by
  obtain ⟨objects, scripts, functions, registry, failure, log⟩ := st
  obtain rfl : failure = some e := hst
  rfl

/-- A session in which the library is loaded grants it, and nothing else happens. -/
theorem demand_of_loaded {st : State S} (hst : st.failure = none) (inner : Inner S)
    (h : Handler S) : (grant inner h).demand.run st = (.ok (), st) := by
  obtain ⟨objects, scripts, functions, registry, failure, log⟩ := st
  obtain rfl : failure = none := hst
  rfl

/-- What an operation does in a session: its program runs with a log of its own, and the answer
tells of what was recorded. -/
theorem perform_call (inner : Inner S) (op : Operation) (h : Handler S) (st : State S) :
    perform inner (.call op h) st =
      let r := (op.program.interpret (grant inner h)).run { st with log := [] }
      (match r.1 with
        | .ok result => .returned result r.2.log.reverse
        | .error text => .panicked text r.2.log.reverse, { r.2 with log := st.log }) := by
  have hrecorded : ∀ {β : Type} (a : Act S β), recorded a st =
      (((a { st with log := [] }).1, (a { st with log := [] }).2.log.reverse),
        { (a { st with log := [] }).2 with log := st.log }) := fun a => rfl
  simp only [perform, bind_apply, hrecorded]
  generalize (op.program.interpret (grant inner h)).run { st with log := [] } = r
  obtain ⟨r, st'⟩ := r
  cases r <;> rfl

/-- The time of the null date is answered without any request. -/
theorem interpret_dateTimeMillis_null {m : Type → Type} [Monad m] (g : Program.Grant m) :
    (Operation.dateTimeMillis nullHandle).program.interpret g = pure (.millis none) := by
  rw [Operation.program, Client.dateTimeMillis, if_pos rfl]
  rfl

/-- **A failed load stops every operation before it does anything.** Whatever the operation and its
arguments, whatever would happen inside native calls and handlers, and whatever the state of the
library, the handlers and the log: if loading was settled with an error, the operation panics with
the text of that error, and the guard, the registry of handlers and all else stay as they were;
nothing is recorded, so no native function and no handler was called. Only the time of the null date
is answered, with none, and that leaves everything as it was too. -/
theorem failed_load_stops_operations (ho : guard.outcome = some (.error e)) (fs : FileSystem)
    (env : Environment) (inner : Inner S) (h : Handler S) (st : State S) :
    (∀ op : Operation, op ≠ .dateTimeMillis nullHandle →
      (op.program.interpret ((grant inner h).through fs env)).run (guard, st) =
        (.error e.message, guard, st)) ∧
    (∀ op : Operation, op ≠ .dateTimeMillis nullHandle → st.failure = some e →
      perform inner (.call op h) st = (.panicked e.message [], st)) ∧
    ((Operation.dateTimeMillis nullHandle).program.interpret
      ((grant inner h).through fs env)).run (guard, st) = (.ok (.millis none), guard, st) ∧
    perform inner (.call (.dateTimeMillis nullHandle) h) st =
      (.returned (.millis none) [], st) := by
  refine ⟨fun op hop => ?_, fun op hop hst => ?_, ?_, ?_⟩
  · exact (Operation.demands hop).interpret_of_refused (demand_through_of_error ho fs env _ st)
  · have hdemand : (grant inner h).demand.run { st with log := [] } =
        (.error e.message, { st with log := [] }) :=
      demand_of_failure (show { st with log := [] }.failure = some e from hst) inner h
    rw [perform_call, (Operation.demands hop).interpret_of_refused hdemand]
    rfl
  · rw [interpret_dateTimeMillis_null]
    rfl
  · rw [perform_call, interpret_dateTimeMillis_null]
    rfl

/-- The library lacks a symbol, so the destruction of a stream panics and its handler stays
registered. -/
theorem stream_kept_after_failed_load :
    let e : Error := .symbolMissing "Cronet_UrlRequest_Cancel"
    let guard : Guard := { phase := .done, outcome := some (.error e), attempts := 1 }
    let st : State Unit :=
      { registry := ⟨[⟨⟨.stream, 16⟩, ⟨[], 0⟩, false⟩], [(⟨.stream, 16⟩, 0)]⟩, failure := some e }
    let inner : Inner Unit := fun _ _ => pure (.scripted "")
    guard.outcome = some (.error e) ∧
    (Operation.destroy .stream 16).program.interpret
        ((grant inner ⟨[], 0⟩).through ⟨[], []⟩ {}) (guard, st) =
      (.error "cronet: symbol Cronet_UrlRequest_Cancel not found", guard, st) ∧
    perform inner (.call (.installKeyVerifier 1 []) ⟨[], 0⟩) st =
      (.panicked "cronet: symbol Cronet_UrlRequest_Cancel not found" [], st) := by
  intro e guard st inner
  have ho : guard.outcome = some (.error e) := rfl
  obtain ⟨hthrough, hperform, -⟩ :=
    failed_load_stops_operations ho ⟨[], []⟩ {} inner ⟨[], 0⟩ st
  exact ⟨rfl, hthrough (.destroy .stream 16) nofun,
    hperform (.installKeyVerifier 1 []) nofun rfl⟩

end LateBinding.Simulation
