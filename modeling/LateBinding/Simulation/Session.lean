import LateBinding.Client.Operation
import LateBinding.Library.Open
import LateBinding.Simulation.Objects

/-!
**Sessions of the client with a simulated library.**

A session is a list of steps. A step performs an operation of the client, lets the library make a
callback, or prepares a script for a later native call: what the call answers, and steps that happen
while it runs. Handlers have steps too, which happen inside an event. So steps nest, and each step
records what happened during it, in order.

The steps of scripts and handlers are patterns, which are resolved to commands when they happen,
with the arguments of the native call or event at hand.

Main definitions:

* `LateBinding.Simulation.Command`, `LateBinding.Simulation.Handler` — what happens, and when;
* `LateBinding.Simulation.Answer`, `LateBinding.Simulation.Record` — what is seen of it;
* `LateBinding.Simulation.nativeCall`, `deliver`, `perform` — the parts of a step;
* `LateBinding.Simulation.run` — a whole session.
-/

set_option autoImplicit false

namespace LateBinding.Callback

open LateBinding.Symbol (Kind)
open Native (Value)

/-- What a step tells of the words of a callback: all but raw pointers. -/
def Name.params (n : Name) : List Kind := n.signature.filter (· ≠ .rawPointer)

/-- What a log shows of the values of an event: all but raw pointers. -/
def Event.args (e : Event) : List Value :=
  e.values.filter fun
    | .context _ => false
    | _ => true

end LateBinding.Callback

namespace LateBinding.Simulation

open Native (Address Word Value targetsIn)
open Callback (Incoming Key ObjectKind Registry Job Target)
open Client (Operation Program Result)

/-- A script for a native call: the answer that replaces the usual one, and steps inside it. -/
structure Script (S : Type) where
  symbol : String
  answer : Option Word
  steps : List S

/-- A handler: the steps inside each event that it cares about, and the length that it tells. -/
structure Handler (S : Type) where
  on : List (Callback.Name × List S)
  length : Int

/-- A callback as a step issues it: which one the library makes, and the words for its `params`. -/
structure Issued where
  name : Callback.Name
  words : List Word

/-- The words for a signature, where raw pointers are null and the others are given in order. -/
def fillWords : List Symbol.Kind → List Word → List Word
  | .rawPointer :: ks, ws => .context 0 :: fillWords ks ws
  | _ :: ks, w :: ws => w :: fillWords ks ws
  | _, _ => []

/-- The words that the library passes. -/
def Issued.args (c : Issued) : List Word := fillWords c.name.signature c.words

/-- The handles among them. -/
def Issued.handles (c : Issued) : List Address :=
  c.words.filterMap fun
    | .handle a => some a
    | _ => none

/-- What a step does. -/
inductive Command (S : Type) where
  | call (operation : Operation) (handler : Handler S)
  | fire (callback : Issued) (via : Address)
  | script (s : Script S)

/-- The arguments at hand when a step is resolved. -/
inductive Context where
  | top
  | call (symbol : String) (args : List Word)
  | event (e : Callback.Event)

/-- What came of a callback: nothing to say, no functions to call, an empty slot, or a length. -/
inductive Fired where
  | nothing
  | noCallbacks
  | nullSlot
  | length (n : Int)

mutual

/-- Something that happened during a step. -/
inductive Record where
  | call (symbol : String) (args : List Word)
  | event (e : Callback.Event) (answers : Option (List Answer))
  | raw (name : Callback.Name) (handles : List Address)
  | script (symbol : String) (answers : List Answer)

/-- The outcome of a step, and what happened during it. -/
inductive Answer where
  | returned (result : Result) (log : List Record)
  | panicked (text : String) (log : List Record)
  | fired (f : Fired) (log : List Record)
  | scripted (symbol : String)

end

/-- The state of a session. `failure` is the error with which loading was settled; the log is that
of the current step, newest first. -/
structure State (S : Type) where
  objects : Objects := {}
  scripts : List (Script S) := []
  functions : List ((Address × String) × List Target) := []
  registry : Registry (Handler S) := {}
  failure : Option Error := none
  log : List Record := []

variable {S : Type}

/-- Actions of a session. -/
abbrev Act (S : Type) := StateM (State S)

/-- Something is recorded. -/
def record (r : Record) : Act S Unit := modify fun s => { s with log := r :: s.log }

/-- One atomic step of a job at the registry. -/
def advance (t : Job (Handler S) Incoming) : Act S (Job (Handler S) Incoming) :=
  modifyGet fun s =>
    let (r, t) := Job.step s.registry t
    (t, { s with registry := r })

/-- The first script for a symbol, taken out of a list. -/
def takeScript (symbol : String) : List (Script S) → Option (Script S × List (Script S))
  | [] => none
  | s :: rest =>
    if s.symbol = symbol then some (s, rest)
    else (takeScript symbol rest).map fun r => (r.1, s :: r.2)

/-- The first script for a symbol, which is used up. -/
def popScript (symbol : String) : Act S (Option (Script S)) :=
  modifyGet fun s =>
    match takeScript symbol s.scripts with
    | some (script, rest) => (some script, { s with scripts := rest })
    | none => (none, s)

/-- The functions kept for a new object, if functions were passed and it is not null. -/
def keepFunctions (symbol : String) (args : List Word) (object : Address) : Act S Unit :=
  modify fun s =>
    if object ≠ 0 && !(targetsIn args).isEmpty then
      { s with functions := put (object, symbol) (targetsIn args) s.functions }
    else s

/-- What a native call does and answers, after its script's steps. -/
def answerCall (symbol : String) (args : List Word) (scripted : Option Word) : Act S Word := do
  if isMaker symbol then
    let object ← match scripted with
      | some w => pure w.address
      | none => modifyGet fun s =>
        let (objects, object) := s.objects.make
        (object, { s with objects := objects })
    keepFunctions symbol args object
    return .handle object
  else
    let usual ← modifyGet fun s =>
      let (objects, w) := s.objects.respond symbol args
      (w, { s with objects := objects })
    return scripted.getD usual

/-- How the steps inside something are performed: with a context, each with its answer. -/
abbrev Inner (S : Type) := Context → S → Act S Answer

/-- A native call: it is recorded, its script's steps happen, and then it answers. -/
def nativeCall (inner : Inner S) (symbol : String) (args : List Word) : Act S Word := do
  record (.call symbol args)
  match ← popScript symbol with
  | none => answerCall symbol args none
  | some script =>
    if !script.steps.isEmpty then
      let answers ← script.steps.mapM (inner (.call symbol args))
      record (.script symbol answers)
    answerCall symbol args script.answer

/-- The destruction of an object: its entry is marked, the library destroys it, and the entry is
retired. -/
def destroyObject (inner : Inner S) (key : Key) (symbol : String) (args : List Word) :
    Act S Word := do
  let t ← advance (.destroy key)
  let t ← match t with
    | .marking _ _ => advance t
    | _ => pure t
  let w ← nativeCall inner symbol args
  let t ← advance t
  let _ ← advance t
  return w

/-- A handler is called with an event: the steps for it happen, and then it is recorded. -/
def callHandler (inner : Inner S) (h : Handler S) (e : Callback.Event) : Act S Unit := do
  match h.on.find? fun o => o.1 = e.name with
  | none => record (.event e none)
  | some (_, steps) =>
    let answers ← steps.mapM (inner (.event e))
    record (.event e (some answers))

/-- A callback is delivered to the handler that is alive for its object: the handler that was
called, if there was one. -/
def deliver (inner : Inner S) (c : Incoming) : Act S (Option (Handler S)) := do
  let t ← advance (.deliver c.delivery)
  let t ← advance t
  match t with
  | .calling d id =>
    match (← get).registry.handler? id with
    | none => return none
    | some h =>
      let t ← advance t
      callHandler inner h d.message.event
      let t ← advance t
      let _ ← advance t
      return some h
  | _ => return none

/-- What a callback of a length answers when no handler is there. -/
def unknownLength : Int := 0

/-- What functions of the caller answer for a length. -/
def rawLength : Int := -1

/-- A callback reaches a function of the caller. -/
def fireRaw (c : Issued) : Act S Fired := do
  record (.raw c.name c.handles)
  return if c.name = .length then .length rawLength else .nothing

/-- A callback reaches a function of the client. -/
def fireHandler (inner : Inner S) (c : Incoming) : Act S Fired := do
  let h ← deliver inner c
  if c.name = .length then
    return .length ((h.map Handler.length).getD unknownLength)
  else return .nothing

/-- The library makes a callback through the functions that it was given for an object: it calls the
one at the place of the callback. -/
def fire (inner : Inner S) (c : Issued) (via : Address) : Act S Fired := do
  match find? (via, c.name.owner.createSymbol) (← get).functions with
  | none => return .noCallbacks
  | some targets =>
    match targets[c.name.place]?.getD .null with
    | .null => return .nullSlot
    | .caller => fireRaw c
    | .own t => fireHandler inner ⟨t, c.args⟩

/-- How the requests of an operation's program are granted. -/
def grant (inner : Inner S) (h : Handler S) :
    Program.Grant (ExceptT String (Act S)) where
  demand := do
    match (← get).failure with
    | some e => throw e.message
    | none => return ()
  call symbol args := nativeCall inner symbol args
  register key := do
    let _ ← advance (.inserting key h)
  destroy key symbol args := destroyObject inner key symbol args

/-- An action with a log of its own: its result, and what was recorded in it. -/
def recorded {α : Type} (a : Act S α) : Act S (α × List Record) := do
  let outer := (← get).log
  modify fun s => { s with log := [] }
  let r ← a
  let log := (← get).log
  modify fun s => { s with log := outer }
  return (r, log.reverse)

/-- One step. -/
def perform (inner : Inner S) : Command S → Act S Answer
  | .call operation h => do
    let program := operation.program.interpret (grant inner h)
    match ← recorded program.run with
    | (.ok result, log) => return .returned result log
    | (.error text, log) => return .panicked text log
  | .fire c via => do
    let (f, log) ← recorded (fire inner c via)
    return .fired f log
  | .script s => do
    modify fun state => { state with scripts := state.scripts ++ [s] }
    return .scripted s.symbol

/-- One step with the steps inside it, at most `depth` inside one another. -/
def performIn (resolve : Context → S → Command S) : Nat → Inner S
  | 0, _, _ => return .panicked "steps are nested too deeply" []
  | depth + 1, context, s => perform (performIn resolve depth) (resolve context s)

/-- How deep steps may be nested. -/
def maxNesting : Nat := 4096

/-- A session: the answers of its steps. The library lacks some symbols. -/
def run (resolve : Context → S → Command S) (lacks : List String) (steps : List S) :
    List Answer :=
  let failure := match (Library.resolve .active ⟨[]⟩ (Symbol.sourceOf lacks [])).outcome with
    | .ok _ => none
    | .error e => some e
  (steps.mapM (performIn resolve maxNesting .top) |>.run { failure := failure }).1

end LateBinding.Simulation
