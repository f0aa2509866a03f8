import LateBinding.Callback.Registry

/-!
**What an operation asks for.**

An operation of the client is a program: a tree of requests. It demands that the library is loaded,
calls native functions, registers a handler for a new object, and destroys an object that may have a
handler. Whoever runs the program grants the requests; nothing else can happen in it.

Main definitions:

* `LateBinding.Client.Program`, with its `Monad` instance;
* `LateBinding.Client.Program.interpret` — running a program where requests are actions of a monad;
* `LateBinding.Client.Program.runOn` — running a program on a library that is a state machine.
-/

set_option autoImplicit false

namespace LateBinding.Client

open Native (Address Word Value)
open Callback (Key)

/-- A program that ends with an answer. -/
inductive Program (α : Type) where
  | done (answer : α)
  | demand (next : Program α)
  | call (symbol : String) (args : List Word) (next : Word → Program α)
  | register (key : Key) (next : Program α)
  | destroy (key : Key) (symbol : String) (args : List Word) (next : Word → Program α)

namespace Program

/-- A program, and another one that goes on with its answer. -/
def bind {α β : Type} : Program α → (α → Program β) → Program β
  | .done a, f => f a
  | .demand next, f => .demand (next.bind f)
  | .call symbol args next, f => .call symbol args fun w => (next w).bind f
  | .register key next, f => .register key (next.bind f)
  | .destroy key symbol args next, f => .destroy key symbol args fun w => (next w).bind f

instance : Monad Program where
  pure := .done
  bind := Program.bind

/-- A native call that first demands the library. -/
def native (symbol : String) (args : List Word) : Program Word :=
  .demand (.call symbol args .done)

/-- How requests are granted in a monad. -/
structure Grant (m : Type → Type) where
  demand : m Unit
  call : String → List Word → m Word
  register : Key → m Unit
  destroy : Key → String → List Word → m Word

/-- Runs a program where requests are actions of a monad. -/
def interpret {m : Type → Type} [Monad m] {α : Type} (g : Grant m) : Program α → m α
  | .done a => pure a
  | .demand next => do
    g.demand
    interpret g next
  | .call symbol args next => do
    let w ← g.call symbol args
    interpret g (next w)
  | .register key next => do
    g.register key
    interpret g next
  | .destroy key symbol args next => do
    let w ← g.destroy key symbol args
    interpret g (next w)

/-- A library without callbacks: how a call changes its state, and what it answers. -/
abbrev Machine (σ : Type) := String → List Word → σ → σ × Word

/-- Runs a program on a library that is loaded: its answer, the calls made, and the state. -/
def runOn {σ α : Type} (lib : Machine σ) : Program α → σ → α × List (String × List Word) × σ
  | .done a, s => (a, [], s)
  | .demand next, s => runOn lib next s
  | .call symbol args next, s =>
    let (s', w) := lib symbol args s
    let (a, calls, t) := runOn lib (next w) s'
    (a, (symbol, args) :: calls, t)
  | .register _ next, s => runOn lib next s
  | .destroy _ symbol args next, s =>
    let (s', w) := lib symbol args s
    let (a, calls, t) := runOn lib (next w) s'
    (a, (symbol, args) :: calls, t)

end Program

end LateBinding.Client
