import LateBinding.Proofs.Client.FailFast

/-!
**An operation that nothing disturbs.**

In a session a native call may have a script, and what happens in it may change anything. Where no
script waits for the functions that an operation calls, and it neither makes nor destroys an object,
the library of the session is a state machine, and the operation does on it what its program does.

Main definitions:

* `LateBinding.Client.Program.Calls` — a program asks for nothing but the library and calls of some
  functions;
* `LateBinding.Simulation.Objects.machine` — the simulated library as a state machine;
* `LateBinding.Simulation.State.IsCalm` — no script waits for a function, and it makes no object.

Main results:

* `LateBinding.Simulation.Objects.machine_of_access` — what a function does that works on a field;
* `LateBinding.Simulation.interpret_of_calls` — a program in a session and on the machine;
* `LateBinding.Simulation.perform_of_calls` — **so does the operation that it is the program of**.
-/

set_option autoImplicit false

namespace LateBinding.Client.Program

open Native (Word)

variable {α β : Type} {ok : String → Prop}

/-- A program asks for nothing but the library and calls of some functions. -/
def Calls (ok : String → Prop) : Program α → Prop
  | .done _ => True
  | .demand next => next.Calls ok
  | .call symbol _ next => ok symbol ∧ ∀ w, (next w).Calls ok
  | .register _ _ => False
  | .destroy _ _ _ _ => False

theorem Calls.bind {p : Program α} {f : α → Program β} (hp : p.Calls ok)
    (hf : ∀ a, (f a).Calls ok) : (p >>= f).Calls ok := by
  change (p.bind f).Calls ok
  induction p with
  | done a => exact hf a
  | demand next ih => exact ih hp
  | call symbol args next ih => exact ⟨hp.1, fun w => ih w (hp.2 w)⟩
  | register key next => exact hp.elim
  | destroy key symbol args next => exact hp.elim

theorem calls_native {symbol : String} (args : List Word) (h : ok symbol) :
    (native symbol args).Calls ok :=
  ⟨h, fun _ => trivial⟩

end LateBinding.Client.Program

namespace LateBinding.Simulation

open Native (Word)
open Client (Operation Program)

variable {S α : Type} {st : State S}

/-- The simulated library as a state machine. -/
def Objects.machine : Program.Machine Objects := fun symbol args o => o.respond symbol args

/-- A function that works on a field does nothing else: it is none of those that work on buffers. -/
theorem Objects.machine_of_access {symbol : String} {access : Access}
    (h : access? symbol = some access) (args : List Word) (o : Objects) :
    Objects.machine symbol args o = o.touch symbol args access := by
  have hbuffers : ∀ b ∈ ["Cronet_Buffer_InitWithAlloc", "Cronet_Buffer_InitWithDataAndCallback",
      "Cronet_Buffer_GetSize", "Cronet_Buffer_GetData"], access? b = none := by
    decide +kernel
  have hne : ∀ b, access? b = none → symbol ≠ b := by
    rintro b hb rfl
    rw [hb] at h
    cases h
  simp only [List.forall_mem_cons] at hbuffers
  obtain ⟨halloc, hdata, hsize, hread, -⟩ := hbuffers
  rw [Objects.machine, Objects.respond, if_neg (hne _ halloc), if_neg (hne _ hdata),
    if_neg (hne _ hsize), if_neg (hne _ hread), h]

/-- No script waits for a function, and it makes no object. -/
def State.IsCalm (st : State S) (symbol : String) : Prop :=
  isMaker symbol = false ∧ takeScript symbol st.scripts = none

/-- The records of some calls, in order. -/
def recordsOf (calls : List (String × List Word)) : List Record :=
  calls.map fun c => .call c.1 c.2

/-- Where no script waits for a function, none is used up. -/
theorem popScript_of_none {symbol : String} (h : takeScript symbol st.scripts = none) :
    popScript symbol st = (none, st) := by
  simp only [popScript, modifyGet, MonadStateOf.modifyGet, StateT.modifyGet, h]
  rfl

/-- A call that nothing disturbs is recorded and answered. -/
theorem nativeCall_of_calm {symbol : String} (hcalm : st.IsCalm symbol) (inner : Inner S)
    (args : List Word) :
    nativeCall inner symbol args st =
      ((st.objects.respond symbol args).2,
        { st with
          objects := (st.objects.respond symbol args).1
          log := .call symbol args :: st.log }) := by
  obtain ⟨hmaker, hscript⟩ := hcalm
  have hscript' : takeScript symbol (record (.call symbol args) st).2.scripts = none := hscript
  rw [nativeCall, bind_apply, bind_apply, popScript_of_none hscript']
  simp only [answerCall, hmaker]
  rfl

/-- **A program that only makes calls that nothing disturbs** does in a session what it does on the
machine. -/
theorem interpret_of_calls (hst : st.failure = none) {p : Program α} (hp : p.Calls st.IsCalm)
    (inner : Inner S) (h : Handler S) :
    (p.interpret (grant inner h)).run st =
      (.ok (p.runOn Objects.machine st.objects).1,
        { st with
          objects := (p.runOn Objects.machine st.objects).2.2
          log := (recordsOf (p.runOn Objects.machine st.objects).2.1).reverse ++ st.log }) := by
  induction p generalizing st with
  | done a => rfl
  | demand next ih =>
      rw [Program.interpret, ExceptT.run_bind, bind_apply, demand_of_loaded hst]
      exact ih hst hp
  | call symbol args next ih =>
      have hcall : ((grant inner h).call symbol args).run st =
          (.ok (st.objects.respond symbol args).2, { st with
            objects := (st.objects.respond symbol args).1
            log := .call symbol args :: st.log }) := by
        change (Except.ok (nativeCall inner symbol args st).1,
          (nativeCall inner symbol args st).2) = _
        rw [nativeCall_of_calm hp.1]
      rw [Program.interpret, ExceptT.run_bind, bind_apply]
      rw [show ((grant inner h).call symbol args).run st = _ from hcall]
      have hrest := @ih (st.objects.respond symbol args).2
        { st with
          objects := (st.objects.respond symbol args).1
          log := .call symbol args :: st.log } hst (hp.2 _)
      refine hrest.trans ?_
      simp [Program.runOn, Objects.machine, recordsOf]
  | register key next => exact hp.elim
  | destroy key symbol args next => exact hp.elim

/-- **So does the operation that it is the program of.** -/
theorem perform_of_calls (hst : st.failure = none) {op : Operation}
    (hop : op.program.Calls st.IsCalm) (inner : Inner S) (h : Handler S) :
    perform inner (.call op h) st =
      (.returned (op.program.runOn Objects.machine st.objects).1
          (recordsOf (op.program.runOn Objects.machine st.objects).2.1),
        { st with objects := (op.program.runOn Objects.machine st.objects).2.2 }) := by
  have hrun := @interpret_of_calls S Client.Result { st with log := [] } hst _ hop inner h
  rw [perform_call, hrun]
  simp

end LateBinding.Simulation
