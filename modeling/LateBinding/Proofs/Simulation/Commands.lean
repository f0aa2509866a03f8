import LateBinding.Proofs.Callback.Lookup
import LateBinding.Proofs.Client.FailFast
import LateBinding.Proofs.Simulation.Wiring

/-!
**What begins with a step of a session.**

The handler of an object is registered when the operation that makes the object has got it from the
library, and not if the library gives none. The operation that destroys an object begins with a
destruction at the registry; and where the functions kept for an object are those for a handler, a
callback of the library begins with a delivery, by the function that serves it. Steps may happen
inside each of these, as inside any step.

Main definitions:

* `LateBinding.Simulation.live?` — the handler that is alive for an object;
* `LateBinding.Simulation.making` — the call that makes an object with a handler;
* `LateBinding.Simulation.Creates` — **what the creation of an object with a handler comes to**;
* `LateBinding.Simulation.Opens` — a step begins with a job at the registry.

Main results:

* `LateBinding.Simulation.creates_create` — the creation of an object;
* `LateBinding.Simulation.opens_destroy` — its destruction;
* `LateBinding.Simulation.opens_fire`, `LateBinding.Simulation.perform_fire_of_not_own` — a
  callback.
-/

set_option autoImplicit false

namespace LateBinding.Simulation

open Callback
  (Incoming Job History Stage Key ObjectKind Registry Target calls handlerFunctions passed)
open Client (Operation Program nullHandle)
open Native (Address Value Word targetsIn)

variable {S α : Type} {inner : Inner S} {st : State S} {x : Handler S} {kind : ObjectKind}

/-! ### Handlers that are alive -/

/-- The handler that is alive for an object. -/
def live? (r : Registry (Handler S)) (key : Key) : Option (Handler S) :=
  (r.find? key).bind fun id => if r.isMarked id then none else r.handler? id

/-- A handler is alive when it has been registered. -/
theorem live?_insert (r : Registry (Handler S)) (key : Key) (x : Handler S) :
    live? (r.insert key x) key = some x := by
  have hfind : (r.insert key x).find? key = some r.entries.length := by simp
  have hmark : (r.insert key x).isMarked r.entries.length = false := by
    simp [Registry.isMarked, Registry.insert]
  rw [live?, hfind, Option.bind_some, hmark, if_neg Bool.false_ne_true]
  simp [Registry.handler?, Registry.insert]

/-! ### Creation -/

/-- The call that makes an object with a handler. -/
def making (inner : Inner S) (kind : ObjectKind) (args : List Value) : Act S Word :=
  nativeCall inner kind.createSymbol (args.map Value.toWord ++ Client.functions kind .handler)

/-- **What the creation of an object with a handler comes to**, where `made` is what the call that
makes the object answers and leaves behind. The handle is answered. If it is null, nothing has
happened but that call. Otherwise the last thing that happens is that the handler is registered for
the object; it is alive, and for the object the library keeps the functions that are given for its
callbacks. -/
structure Creates (kind : ObjectKind) (x : Handler S) (st : State S) (made : Word × State S)
    (after : Answer × State S) : Prop where
  answer : after.1 = .returned (.value (.handle made.1.address)) made.2.log.reverse
  null : made.1.address = nullHandle → after.2.registry = made.2.registry
  registered : made.1.address ≠ nullHandle →
    after.2.registry = made.2.registry.insert ⟨kind, made.1.address⟩ x ∧
      live? after.2.registry ⟨kind, made.1.address⟩ = some x
  kept : made.1.address ≠ nullHandle →
    find? (made.1.address, kind.createSymbol) after.2.functions =
      some ((passed kind).map handlerFunctions)
  enacted : ∀ (h : History (Handler S) Incoming) (jobs : List (Job (Handler S) Incoming)),
    Stage h st.registry jobs → ∃ later n,
      Stage (later ++ h) made.2.registry (jobs ++ List.replicate n .over) ∧
      calls later = after.1.events ∧
      (made.1.address ≠ nullHandle →
        Stage ([.inserted ⟨kind, made.1.address⟩ made.2.registry.entries.length,
            .begun (.inserting ⟨kind, made.1.address⟩ x)].map (Prod.mk (jobs.length + n)) ++
              (later ++ h))
          after.2.registry (jobs ++ List.replicate (n + 1) .over))

theorem isMaker_createSymbol (kind : ObjectKind) : isMaker kind.createSymbol = true := by
  cases kind <;> decide +kernel

/-- A native call ends with its answer. -/
theorem exists_answerCall (inner : Inner S) (symbol : String) (args : List Word) (st : State S) :
    ∃ (scripted : Option Word) (st' : State S),
      nativeCall inner symbol args st = answerCall symbol args scripted st' := by
  rw [nativeCall, bind_apply, bind_apply]
  cases (popScript symbol (record (.call symbol args) st).2).1 with
  | none => exact ⟨none, _, rfl⟩
  | some script =>
      by_cases hempty : (!script.steps.isEmpty) = true
      · simp only [if_pos hempty]
        exact ⟨script.answer, _, rfl⟩
      · simp only [if_neg hempty]
        exact ⟨script.answer, _, rfl⟩

/-- The functions that are passed for an object are kept, unless the object is null. -/
theorem find?_keepFunctions {symbol : String} {args : List Word} {object : Address}
    (hobject : object ≠ nullHandle) (hargs : targetsIn args ≠ []) (st : State S) :
    find? (object, symbol) (keepFunctions symbol args object st).2.functions =
      some (targetsIn args) := by
  have hzero : object ≠ 0 := hobject
  have hkeep : (object ≠ 0 && !(targetsIn args).isEmpty) = true := by simp [hzero, hargs]
  change find? (object, symbol) (ite _ _ _ : State S).functions = _
  rw [if_pos hkeep]
  exact find?_put _ _ _

/-- What the library keeps of the functions that are passed to a function that makes an object. -/
theorem kept_of_answerCall {symbol : String} {args : List Word} (hm : isMaker symbol = true)
    (hargs : targetsIn args ≠ []) (scripted : Option Word) (st : State S)
    (hne : (answerCall symbol args scripted st).1.address ≠ nullHandle) :
    find? ((answerCall symbol args scripted st).1.address, symbol)
      (answerCall symbol args scripted st).2.functions = some (targetsIn args) := by
  obtain ⟨object, st', heq⟩ : ∃ (object : Address) (st' : State S),
      answerCall symbol args scripted st =
        (.handle object, (keepFunctions symbol args object st').2) := by
    rw [answerCall, if_pos hm]
    cases scripted <;> exact ⟨_, _, rfl⟩
  rw [heq] at hne ⊢
  exact find?_keepFunctions hne hargs st'

/-- For an object with a handler it keeps the functions that are given for its callbacks. -/
theorem kept_of_making {args : List Value}
    (hne : (making inner kind args st).1.address ≠ nullHandle) :
    find? ((making inner kind args st).1.address, kind.createSymbol)
      (making inner kind args st).2.functions = some ((passed kind).map handlerFunctions) := by
  have htargets : targetsIn (args.map Value.toWord ++ Client.functions kind .handler) =
      (passed kind).map handlerFunctions := Client.targetsIn_creation kind .handler args
  have hsome : (passed kind).map handlerFunctions ≠ [] := by
    cases kind <;> exact List.cons_ne_nil _ _
  obtain ⟨scripted, st', heq⟩ := exists_answerCall inner kind.createSymbol
    (args.map Value.toWord ++ Client.functions kind .handler) st
  rw [making, heq] at hne ⊢
  rw [kept_of_answerCall (isMaker_createSymbol kind) (by rwa [htargets]) scripted st' hne, htargets]

/-- The program of a creation: the call, and then the handler unless the handle is null. -/
theorem interpret_create (hst : st.failure = none) (inner : Inner S) (kind : ObjectKind)
    (args : List Value) (x : Handler S) :
    ((Operation.create kind .handler args).program.interpret (grant inner x)).run st =
      let made := making inner kind args st
      (.ok (.value (.handle made.1.address)),
        if made.1.address = nullHandle then made.2
        else { made.2 with registry := made.2.registry.insert ⟨kind, made.1.address⟩ x }) := by
  have hprogram : (Operation.create kind .handler args).program =
      .demand (.call kind.createSymbol
        (args.map Value.toWord ++ Client.functions kind .handler) fun w =>
          if w.address = nullHandle then .done (.value (.handle w.address))
          else .register ⟨kind, w.address⟩ (.done (.value (.handle w.address)))) := rfl
  rw [hprogram, Program.interpret, ExceptT.run_bind, bind_apply, demand_of_loaded hst]
  change (Program.interpret (grant inner x) (if (making inner kind args st).1.address = nullHandle
    then _ else _)).run (making inner kind args st).2 = _
  by_cases hnull : (making inner kind args st).1.address = nullHandle
  · simp only [if_pos hnull]
    rfl
  · simp only [if_neg hnull]
    rfl

/-- **The creation of an object.** -/
theorem creates_create (hinner : ∀ c x, Tells (inner c x) Answer.events) (hst : st.failure = none)
    (kind : ObjectKind) (args : List Value) (x : Handler S) :
    Creates kind x st (making inner kind args { st with log := [] })
      (perform inner (.call (.create kind .handler args) x) st) := by
  have hmaking : Enacts (making inner kind args) := nativeCall_enacts hinner _ _
  have hkept := @kept_of_making S inner { st with log := [] } kind args
  rw [perform_call, @interpret_create S { st with log := [] } hst inner kind args x]
  -- what came of the call is all that matters from here on
  have hcall : ∀ (h : History (Handler S) Incoming) (jobs : List (Job (Handler S) Incoming)),
      Stage h st.registry jobs → ∃ later n,
        Stage (later ++ h) (making inner kind args { st with log := [] }).2.registry
          (jobs ++ List.replicate n .over) ∧
        calls later =
          Record.listEvents (making inner kind args { st with log := [] }).2.log.reverse := by
    intro h jobs hs
    obtain ⟨later, n, log, hs', hlog, hcalls⟩ := hmaking { st with log := [] } h jobs hs
    rw [List.append_nil] at hlog
    exact ⟨later, n, hs', by rw [hcalls, hlog]⟩
  generalize making inner kind args { st with log := [] } = made at hkept hcall ⊢
  by_cases hnull : made.1.address = nullHandle
  · simp only [if_pos hnull]
    refine ⟨rfl, fun _ => rfl, fun hne => absurd hnull hne, fun hne => absurd hnull hne,
      fun h jobs hs => ?_⟩
    obtain ⟨later, n, hs', hcalls⟩ := hcall h jobs hs
    exact ⟨later, n, hs', hcalls, fun hne => absurd hnull hne⟩
  · simp only [if_neg hnull]
    refine ⟨rfl, fun h => absurd h hnull, fun _ => ⟨rfl, live?_insert _ _ x⟩, hkept,
      fun h jobs hs => ?_⟩
    obtain ⟨later, n, hs', hcalls⟩ := hcall h jobs hs
    refine ⟨later, n, hs', hcalls, fun _ => ?_⟩
    have hinserted := hs'.make ⟨kind, made.1.address⟩ x
    rw [List.length_append, List.length_replicate, List.append_assoc,
      ← List.replicate_succ'] at hinserted
    exact hinserted

/-! ### Destruction -/

/-- From a state, a step goes on with any run on one thread that led there. What happens first is
that a job begins; all jobs that begin come to their end, and the answer tells of the calls. -/
def Opens (st : State S) (j : Job (Handler S) Incoming) (step : Act S Answer) : Prop :=
  ∀ (h : History (Handler S) Incoming) (jobs : List (Job (Handler S) Incoming)),
    Stage h st.registry jobs → ∃ later n,
      Stage (later ++ (jobs.length, .begun j) :: h) (step st).2.registry
        (jobs ++ List.replicate n .over) ∧
      calls later = (step st).1.events

/-- A step opens with what an action in it begins with, if it adds nothing to it but its answer. -/
theorem Begins.opens {j : Job (Handler S) Incoming} {a : Act S α} (ha : Begins j a)
    {step : Act S Answer} (hregistry : (step st).2.registry = (a { st with log := [] }).2.registry)
    (hevents : (step st).1.events = Record.listEvents (a { st with log := [] }).2.log.reverse) :
    Opens st j step := by
  intro h jobs hs
  obtain ⟨later, n, log, hs', hlog, hcalls⟩ := ha { st with log := [] } h jobs hs
  rw [List.append_nil] at hlog
  exact ⟨later, n, by rwa [hregistry], by rw [hcalls, hevents, hlog]⟩

/-- **The destruction of an object.** -/
theorem opens_destroy (hinner : ∀ c x, Tells (inner c x) Answer.events) (hst : st.failure = none)
    (kind : ObjectKind) (object : Address) (x : Handler S) :
    Opens st (.seeking ⟨kind, object⟩) (perform inner (.call (.destroy kind object) x)) := by
  have hprogram : (Operation.destroy kind object).program =
      .demand (.destroy ⟨kind, object⟩ kind.destroySymbol [.handle object] fun w =>
        .done (Client.destroyed kind w)) := rfl
  have hrun : ((Operation.destroy kind object).program.interpret (grant inner x)).run
      { st with log := [] } =
        let p := destroyObject inner ⟨kind, object⟩ kind.destroySymbol [.handle object]
          { st with log := [] }
        (.ok (Client.destroyed kind p.1), p.2) := by
    rw [hprogram, Program.interpret, ExceptT.run_bind, bind_apply,
      demand_of_loaded (show { st with log := [] }.failure = none from hst)]
    rfl
  have hbegins := destroyObject_begins hinner ⟨kind, object⟩ kind.destroySymbol [.handle object]
  refine hbegins.opens ?_ ?_
  · rw [perform_call, hrun]
  · rw [perform_call, hrun]
    rfl

/-! ### Callbacks -/

theorem perform_fire (inner : Inner S) (c : Issued) (via : Address) (st : State S) :
    perform inner (.fire c via) st =
      let r := fire inner c via { st with log := [] }
      (.fired r.1 r.2.log.reverse, { r.2 with log := st.log }) := rfl

/-- The function at the place of a callback is called. -/
theorem fire_of_own {c : Issued} {via : Address} {targets : List Target} {t : Callback.Trampoline}
    (hkept : find? (via, c.name.owner.createSymbol) st.functions = some targets)
    (htarget : targets[c.name.place]? = some (.own t)) :
    fire inner c via st = fireHandler inner ⟨t, c.args⟩ st := by
  rw [fire, bind_apply, show (get : Act S (State S)) st = (st, st) from rfl]
  simp only [hkept, htarget, Option.getD_some]

/-- **A callback**, where the function at its place is one of the client's. -/
theorem opens_fire (hinner : ∀ c x, Tells (inner c x) Answer.events) {c : Issued} {via : Address}
    {targets : List Target} {t : Callback.Trampoline}
    (hkept : find? (via, c.name.owner.createSymbol) st.functions = some targets)
    (htarget : targets[c.name.place]? = some (.own t)) :
    Opens st (.finding (⟨t, c.args⟩ : Incoming).delivery) (perform inner (.fire c via)) := by
  have hfire : fire inner c via { st with log := [] } =
      fireHandler inner ⟨t, c.args⟩ { st with log := [] } := fire_of_own hkept htarget
  refine (fireHandler_begins hinner ⟨t, c.args⟩).opens ?_ ?_
  · rw [perform_fire, hfire]
  · rw [perform_fire, hfire]
    rfl

/-- Where it is none of the client's, no handler is concerned. -/
theorem perform_fire_of_not_own {c : Issued} {via : Address}
    (h : ∀ targets, find? (via, c.name.owner.createSymbol) st.functions = some targets →
      ∀ t, targets[c.name.place]? ≠ some (.own t)) :
    (perform inner (.fire c via) st).2.registry = st.registry ∧
      (perform inner (.fire c via) st).1.events = [] := by
  rw [perform_fire, fire, bind_apply, show (get : Act S (State S)) { st with log := [] } =
    ({ st with log := [] }, { st with log := [] }) from rfl]
  cases hkept : find? (via, c.name.owner.createSymbol) st.functions with
  | none =>
      exact ⟨rfl, rfl⟩
  | some targets =>
      cases htarget : targets[c.name.place]? with
      | none =>
          simp only [htarget, Option.getD_none]
          exact ⟨rfl, rfl⟩
      | some target =>
          cases target with
          | own t => exact absurd htarget (h targets hkept t)
          | caller =>
              simp only [htarget, Option.getD_some]
              exact ⟨rfl, rfl⟩
          | null =>
              simp only [htarget, Option.getD_some]
              exact ⟨rfl, rfl⟩

end LateBinding.Simulation
