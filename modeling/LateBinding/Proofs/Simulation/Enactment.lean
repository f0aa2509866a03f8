import LateBinding.Proofs.Callback.Stage
import LateBinding.Proofs.Client.Registrations
import LateBinding.Simulation.Session

/-!
**Sessions are runs on one thread.**

Whatever a session does, and however deeply its steps are nested, what happens at its registry is a
run on one thread in which every job comes to its end; and the events that its answers tell of are
the calls of that run, in order.

Main definitions:

* `LateBinding.Simulation.Answer.events` — the events that an answer tells of, as handlers were
  called;
* `LateBinding.Simulation.Enacts`, `LateBinding.Simulation.Begins`, `LateBinding.Simulation.Tells` —
  an action goes on with any run on one thread, and its log, or its result, tells of the calls.

Main results:

* `LateBinding.Simulation.deliver_begins`, `LateBinding.Simulation.destroyObject_begins` — the two
  actions in which other steps may happen;
* `LateBinding.Simulation.performIn_tells` — every step is enacted, at any depth;
* `LateBinding.Simulation.run_enacted` — **so is a whole session**.
-/

set_option autoImplicit false

namespace LateBinding.Simulation

open Native (Address Word Value)
open Callback (Incoming Key Registry Job History Stage Event calls calls_append)
open Client (Operation Program)

/-! ### The events that are told of -/

mutual

/-- The events in something that happened, in the order in which handlers were called. -/
def Record.events : Record → List Event
  | .call _ _ => []
  | .event e answers => e :: Answer.optionEvents answers
  | .raw _ _ => []
  | .script _ answers => Answer.listEvents answers

/-- The events that an answer tells of. -/
def Answer.events : Answer → List Event
  | .returned _ log => Record.listEvents log
  | .panicked _ log => Record.listEvents log
  | .fired _ log => Record.listEvents log
  | .scripted _ => []

/-- The events of a log, oldest first. -/
def Record.listEvents : List Record → List Event
  | [] => []
  | r :: log => r.events ++ Record.listEvents log

/-- The events of some answers, in order. -/
def Answer.listEvents : List Answer → List Event
  | [] => []
  | a :: answers => a.events ++ Answer.listEvents answers

/-- The events of the answers, if there are any. -/
def Answer.optionEvents : Option (List Answer) → List Event
  | none => []
  | some answers => Answer.listEvents answers

end

theorem Record.listEvents_append (log log' : List Record) :
    Record.listEvents (log ++ log') = Record.listEvents log ++ Record.listEvents log' := by
  induction log with
  | nil => rfl
  | cons r log ih =>
      rw [List.cons_append, Record.listEvents, ih, Record.listEvents, List.append_assoc]

variable {S α β : Type}

/-! ### Actions that go on with a run -/

/-- Whatever run on one thread led to the state, an action goes on with it: all jobs that it begins
come to their end, the others stay where they are, and what it adds to the log tells of the
calls. -/
def Enacts (a : Act S α) : Prop :=
  ∀ (st : State S) (h : History (Handler S) Incoming) (jobs : List (Job (Handler S) Incoming)),
    Stage h st.registry jobs → ∃ later n log,
      Stage (later ++ h) (a st).2.registry (jobs ++ List.replicate n .over) ∧
      (a st).2.log = log ++ st.log ∧ calls later = Record.listEvents log.reverse

/-- Likewise, and what happens first is that a job begins. -/
def Begins (j : Job (Handler S) Incoming) (a : Act S α) : Prop :=
  ∀ (st : State S) (h : History (Handler S) Incoming) (jobs : List (Job (Handler S) Incoming)),
    Stage h st.registry jobs → ∃ later n log,
      Stage (later ++ (jobs.length, .begun j) :: h) (a st).2.registry
        (jobs ++ List.replicate n .over) ∧
      (a st).2.log = log ++ st.log ∧ calls later = Record.listEvents log.reverse

/-- Likewise, but the log stays, and the result tells of the calls. -/
def Tells (a : Act S α) (told : α → List Event) : Prop :=
  ∀ (st : State S) (h : History (Handler S) Incoming) (jobs : List (Job (Handler S) Incoming)),
    Stage h st.registry jobs → ∃ later n,
      Stage (later ++ h) (a st).2.registry (jobs ++ List.replicate n .over) ∧
      (a st).2.log = st.log ∧ calls later = told (a st).1

/-- An action that leaves the registry and the log alone. -/
def IsSilent (a : Act S α) : Prop :=
  ∀ st : State S, (a st).2.registry = st.registry ∧ (a st).2.log = st.log

theorem IsSilent.tells {a : Act S α} (ha : IsSilent a) : Tells a fun _ => [] := by
  intro st h jobs hs
  obtain ⟨hr, hl⟩ := ha st
  exact ⟨[], 0, by simpa [hr] using hs, hl, rfl⟩

theorem IsSilent.enacts {a : Act S α} (ha : IsSilent a) : Enacts a := by
  intro st h jobs hs
  obtain ⟨hr, hl⟩ := ha st
  exact ⟨[], 0, [], by simpa [hr] using hs, hl, rfl⟩

theorem IsSilent.bind {a : Act S α} {f : α → Act S β} (ha : IsSilent a)
    (hf : ∀ x, IsSilent (f x)) : IsSilent (a >>= f) := by
  intro st
  obtain ⟨hr, hl⟩ := ha st
  obtain ⟨hr', hl'⟩ := hf (a st).1 (a st).2
  exact ⟨hr'.trans hr, hl'.trans hl⟩

/-- An action that begins a job goes on with the run. -/
theorem Begins.enacts {j : Job (Handler S) Incoming} {a : Act S α} (ha : Begins j a) :
    Enacts a := by
  intro st h jobs hs
  obtain ⟨later, n, log, hs', hlog, hcalls⟩ := ha st h jobs hs
  refine ⟨later ++ [(jobs.length, .begun j)], n, log, ?_, hlog, ?_⟩
  · rw [List.append_assoc]
    exact hs'
  · rw [calls_append, hcalls]
    rfl

theorem isSilent_pure (x : α) : IsSilent (pure x : Act S α) := fun _ => ⟨rfl, rfl⟩

/-- A change of the state that leaves the registry and the log alone. -/
theorem isSilent_modifyGet {f : State S → α × State S}
    (hf : ∀ st, (f st).2.registry = st.registry ∧ (f st).2.log = st.log) :
    IsSilent (modifyGet f : Act S α) := hf

theorem isSilent_modify {f : State S → State S}
    (hf : ∀ st, (f st).registry = st.registry ∧ (f st).log = st.log) :
    IsSilent (modify f : Act S Unit) := hf

/-- Jobs that came to their end one after the other. -/
theorem append_over (jobs : List (Job (Handler S) Incoming)) (n n' : Nat) :
    jobs ++ List.replicate (n + n') .over =
      jobs ++ List.replicate n .over ++ List.replicate n' .over := by
  rw [List.append_assoc, List.replicate_append_replicate]

/-- **One action after the other.** -/
theorem Enacts.bind {a : Act S α} {f : α → Act S β} (ha : Enacts a) (hf : ∀ x, Enacts (f x)) :
    Enacts (a >>= f) := by
  intro st h jobs hs
  obtain ⟨later, n, log, hs', hlog, hcalls⟩ := ha st h jobs hs
  obtain ⟨later', n', log', hs'', hlog', hcalls'⟩ := hf (a st).1 (a st).2 _ _ hs'
  refine ⟨later' ++ later, n + n', log' ++ log, ?_, ?_, ?_⟩
  · rw [List.append_assoc, append_over]
    exact hs''
  · rw [List.append_assoc, ← hlog]
    exact hlog'
  · rw [calls_append, List.reverse_append, Record.listEvents_append, hcalls, hcalls']

theorem Begins.bind {j : Job (Handler S) Incoming} {a : Act S α} {f : α → Act S β} (ha : Begins j a)
    (hf : ∀ x, Enacts (f x)) : Begins j (a >>= f) := by
  intro st h jobs hs
  obtain ⟨later, n, log, hs', hlog, hcalls⟩ := ha st h jobs hs
  obtain ⟨later', n', log', hs'', hlog', hcalls'⟩ := hf (a st).1 (a st).2 _ _ hs'
  refine ⟨later' ++ later, n + n', log' ++ log, ?_, ?_, ?_⟩
  · rw [List.append_assoc, append_over]
    exact hs''
  · rw [List.append_assoc, ← hlog]
    exact hlog'
  · rw [calls_append, List.reverse_append, Record.listEvents_append, hcalls, hcalls']

/-- What is told is told once it is recorded. -/
theorem Tells.bind_record {a : Act S α} {told : α → List Event} (ha : Tells a told)
    {r : α → Record} (hr : ∀ x, (r x).events = told x) : Enacts (a >>= fun x => record (r x)) := by
  intro st h jobs hs
  obtain ⟨later, n, hs', hlog, hcalls⟩ := ha st h jobs hs
  refine ⟨later, n, [r (a st).1], hs', ?_, ?_⟩
  · rw [← hlog]
    rfl
  · rw [hcalls, List.reverse_singleton, Record.listEvents, hr, Record.listEvents, List.append_nil]

/-- Steps one after the other tell of their calls in order. -/
theorem tells_mapM {T : Type} {f : T → Act S Answer} (hf : ∀ x, Tells (f x) Answer.events)
    (xs : List T) : Tells (xs.mapM f) Answer.listEvents := by
  induction xs with
  | nil => exact (isSilent_pure []).tells
  | cons x xs ih =>
      intro st h jobs hs
      obtain ⟨later, n, hs', hlog, hcalls⟩ := hf x st h jobs hs
      obtain ⟨later', n', hs'', hlog', hcalls'⟩ := ih (f x st).2 _ _ hs'
      rw [List.mapM_cons]
      refine ⟨later' ++ later, n + n', ?_, hlog'.trans hlog, ?_⟩
      · rw [List.append_assoc, append_over]
        exact hs''
      · rw [calls_append, hcalls, hcalls']
        rfl

/-- An action with a log of its own tells of its calls by that log. -/
theorem Enacts.recorded {a : Act S α} (ha : Enacts a) :
    Tells (recorded a) fun r => Record.listEvents r.2 := by
  intro st h jobs hs
  obtain ⟨later, n, log, hs', hlog, hcalls⟩ := ha { st with log := [] } h jobs hs
  rw [List.append_nil] at hlog
  refine ⟨later, n, hs', rfl, ?_⟩
  rw [hcalls, ← hlog]
  rfl

/-! ### Native calls -/

/-- What is recorded besides events tells of none. -/
theorem enacts_record {r : Record} (hr : r.events = []) : Enacts (record (S := S) r) := by
  intro st h jobs hs
  refine ⟨[], 0, [r], ?_, rfl, ?_⟩
  · rw [List.replicate_zero, List.append_nil]
    exact hs
  · rw [List.reverse_singleton, Record.listEvents, hr]
    rfl

theorem isSilent_popScript (symbol : String) : IsSilent (popScript (S := S) symbol) := by
  refine isSilent_modifyGet fun st => ?_
  cases takeScript symbol st.scripts <;> exact ⟨rfl, rfl⟩

theorem isSilent_keepFunctions (symbol : String) (args : List Word) (object : Address) :
    IsSilent (keepFunctions (S := S) symbol args object) := by
  refine isSilent_modify fun st => ?_
  split <;> exact ⟨rfl, rfl⟩

theorem isSilent_answerCall (symbol : String) (args : List Word) (scripted : Option Word) :
    IsSilent (answerCall (S := S) symbol args scripted) := by
  have hkeep : ∀ object : Address, IsSilent (do
      keepFunctions (S := S) symbol args object
      return Word.handle object) := fun object =>
    (isSilent_keepFunctions symbol args object).bind fun _ => isSilent_pure _
  unfold answerCall
  by_cases hm : isMaker symbol = true
  · rw [if_pos hm]
    cases scripted with
    | none => exact (isSilent_modifyGet fun st => ⟨rfl, rfl⟩).bind hkeep
    | some w => exact (isSilent_pure w.address).bind hkeep
  · rw [if_neg hm]
    exact (isSilent_modifyGet fun st => ⟨rfl, rfl⟩).bind fun _ => isSilent_pure _

/-- A native call is enacted if the steps inside it are. -/
theorem nativeCall_enacts {inner : Inner S} (hinner : ∀ c x, Tells (inner c x) Answer.events)
    (symbol : String) (args : List Word) : Enacts (nativeCall inner symbol args) := by
  unfold nativeCall
  refine (enacts_record rfl).bind fun _ => (isSilent_popScript symbol).enacts.bind fun found => ?_
  cases found with
  | none => exact (isSilent_answerCall symbol args none).enacts
  | some script =>
      have hanswer : Enacts (answerCall (S := S) symbol args script.answer) :=
        (isSilent_answerCall symbol args script.answer).enacts
      have hsteps : Enacts (do
          let answers ← script.steps.mapM (inner (.call symbol args))
          record (.script symbol answers)) :=
        (tells_mapM (hinner (.call symbol args)) script.steps).bind_record fun _ => rfl
      -- a script without steps is not recorded
      by_cases hempty : (!script.steps.isEmpty) = true
      · simp only [if_pos hempty]
        have hboth := hsteps.bind fun _ => hanswer
        rw [bind_assoc] at hboth
        exact hboth
      · simp only [if_neg hempty]
        exact hanswer

/-! ### Jobs -/

theorem bind_apply (a : Act S α) (f : α → Act S β) (st : State S) :
    (a >>= f) st = f (a st).1 (a st).2 := rfl

theorem advance_apply (j : Job (Handler S) Incoming) (st : State S) :
    advance j st = ((j.step st.registry).2, { st with registry := (j.step st.registry).1 }) := rfl

/-- An object is made. -/
theorem register_begins (key : Key) (x : Handler S) :
    Begins (.inserting key x) (do let _ ← advance (.inserting key x)) := by
  intro st h jobs hs
  exact ⟨[(jobs.length, .inserted key st.registry.entries.length)], 1, [], hs.make key x, rfl, rfl⟩

/-- The destruction of an object marks its entry, lets the library destroy the object, and retires
the entry that it marked. -/
theorem destroyObject_apply (inner : Inner S) (key : Key) (symbol : String) (args : List Word)
    (st : State S) :
    destroyObject inner key symbol args st =
      let found := st.registry.find? key
      let p := nativeCall inner symbol args
        { st with registry := found.elim st.registry st.registry.mark }
      (p.1, { p.2 with
        registry := found.elim p.2.registry fun id => p.2.registry.retire key id }) := by
  rw [destroyObject, bind_apply, advance_apply, Job.destroy, Job.step]
  cases st.registry.find? key <;> rfl

/-- **The destruction of an object is enacted**, with whatever happens while the library destroys
it. -/
theorem destroyObject_begins {inner : Inner S} (hinner : ∀ c x, Tells (inner c x) Answer.events)
    (key : Key) (symbol : String) (args : List Word) :
    Begins (.seeking key) (destroyObject inner key symbol args) := by
  intro st h jobs hs
  rw [destroyObject_apply]
  -- three parts: the entry is marked, the library destroys the object, the entry is retired
  obtain ⟨first, hfirst, hs₁⟩ := hs.seek key
  obtain ⟨later, n, log, hs₂, hlog, hcalls⟩ :=
    nativeCall_enacts hinner symbol args { st with registry := _ } _ _ hs₁
  rw [List.append_assoc] at hs₂
  obtain ⟨last, hlast, hs₃⟩ := hs₂.free
  refine ⟨last ++ (later ++ first), n + 1, log, ?_, hlog, ?_⟩
  · rw [List.replicate_succ, List.append_assoc, List.append_assoc]
    exact hs₃
  · rw [calls_append, calls_append, hlast, hcalls, hfirst, List.append_nil, List.nil_append]

/-- A handler is called: what is recorded tells of its event and of the calls inside it. -/
theorem callHandler_enacts {inner : Inner S} (hinner : ∀ c x, Tells (inner c x) Answer.events)
    (x : Handler S) (e : Event) (st : State S) (h : History (Handler S) Incoming)
    (jobs : List (Job (Handler S) Incoming)) (hs : Stage h st.registry jobs) :
    ∃ later n log, Stage (later ++ h) (callHandler inner x e st).2.registry
        (jobs ++ List.replicate n .over) ∧
      (callHandler inner x e st).2.log = log ++ st.log ∧
      e :: calls later = Record.listEvents log.reverse := by
  unfold callHandler
  cases x.on.find? fun o => o.1 = e.name with
  | none =>
      refine ⟨[], 0, [.event e none], ?_, rfl, rfl⟩
      rw [List.replicate_zero, List.append_nil]
      exact hs
  | some o =>
      obtain ⟨later, n, hs', hlog, hcalls⟩ := tells_mapM (hinner (.event e)) o.2 st h jobs hs
      refine ⟨later, n, [.event e (some (o.2.mapM (inner (.event e)) st).1)], hs', ?_, ?_⟩
      · rw [List.singleton_append, ← hlog]
        rfl
      · rw [hcalls]
        simp [Record.listEvents, Record.events, Answer.optionEvents]

/-- A callback finds no entry. -/
theorem deliver_of_find?_eq_none {inner : Inner S} {c : Incoming} {st : State S}
    (hf : st.registry.find? c.key = none) : deliver inner c st = (none, st) := by
  have hlook : advance (.deliver c.delivery) st = (.over, st) := by
    rw [advance_apply, Job.deliver, Job.step, show st.registry.find? c.delivery.key = none from hf]
  rw [deliver, bind_apply, hlook]
  rfl

/-- A callback finds a marked entry. -/
theorem deliver_of_isMarked {inner : Inner S} {c : Incoming} {id : Nat} {st : State S}
    (hf : st.registry.find? c.key = some id) (hm : st.registry.isMarked id = true) :
    deliver inner c st = (none, st) := by
  have hlook : advance (.deliver c.delivery) st = (.checking c.delivery id, st) := by
    rw [advance_apply, Job.deliver, Job.step,
      show st.registry.find? c.delivery.key = some id from hf]
  have hcheck : advance (.checking c.delivery id) st = (.over, st) := by
    rw [advance_apply, Job.step, if_pos hm]
  rw [deliver, bind_apply, hlook, bind_apply, hcheck]
  rfl

/-- A callback calls the handler of its entry, which is retired if the callback was the last one. -/
theorem deliver_of_not_isMarked {inner : Inner S} {c : Incoming} {id : Nat} {x : Handler S}
    {st : State S} (hf : st.registry.find? c.key = some id) (hm : st.registry.isMarked id = false)
    (hx : st.registry.handler? id = some x) :
    deliver inner c st =
      let st' := (callHandler inner x c.event st).2
      (some x, { st' with
        registry := if c.delivery.final then st'.registry.retire c.key id else st'.registry }) := by
  have hlook : advance (.deliver c.delivery) st = (.checking c.delivery id, st) := by
    rw [advance_apply, Job.deliver, Job.step,
      show st.registry.find? c.delivery.key = some id from hf]
  have hcheck : advance (.checking c.delivery id) st = (.calling c.delivery id, st) := by
    rw [advance_apply, Job.step, hm, if_neg Bool.false_ne_true]
  have hreturn : ∀ st' : State S, (advance (.running c.delivery id) >>= fun t => do
      let _ ← advance t
      return some x) st' = (some x, { st' with
        registry := if c.delivery.final then st'.registry.retire c.key id else st'.registry }) := by
    intro st'
    rw [bind_apply, advance_apply, Job.step]
    cases c.delivery.final <;> rfl
  rw [deliver, bind_apply, hlook, bind_apply, hcheck]
  simp only [bind_apply, show (get : Act S (State S)) st = (st, st) from rfl, hx]
  exact hreturn _

/-- **A callback is enacted**, with whatever happens while the handler runs. -/
theorem deliver_begins {inner : Inner S} (hinner : ∀ c x, Tells (inner c x) Answer.events)
    (c : Incoming) : Begins (.finding c.delivery) (deliver inner c) := by
  intro st h jobs hs
  cases hf : st.registry.find? c.key with
  | none =>
      rw [deliver_of_find?_eq_none hf]
      exact ⟨[(jobs.length, .looked c.delivery none)], 1, [], hs.miss c hf, rfl, rfl⟩
  | some id =>
      cases hm : st.registry.isMarked id with
      | true =>
          rw [deliver_of_isMarked hf hm]
          exact ⟨[(jobs.length, .checked c.delivery id true),
            (jobs.length, .looked c.delivery (some id))], 1, [], hs.refuse c hf hm, rfl, rfl⟩
      | false =>
          -- the handler runs between the call and the end of the job
          obtain ⟨x, hx⟩ := hs.handler?_isSome hf
          rw [deliver_of_not_isMarked hf hm hx]
          obtain ⟨later, n, log, hs₁, hlog, hcalls⟩ :=
            callHandler_enacts hinner x c.event st _ _ (hs.call c hf hm)
          rw [List.append_assoc] at hs₁
          obtain ⟨last, hlast, hs₂⟩ := hs₁.finish
          refine ⟨last ++ (later ++ [(jobs.length, .called c.delivery id),
            (jobs.length, .checked c.delivery id false),
            (jobs.length, .looked c.delivery (some id))]), n + 1, log, ?_, hlog, ?_⟩
          · rw [List.replicate_succ, List.append_assoc, List.append_assoc]
            exact hs₂
          · rw [calls_append, calls_append, hlast, ← hcalls, List.append_nil]
            rfl

/-! ### Steps -/

theorem enacts_pure (x : α) : Enacts (pure x : Act S α) := (isSilent_pure x).enacts

/-- What follows from a result without another action is told by it. -/
theorem Tells.bind_pure {a : Act S α} {told : α → List Event} (ha : Tells a told) {f : α → Act S β}
    {told' : β → List Event} (hf : ∀ x, ∃ y, f x = pure y ∧ told' y = told x) :
    Tells (a >>= f) told' := by
  intro st h jobs hs
  obtain ⟨later, n, hs', hlog, hcalls⟩ := ha st h jobs hs
  obtain ⟨y, hy, htold⟩ := hf (a st).1
  rw [bind_apply, hy]
  refine ⟨later, n, hs', hlog, ?_⟩
  rw [hcalls, ← htold]
  rfl

/-- A callback that reaches the registry is delivered before anything else happens. -/
theorem fireHandler_begins {inner : Inner S} (hinner : ∀ c x, Tells (inner c x) Answer.events)
    (c : Incoming) : Begins (.finding c.delivery) (fireHandler inner c) := by
  unfold fireHandler
  refine (deliver_begins hinner c).bind fun x => ?_
  split <;> exact enacts_pure _

/-- The library makes a callback. -/
theorem fire_enacts {inner : Inner S} (hinner : ∀ c x, Tells (inner c x) Answer.events)
    (c : Issued) (via : Address) : Enacts (fire inner c via) := by
  have hraw : Enacts (fireRaw (S := S) c) := (enacts_record rfl).bind fun _ => enacts_pure _
  have hget : IsSilent (get : Act S (State S)) := fun st => ⟨rfl, rfl⟩
  unfold fire
  refine hget.enacts.bind fun st => ?_
  cases find? (via, c.name.owner.createSymbol) st.functions with
  | none => exact enacts_pure _
  | some targets =>
      dsimp only
      cases targets[c.name.place]?.getD .null with
      | null => exact enacts_pure _
      | caller => exact hraw
      | own t => exact (fireHandler_begins hinner ⟨t, c.args⟩).enacts

section Programs

variable {inner : Inner S} {x : Handler S}

theorem composes_enacts : Program.Composes fun (α : Type) (a : Act S α) => Enacts a :=
  ⟨enacts_pure, Enacts.bind⟩

theorem isSilent_demand : IsSilent (grant inner x).demand.run := by
  rintro ⟨objects, scripts, functions, registry, failure, log⟩
  cases failure <;> exact ⟨rfl, rfl⟩

/-- Whatever an operation asks for is enacted. -/
theorem interpret_enacts (hinner : ∀ c x, Tells (inner c x) Answer.events) (p : Program α) :
    Enacts (p.interpret (grant inner x)).run :=
  p.asks_anything.interpret (composes_enacts.exceptT String) isSilent_demand.enacts
    (fun symbol args _ => composes_enacts.run_lift (nativeCall_enacts hinner symbol args))
    (fun key _ => composes_enacts.run_lift (register_begins key x).enacts)
    (fun key symbol args _ =>
      composes_enacts.run_lift (destroyObject_begins hinner key symbol args).enacts)

end Programs

/-- **A step is enacted**, if the steps inside it are. -/
theorem perform_tells {inner : Inner S} (hinner : ∀ c x, Tells (inner c x) Answer.events)
    (command : Command S) : Tells (perform inner command) Answer.events := by
  cases command with
  | call operation x =>
      refine (interpret_enacts hinner operation.program).recorded.bind_pure fun r => ?_
      obtain ⟨r, log⟩ := r
      cases r with
      | ok result => exact ⟨.returned result log, rfl, rfl⟩
      | error text => exact ⟨.panicked text log, rfl, rfl⟩
  | fire c via =>
      exact (fire_enacts hinner c via).recorded.bind_pure fun r => ⟨.fired r.1 r.2, rfl, rfl⟩
  | script s =>
      have hscript : IsSilent (modify fun state : State S =>
          { state with scripts := state.scripts ++ [s] }) := isSilent_modify fun st => ⟨rfl, rfl⟩
      exact hscript.tells.bind_pure fun _ => ⟨.scripted s.symbol, rfl, rfl⟩

/-- A step is enacted at any depth. -/
theorem performIn_tells (resolve : Context → S → Command S) (depth : Nat) (c : Context) (x : S) :
    Tells (performIn resolve depth c x) Answer.events := by
  induction depth generalizing c x with
  | zero => exact (isSilent_pure _).tells
  | succ depth ih => exact perform_tells ih (resolve c x)

/-- **A session is enacted**: what happens at its registry is a run on one thread in which every job
comes to its end, and its answers tell of the calls, in order. -/
theorem run_enacted (resolve : Context → S → Command S) (lacks : List String) (steps : List S) :
    ∃ (h : History (Handler S) Incoming) (r : Registry (Handler S)) (n : Nat),
      Stage h r (List.replicate n .over) ∧
      calls h = Answer.listEvents (run resolve lacks steps) := by
  have htells := tells_mapM (performIn_tells resolve maxNesting .top) steps
  obtain ⟨later, n, hs, -, hcalls⟩ := htells { failure := _ } [] [] Stage.empty
  rw [List.append_nil, List.nil_append] at hs
  exact ⟨later, _, n, hs, hcalls⟩

end LateBinding.Simulation
