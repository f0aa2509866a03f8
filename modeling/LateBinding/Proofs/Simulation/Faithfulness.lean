import LateBinding.Proofs.Callback.Decoding
import LateBinding.Proofs.Callback.Hearing
import LateBinding.Proofs.Simulation.Commands

/-!
**Handlers hear their callbacks, and nothing else.**

A session goes on with runs on one thread, so what holds of these holds of what handlers hear in a
session: the callbacks that were made for their object while it was open, in order, each as the
event of its name and words. A callback that asks for a length is answered by the handler that is
alive.

Main results:

* `LateBinding.Simulation.fires` — **which function a callback calls**, if any;
* `LateBinding.Simulation.fireHandler_length` — who answers for a length;
* `LateBinding.Simulation.handlers_hear_their_callbacks` — **all of it together**.
-/

set_option autoImplicit false

namespace LateBinding.Simulation

open Callback
open Native (Address Word)

variable {S : Type} {h : History (Handler S) Incoming} {r : Registry (Handler S)}
  {jobs : List (Job (Handler S) Incoming)}

/-- A callback is delivered to the handler that is alive. -/
theorem deliver_fst (inner : Inner S) (c : Incoming) {st : State S}
    (hs : Stage h st.registry jobs) : (deliver inner c st).1 = live? st.registry c.key := by
  cases hf : st.registry.find? c.key with
  | none => rw [deliver_of_find?_eq_none hf, live?, hf, Option.bind_none]
  | some id =>
      rw [live?, hf, Option.bind_some]
      cases hm : st.registry.isMarked id with
      | true => rw [deliver_of_isMarked hf hm, if_pos rfl]
      | false =>
          obtain ⟨x, hx⟩ := hs.handler?_isSome hf
          rw [deliver_of_not_isMarked hf hm hx, if_neg Bool.false_ne_true, hx]

/-- **Who answers for a length**: the handler that is alive; zero if there is none. -/
theorem fireHandler_length (inner : Inner S) {c : Incoming} {st : State S}
    (hs : Stage h st.registry jobs) (hc : c.name = .length) :
    (fireHandler inner c st).1 =
      .length (((live? st.registry c.key).map Handler.length).getD 0) := by
  rw [← deliver_fst inner c hs]
  unfold fireHandler
  rw [bind_apply, if_pos hc]
  rfl

/-- The handler of an open object is alive. -/
theorem live?_of_isOpen (hs : Stage h r jobs) (ho : Orderly h) {key : Key} {id : Nat}
    (hopen : IsOpen key id h) : live? r key = r.handler? id := by
  have hf := hs.run.faithful hs.singleThreaded hs.rested ho
  obtain ⟨hlast, hret, hmark⟩ := hf.opened key id hopen
  have hfind : r.find? key = some id := (hs.run.told.current key id).2 ⟨hlast, hret⟩
  have hnot : r.isMarked id = false := by
    rw [Bool.eq_false_iff]
    exact fun hm => hmark ((hs.run.told.marks id).1 hm)
  rw [live?, hfind, Option.bind_some, hnot, if_neg Bool.false_ne_true]

/-- What is due to the handler of an object are callbacks for the object. -/
theorem key_of_mem_due (hs : Stage h r jobs) {key : Key} {id : Nat} {c : Incoming}
    (hc : c ∈ due key id h) : c.key = key := by
  obtain ⟨i, d, hd, rfl, rfl⟩ := mem_due hc
  have hg : d = d.message.delivery := hs.genuine i d hd
  rw [hg]
  rfl

/-- What the library makes of the functions that it keeps for an object: where they are those for a
handler, the one at the place of a callback serves it, and where they are not, no handler hears of
the callback. -/
theorem fires {inner : Inner S} (hinner : ∀ c x, Tells (inner c x) Answer.events) {st : State S}
    (hst : st.IsWired) (c : Issued) (via : Address) :
    (find? (via, c.name.owner.createSymbol) st.functions =
        some ((passed c.name.owner).map handlerFunctions) →
      ∃ t : Trampoline, t.Serves c.name ∧
        Opens st (.finding (⟨t, c.args⟩ : Incoming).delivery) (perform inner (.fire c via))) ∧
    (find? (via, c.name.owner.createSymbol) st.functions ≠
        some ((passed c.name.owner).map handlerFunctions) →
      (perform inner (.fire c via) st).2.registry = st.registry ∧
        (perform inner (.fire c via) st).1.events = []) := by
  refine ⟨fun hkept => ?_, fun hkept => perform_fire_of_not_own fun targets htargets t ht => ?_⟩
  · obtain ⟨t, ht, hserves⟩ := exists_serves_at_place c.name
    exact ⟨t, hserves, opens_fire hinner hkept ht⟩
  · obtain ⟨backing, rfl⟩ := hst.kept_eq htargets
    cases backing with
    | handler => exact hkept htargets
    | raw =>
        -- a caller's functions are not the client's
        rw [passed_eq, List.getElem?_map, getElem?_place, Option.map_some,
          Client.Backing.target] at ht
        split at ht <;> cases ht

/-- **Faithful delivery.** Take any run on one thread in which everyone rests, where the library
gives no address to two standing objects of a kind and makes no callback for an object while its
handler runs the last one. Then every handler has heard, in order and with nothing left out or
twice, the callbacks made for its kind and address since its object was made, until its destruction
begins, through the last one.

The function that is passed at the place of a callback looks in the registry of the kind that the
callback belongs to, calls the method of its name, and retires the handler if the callback is a last
one; the method gets one value for each word that the library passes, in order: the handle of the
object first, and each conveying its word.

Whatever steps happen meanwhile, the operation that makes an object with a handler registers it when
it has got the object, unless there is none, and has passed these functions; the operation that
destroys an object begins with its destruction; and a callback begins with a delivery by the
function that serves it, where the library keeps such functions, and concerns no handler where it
does not. What the library keeps are always functions as they are passed for an object. Every step
of a session goes on with such a run and its answer tells of the calls, and so does a whole session.
A callback that asks for a length is answered by the handler that is alive, which for an open object
is its own, and with zero if there is none. -/
theorem handlers_hear_their_callbacks (hs : Stage h r jobs) (ho : Orderly h) :
    (∀ key id, Inserted h key id →
      heard id h = due key id h ∧ ∀ c ∈ due key id h, c.key = key) ∧
    (∀ n : Callback.Name, ∃ t : Trampoline,
      ((passed n.owner).map handlerFunctions)[n.place]? = some (.own t) ∧ t.Serves n ∧
      ∀ c : Incoming, c.trampoline = t →
        c.key = ⟨n.owner, c.address⟩ ∧ c.delivery.final = n.isFinal ∧ c.event.name = n ∧
        (List.Forall₂ Fits n.signature c.args →
          c.event.values.length = c.args.length ∧ c.event.values.head? = some (.handle c.address) ∧
          List.Forall₂ Conveys (n.signature.zip c.args) c.event.values)) ∧
    (∀ (resolve : Context → S → Command S) (depth : Nat) (st : State S),
      (st.failure = none → ∀ kind args x,
        Creates kind x st (making (performIn resolve depth) kind args { st with log := [] })
          (perform (performIn resolve depth) (.call (.create kind .handler args) x) st)) ∧
      (st.failure = none → ∀ kind object x, Opens st (.seeking ⟨kind, object⟩)
        (perform (performIn resolve depth) (.call (.destroy kind object) x))) ∧
      (st.IsWired → ∀ c via,
        (find? (via, c.name.owner.createSymbol) st.functions =
            some ((passed c.name.owner).map handlerFunctions) →
          ∃ t : Trampoline, t.Serves c.name ∧ Opens st (.finding (⟨t, c.args⟩ : Incoming).delivery)
            (perform (performIn resolve depth) (.fire c via))) ∧
        (find? (via, c.name.owner.createSymbol) st.functions ≠
            some ((passed c.name.owner).map handlerFunctions) →
          (perform (performIn resolve depth) (.fire c via) st).2.registry = st.registry ∧
            (perform (performIn resolve depth) (.fire c via) st).1.events = [])) ∧
      ∀ context x, (st.IsWired → (performIn resolve depth context x st).2.IsWired) ∧
        Tells (performIn resolve depth context x) Answer.events) ∧
    (∀ (resolve : Context → S → Command S) (lacks : List String) (steps : List S),
      ∃ (h : History (Handler S) Incoming) (r : Registry (Handler S)) (n : Nat),
        Stage h r (List.replicate n .over) ∧
        calls h = Answer.listEvents (run resolve lacks steps)) ∧
    (∀ (inner : Inner S) (c : Incoming) (st : State S), st.registry = r → c.name = .length →
      (fireHandler inner c st).1 = .length (((live? r c.key).map Handler.length).getD 0)) ∧
    (∀ key id, IsOpen key id h → live? r key = r.handler? id) := by
  refine ⟨fun key id hi => ⟨?_, fun c hc => key_of_mem_due hs hc⟩, fun n => ?_,
    fun resolve depth st => ?_, run_enacted, ?_, fun key id hopen => live?_of_isOpen hs ho hopen⟩
  · exact hs.run.heard_eq_due hs.singleThreaded hs.rested ho hi
  · obtain ⟨t, ht, hserves⟩ := exists_serves_at_place n
    refine ⟨t, ht, hserves, ?_⟩
    rintro c rfl
    obtain rfl : c.name = n := hserves.method
    refine ⟨?_, c.final_delivery, rfl, fun hc : c.IsTyped =>
      ⟨hc.length_event, hc.head?_event, hc.conveys⟩⟩
    rw [c.owner_name]
    rfl
  · have hinner := performIn_tells resolve depth
    exact ⟨fun hst kind args x => creates_create hinner hst kind args x,
      fun hst kind object x => opens_destroy hinner hst kind object x,
      fun hst c via => fires hinner hst c via,
      fun context x => ⟨performIn_keepsWires resolve depth context x st, hinner context x⟩⟩
  · rintro inner c st rfl hc
    exact fireHandler_length inner hs hc

/-- A stream hears that it is ready and is then destroyed. While the library destroys it, a late
callback comes, its address goes to a new stream, and the new stream succeeds. -/
def addressReuse : History (Handler Unit) Incoming :=
  let key : Key := ⟨.stream, 16⟩
  let ready : Delivery Incoming := (⟨.streamReady, [.handle 16]⟩ : Incoming).delivery
  let success : Delivery Incoming := (⟨.streamSucceeded, [.handle 16]⟩ : Incoming).delivery
  [(2, .retired key 0), (2, .freed key (some 0)),
    (5, .retired key 1), (5, .returned success 1), (5, .called success 1),
    (5, .checked success 1 false), (5, .looked success (some 1)), (5, .begun (.finding success)),
    (4, .inserted key 1), (4, .begun (.inserting key ⟨[], 0⟩)),
    (3, .checked ready 0 true), (3, .looked ready (some 0)), (3, .begun (.finding ready)),
    (2, .marked key 0), (2, .sought key (some 0)), (2, .begun (.seeking key)),
    (1, .returned ready 0), (1, .called ready 0), (1, .checked ready 0 false),
    (1, .looked ready (some 0)), (1, .begun (.finding ready)),
    (0, .inserted key 0), (0, .begun (.inserting key ⟨[], 0⟩))]

theorem run_addressReuse : Run addressReuse
    ⟨⟨[⟨⟨.stream, 16⟩, ⟨[], 0⟩, true⟩, ⟨⟨.stream, 16⟩, ⟨[], 0⟩, false⟩], []⟩,
      [.over, .over, .over, .over, .over, .over]⟩ :=
  Run.empty.replay
    [.begin (.inserting ⟨.stream, 16⟩ ⟨[], 0⟩), .move 0,
      .begin (.finding (⟨.streamReady, [.handle 16]⟩ : Incoming).delivery), .move 1, .move 1,
      .move 1, .move 1, .begin (.seeking ⟨.stream, 16⟩), .move 2, .move 2,
      .begin (.finding (⟨.streamReady, [.handle 16]⟩ : Incoming).delivery), .move 3, .move 3,
      .begin (.inserting ⟨.stream, 16⟩ ⟨[], 0⟩), .move 4,
      .begin (.finding (⟨.streamSucceeded, [.handle 16]⟩ : Incoming).delivery), .move 5, .move 5,
      .move 5, .move 5, .move 5, .move 2, .move 2] rfl

theorem orderly_addressReuse : Orderly addressReuse := by
  simp only [addressReuse, Orderly, Moment.IsOrderly, true_and, and_true]
  refine ⟨fun id k e _ he hc => ?_, fun id hs => ?_, fun id k e _ he hc => ?_,
    fun id k e _ he hc => ?_, fun id hs => ?_⟩
  · simp at hc
    obtain ⟨-, rfl, -⟩ := hc
    cases he
  · obtain ⟨j, hj⟩ := hs.inserted
    obtain ⟨-, rfl⟩ : j = 0 ∧ id = 0 := by simpa using hj
    have hbegun := hs.2 (.begun (.seeking ⟨.stream, 16⟩)) (by simp [since, Moment.makes])
    simp [Moment.destroys] at hbegun
  · simp at hc
    obtain ⟨-, rfl, -⟩ := hc
    cases he
  · simp at hc
  · obtain ⟨j, hj⟩ := hs.inserted
    simp at hj

/-- A session in which this happens: the library gives the address, and while it destroys the first
stream, the callback comes and the second stream is made. -/
inductive AddressReuse where
  | address
  | make
  | ready
  | late
  | destroy
  | success

/-- What the steps do. -/
def AddressReuse.command : AddressReuse → Command AddressReuse
  | address => .script ⟨"bidirectional_stream_create", some (.handle 16), []⟩
  | make => .call (.create .stream .handler [.handle 0, .context 0]) ⟨[], 0⟩
  | ready => .fire ⟨.streamReady, [.handle 16]⟩ 16
  | late => .script ⟨"bidirectional_stream_destroy", none, [ready, address, make]⟩
  | destroy => .call (.destroy .stream 16) ⟨[], 0⟩
  | success => .fire ⟨.streamSucceeded, [.handle 16]⟩ 16

/-- The library is about to make the first stream. -/
def AddressReuse.start : State AddressReuse :=
  { scripts := [⟨"bidirectional_stream_create", some (.handle 16), []⟩] }

theorem making_start : (making (performIn (fun _ s => AddressReuse.command s) 3) .stream
    [.handle 0, .context 0] { AddressReuse.start with log := [] }).1 = .handle 16 := by
  decide +kernel

/-- The first stream heard what came before its destruction, the second one that it succeeded. So it
is in the session, where the stream that the library makes has its handler. -/
theorem streams_heard_their_callbacks :
    Stage addressReuse ⟨[⟨⟨.stream, 16⟩, ⟨[], 0⟩, true⟩, ⟨⟨.stream, 16⟩, ⟨[], 0⟩, false⟩], []⟩
      [.over, .over, .over, .over, .over, .over] ∧ Orderly addressReuse ∧
    (heard 0 addressReuse).map Incoming.event = [⟨.streamReady, [.handle 16]⟩] ∧
    (heard 1 addressReuse).map Incoming.event = [⟨.streamSucceeded, [.handle 16]⟩] ∧
    Answer.listEvents (([.address, .make, .ready, .late, .destroy, .success].mapM
      (performIn (fun _ s => AddressReuse.command s) 3 .top)).run {}).1 = calls addressReuse ∧
    live? (perform (performIn (fun _ s => s.command) 3) AddressReuse.make.command
      AddressReuse.start).2.registry ⟨.stream, 16⟩ = some ⟨[], 0⟩ := by
  have stage : Stage addressReuse _ _ :=
    ⟨run_addressReuse, by simp [addressReuse, SingleThreaded, Moment.rests, Incoming.delivery,
      Trampoline.body, Body.dispatch, Body.dispatchOnce], rfl, fun i d hd => by
        simp [addressReuse] at hd
        rcases hd with ⟨-, rfl⟩ | ⟨-, rfl⟩ | ⟨-, rfl⟩ <;> rfl⟩
  obtain ⟨hheard, -⟩ := handlers_hear_their_callbacks stage orderly_addressReuse
  refine ⟨stage, orderly_addressReuse, ?_, ?_, by decide +kernel, ?_⟩
  · rw [(hheard ⟨.stream, 16⟩ 0 (by simp [addressReuse])).1]
    rfl
  · rw [(hheard ⟨.stream, 16⟩ 1 (by simp [addressReuse])).1]
    rfl
  · -- the session has not begun, so nothing has happened at its registry
    obtain ⟨-, -, hsteps, -⟩ :=
      handlers_hear_their_callbacks (S := AddressReuse) Stage.empty trivial
    obtain ⟨hcreate, -⟩ := hsteps (fun _ s => s.command) 3 AddressReuse.start
    obtain ⟨-, -, hregistered, -⟩ := hcreate rfl .stream [.handle 0, .context 0] ⟨[], 0⟩
    rw [making_start] at hregistered
    exact (hregistered (by decide)).2

end LateBinding.Simulation
