import LateBinding.Proofs.Simulation.Faithfulness

/-!
**A last callback is repeated only from within.**

The entry of a handler is retired when the handler has returned from a last callback, and not when
it is called with one. So once a last callback is over, nothing more is heard; but while the handler
still runs it, a callback for the same object finds the same entry and calls the handler again. A
handler hears at most one last callback, and nothing after it, if no callback for its object is made
from within.

Main definitions:

* `LateBinding.Callback.Patient` — no callback is made for an object while its handler runs a last
  one.

Main results:

* `LateBinding.Callback.Run.retired_of_returned_final` — **a handler that has returned from a last
  callback is retired**;
* `LateBinding.Callback.Run.not_returned_of_called` — whoever hears a callback after a last one
  hears it from within;
* `LateBinding.Callback.Run.final_only_last` — a patient object hears a last callback at the end
  only;
* `LateBinding.Callback.last_callback_repeats_only_within` — all of it together.
-/

set_option autoImplicit false

namespace LateBinding.Callback

variable {H M : Type} {h : History H M} {s : Scene H M} {i k id : Nat} {d e : Delivery M}
  {key : Key}

/-! ### What ends an entry -/

/-- **A handler that has returned from a last callback is retired**, wherever everyone rests. -/
theorem Run.retired_of_returned_final (hr : Run h s) (hs : SingleThreaded h) (hrest : Rested h)
    (he : e.final = true) (hm : (k, .returned e id) ∈ h) : Retired h id := by
  refine hr.turns (P := fun h => (k, .returned e id) ∈ h → Retired h id) hs hrest ?_ ?_ hm
  · intro hm
    cases hm
  · intro i ms h _ hturn ih hm
    rcases List.mem_append.1 hm with hm | hm
    · obtain ⟨m, hm, heq⟩ := List.mem_map.1 hm
      cases heq
      -- only two turns return from a handler, and one of them from no last callback
      cases hturn with
      | returned d n hd =>
          obtain ⟨rfl, -⟩ : e = d ∧ id = n := by simpa using hm
          rw [hd] at he
          cases he
      | ended d n hd hcall hins =>
          obtain ⟨rfl, rfl⟩ : e = d ∧ id = n := by simpa using hm
          exact ⟨k, e.key, by simp⟩
      | _ => simp at hm
    · obtain ⟨j, key, hj⟩ := ih hm
      exact ⟨j, key, List.mem_append_right _ hj⟩

/-- **Only that and a destruction retire an entry.** -/
theorem Run.returned_final_of_retired (hr : Run h s) (hs : SingleThreaded h) (hrest : Rested h)
    (hret : Retired h id) :
    (∃ k e, e.final = true ∧ (k, .returned e id) ∈ h) ∨ Marked h id := by
  refine hr.turns (P := fun h => Retired h id →
    (∃ k e, e.final = true ∧ (k, .returned e id) ∈ h) ∨ Marked h id) hs hrest ?_ ?_ hret
  · rintro ⟨j, key, hj⟩
    cases hj
  · rintro i ms h - hturn ih ⟨j, key, hj⟩
    rcases List.mem_append.1 hj with hj | hj
    · obtain ⟨m, hm, heq⟩ := List.mem_map.1 hj
      cases heq
      cases hturn with
      | ended d n hd hcall hins =>
          obtain ⟨-, rfl⟩ : key = d.key ∧ id = n := by simpa using hm
          exact Or.inl ⟨i, d, hd, by simp⟩
      | freed key' n hmark =>
          obtain ⟨-, rfl⟩ : key = key' ∧ id = n := by simpa using hm
          obtain ⟨j, key'', hj⟩ := hmark
          exact Or.inr ⟨j, key'', List.mem_append_right _ hj⟩
      | _ => simp at hm
    · rcases ih ⟨j, key, hj⟩ with ⟨k, e, he, hk⟩ | ⟨k, key', hk⟩
      · exact Or.inl ⟨k, e, he, List.mem_append_right _ hk⟩
      · exact Or.inr ⟨k, key', List.mem_append_right _ hk⟩

/-! ### Calls after a last callback -/

theorem SingleThreaded.of_append {later : History H M} (hs : SingleThreaded (later ++ h)) :
    SingleThreaded h := by
  induction later with
  | nil => exact hs
  | cons x later ih => exact ih hs.tail

/-- A call on one thread is the end of a turn that began where everyone rested and the entry was not
retired. -/
theorem Run.turn_of_called (hr : Run ((i, .called d id) :: h) s)
    (hs : SingleThreaded ((i, .called d id) :: h)) :
    ∃ h', h = [.checked d id false, .looked d (some id), .begun (.finding d)].map (Prod.mk i) ++
      h' ∧ SingleThreaded h' ∧ Rested h' ∧ (∃ t, Run h' t) ∧ lastInserted d.key h' = some id ∧
      ¬ Retired h' id := by
  obtain ⟨i', ms, h', hturn, heq, hs', hrest'⟩ := hr.last_turn hs rfl (List.cons_ne_nil _ _)
  obtain ⟨t, ht⟩ := Run.of_append (heq ▸ hr)
  cases hturn with
  | called d' id' hlast hret hmark =>
      simp only [List.map_cons, List.map_nil, List.cons_append, List.nil_append, List.cons.injEq,
        Prod.mk.injEq, Moment.called.injEq] at heq
      obtain ⟨⟨rfl, rfl, rfl⟩, rfl⟩ := heq
      exact ⟨h', rfl, hs', hrest', ⟨t, ht⟩, hlast, hret⟩
  | _ => simp at heq

/-- **Whoever hears a callback after a last one hears it from within**: the handler has not returned
from the last one. -/
theorem Run.not_returned_of_called (hr : Run ((i, .called d id) :: h) s)
    (hs : SingleThreaded ((i, .called d id) :: h)) (he : e.final = true) :
    (k, .returned e id) ∉ h := by
  obtain ⟨h', rfl, hs', hrest', ⟨t, ht⟩, -, hret⟩ := hr.turn_of_called hs
  intro hm
  have hm' : (k, .returned e id) ∈ h' := by simpa using hm
  exact hret (ht.retired_of_returned_final hs' hrest' he hm')

/-! ### Patient objects -/

/-- No callback is made for the object of an entry while the handler of that entry runs a last
one. -/
def Moment.IsPatient (id : Nat) (h : History H M) : Moment H M → Prop
  | .begun (.finding d) => Inserted h d.key id → ∀ k e, e.final = true → (k, .called e id) ∈ h →
      (k, .returned e id) ∈ h
  | _ => True

/-- So it was at every moment of a history. -/
def Patient (id : Nat) : History H M → Prop
  | [] => True
  | (_, m) :: h => m.IsPatient id h ∧ Patient id h

/-- The handler of a patient object is not called after a last callback. -/
theorem Run.not_called_final_of_patient (hr : Run ((i, .called d id) :: h) s)
    (hs : SingleThreaded ((i, .called d id) :: h)) (hp : Patient id h) (he : e.final = true) :
    (k, .called e id) ∉ h := by
  obtain ⟨h', rfl, -, -, -, hlast, -⟩ := hr.turn_of_called hs
  intro hm
  have hm' : (k, .called e id) ∈ h' := by simpa using hm
  have hbegun : (Moment.begun (.finding d)).IsPatient id h' := hp.2.2.1
  have hback : (k, .returned e id) ∈ h' := hbegun (Inserted.of_last hlast) k e he hm'
  exact hr.not_returned_of_called hs he (List.mem_append_right _ hback)

/-- What was heard was called. -/
theorem mem_heard {x : M} : x ∈ heard id h ↔ ∃ i d, (i, .called d id) ∈ h ∧ d.message = x := by
  constructor
  · intro hx
    obtain ⟨m, hm, hx⟩ := List.mem_filterMap.1 hx
    obtain ⟨⟨i, n⟩, hn, rfl⟩ := List.mem_map.1 hm
    cases n with
    | called d n =>
        obtain ⟨rfl, rfl⟩ : n = id ∧ d.message = x := by simpa [Moment.heard?] using hx
        exact ⟨i, d, List.mem_reverse.1 hn, rfl⟩
    | _ => cases hx
  · rintro ⟨i, d, hd, rfl⟩
    refine List.mem_filterMap.2 ⟨.called d id, ?_, by simp [Moment.heard?]⟩
    exact List.mem_map.2 ⟨(i, .called d id), List.mem_reverse.2 hd, rfl⟩

/-- **The handler of a patient object hears a last callback at the end only.** -/
theorem Run.final_only_last (hr : Run h s) (hs : SingleThreaded h) (hp : Patient id h) :
    ∀ x ∈ (heard id h).dropLast, ∃ i d, (i, .called d id) ∈ h ∧ d.message = x ∧
      d.final = false := by
  induction h generalizing s with
  | nil => simp [heard]
  | cons y h ih =>
      obtain ⟨i, m⟩ := y
      obtain ⟨t, ht, -⟩ := hr.of_cons
      rw [heard_cons]
      cases hm : m.heard? id with
      | none =>
          intro x hx
          obtain ⟨j, d, hd, hx, hf⟩ := ih ht hs.tail hp.2 x (by simpa using hx)
          exact ⟨j, d, List.mem_cons_of_mem _ hd, hx, hf⟩
      | some x' =>
          -- what was heard before this call was heard from calls that were not the last one
          obtain ⟨d, rfl⟩ : ∃ d, m = .called d id := by
            cases m with
            | called d n =>
                obtain ⟨rfl, -⟩ : n = id ∧ d.message = x' := by simpa [Moment.heard?] using hm
                exact ⟨d, rfl⟩
            | _ => cases hm
          intro x hx
          rw [Option.toList_some, List.dropLast_concat] at hx
          obtain ⟨j, e, he, hx⟩ := mem_heard.1 hx
          refine ⟨j, e, List.mem_cons_of_mem _ he, hx, ?_⟩
          rw [Bool.eq_false_iff]
          exact fun hf => hr.not_called_final_of_patient hs hp.2 hf he

/-! ### Callbacks of the library -/

section Genuine

variable {h : History H Incoming} {s : Scene H Incoming} {d : Delivery Incoming}

/-- What a handler is called with is a callback as the library made it. -/
theorem Genuine.of_called (hg : Genuine h) (hr : Run h s) (hc : (i, .called d id) ∈ h) :
    d = d.message.delivery := by
  obtain ⟨later, earlier, rfl⟩ := List.append_of_mem hc
  obtain ⟨t, ht⟩ := hr.of_append
  have hbegun : (i, .begun (.finding d)) ∈ earlier := by
    rw [← mem_did, ht.did_of_called]
    simp
  exact hg i d (by simp [hbegun])

/-- A handler hears callbacks of the kind that its object is of. -/
theorem Run.owner_of_heard (hr : Run h s) (hg : Genuine h) (hi : Inserted h key id) {c : Incoming}
    (hc : c ∈ heard id h) : c.name.owner = key.kind := by
  obtain ⟨i, d, hd, rfl⟩ := mem_heard.1 hc
  have hkey : d.key = key := hr.told.key_unique (hr.inserted_of_called hd) hi
  rw [← hkey, hg.of_called hr hd]
  exact d.message.owner_name

end Genuine

/-- Every callback for a runnable, for a buffer or for the status of a request is a last one. -/
theorem Name.isFinal_of_owner {n : Name}
    (ho : n.owner = .runnable ∨ n.owner = .bufferCallback ∨ n.owner = .statusListener) :
    n.isFinal = true := by
  cases n <;> simp [Name.owner, Name.isFinal] at ho ⊢

/-! ### Last callbacks -/

/-- **A last callback is repeated only from within.** Take any run on one thread in which everyone
rests. A handler that is called after it was called with a last callback has not returned from that
one. If the handler registered for an object has returned from no last callback and its destruction
has not begun, a callback for the object calls it, also where it already runs a last one. If no
callback for an object is made while its handler runs a last one, the handler hears a last callback
at the end only, so at most once; and the handler of a runnable, of a buffer or of a status listener
is called at most once. -/
theorem last_callback_repeats_only_within {h : History H Incoming} {r : Registry H}
    {jobs : List (Job H Incoming)} (hs : Stage h r jobs) :
    (∀ (later earlier : History H Incoming) (i k id : Nat) (d e : Delivery Incoming),
      h = later ++ (i, .called d id) :: earlier → (k, .called e id) ∈ earlier → e.final = true →
      (k, .returned e id) ∉ earlier) ∧
    (∀ (c : Incoming) (id : Nat), lastInserted c.key h = some id → ¬ Marked h id →
      (∀ k e, e.final = true → (k, .returned e id) ∉ h) →
      ∃ later, Stage (later ++ h) r (jobs ++ [.running c.delivery id]) ∧
        heard id (later ++ h) = heard id h ++ [c]) ∧
    (∀ id, Patient id h →
      (∀ c ∈ (heard id h).dropLast, c.name.isFinal = false) ∧
      ∀ key, Inserted h key id →
        key.kind = .runnable ∨ key.kind = .bufferCallback ∨ key.kind = .statusListener →
        (heard id h).length ≤ 1) := by
  have hlast : ∀ id, Patient id h → ∀ c ∈ (heard id h).dropLast, c.name.isFinal = false := by
    intro id hp c hc
    obtain ⟨i, d, hd, rfl, hf⟩ := hs.run.final_only_last hs.singleThreaded hp c hc
    rwa [hs.genuine.of_called hs.run hd, d.message.final_delivery] at hf
  refine ⟨?_, fun c id hlast hmark hback => ?_, fun id hp => ⟨hlast id hp, fun key hi hk => ?_⟩⟩
  · rintro later earlier i k id d e rfl - he
    obtain ⟨t, ht⟩ := hs.run.of_append
    exact ht.not_returned_of_called hs.singleThreaded.of_append he
  · have hret : ¬ Retired h id := by
      intro hret
      rcases hs.run.returned_final_of_retired hs.singleThreaded hs.rested hret with
        ⟨k, e, he, hk⟩ | hm
      · exact hback k e he hk
      · exact hmark hm
    have hfind : r.find? c.key = some id := (hs.run.told.current c.key id).2 ⟨hlast, hret⟩
    have hnot : r.isMarked id = false := by
      rw [Bool.eq_false_iff]
      exact fun hm => hmark ((hs.run.told.marks id).1 hm)
    refine ⟨_, hs.call c hfind hnot, ?_⟩
    simp [heard_cons, Moment.heard?, Incoming.delivery]
  · -- all that such a handler may hear is last, and before its end there is no such thing
    by_contra hlen
    obtain ⟨c, hc⟩ : ∃ c, c ∈ (heard id h).dropLast := by
      refine List.exists_mem_of_ne_nil _ fun hnil => ?_
      have hzero := congrArg List.length hnil
      simp only [List.length_dropLast, List.length_nil] at hzero
      omega
    have howner := hs.run.owner_of_heard hs.genuine hi (List.dropLast_subset _ hc)
    have hfinal : c.name.isFinal = true := Name.isFinal_of_owner (by rwa [howner])
    rw [hlast id hp c hc] at hfinal
    cases hfinal

/-- A stream fails, and while its handler runs that, it is canceled. A runnable is run, and then
once more. -/
def endings : History Unit Incoming :=
  let stream : Key := ⟨.stream, 16⟩
  let runnable : Key := ⟨.runnable, 32⟩
  let failed : Delivery Incoming := (⟨.streamFailed, [.handle 16, .int (-3)]⟩ : Incoming).delivery
  let canceled : Delivery Incoming := (⟨.streamCanceled, [.handle 16]⟩ : Incoming).delivery
  let run : Delivery Incoming := (⟨.run, [.handle 32]⟩ : Incoming).delivery
  [(5, .looked run none), (5, .begun (.finding run)),
    (4, .retired runnable 1), (4, .returned run 1), (4, .called run 1), (4, .checked run 1 false),
    (4, .looked run (some 1)), (4, .begun (.finding run)),
    (3, .inserted runnable 1), (3, .begun (.inserting runnable ())),
    (1, .retired stream 0), (1, .returned failed 0),
    (2, .retired stream 0), (2, .returned canceled 0), (2, .called canceled 0),
    (2, .checked canceled 0 false), (2, .looked canceled (some 0)), (2, .begun (.finding canceled)),
    (1, .called failed 0), (1, .checked failed 0 false), (1, .looked failed (some 0)),
    (1, .begun (.finding failed)),
    (0, .inserted stream 0), (0, .begun (.inserting stream ()))]

theorem stage_endings : Stage endings
    ⟨[⟨⟨.stream, 16⟩, (), false⟩, ⟨⟨.runnable, 32⟩, (), false⟩], []⟩
    [.over, .over, .over, .over, .over, .over] := by
  refine ⟨Run.empty.replay
    [.begin (.inserting ⟨.stream, 16⟩ ()), .move 0,
      .begin (.finding (⟨.streamFailed, [.handle 16, .int (-3)]⟩ : Incoming).delivery),
      .move 1, .move 1, .move 1,
      .begin (.finding (⟨.streamCanceled, [.handle 16]⟩ : Incoming).delivery),
      .move 2, .move 2, .move 2, .move 2, .move 2, .move 1, .move 1,
      .begin (.inserting ⟨.runnable, 32⟩ ()), .move 3,
      .begin (.finding (⟨.run, [.handle 32]⟩ : Incoming).delivery),
      .move 4, .move 4, .move 4, .move 4, .move 4,
      .begin (.finding (⟨.run, [.handle 32]⟩ : Incoming).delivery), .move 5] rfl, ?_, rfl, ?_⟩
  · simp [endings, SingleThreaded, Moment.rests, Incoming.delivery]
  · intro i d hd
    simp [endings] at hd
    rcases hd with ⟨-, rfl⟩ | ⟨-, rfl⟩ | ⟨-, rfl⟩ | ⟨-, rfl⟩ <;> rfl

/-- The handler of the stream was called with its end twice, the second time before it returned from
the first; the runnable ran once. -/
theorem canceled_within_failure_run_once :
    (heard 0 endings).map Incoming.name = [.streamFailed, .streamCanceled] ∧
    (∀ d : Delivery Incoming, (1, .called d 0) ∈ endings.drop 15 → d.final = true →
      (1, .returned d 0) ∉ endings.drop 15) ∧
    (heard 1 endings).length ≤ 1 := by
  obtain ⟨hwithin, -, hpatient⟩ := last_callback_repeats_only_within stage_endings
  have hp : Patient 1 endings := by
    simp [endings, Patient, Moment.IsPatient, Incoming.delivery, Incoming.key, Incoming.address]
  exact ⟨rfl, fun d => hwithin (endings.take 14) (endings.drop 15) 2 1 0 _ d rfl,
    (hpatient 1 hp).2 ⟨.runnable, 32⟩ (by simp [endings]) (Or.inl rfl)⟩

end LateBinding.Callback

namespace LateBinding.Simulation

open Client (Operation)

/-- A stream with a handler that cancels it when it fails, the library that reports this at once,
and the failure. -/
inductive CancelOnFailure where
  | make
  | script
  | fail
  | cancel
  | report

/-- What the steps do. -/
def CancelOnFailure.command : CancelOnFailure → Command CancelOnFailure
  | make => .call (.create .stream .handler [.handle 0, .handle 0]) ⟨[(.streamFailed, [cancel])], 0⟩
  | script => .script ⟨"bidirectional_stream_cancel", none, [report]⟩
  | fail => .fire ⟨.streamFailed, [.handle 1, .int (-3)]⟩ 1
  | cancel => .call (.direct ⟨"bidirectional_stream", "bidirectional_stream_cancel",
      "bidirectional_stream_cancel", [.handle .bidirectionalStream], .unit⟩ [.handle 1]) ⟨[], 0⟩
  | report => .fire ⟨.streamCanceled, [.handle 1]⟩ 1

/-- **A stream is told of its end twice**: it is canceled inside the failure. -/
theorem stream_ends_twice :
    Answer.listEvents (([.make, .script, .fail].mapM (performIn (fun _ s => s.command) 3 .top)).run
      ({} : State CancelOnFailure)).1 =
      [⟨.streamFailed, [.handle 1, .code .netError (-3)]⟩, ⟨.streamCanceled, [.handle 1]⟩] := by
  decide +kernel

end LateBinding.Simulation
