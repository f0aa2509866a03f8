import LateBinding.Callback.Trampoline
import LateBinding.Proofs.Callback.Turn

/-!
**How a run on one thread goes on.**

A *stage* is a run on one thread in which everyone rests. From a stage each kind of turn leads to a
stage again: what the registry answers decides which turn a callback or a destruction takes.

Main definitions:

* `LateBinding.Callback.Genuine` — every callback of a history is what the library made;
* `LateBinding.Callback.Stage` — a run on one thread in which everyone rests.

Main results:

* `LateBinding.Callback.Stage.turn` — a turn leads from stage to stage;
* `LateBinding.Callback.Stage.make`, `LateBinding.Callback.Stage.call` and the others — the turns,
  one by one.
-/

set_option autoImplicit false

namespace LateBinding.Callback

variable {H : Type}

/-- Every callback is for the object that its words name, and is the last one if its name says
so. -/
def Genuine (h : History H Incoming) : Prop :=
  ∀ i d, (i, .begun (.finding d)) ∈ h → d = d.message.delivery

/-- A run on one thread in which everyone rests. -/
structure Stage (h : History H Incoming) (r : Registry H) (jobs : List (Job H Incoming)) :
    Prop where
  run : Run h ⟨r, jobs⟩
  singleThreaded : SingleThreaded h
  rested : Rested h
  genuine : Genuine h

/-- The event that a handler is called with in a moment. -/
def Moment.event? : Moment H Incoming → Option Event
  | .called d _ => some d.message.event
  | _ => none

/-- The events that handlers were called with, oldest first. -/
def calls (h : History H Incoming) : List Event :=
  (h.reverse.map Prod.snd).filterMap Moment.event?

theorem calls_append (later earlier : History H Incoming) :
    calls (later ++ earlier) = calls earlier ++ calls later := by
  simp [calls]

/-! ### Steps at the end of a history -/

section Steps

variable {M : Type} {h : History H M} {r r' : Registry H}

theorem Run.begin_last {jobs : List (Job H M)} (hr : Run h ⟨r, jobs⟩) (j : Job H M)
    (hj : j.isFresh = true) : Run ((jobs.length, .begun j) :: h) ⟨r, jobs ++ [j]⟩ :=
  hr.step (.begin j hj)

theorem Run.move_at {before after : List (Job H M)} {j j' : Job H M} {m : Moment H M}
    (hr : Run h ⟨r, before ++ j :: after⟩) (hm : j.moment? r = some m) (hj : j.step r = (r', j')) :
    Run ((before.length, m) :: h) ⟨r', before ++ j' :: after⟩ := by
  have hget : (before ++ j :: after)[before.length]? = some j := by simp
  have hmove := hr.step (.move hget hm)
  simpa [hj] using hmove

/-- What one job does is not interrupted. -/
theorem SingleThreaded.append {i : Nat} (hs : SingleThreaded h) (hrest : Rested h)
    (ms : List (Moment H M)) : SingleThreaded (ms.map (Prod.mk i) ++ h) := by
  induction ms with
  | nil => exact hs
  | cons m ms ih =>
      cases ms with
      | nil =>
          cases h with
          | nil => trivial
          | cons x h => exact ⟨Or.inl hrest, hs⟩
      | cons n ms => exact ⟨Or.inr rfl, ih⟩

end Steps

/-! ### Turns -/

namespace Stage

variable {h : History H Incoming} {r r' : Registry H} {jobs jobs' : List (Job H Incoming)}

theorem empty : Stage ([] : History H Incoming) {} [] :=
  ⟨.empty, trivial, trivial, fun _ _ hm => by cases hm⟩

/-- **A turn leads from stage to stage.** -/
theorem turn {i : Nat} {m : Moment H Incoming} (hs : Stage h r jobs)
    (ms : List (Moment H Incoming)) (hr : Run ((m :: ms).map (Prod.mk i) ++ h) ⟨r', jobs'⟩)
    (hm : m.rests = true)
    (hg : ∀ d, .begun (.finding d) ∈ ms → d = d.message.delivery) :
    Stage ((m :: ms).map (Prod.mk i) ++ h) r' jobs' := by
  refine ⟨hr, hs.singleThreaded.append hs.rested _, hm, fun k d hd => ?_⟩
  rcases List.mem_append.1 hd with hd | hd
  · obtain ⟨n, hn, he⟩ := List.mem_map.1 hd
    cases he
    rcases List.mem_cons.1 hn with rfl | hn
    · cases hm
    · exact hg d hn
  · exact hs.genuine k d hd

/-- An object is made. -/
theorem make (hs : Stage h r jobs) (key : Key) (x : H) :
    Stage
      ([.inserted key r.entries.length, .begun (.inserting key x)].map (Prod.mk jobs.length) ++ h)
      (r.insert key x) (jobs ++ [.over]) :=
  hs.turn _ ((hs.run.begin_last (.inserting key x) rfl).move_at rfl rfl) rfl (by simp)

/-- A callback finds no entry. -/
theorem miss (hs : Stage h r jobs) (c : Incoming) (hf : r.find? c.key = none) :
    Stage ([.looked c.delivery none, .begun (.finding c.delivery)].map (Prod.mk jobs.length) ++ h)
      r (jobs ++ [.over]) := by
  have hm :
      (Job.finding c.delivery : Job H Incoming).moment? r = some (.looked c.delivery none) := by
    rw [Job.moment?, show r.find? c.delivery.key = none from hf]
  have hj : (Job.finding c.delivery : Job H Incoming).step r = (r, .over) := by
    rw [Job.step, show r.find? c.delivery.key = none from hf]
  refine hs.turn _ ((hs.run.begin_last (.finding c.delivery) rfl).move_at hm hj) rfl ?_
  rintro d hd
  cases List.mem_singleton.1 hd
  rfl

/-- A callback finds an entry; what follows depends on its mark. -/
theorem look (hs : Stage h r jobs) (c : Incoming) {id : Nat} (hf : r.find? c.key = some id) :
    Run ((jobs.length, .looked c.delivery (some id)) ::
      (jobs.length, .begun (.finding c.delivery)) :: h)
      ⟨r, jobs ++ [.checking c.delivery id]⟩ := by
  have hm : (Job.finding c.delivery : Job H Incoming).moment? r =
      some (.looked c.delivery (some id)) := by
    rw [Job.moment?, show r.find? c.delivery.key = some id from hf]
  have hj : (Job.finding c.delivery : Job H Incoming).step r = (r, .checking c.delivery id) := by
    rw [Job.step, show r.find? c.delivery.key = some id from hf]
  exact (hs.run.begin_last (.finding c.delivery) rfl).move_at hm hj

/-- A callback finds a marked entry. -/
theorem refuse (hs : Stage h r jobs) (c : Incoming) {id : Nat} (hf : r.find? c.key = some id)
    (hmark : r.isMarked id = true) :
    Stage ([.checked c.delivery id true, .looked c.delivery (some id),
      .begun (.finding c.delivery)].map (Prod.mk jobs.length) ++ h) r (jobs ++ [.over]) := by
  have hm : (Job.checking c.delivery id : Job H Incoming).moment? r =
      some (.checked c.delivery id true) := by
    rw [Job.moment?, hmark]
  have hj : (Job.checking c.delivery id : Job H Incoming).step r = (r, .over) := by
    rw [Job.step, hmark, if_pos rfl]
  refine hs.turn _ ((hs.look c hf).move_at hm hj) rfl ?_
  intro d hd
  obtain rfl : d = c.delivery := by simpa using hd
  rfl

/-- A callback calls a handler. -/
theorem call (hs : Stage h r jobs) (c : Incoming) {id : Nat} (hf : r.find? c.key = some id)
    (hmark : r.isMarked id = false) :
    Stage ([.called c.delivery id, .checked c.delivery id false, .looked c.delivery (some id),
      .begun (.finding c.delivery)].map (Prod.mk jobs.length) ++ h)
      r (jobs ++ [.running c.delivery id]) := by
  have hm : (Job.checking c.delivery id : Job H Incoming).moment? r =
      some (.checked c.delivery id false) := by
    rw [Job.moment?, hmark]
  have hj : (Job.checking c.delivery id : Job H Incoming).step r = (r, .calling c.delivery id) := by
    rw [Job.step, hmark, if_neg Bool.false_ne_true]
  refine hs.turn _ (((hs.look c hf).move_at hm hj).move_at rfl rfl) rfl ?_
  intro d hd
  obtain rfl : d = c.delivery := by simpa using hd
  rfl

/-- A handler returns; after the last callback its entry is retired. -/
theorem finish {d : Delivery Incoming} {id : Nat} {after : List (Job H Incoming)}
    (hs : Stage h r (jobs ++ .running d id :: after)) :
    ∃ later, calls later = [] ∧ Stage (later ++ h) (if d.final then r.retire d.key id else r)
      (jobs ++ .over :: after) := by
  have hm : (Job.running d id : Job H Incoming).moment? r = some (.returned d id) := rfl
  by_cases hd : d.final = true
  · have hj : (Job.running d id : Job H Incoming).step r = (r, .retiring d.key id) := by
      rw [Job.step, if_pos hd]
    have hrun := (hs.run.move_at hm hj).move_at (j := .retiring d.key id) rfl rfl
    rw [if_pos hd]
    refine ⟨[.retired d.key id, .returned d id].map (Prod.mk jobs.length), rfl, ?_⟩
    exact hs.turn _ hrun rfl (by simp)
  · have hj : (Job.running d id : Job H Incoming).step r = (r, .over) := by
      rw [Job.step, if_neg hd]
    have hrest : (Moment.returned d id : Moment H Incoming).rests = true := by
      simpa [Moment.rests] using hd
    rw [if_neg hd]
    exact ⟨[.returned d id].map (Prod.mk jobs.length), rfl,
      hs.turn _ (hs.run.move_at hm hj) hrest (by simp)⟩

/-- The destruction of an object begins, and its entry, if it has one, is marked. -/
theorem seek (hs : Stage h r jobs) (key : Key) :
    ∃ later, calls later = [] ∧ Stage (later ++ (jobs.length, .begun (.seeking key)) :: h)
      ((r.find? key).elim r r.mark) (jobs ++ [.freeing key (r.find? key)]) := by
  have hm : (Job.seeking key : Job H Incoming).moment? r = some (.sought key (r.find? key)) := rfl
  cases hf : r.find? key with
  | none =>
      have hj : (Job.seeking key : Job H Incoming).step r = (r, .freeing key none) := by
        rw [Job.step, hf]
      rw [hf] at hm
      have hrun := (hs.run.begin_last (.seeking key) rfl).move_at hm hj
      refine ⟨[.sought key none].map (Prod.mk jobs.length), rfl, ?_⟩
      exact hs.turn [.begun (.seeking key)] hrun rfl (by simp)
  | some id =>
      have hj : (Job.seeking key : Job H Incoming).step r = (r, .marking key id) := by
        rw [Job.step, hf]
      rw [hf] at hm
      have hrun := ((hs.run.begin_last (.seeking key) rfl).move_at hm hj).move_at
        (j := .marking key id) rfl rfl
      refine ⟨[.marked key id, .sought key (some id)].map (Prod.mk jobs.length), rfl, ?_⟩
      exact hs.turn [.sought key (some id), .begun (.seeking key)] hrun rfl (by simp)

/-- The library has destroyed an object; its entry, if it has one, is retired. -/
theorem free {key : Key} {found : Option Nat} {after : List (Job H Incoming)}
    (hs : Stage h r (jobs ++ .freeing key found :: after)) :
    ∃ later, calls later = [] ∧
      Stage (later ++ h) (found.elim r fun id => r.retire key id) (jobs ++ .over :: after) := by
  cases found with
  | none =>
      exact ⟨[.freed key none].map (Prod.mk jobs.length), rfl,
        hs.turn _ (hs.run.move_at (j := .freeing key none) rfl rfl) rfl (by simp)⟩
  | some id =>
      have hrun := (hs.run.move_at (j := .freeing key (some id)) rfl rfl).move_at
        (j := .retiring key id) rfl rfl
      refine ⟨[.retired key id, .freed key (some id)].map (Prod.mk jobs.length), rfl, ?_⟩
      exact hs.turn _ hrun rfl (by simp)

/-- What is registered has a handler. -/
theorem handler?_isSome (hs : Stage h r jobs) {key : Key} {id : Nat} (hf : r.find? key = some id) :
    ∃ x, r.handler? id = some x := by
  have hins : Inserted h key id := Inserted.of_last ((hs.run.told.current key id).1 hf).1
  have hkey : r.key? id = some key := (hs.run.told.keys key id).2 hins
  rw [Registry.key?, Option.map_eq_some_iff] at hkey
  obtain ⟨e, he, -⟩ := hkey
  exact ⟨e.handler, by rw [Registry.handler?, he]; rfl⟩

end Stage

end LateBinding.Callback
