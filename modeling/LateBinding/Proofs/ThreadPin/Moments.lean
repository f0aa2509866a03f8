import LateBinding.Proofs.Steps
import LateBinding.ThreadPin

/-!
**The count of a thread is the number of its pins that are alive.**

What a thread does is taken apart into moments. At a moment the thread has actions ahead of it, or
it unwinds, and some functions wait for the one that runs. A step acquires a pin, drops one, answers
whether the thread is pinned, or does none of this. Held pins are dropped in any order, also by what
a panic unwinds; the pin of a started function is dropped where the function ends, whichever way it
ends.

**A pin that is dropped has been counted**: no step finds the count at zero and takes one from it.
So the count is the number of the pins that are alive, at every moment, and it comes back to what it
was when the same functions run and as many pins are held as before.

Main definitions:

* `LateBinding.ThreadPin.Moment`, `LateBinding.ThreadPin.Moment.alive` — what a thread is at, and
  how many of its pins are alive;
* `LateBinding.ThreadPin.Step`, `LateBinding.ThreadPin.Path` — **what a thread may do next, and what
  it does in the course of time**;
* `LateBinding.ThreadPin.Moment.IsCounted` — the count is right.

Main results:

* `LateBinding.ThreadPin.Step.isCounted`, `LateBinding.ThreadPin.Path.isCounted` — **the count stays
  right**;
* `LateBinding.ThreadPin.Path.depth_add`, `LateBinding.ThreadPin.Path.answer_iff` — the count and
  the answers by what was acquired and dropped before;
* `LateBinding.ThreadPin.Moment.IsCounted.depth_eq` — the same functions and as many held pins make
  the same count.
-/

set_option autoImplicit false

namespace LateBinding

namespace ThreadPin

/-! ### Moments -/

/-- A thread before a function that is started. -/
def Start.enter : Start → Thread → Thread
  | .direct, t => t
  | .pinned, t => t.enter

/-- A thread behind a function that was started. -/
def Start.leave : Start → Thread → Thread
  | .direct, t => t
  | .pinned, t => t.leave

/-- What waits for the function that runs: the function that started it, or an attempt. -/
inductive Frame where
  | started (how : Start) (rest : List Action)
  | attempted (rest : List Action)

/-- Whether there is a pin that belongs to the function waited for. -/
def Frame.isPinned : Frame → Bool
  | .started .pinned _ => true
  | .started .direct _ => false
  | .attempted _ => false

/-- What a thread is about: the actions ahead of it, or a panic. -/
inductive Phase where
  | doing (ahead : List Action)
  | unwinding (reason : String)

/-- What a thread is at, with the frames that wait, innermost first. -/
structure Moment where
  thread : Thread
  phase : Phase
  frames : List Frame

/-- A fresh thread with a program. -/
def Moment.start (program : List Action) : Moment := ⟨{}, .doing program, []⟩

/-- **How many pins are alive**: those that are held, and those of the functions waited for. -/
def Moment.alive (m : Moment) : Nat := m.thread.held.length + m.frames.countP Frame.isPinned

/-! ### Steps of a thread -/

/-- What a step does to the pins, or answers. -/
inductive Effect where
  | acquired
  | dropped
  | answered (pinned : Bool)
  | silent
deriving DecidableEq

/-- How many pins belong to a function that is started. -/
def Start.pins : Start → Nat
  | .direct => 0
  | .pinned => 1

/-- The start of a function acquires a pin, or does nothing. -/
def Start.beginning : Start → Effect
  | .direct => .silent
  | .pinned => .acquired

/-- The end of a function drops its pin, or does nothing. -/
def Start.ending : Start → Effect
  | .direct => .silent
  | .pinned => .dropped

/-- **One step of a thread.** While it unwinds, pins that are held may be dropped one by one. -/
inductive Step : Moment → Effect → Moment → Prop
  | acquire (t : Thread) (rest : List Action) (fs : List Frame) :
      Step ⟨t, .doing (.acquire :: rest), fs⟩ .acquired ⟨t.acquire, .doing rest, fs⟩
  | drop (t : Thread) (rest : List Action) (fs : List Frame) {i : Nat} (hi : i < t.held.length) :
      Step ⟨t, .doing (.dropAt i :: rest), fs⟩ .dropped ⟨t.dropAt i, .doing rest, fs⟩
  | miss (t : Thread) (rest : List Action) (fs : List Frame) {i : Nat} (hi : t.held.length ≤ i) :
      Step ⟨t, .doing (.dropAt i :: rest), fs⟩ .silent ⟨t, .doing rest, fs⟩
  | observe (t : Thread) (rest : List Action) (fs : List Frame) :
      Step ⟨t, .doing (.observe :: rest), fs⟩ (.answered t.isPinned) ⟨t, .doing rest, fs⟩
  | panic (t : Thread) (reason : String) (rest : List Action) (fs : List Frame) :
      Step ⟨t, .doing (.panic reason :: rest), fs⟩ .silent ⟨t, .unwinding reason, fs⟩
  | start (t : Thread) (how : Start) (body rest : List Action) (fs : List Frame) :
      Step ⟨t, .doing (.start how body :: rest), fs⟩ how.beginning
        ⟨how.enter t, .doing body, .started how rest :: fs⟩
  | attempt (t : Thread) (body rest : List Action) (fs : List Frame) :
      Step ⟨t, .doing (.attempt body :: rest), fs⟩ .silent ⟨t, .doing body, .attempted rest :: fs⟩
  | finish (t : Thread) (how : Start) (rest : List Action) (fs : List Frame) :
      Step ⟨t, .doing [], .started how rest :: fs⟩ how.ending ⟨how.leave t, .doing rest, fs⟩
  | succeed (t : Thread) (rest : List Action) (fs : List Frame) :
      Step ⟨t, .doing [], .attempted rest :: fs⟩ .silent ⟨t, .doing rest, fs⟩
  | dropUnwinding (t : Thread) (reason : String) (fs : List Frame) {i : Nat}
      (hi : i < t.held.length) :
      Step ⟨t, .unwinding reason, fs⟩ .dropped ⟨t.dropAt i, .unwinding reason, fs⟩
  | unwind (t : Thread) (reason : String) (how : Start) (rest : List Action) (fs : List Frame) :
      Step ⟨t, .unwinding reason, .started how rest :: fs⟩ how.ending
        ⟨how.leave t, .unwinding reason, fs⟩
  | recover (t : Thread) (reason : String) (rest : List Action) (fs : List Frame) :
      Step ⟨t, .unwinding reason, .attempted rest :: fs⟩ .silent ⟨t, .doing rest, fs⟩

/-- What a thread does in the course of time. -/
abbrev Path : Moment → List Effect → Moment → Prop := Steps Step

variable {m m' m'' : Moment} {e : Effect} {es es' : List Effect} {t : Thread}
  {actions body rest : List Action}

/-! ### The count -/

/-- **The count is right**: it is the number of the pins that are alive, and as many functions run
under a pin as are waited for. -/
structure Moment.IsCounted (m : Moment) : Prop where
  depth : m.thread.depth = m.alive
  running : m.thread.running = m.frames.countP Frame.isPinned

theorem Moment.isCounted_start (program : List Action) : (Moment.start program).IsCounted :=
  ⟨rfl, rfl⟩

/-- A thread is pinned if a pin is alive. -/
theorem Moment.IsCounted.isPinned_iff (hm : m.IsCounted) :
    m.thread.isPinned = true ↔ 0 < m.alive := by
  rw [Thread.isPinned, hm.depth, bne_iff_ne, Nat.pos_iff_ne_zero]

/-- A pin that is dropped is no longer held. -/
theorem Thread.length_dropAt {i : Nat} (hi : i < t.held.length) :
    (t.dropAt i).held.length + 1 = t.held.length := by
  rw [Thread.dropAt, if_pos hi, List.length_eraseIdx_of_lt hi]
  omega

theorem Thread.depth_dropAt {i : Nat} (hi : i < t.held.length) :
    (t.dropAt i).depth = t.depth - 1 := by
  rw [Thread.dropAt, if_pos hi]

theorem Thread.running_dropAt (t : Thread) (i : Nat) : (t.dropAt i).running = t.running := by
  rw [Thread.dropAt]
  split <;> rfl

/-- What the start of a function does to a thread. -/
theorem Start.enter_eq (how : Start) (t : Thread) :
    how.enter t = { t with depth := t.depth + how.pins, running := t.running + how.pins } := by
  cases how <;> rfl

/-- What the end of a function does to a thread. -/
theorem Start.leave_eq (how : Start) (t : Thread) :
    how.leave t = { t with depth := t.depth - how.pins, running := t.running - how.pins } := by
  cases how <;> rfl

theorem countP_started (how : Start) (rest : List Action) (fs : List Frame) :
    (Frame.started how rest :: fs).countP Frame.isPinned = fs.countP Frame.isPinned + how.pins := by
  cases how with
  | direct => rfl
  | pinned => exact List.countP_cons_of_pos rfl

theorem Start.count_beginning (how : Start) :
    [how.beginning].count .acquired = how.pins ∧ [how.beginning].count .dropped = 0 := by
  cases how <;> exact ⟨rfl, rfl⟩

theorem Start.count_ending (how : Start) :
    [how.ending].count .acquired = 0 ∧ [how.ending].count .dropped = how.pins := by
  cases how <;> exact ⟨rfl, rfl⟩

/-- **What a step does to the pins that are alive.** -/
theorem Step.alive_add (h : Step m e m') :
    m'.alive + [e].count .dropped = m.alive + [e].count .acquired := by
  cases h with
  | acquire t rest fs =>
      have hheld : t.acquire.held.length = t.held.length + 1 := List.length_append
      change t.acquire.held.length + fs.countP Frame.isPinned =
        t.held.length + fs.countP Frame.isPinned + 1
      omega
  | drop t rest fs hi =>
      have hheld := Thread.length_dropAt hi
      change (t.dropAt _).held.length + fs.countP Frame.isPinned + 1 =
        t.held.length + fs.countP Frame.isPinned
      omega
  | miss => rfl
  | observe => rfl
  | panic => rfl
  | start t how body rest fs =>
      simp only [Moment.alive, how.enter_eq, countP_started, how.count_beginning]
      omega
  | attempt => rfl
  | finish t how rest fs =>
      simp only [Moment.alive, how.leave_eq, countP_started, how.count_ending]
      omega
  | succeed => rfl
  | dropUnwinding t reason fs hi =>
      have hheld := Thread.length_dropAt hi
      change (t.dropAt _).held.length + fs.countP Frame.isPinned + 1 =
        t.held.length + fs.countP Frame.isPinned
      omega
  | unwind t reason how rest fs =>
      simp only [Moment.alive, how.leave_eq, countP_started, how.count_ending]
      omega
  | recover => rfl

/-- **A step counts what it does**, and where it drops a pin there is one in the count. -/
theorem Step.depth_add (h : Step m e m') (hm : m.IsCounted) :
    m'.thread.depth + [e].count .dropped = m.thread.depth + [e].count .acquired := by
  obtain ⟨hdepth, hrunning⟩ := hm
  cases h with
  | acquire => rfl
  | drop t rest fs hi =>
      have hlost := Thread.depth_dropAt hi
      -- the pin that is dropped is among those that are alive
      have hsome : t.depth = t.held.length + fs.countP Frame.isPinned := hdepth
      change (t.dropAt _).depth + 1 = t.depth
      omega
  | miss => rfl
  | observe => rfl
  | panic => rfl
  | start t how body rest fs =>
      simp only [how.enter_eq, how.count_beginning]
      omega
  | attempt => rfl
  | finish t how rest fs =>
      simp only [Moment.alive, countP_started] at hdepth
      simp only [how.leave_eq, how.count_ending]
      omega
  | succeed => rfl
  | dropUnwinding t reason fs hi =>
      have hlost := Thread.depth_dropAt hi
      -- the pin that is dropped is among those that are alive
      have hsome : t.depth = t.held.length + fs.countP Frame.isPinned := hdepth
      change (t.dropAt _).depth + 1 = t.depth
      omega
  | unwind t reason how rest fs =>
      simp only [Moment.alive, countP_started] at hdepth
      simp only [how.leave_eq, how.count_ending]
      omega
  | recover => rfl

/-- **The count stays right**, step by step. -/
theorem Step.isCounted (h : Step m e m') (hm : m.IsCounted) : m'.IsCounted := by
  refine ⟨?_, ?_⟩
  · have halive := h.alive_add
    have hdepth := h.depth_add hm
    have heq := hm.depth
    omega
  · have hrunning := hm.running
    cases h with
    | acquire => exact hrunning
    | drop t rest fs hi => exact (t.running_dropAt _).trans hrunning
    | miss => exact hrunning
    | observe => exact hrunning
    | panic => exact hrunning
    | start t how body rest fs =>
        simp only at hrunning
        simp only [how.enter_eq, countP_started, hrunning]
    | attempt => exact hrunning
    | finish t how rest fs =>
        simp only [countP_started] at hrunning
        simp only [how.leave_eq]
        omega
    | succeed => exact hrunning
    | dropUnwinding t reason fs hi => exact (t.running_dropAt _).trans hrunning
    | unwind t reason how rest fs =>
        simp only [countP_started] at hrunning
        simp only [how.leave_eq]
        omega
    | recover => exact hrunning

/-- **The count stays right** in the course of time. -/
theorem Path.isCounted (h : Path m es m') (hm : m.IsCounted) : m'.IsCounted := by
  induction h with
  | refl => exact hm
  | cons hstep _ ih => exact ih (hstep.isCounted hm)

theorem count_cons (e e' : Effect) (es : List Effect) :
    (e :: es).count e' = [e].count e' + es.count e' := by
  rw [← List.count_append]
  rfl

/-- **The count by what was done**: a pin more for each that was acquired, and one less for each
that was dropped. -/
theorem Path.depth_add (h : Path m es m') (hm : m.IsCounted) :
    m'.thread.depth + es.count .dropped = m.thread.depth + es.count .acquired := by
  induction h with
  | refl => rfl
  | @cons m mid m' e es hstep _ ih =>
      have hfirst := hstep.depth_add hm
      have hothers := ih (hstep.isCounted hm)
      rw [count_cons e .dropped es, count_cons e .acquired es]
      omega

/-- **The answers by what was done before them.** -/
theorem Path.answer_iff {pinned : Bool} (h : Path m (es ++ .answered pinned :: es') m'')
    (hm : m.IsCounted) :
    pinned = true ↔ es.count .dropped < m.thread.depth + es.count .acquired := by
  obtain ⟨m', hbefore, hafter⟩ := h.split
  have hcount := Path.depth_add hbefore hm
  have hmid := Path.isCounted hbefore hm
  have hpinned : pinned = m'.thread.isPinned := by
    cases hafter with
    | cons hstep _ =>
        generalize he : Effect.answered pinned = e at hstep
        cases hstep with
        | observe => exact Effect.answered.inj he
        | start t how => cases how <;> cases he
        | finish t how => cases how <;> cases he
        | unwind t reason how => cases how <;> cases he
        | _ => cases he
  rw [hpinned, hmid.isPinned_iff, ← hmid.depth]
  omega

/-- **The same functions and as many held pins make the same count.** -/
theorem Moment.IsCounted.depth_eq (hm : m.IsCounted) (hm' : m'.IsCounted)
    (hframes : m'.frames = m.frames)
    (hheld : m'.thread.held.length = m.thread.held.length) : m'.thread.depth = m.thread.depth := by
  rw [hm.depth, hm'.depth, Moment.alive, Moment.alive, hframes, hheld]

end ThreadPin

end LateBinding
