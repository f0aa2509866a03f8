import Mathlib.Logic.Function.Basic
import LateBinding.Proofs.ThreadPin.Moments

/-!
**Pins are counted exactly, thread by thread.**

A program is run along the steps of its thread, and a panic takes it through the functions that
wait, one after the other, up to an attempt. So what holds at every moment holds of what is run: a
started function that leaves as many pins held as it found leaves the count as it was, **whether it
returns or panics**, and a function that is started as it is counts like its actions alone.

Threads do their steps next to each other, in any order. **Each of them has gone its own way**, as
if the others had not been there; so its answers depend on its own pins only.

Main definitions:

* `LateBinding.ThreadPin.answers`, `LateBinding.ThreadPin.Outcome.phase` — what a thread was told,
  and how it goes on behind a program;
* `LateBinding.ThreadPin.LeadsTo` — **actions lead a thread to an outcome**, along its steps;
* `LateBinding.ThreadPin.Process`, `LateBinding.ThreadPin.Process.Step` — threads side by side;
* `LateBinding.ThreadPin.own` — what a thread itself did.

Main results:

* `LateBinding.ThreadPin.leadsTo_run` — **programs are run along the steps**;
* `LateBinding.ThreadPin.LeadsTo.isCounted`, `LateBinding.ThreadPin.depth_act_start` — what is left
  behind;
* `LateBinding.ThreadPin.run_direct` — a function that is started as it is;
* `LateBinding.ThreadPin.Process.own_path` — threads do not disturb each other;
* `LateBinding.ThreadPin.pins_counted_exactly` — all of it together.
-/

set_option autoImplicit false

namespace LateBinding.ThreadPin

variable {t : Thread} {actions body rest : List Action} {es es' : List Effect} {m m' : Moment}
  {e : Effect}

/-! ### Programs -/

/-- What a step answers, if it does. -/
def Effect.answer? : Effect → Option Bool
  | .answered pinned => some pinned
  | _ => none

/-- What a thread was told, in order. -/
def answers (es : List Effect) : List Bool := es.filterMap Effect.answer?

theorem answers_append (es es' : List Effect) : answers (es ++ es') = answers es ++ answers es' :=
  List.filterMap_append

theorem Start.answer?_beginning (how : Start) : how.beginning.answer? = none := by
  cases how <;> rfl

theorem Start.answer?_ending (how : Start) : how.ending.answer? = none := by
  cases how <;> rfl

/-- How a thread goes on behind what it has run: with the actions ahead of it, or unwinding. -/
def Outcome.phase (o : Outcome) (rest : List Action) : Phase :=
  match o.panicked with
  | none => .doing rest
  | some reason => .unwinding reason

/-- What comes of a program behind which there is another one. -/
def Outcome.andThen (o : Outcome) (next : Thread → Outcome) : Outcome :=
  match o.panicked with
  | none => { next o.thread with seen := o.seen ++ (next o.thread).seen }
  | some _ => o

theorem Outcome.andThen_andThen (o : Outcome) (next last : Thread → Outcome) :
    (o.andThen next).andThen last = o.andThen fun t => (next t).andThen last := by
  obtain ⟨t, seen, panicked⟩ := o
  cases panicked with
  | some reason => rfl
  | none =>
      simp only [Outcome.andThen]
      obtain ⟨t', seen', panicked⟩ := next t
      cases panicked with
      | some reason => rfl
      | none => simp only [List.append_assoc]

theorem run_cons (t : Thread) (a : Action) (rest : List Action) :
    run t (a :: rest) = (act t a).andThen (run · rest) := by
  rw [run, Outcome.andThen]
  cases (act t a).panicked <;> rfl

/-- What a started function comes to: what its body does, between the two ends of its pin. -/
theorem act_start (t : Thread) (how : Start) (body : List Action) :
    act t (.start how body) =
      { run (how.enter t) body with thread := how.leave (run (how.enter t) body).thread } := by
  cases how <;> rw [act] <;> rfl

/-- **Actions lead a thread to an outcome** along its steps, whatever comes behind them and whatever
waits, and what it is told on the way is what the outcome says. -/
def LeadsTo (t : Thread) (actions : List Action) (o : Outcome) : Prop :=
  ∃ es, answers es = o.seen ∧
    ∀ rest fs, Path ⟨t, .doing (actions ++ rest), fs⟩ es ⟨o.thread, o.phase rest, fs⟩

/-- One step that is a whole action. -/
theorem leadsTo_of_step {a : Action} {o : Outcome} (hseen : answers [e] = o.seen)
    (hstep : ∀ rest fs, Step ⟨t, .doing (a :: rest), fs⟩ e ⟨o.thread, o.phase rest, fs⟩) :
    LeadsTo t [a] o :=
  ⟨[e], hseen, fun rest fs => .one (hstep rest fs)⟩

/-- A body that is run while a frame waits: a step leads into it, and a step leads out of it. -/
theorem LeadsTo.framed {a : Action} {t' : Thread} {o o' : Outcome} {first last : Effect}
    {frame : List Action → Frame} (hbody : LeadsTo t' body o) (hfirst : first.answer? = none)
    (hlast : last.answer? = none) (hseen : o'.seen = o.seen)
    (hinto : ∀ rest fs, Step ⟨t, .doing (a :: rest), fs⟩ first ⟨t', .doing body, frame rest :: fs⟩)
    (hout : ∀ rest fs,
      Step ⟨o.thread, o.phase [], frame rest :: fs⟩ last ⟨o'.thread, o'.phase rest, fs⟩) :
    LeadsTo t [a] o' := by
  obtain ⟨es, hanswers, hpath⟩ := hbody
  refine ⟨first :: (es ++ [last]), ?_, fun rest fs => ?_⟩
  · have hends : answers (first :: (es ++ [last])) = answers es := by
      rw [answers, List.filterMap_cons_none hfirst, List.filterMap_append,
        List.filterMap_cons_none hlast]
      exact List.append_nil _
    rw [hends, hanswers, hseen]
  · have hwithin := hpath [] (frame rest :: fs)
    rw [List.append_nil] at hwithin
    exact .cons (hinto rest fs) (hwithin.append (.one (hout rest fs)))

/-- A body leads to the outcome of the function that is started with it. -/
theorem LeadsTo.start {how : Start} (hbody : LeadsTo (how.enter t) body (run (how.enter t) body)) :
    LeadsTo t [.start how body] (act t (.start how body)) := by
  rw [act_start]
  refine hbody.framed how.answer?_beginning how.answer?_ending rfl
    (fun rest fs => .start t how body rest fs) (fun rest fs => ?_)
  rw [Outcome.phase, Outcome.phase]
  cases (run (how.enter t) body).panicked with
  | none => exact .finish _ how rest fs
  | some reason => exact .unwind _ reason how rest fs

/-- A body leads to the outcome of an attempt of it. -/
theorem LeadsTo.attempt (hbody : LeadsTo t body (run t body)) :
    LeadsTo t [.attempt body] (act t (.attempt body)) := by
  rw [act]
  refine hbody.framed (rfl : Effect.silent.answer? = none) (rfl : Effect.silent.answer? = none) rfl
    (fun rest fs => .attempt t body rest fs) (fun rest fs => ?_)
  rw [Outcome.phase, Outcome.phase]
  cases (run t body).panicked with
  | none => exact .succeed _ rest fs
  | some reason => exact .recover _ reason rest fs

/-- An action, and actions behind it unless it panics. -/
theorem LeadsTo.andThen {a : Action} {o : Outcome} {next : Thread → Outcome}
    (hfirst : LeadsTo t [a] o)
    (hnext : o.panicked = none → LeadsTo o.thread rest (next o.thread)) :
    LeadsTo t (a :: rest) (o.andThen next) := by
  obtain ⟨es, hanswers, hpath⟩ := hfirst
  rw [Outcome.andThen]
  cases hpanicked : o.panicked with
  | some reason =>
      refine ⟨es, hanswers, fun after fs => ?_⟩
      have hhere := hpath (rest ++ after) fs
      rw [Outcome.phase, hpanicked] at hhere ⊢
      exact hhere
  | none =>
      obtain ⟨es', hanswers', hpath'⟩ := hnext hpanicked
      refine ⟨es ++ es', ?_, fun after fs => ?_⟩
      · rw [answers_append, hanswers, hanswers']
      · have hhere := hpath (rest ++ after) fs
        rw [Outcome.phase, hpanicked] at hhere
        exact hhere.append (hpath' after fs)

/-- **Programs are run along the steps of a thread.** -/
theorem leadsTo_run (t : Thread) (actions : List Action) : LeadsTo t actions (run t actions) := by
  -- the cases are those of a single action, and of a list up to a panic
  refine run.induct (fun t a => LeadsTo t [a] (act t a))
    (fun t actions => LeadsTo t actions (run t actions))
    ?acquire ?drop ?observe ?panic ?direct ?pinned ?attempt ?nil ?panicked ?next t actions
  case acquire =>
    intro t
    rw [act]
    exact leadsTo_of_step rfl fun rest fs => .acquire t rest fs
  case drop =>
    intro t i
    rw [act]
    by_cases hi : i < t.held.length
    · exact leadsTo_of_step rfl fun rest fs => .drop t rest fs hi
    · rw [Thread.dropAt, if_neg hi]
      exact leadsTo_of_step rfl fun rest fs => .miss t rest fs (Nat.le_of_not_lt hi)
  case observe =>
    intro t
    rw [act]
    exact leadsTo_of_step rfl fun rest fs => .observe t rest fs
  case panic =>
    intro t reason
    rw [act]
    exact leadsTo_of_step rfl fun rest fs => .panic t reason rest fs
  case direct =>
    intro t body ih
    exact LeadsTo.start ih
  case pinned =>
    intro t body ih
    exact LeadsTo.start ih
  case attempt =>
    intro t body ih
    exact ih.attempt
  case nil =>
    intro t
    rw [run]
    exact ⟨[], rfl, fun rest fs => .refl _⟩
  case panicked =>
    intro t a rest o reason hpanicked ih
    rw [run_cons]
    refine ih.andThen fun hnone => ?_
    rw [hpanicked] at hnone
    cases hnone
  case next =>
    intro t a rest o _ ih ih'
    rw [run_cons]
    exact ih.andThen fun _ => ih'

/-! ### What a program leaves behind -/

/-- **The count of a thread is right**: it is the number of the pins held and of the functions
running under a pin. -/
def Thread.IsCounted (t : Thread) : Prop := t.depth = t.held.length + t.running

/-- A thread whose count is right, with what may wait for it. -/
theorem Thread.IsCounted.moment (ht : t.IsCounted) (phase : Phase) :
    (Moment.mk t phase (List.replicate t.running (.started .pinned []))).IsCounted := by
  have hframes :
      (List.replicate t.running (Frame.started .pinned [])).countP Frame.isPinned = t.running := by
    rw [List.countP_replicate]
    exact if_pos rfl
  refine ⟨?_, hframes.symm⟩
  rw [Moment.alive, hframes]
  exact ht

/-- **What actions leave behind**: the count is right, and as many functions run as before. -/
theorem LeadsTo.isCounted {o : Outcome} (h : LeadsTo t actions o) (ht : t.IsCounted) :
    o.thread.IsCounted ∧ o.thread.running = t.running := by
  obtain ⟨es, -, hpath⟩ := h
  have hbefore := ht.moment (.doing (actions ++ []))
  have hafter := Path.isCounted (hpath [] _) hbefore
  have hrunning : o.thread.running = t.running := hafter.running.trans hbefore.running.symm
  have hdepth := hafter.depth
  rw [Moment.alive, ← hafter.running] at hdepth
  exact ⟨hdepth, hrunning⟩

/-- **A started function that leaves as many pins held as it found leaves the count as it was**,
whichever way it ends. -/
theorem depth_act_start {how : Start} (ht : t.IsCounted)
    (hheld : (run (how.enter t) body).thread.held.length = t.held.length) :
    (act t (.start how body)).thread.depth = t.depth := by
  obtain ⟨hcounted, hrunning⟩ := (LeadsTo.start (leadsTo_run (how.enter t) body)).isCounted ht
  have hsame : (act t (.start how body)).thread.held.length = t.held.length := by
    rw [act_start, how.leave_eq]
    exact hheld
  rw [hcounted, hsame, hrunning, ht]

theorem run_append (t : Thread) (actions rest : List Action) :
    run t (actions ++ rest) = (run t actions).andThen (run · rest) := by
  induction actions generalizing t with
  | nil => rw [List.nil_append, run]; rfl
  | cons a actions ih =>
      rw [List.cons_append, run_cons, run_cons, Outcome.andThen_andThen]
      exact congrArg (act t a).andThen (funext ih)

/-- **A function that is started as it is** does what its actions do where it is started, and
nothing else. -/
theorem run_direct (t : Thread) (body rest : List Action) :
    run t (.start .direct body :: rest) = run t (body ++ rest) := by
  rw [run_cons, run_append, act]

/-- The two ends of a function that is started as it is do nothing to the thread. -/
theorem Step.thread_eq_of_direct (h : Step m e m')
    (hframes : m'.frames = .started .direct rest :: m.frames ∨
      m.frames = .started .direct rest :: m'.frames) :
    m'.thread = m.thread := by
  have hlonger : ∀ (x y : Frame) (fs : List Frame), fs ≠ x :: y :: fs := by
    intro x y fs h
    have hlength : fs.length = fs.length + 2 := congrArg List.length h
    omega
  -- what changes the thread leaves the frames alone, or is the start or the end of a function with
  -- a pin
  cases h with
  | start t how body rest' fs =>
      cases how with
      | direct => rfl
      | pinned => simp [hlonger] at hframes
  | finish t how rest' fs =>
      cases how with
      | direct => rfl
      | pinned => simp [hlonger] at hframes
  | unwind t reason how rest' fs =>
      cases how with
      | direct => rfl
      | pinned => simp [hlonger] at hframes
  | acquire => simp at hframes
  | drop => simp at hframes
  | dropUnwinding => simp at hframes
  | miss => rfl
  | observe => rfl
  | panic => rfl
  | attempt => rfl
  | succeed => rfl
  | recover => rfl

/-! ### Threads side by side -/

variable {ι : Type} [DecidableEq ι] {p p' : ι → Moment} {log : List (ι × Effect)} {i j : ι}

/-- Threads side by side, with what each of them is at. -/
abbrev Process (ι : Type) := ι → Moment

/-- Fresh threads with their programs. -/
def Process.start (programs : ι → List Action) : Process ι := fun i => .start (programs i)

/-- One step of one of the threads. -/
inductive Process.Step : Process ι → ι × Effect → Process ι → Prop
  | one (p : Process ι) {i : ι} {e : Effect} {m : Moment} (h : ThreadPin.Step (p i) e m) :
      Process.Step p (i, e) (Function.update p i m)

/-- What a thread itself did. -/
def own (i : ι) (log : List (ι × Effect)) : List Effect :=
  (log.filter fun x => x.1 = i).map Prod.snd

/-- The others stay where they are. -/
theorem Process.Step.eq_of_ne (h : Process.Step p (j, e) p') (hne : i ≠ j) : p' i = p i := by
  cases h with
  | one h => exact Function.update_of_ne hne _ _

/-- **Threads do not disturb each other**: each of them has gone its own way. -/
theorem Process.own_path (h : Steps Process.Step p log p') (i : ι) :
    Path (p i) (own i log) (p' i) := by
  induction h with
  | refl p => exact .refl (p i)
  | @cons p mid p' l log hstep _ ih =>
      cases hstep with
      | @one j e m hthread =>
          by_cases hij : j = i
          · subst hij
            rw [own, List.filter_cons_of_pos (by simp)]
            rw [Function.update_self] at ih
            exact .cons hthread ih
          · rw [own, List.filter_cons_of_neg (by simpa using hij)]
            rw [Function.update_of_ne (Ne.symm hij)] at ih
            exact ih

/-- **Pins are counted exactly.** Whatever threads run side by side, and at every moment, the count
of each of them is the number of its own pins that are alive; it is pinned if there is one, it was
told so at each of its observations, and no drop of a pin finds the count at zero. A step of another
thread does nothing to it.

While the same functions run and as many pins are held, the count is the same: a started function
that leaves as many pins held as it found leaves the count as it was, whether it returns or panics.
The ends of a function that is started as it is do nothing, and its actions are run as if they stood
there. All this is about the programs that are run, which go along these steps. -/
theorem pins_counted_exactly :
    (∀ (ι : Type) [DecidableEq ι] (programs : ι → List Action) log p,
      Steps Process.Step (Process.start programs) log p → ∀ i,
        (p i).thread.depth = (p i).alive ∧ ((p i).thread.isPinned = true ↔ 0 < (p i).alive) ∧
        (p i).thread.depth + (own i log).count .dropped = (own i log).count .acquired ∧
        (∀ m, Step (p i) .dropped m → m.thread.depth + 1 = (p i).thread.depth) ∧
        (∀ before pinned after, own i log = before ++ .answered pinned :: after →
          (pinned = true ↔ before.count .dropped < before.count .acquired)) ∧
        ∀ j e p', Process.Step p (j, e) p' → i ≠ j → p' i = p i) ∧
    (∀ program es m es' m', Path (.start program) es m → Path m es' m' → m'.frames = m.frames →
      m'.thread.held.length = m.thread.held.length → m'.thread.depth = m.thread.depth) ∧
    (∀ m e m' rest, Step m e m' →
      (m'.frames = .started .direct rest :: m.frames ∨
        m.frames = .started .direct rest :: m'.frames) →
      m'.thread = m.thread) ∧
    (∀ t how body, t.IsCounted → (run (how.enter t) body).thread.held.length = t.held.length →
      (act t (.start how body)).thread.depth = t.depth) ∧
    (∀ t body rest, run t (.start .direct body :: rest) = run t (body ++ rest)) ∧
    ∀ program, ∃ es, answers es = (run {} program).seen ∧
      Path (.start program) es ⟨(run {} program).thread, (run {} program).phase [], []⟩ := by
  refine ⟨?_, ?_, fun m e m' rest => Step.thread_eq_of_direct, fun t how body => depth_act_start,
    run_direct, ?_⟩
  · intro ι _ programs log p h i
    have hstart : (Process.start programs i).IsCounted := Moment.isCounted_start (programs i)
    have hzero : (Process.start programs i).thread.depth = 0 := rfl
    have hpath : Path (Process.start programs i) (own i log) (p i) := Process.own_path h i
    have hcounted : (p i).IsCounted := hpath.isCounted hstart
    refine ⟨hcounted.depth, hcounted.isPinned_iff, ?_, ?_, ?_, fun j e p' => Process.Step.eq_of_ne⟩
    · have hdepth := hpath.depth_add hstart
      rw [hzero, Nat.zero_add] at hdepth
      exact hdepth
    · intro m hdrop
      exact hdrop.depth_add hcounted
    · intro before pinned after hown
      rw [hown] at hpath
      have hanswer := hpath.answer_iff hstart
      rw [hzero, Nat.zero_add] at hanswer
      exact hanswer
  · intro program es m es' m' h h' hframes hheld
    have hm : m.IsCounted := Path.isCounted h (Moment.isCounted_start program)
    exact hm.depth_eq (Path.isCounted h' hm) hframes hheld
  · intro program
    obtain ⟨es, hanswers, hpath⟩ := leadsTo_run {} program
    have hprogram := hpath [] []
    rw [List.append_nil] at hprogram
    exact ⟨es, hanswers, hprogram⟩

/-- A body that drops its pins out of order, and panics within two functions under pins. -/
def crossing : List Action :=
  [.acquire, .acquire, .dropAt 1, .start .direct [.start .pinned [.dropAt 1, .panic "lost"]]]

/-- A program that looks within a function that panics, and again behind the attempt of it. -/
def recovered : List Action := [.attempt [.start .pinned [.observe, .panic "lost"]], .observe]

/-- Two threads: one starts a function that panics, the other one looks. -/
def sideBySide : Bool → List Action
  | true => [.start .pinned [.panic "lost"]]
  | false => [.observe]

/-- A panic that crosses two functions under pins leaves the count of a thread with one pin at one,
and a panic that is caught leaves none; while a thread unwinds it is pinned, and the one next to it
is not. -/
theorem pinned_while_unwinding :
    ((act (({} : Thread).acquire) (.start .pinned crossing)).panicked = some "lost" ∧
      (act (({} : Thread).acquire) (.start .pinned crossing)).thread.depth = 1) ∧
    ((run {} recovered).seen = [true, false] ∧ (run {} recovered).thread.depth = 0) ∧
    ∃ p, Steps Process.Step (Process.start sideBySide)
        [(true, .acquired), (false, .answered false), (true, .silent)] p ∧
      (p true).thread.depth = 1 ∧ (p true).thread.isPinned = true ∧
        (p false).thread.isPinned = false ∧
      ∀ m, Step (p true) .dropped m → m.thread.depth + 1 = 1 := by
  obtain ⟨hside, hsame, -, hstarted, -, hrun⟩ := pins_counted_exactly
  obtain ⟨es, -, hpath⟩ := hrun recovered
  refine ⟨⟨rfl, hstarted _ .pinned crossing rfl rfl⟩,
    ⟨rfl, hsame recovered [] _ es _ (.refl _) hpath rfl rfl⟩, ?_⟩
  let first : Process Bool := Process.start sideBySide
  let second :=
    Function.update first true ⟨({} : Thread).enter, .doing [.panic "lost"], [.started .pinned []]⟩
  let third := Function.update second false ⟨{}, .doing [], []⟩
  let fourth :=
    Function.update third true ⟨({} : Thread).enter, .unwinding "lost", [.started .pinned []]⟩
  have hsteps : Steps Process.Step first
      [(true, .acquired), (false, .answered false), (true, .silent)] fourth :=
    .cons (.one first (.start {} .pinned [.panic "lost"] [] []))
      (.cons (.one second (.observe {} [] []))
        (.one (.one third (.panic ({} : Thread).enter "lost" [] [.started .pinned []]))))
  obtain ⟨hdepth, hpinned, -, hdrop, -⟩ := hside Bool sideBySide _ fourth hsteps true
  obtain ⟨-, hother, -⟩ := hside Bool sideBySide _ fourth hsteps false
  have halive : (fourth true).alive = 1 := rfl
  refine ⟨fourth, hsteps, hdepth.trans halive, hpinned.2 (halive ▸ Nat.one_pos), ?_, ?_⟩
  · exact Bool.eq_false_iff.2 fun h => absurd (hother.1 h) (Nat.lt_irrefl 0)
  · intro m hm
    exact (hdrop m hm).trans (hdepth.trans halive)

end LateBinding.ThreadPin
