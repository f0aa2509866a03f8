/-!
**Keeping a thread while native code starts.**

A pin marks its thread as one that must not be left; a thread is pinned while it has a pin that is
alive. Pins are counted, may overlap, and may be dropped in any order. A function can be started
under a pin of its own, which is dropped when the function returns and also when it panics. A panic
ends what runs, function by function, up to an attempt, behind which the thread goes on.

Main definitions:

* `LateBinding.ThreadPin.Thread` — the count of a thread, and the pins that it holds;
* `LateBinding.ThreadPin.Start` — whether a function is started under a pin;
* `LateBinding.ThreadPin.Action`, `LateBinding.ThreadPin.run` — programs of one thread.
-/

set_option autoImplicit false

namespace LateBinding.ThreadPin

/-- A thread: its count of pins, the pins that it holds, oldest first, and how many functions it is
running under a pin of their own. Pins are named by numbers. -/
structure Thread where
  depth : Nat := 0
  held : List Nat := []
  running : Nat := 0
  next : Nat := 0
deriving DecidableEq, Repr

namespace Thread

/-- Whether the thread is pinned. -/
def isPinned (t : Thread) : Bool := t.depth != 0

/-- A new pin is acquired and held. -/
def acquire (t : Thread) : Thread :=
  { t with depth := t.depth + 1, held := t.held ++ [t.next], next := t.next + 1 }

/-- The held pin at a place is dropped, if there is one. -/
def dropAt (t : Thread) (i : Nat) : Thread :=
  if i < t.held.length then { t with depth := t.depth - 1, held := t.held.eraseIdx i } else t

/-- The oldest pin is dropped. -/
def dropOldest (t : Thread) : Thread := t.dropAt 0

/-- The newest pin is dropped. -/
def dropNewest (t : Thread) : Thread := t.dropAt (t.held.length - 1)

/-- A pin that belongs to a function being started. -/
def enter (t : Thread) : Thread := { t with depth := t.depth + 1, running := t.running + 1 }

/-- The end of a function that was started under a pin. -/
def leave (t : Thread) : Thread := { t with depth := t.depth - 1, running := t.running - 1 }

end Thread

/-- How a function is started: as it is, or under a pin. -/
inductive Start where
  | direct
  | pinned
deriving DecidableEq, Repr

/-- How functions are started on a platform whose threads need no pin. -/
def Start.active : Start := .direct

/-- What a thread does. -/
inductive Action where
  | acquire
  | dropAt (i : Nat)
  | observe
  | panic (reason : String)
  | start (how : Start) (body : List Action)
  | attempt (body : List Action)

/-- The outcome of a program: the thread after it, whether the thread was pinned at each
observation, and the panic that ended it. -/
structure Outcome where
  thread : Thread
  seen : List Bool
  panicked : Option String
deriving DecidableEq, Repr

mutual

/-- One action. -/
def act (t : Thread) : Action → Outcome
  | .acquire => ⟨t.acquire, [], none⟩
  | .dropAt i => ⟨t.dropAt i, [], none⟩
  | .observe => ⟨t, [t.isPinned], none⟩
  | .panic reason => ⟨t, [], some reason⟩
  | .start .direct body => run t body
  | .start .pinned body =>
    let o := run t.enter body
    { o with thread := o.thread.leave }
  | .attempt body =>
    -- a panic goes no further than this
    let o := run t body
    { o with panicked := none }

/-- Actions one after the other, up to a panic. -/
def run (t : Thread) : List Action → Outcome
  | [] => ⟨t, [], none⟩
  | a :: rest =>
    let o := act t a
    match o.panicked with
    | some _ => o
    | none =>
      let p := run o.thread rest
      { p with seen := o.seen ++ p.seen }

end

/-- A pin in a diagnostic. -/
def debug : String := "ThreadPin \x7b _thread_bound: PhantomData<*const ()> \x7d"

end LateBinding.ThreadPin
