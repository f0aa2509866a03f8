import LateBinding.Callback.Event

/-!
**The handlers of objects, and who may call them.**

A registry maps an object, given by its kind and its address, to the entry that was inserted for it
last. An entry has an identity of its own, because the library may give the address of a dead object
to a new one. Destroying an object marks its entry before the library is told; a marked entry is not
called any more.

What goes on at a registry are *jobs*, which take atomic steps and may interleave in any way: to
insert a handler, to deliver a callback (look the entry up, check its mark, call the handler, and
retire the entry if the callback was final), and to destroy an object (look the entry up, mark it,
let the library destroy it, retire the entry). **An entry is retired only if it is still the one
that is registered.**

Main definitions:

* `LateBinding.Callback.Key`, `LateBinding.Callback.Entry`, `LateBinding.Callback.Registry`;
* `LateBinding.Callback.Delivery` — a callback on its way to a handler;
* `LateBinding.Callback.Job`, `LateBinding.Callback.Job.step` — **one atomic step of a job**.
-/

set_option autoImplicit false

namespace LateBinding.Callback

open Native (Address)

/-- An object: its kind and its address. -/
structure Key where
  kind : ObjectKind
  address : Address
deriving DecidableEq, Repr

/-- A handler that was inserted for an object. -/
structure Entry (H : Type) where
  key : Key
  handler : H
  destroyed : Bool

/-- The handlers of objects. The identity of an entry is its place among all that were ever
inserted; `current` gives the entry that is registered for an object. -/
structure Registry (H : Type) where
  entries : List (Entry H) := []
  current : List (Key × Nat) := []

namespace Registry

variable {H : Type}

/-- The entry that is registered for an object. -/
def find? (r : Registry H) (key : Key) : Option Nat :=
  (r.current.find? fun c => c.1 = key).map (·.2)

/-- Whether an entry is marked as destroyed. -/
def isMarked (r : Registry H) (id : Nat) : Bool :=
  match r.entries[id]? with
  | some e => e.destroyed
  | none => false

/-- The handler of an entry. -/
def handler? (r : Registry H) (id : Nat) : Option H :=
  r.entries[id]?.map Entry.handler

/-- A handler inserted for an object; it replaces the one before. -/
def insert (r : Registry H) (key : Key) (h : H) : Registry H where
  entries := r.entries ++ [⟨key, h, false⟩]
  current := (key, r.entries.length) :: r.current.filter fun c => c.1 ≠ key

/-- An entry marked as destroyed. -/
def mark (r : Registry H) (id : Nat) : Registry H :=
  { r with entries := r.entries.modify id fun e => { e with destroyed := true } }

/-- An entry taken out, if it is the one that is registered for the object. -/
def retire (r : Registry H) (key : Key) (id : Nat) : Registry H :=
  if r.find? key = some id then { r with current := r.current.filter fun c => c.1 ≠ key } else r

end Registry

/-- A callback on its way: the object that it is for, whether it is the last one for that object,
and what the handler is told. -/
structure Delivery (M : Type) where
  key : Key
  final : Bool
  message : M

/-- What goes on at a registry, and where it stands. -/
inductive Job (H M : Type) where
  | inserting (key : Key) (handler : H)
  | finding (d : Delivery M)
  | checking (d : Delivery M) (id : Nat)
  | calling (d : Delivery M) (id : Nat)
  | running (d : Delivery M) (id : Nat)
  | seeking (key : Key)
  | marking (key : Key) (id : Nat)
  | freeing (key : Key) (found : Option Nat)
  | retiring (key : Key) (id : Nat)
  | over

namespace Job

variable {H M : Type}

/-- The delivery of a callback begins. -/
def deliver (d : Delivery M) : Job H M := .finding d

/-- The destruction of an object begins. -/
def destroy (key : Key) : Job H M := .seeking key

/-- One atomic step of a job. Between the steps to and from `running` the handler runs, and before
the step from `freeing` the library destroys the object; what they do is not part of the
registry. -/
def step (r : Registry H) : Job H M → Registry H × Job H M
  | .inserting key h => (r.insert key h, .over)
  | .finding d =>
    match r.find? d.key with
    | some id => (r, .checking d id)
    | none => (r, .over)
  | .checking d id => if r.isMarked id then (r, .over) else (r, .calling d id)
  | .calling d id => (r, .running d id)
  | .running d id => (r, if d.final then .retiring d.key id else .over)
  | .seeking key =>
    match r.find? key with
    | some id => (r, .marking key id)
    | none => (r, .freeing key none)
  | .marking key id => (r.mark id, .freeing key (some id))
  | .freeing key found =>
    match found with
    | some id => (r, .retiring key id)
    | none => (r, .over)
  | .retiring key id => (r.retire key id, .over)
  | .over => (r, .over)

end Job

end LateBinding.Callback
