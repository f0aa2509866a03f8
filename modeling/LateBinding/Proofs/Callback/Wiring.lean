import Mathlib.Data.List.Basic
import LateBinding.Callback.Trampoline

/-!
**Every callback has a function of its own, at its place.**

Four lists must agree if a callback is to end at the method of its name: the order in which the
library takes the functions for an object, the order in which the client passes them, the function
that it gives for each callback, and what each function does. Many of the functions have the same
signature, so nothing but these lists keeps one from standing in the place of another.

Main definitions:

* `LateBinding.Callback.Trampoline.Serves` — a function does what a callback is there for.

Main results:

* `LateBinding.Callback.passed_eq` — functions are passed in the order in which the library takes
  them;
* `LateBinding.Callback.exists_serves` — **the function given for a callback serves it**;
* `LateBinding.Callback.exists_serves_at_place` — so does the one that is passed at its place.
-/

set_option autoImplicit false

namespace LateBinding.Callback

/-- A function does what a callback is there for: it looks in the registry of the kind that the
callback belongs to, takes the words that the library passes, calls the method of that name, and
retires the handler just after a last callback. -/
structure Trampoline.Serves (t : Trampoline) (n : Name) : Prop where
  registry : t.body.registry = n.owner
  once : t.body.once = n.isFinal
  params : t.body.params = n.signature
  method : t.body.method = n

/-- Every function serves the callback whose method it calls. -/
theorem Trampoline.serves_method (t : Trampoline) : t.Serves t.body.method := by
  cases t <;> exact ⟨rfl, rfl, rfl, rfl⟩

/-- Functions are passed in the order in which the library takes them. -/
theorem passed_eq (kind : ObjectKind) : passed kind = kind.entryPoints := by
  cases kind <;> rfl

/-- The callbacks of a kind are all that belong to it. -/
theorem entryPoints_eq (kind : ObjectKind) :
    kind.entryPoints = Name.all.filter fun n => n.owner = kind := by
  cases kind <;> rfl

theorem mem_entryPoints (n : Name) : n ∈ n.owner.entryPoints := by
  have hall : n ∈ Name.all := by cases n <;> decide
  rw [entryPoints_eq]
  exact List.mem_filter.2 ⟨hall, decide_eq_true rfl⟩

/-- A callback stands at its place. -/
theorem getElem?_place (n : Name) : n.owner.entryPoints[n.place]? = some n :=
  List.getElem?_idxOf (mem_entryPoints n)

/-- **The function given for a callback serves it.** -/
theorem exists_serves (n : Name) : ∃ t : Trampoline, handlerFunctions n = .own t ∧ t.Serves n := by
  cases n <;> exact ⟨_, rfl, rfl, rfl, rfl, rfl⟩

/-- **So does the one that is passed at its place.** -/
theorem exists_serves_at_place (n : Name) : ∃ t : Trampoline,
    ((passed n.owner).map handlerFunctions)[n.place]? = some (.own t) ∧ t.Serves n := by
  obtain ⟨t, ht, hserves⟩ := exists_serves n
  refine ⟨t, ?_, hserves⟩
  rw [passed_eq, List.getElem?_map, getElem?_place, Option.map_some, ht]

/-- A callback names its object first. -/
theorem Name.signature_eq_cons (n : Name) :
    ∃ ks, n.signature = .handle n.owner.handleType :: ks := by
  cases n <;> exact ⟨_, rfl⟩

namespace Incoming

variable {c : Incoming}

/-- A callback belongs to the kind of object that it is for. -/
theorem owner_name (c : Incoming) : c.name.owner = c.key.kind :=
  c.trampoline.serves_method.registry.symm

/-- A callback is the last one if its name says so. -/
theorem final_delivery (c : Incoming) : c.delivery.final = c.name.isFinal :=
  c.trampoline.serves_method.once

end Incoming

end LateBinding.Callback
