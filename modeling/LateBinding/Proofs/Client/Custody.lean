import Mathlib.Logic.Function.Basic
import LateBinding.Proofs.Client.Running

/-!
**What a client does to its own objects does not show in copies.**

A library has objects of some kind. A client makes some of them, gives them something to hold, and
destroys them; the others are the library's own, which it lends. Whatever the library keeps of an
object, it keeps in an object of its own. So it does not touch those of the client, and what the
client does to them does not touch what is kept.

Main definitions:

* `LateBinding.Client.Stock` — the objects of a library, and what it keeps;
* `LateBinding.Client.Stock.held?` — what the object behind a handle holds;
* `LateBinding.Client.Stock.put`, `LateBinding.Client.Stock.Makes`, `LateBinding.Client.Stock.Keeps`
  — **what happens to them**;
* `LateBinding.Client.Custody` — a library, and the objects that a client has made;
* `LateBinding.Client.Stock.Serves` — the client's objects hold what it gave them, and are not the
  library's own.

Main results:

* `LateBinding.Client.Stock.makes_of_answer` — an object is made where a handle to it is answered;
* `LateBinding.Client.Stock.Serves.put`, `LateBinding.Client.Stock.Serves.drop` — the client goes on
  with its objects;
* `LateBinding.Client.Stock.Serves.of_keeps` — **they stay as they are where the library keeps
  something**.
-/

set_option autoImplicit false

namespace LateBinding.Client

open Native (Address)
open LateBinding.Symbol (Slot HandleType)

/-! ### What happens to objects -/

/-- The objects of one kind that a library has: what each of them holds while it is alive, those of
them that it lends, and what it keeps. -/
structure Stock (ι β γ : Type) where
  object : Address → Option β
  lent : ι → Address
  kept : γ

/-- A library, and what a client gave to the objects that it has made and not destroyed. -/
structure Custody (σ α : Type) where
  library : σ
  mine : Address → Option α

namespace Stock

variable {ι α β γ : Type}

/-- An object is the library's own if it lends it. -/
def IsLent (s : Stock ι β γ) (a : Address) : Prop := ∃ i, s.lent i = a

/-- What the object behind a handle holds; there is none behind the null handle. -/
def held? (s : Stock ι β γ) (a : Address) : Option β := if a = nullHandle then none else s.object a

/-- An object holds something from now on, or is no longer alive. -/
def put (s : Stock ι β γ) (a : Address) (held : Option β) : Stock ι β γ :=
  { s with object := Function.update s.object a held }

/-- A new object is made, unless the null handle is answered. -/
inductive Makes (isNew : β → Prop) (s : Stock ι β γ) : Address → Stock ι β γ → Prop
  | refused : Makes isNew s nullHandle s
  | made {a : Address} {held : β} (hnull : a ≠ nullHandle) (hnone : s.object a = none)
      (hlent : ¬ s.IsLent a) (hnew : isNew held) : Makes isNew s a (s.put a (some held))

/-- The library keeps something else from now on. It may need objects of its own for that; all
others stay as they are, and none of them becomes its own. -/
structure Keeps (s : Stock ι β γ) (kept : γ) (t : Stock ι β γ) : Prop where
  kept_eq : t.kept = kept
  object_eq : ∀ a, s.object a ≠ none → ¬ s.IsLent a → t.object a = s.object a
  not_isLent : ∀ a, s.object a ≠ none → ¬ s.IsLent a → ¬ t.IsLent a

/-- The objects of a client hold what it gave them, and none of them is the library's own. -/
def Serves (represents : α → β → Prop) (s : Stock ι β γ) (mine : Address → Option α) : Prop :=
  ∀ a x, mine a = some x → ¬ s.IsLent a ∧ ∃ held, s.object a = some held ∧ represents x held

section Puts

variable (s : Stock ι β γ) (a : Address) (held : Option β)

@[simp] theorem object_put_self : (s.put a held).object a = held := by simp [put]

theorem object_put_of_ne {b : Address} (h : b ≠ a) : (s.put a held).object b = s.object b := by
  simp [put, h]

end Puts

theorem Makes.kept_eq {isNew : β → Prop} {s t : Stock ι β γ} {a : Address} (h : s.Makes isNew a t) :
    t.kept = s.kept := by
  cases h <;> rfl

theorem Makes.eq_of_refused {isNew : β → Prop} {s t : Stock ι β γ}
    (h : s.Makes isNew nullHandle t) : t = s := by
  cases h with
  | refused => rfl
  | made hnull => exact absurd rfl hnull

/-- An object is made where a handle to it is answered. -/
theorem makes_of_answer {σ : Type} {lib : Program.Machine σ} (view : σ → Stock ι β γ)
    {isNew : β → Prop} {maker : Slot} {type : HandleType} (hmaker : maker.result = .handle type)
    {s : σ} {a : Address}
    (h : (view s).Makes isNew (lib maker.symbol [] s).2.address (view (lib maker.symbol [] s).1))
    (hanswer : (Operation.direct maker []).answer lib s = .value (.handle a)) :
    (view s).Makes isNew a (view ((Operation.direct maker []).after lib s)) := by
  rw [← address_eq_of_answer hmaker hanswer]
  exact h

namespace Serves

variable {represents : α → β → Prop} {s t : Stock ι β γ} {mine : Address → Option α}
  {a : Address} {x : α} {held : β}

/-- A client without objects. -/
theorem none (represents : α → β → Prop) (s : Stock ι β γ) : s.Serves represents fun _ => .none :=
  nofun

/-- The client has one object more, or gives one something else to hold. -/
theorem put (h : s.Serves represents mine) (hlent : ¬ s.IsLent a) (hx : represents x held) :
    (s.put a (some held)).Serves represents (Function.update mine a (some x)) := by
  intro b y hy
  by_cases hb : b = a
  · subst hb
    rw [Function.update_self] at hy
    cases hy
    exact ⟨hlent, held, s.object_put_self b _, hx⟩
  · rw [Function.update_of_ne hb] at hy
    rw [object_put_of_ne _ _ _ hb]
    exact h b y hy

/-- The client destroys an object. -/
theorem drop (h : s.Serves represents mine) :
    (s.put a .none).Serves represents (Function.update mine a .none) := by
  intro b y hy
  by_cases hb : b = a
  · rw [hb, Function.update_self] at hy
    cases hy
  · rw [Function.update_of_ne hb] at hy
    rw [object_put_of_ne _ _ _ hb]
    exact h b y hy

/-- **Where the library keeps something, the objects of the client stay as they are.** -/
theorem of_keeps (h : s.Serves represents mine) {kept : γ} (hkeeps : s.Keeps kept t) :
    t.Serves represents mine := by
  intro b y hy
  obtain ⟨hlent, held, hobject, hx⟩ := h b y hy
  have hsome : s.object b ≠ .none := by
    rw [hobject]
    exact Option.some_ne_none held
  exact ⟨hkeeps.not_isLent b hsome hlent, held, (hkeeps.object_eq b hsome hlent).trans hobject, hx⟩

/-- The client has an object more if one was made. -/
theorem of_makes {isNew : β → Prop} (h : s.Serves represents mine) (hmakes : s.Makes isNew a t)
    (hnull : a ≠ nullHandle)
    (hx : ∀ held, t.object a = some held → isNew held → represents x held) :
    t.Serves represents (Function.update mine a (some x)) := by
  cases hmakes with
  | refused => exact absurd rfl hnull
  | made _ hnone hlent hnew => exact h.put hlent (hx _ (s.object_put_self a _) hnew)

end Serves

end Stock

end LateBinding.Client
