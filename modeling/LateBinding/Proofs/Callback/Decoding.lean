import Mathlib.Data.List.Forall2
import LateBinding.Proofs.Callback.Wiring

/-!
**What a handler is told of the words of a callback.**

A callback passes words of the kinds that its signature names. The handler is told one value for
each word, in the same order: a handle, a number or a raw pointer as it is, the text behind a
pointer, the lines of an array of headers, a code with its raw value.

Main definitions:

* `LateBinding.Callback.Fits`, `LateBinding.Callback.Incoming.IsTyped` — words that a callback may
  pass;
* `LateBinding.Callback.Conveys` — what a value tells of a word.

Main results:

* `LateBinding.Callback.Incoming.IsTyped.conveys` — **every word of a callback is told of, in
  order**;
* `LateBinding.Callback.Incoming.IsTyped.head?_event` — the first of them is the handle of the
  object.
-/

set_option autoImplicit false

namespace LateBinding.Callback

open LateBinding.Symbol (CodeType HandleType Kind)
open Native (Address HeaderArray Value Word readCString readHeaders)

/-- A word that can be passed where a callback names a kind. -/
inductive Fits : Kind → Word → Prop
  | handle (t : HandleType) (a : Address) : Fits (.handle t) (.handle a)
  | int32 (n : Int) : Fits .int32 (.int n)
  | uint64 (n : Int) : Fits .uint64 (.int n)
  | code (t : CodeType) (n : Int) : Fits (.code t) (.int n)
  | text (memory : Option (List UInt8)) : Fits .text (.text memory)
  | headers (array : Option HeaderArray) : Fits .headers (.headers array)
  | rawPointer (p : UInt64) : Fits .rawPointer (.context p)

/-- A callback passes what its signature names. -/
def Incoming.IsTyped (c : Incoming) : Prop := List.Forall₂ Fits c.name.signature c.args

/-- What a value tells of a word of a kind. -/
inductive Conveys : Kind × Word → Value → Prop
  | handle (t : HandleType) (a : Address) : Conveys (.handle t, .handle a) (.handle a)
  | int32 (n : Int) : Conveys (.int32, .int n) (.int n)
  | uint64 (n : Int) : Conveys (.uint64, .int n) (.int n)
  | code (t : CodeType) (n : Int) : Conveys (.code t, .int n) (.code t n)
  | text (memory : Option (List UInt8)) :
      Conveys (.text, .text memory) (.text (readCString memory))
  | headers (array : Option HeaderArray) :
      Conveys (.headers, .headers array) (.headers (readHeaders array))
  | rawPointer (p : UInt64) : Conveys (.rawPointer, .context p) (.context p)

theorem Fits.conveys {k : Kind} {w : Word} (hw : Fits k w) : Conveys (k, w) (w.decode k) := by
  cases hw with
  | handle t a => exact .handle t a
  | int32 n => exact .int32 n
  | uint64 n => exact .uint64 n
  | code t n => exact .code t n
  | text memory => exact .text memory
  | headers array => exact .headers array
  | rawPointer p => exact .rawPointer p

namespace Incoming

variable {c : Incoming}

/-- What the handler is told, by what the library passes. -/
theorem event_eq (c : Incoming) :
    c.event = ⟨c.name, (c.name.signature.zip c.args).map fun p => p.2.decode p.1⟩ := by
  rw [event, c.trampoline.serves_method.params]
  rfl

/-- **Every word of a callback is told of, in order.** -/
theorem IsTyped.conveys (hc : c.IsTyped) :
    List.Forall₂ Conveys (c.name.signature.zip c.args) c.event.values := by
  rw [event_eq, List.forall₂_map_right_iff, List.forall₂_same]
  intro p hp
  exact (List.forall₂_zip hc hp).conveys

/-- No word is left out. -/
theorem IsTyped.length_event (hc : c.IsTyped) : c.event.values.length = c.args.length := by
  rw [← hc.conveys.length_eq, List.length_zip, hc.length_eq, Nat.min_self]

/-- The first value is the handle of the object. -/
theorem IsTyped.head?_event (hc : c.IsTyped) :
    c.event.values.head? = some (.handle c.address) := by
  obtain ⟨ks, hks⟩ := c.name.signature_eq_cons
  rw [event_eq]
  obtain ⟨t, args⟩ := c
  rw [IsTyped, hks] at hc
  cases hc with
  | cons hw _ =>
      cases hw with
      | handle t a => simp [address, hks, Word.decode, Word.address]

end Incoming

end LateBinding.Callback
