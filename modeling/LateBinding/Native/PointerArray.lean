/-!
**Arrays of pointers to bytes.**

A list of byte strings is handed over as an array with one pointer for each of them, in order. An
empty byte string has a null pointer, and the empty list a null array.

Main definitions:

* `LateBinding.Native.PointerArray`, `LateBinding.Native.PointerArray.ofList`;
* `LateBinding.Native.PointerArray.isNull` — whether the array itself is the null pointer.
-/

set_option autoImplicit false

namespace LateBinding.Native

/-- An array of pointers: for each, the bytes behind it, or none for the null pointer. -/
structure PointerArray where
  slots : List (Option (List UInt8))
deriving DecidableEq, Repr

namespace PointerArray

/-- The array that points to some byte strings. -/
def ofList (items : List (List UInt8)) : PointerArray :=
  ⟨items.map fun bs => if bs.isEmpty then none else some bs⟩

/-- The number of pointers. -/
def length (a : PointerArray) : Nat := a.slots.length

/-- Whether the array itself is handed over as the null pointer. -/
def isNull (a : PointerArray) : Bool := a.slots.isEmpty

/-- The first bytes behind each pointer; nothing behind a null pointer. -/
def read (a : PointerArray) (size : Nat) : List (List UInt8) :=
  a.slots.map fun s => (s.getD []).take size

end PointerArray

end LateBinding.Native
