import LateBinding.Native.CString

/-!
**Arrays of header lines.**

A native array of headers has a count and a pointer to its entries, each of which points to a name
and a value. The array, its entries, a name or a value may be null.

Main definitions:

* `LateBinding.Native.HeaderArray` — an array as it stands in memory;
* `LateBinding.Native.HeaderArray.ofList` — the array that holds copies of some texts;
* `LateBinding.Native.readHeaders` — the texts of an array.
-/

set_option autoImplicit false

namespace LateBinding.Native

/-- An array of headers in memory: its count and capacity, and its entries unless the pointer to
them is null. An entry is the memory behind its name and the memory behind its value. -/
structure HeaderArray where
  count : Nat
  capacity : Nat
  entries : Option (List (Option (List UInt8) × Option (List UInt8)))
deriving DecidableEq, Repr

/-- The array that holds copies of some texts. -/
def HeaderArray.ofList (headers : List (String × String)) : HeaderArray where
  count := headers.length
  capacity := headers.length
  entries := some <| headers.map fun h =>
    (some (CString.ofText h.1).withTerminator, some (CString.ofText h.2).withTerminator)

/-- The texts of an array: none of them if the array or its entries are null. -/
def readHeaders : Option HeaderArray → List (String × String)
  | none => []
  | some a =>
    match a.entries with
    | none => []
    | some entries => (entries.take a.count).map fun h => (readCString h.1, readCString h.2)

end LateBinding.Native
