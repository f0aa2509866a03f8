import LateBinding.Error
import LateBinding.Symbol.Table

/-!
**Binding the functions of a library.**

A source gives the address of a symbol, or none; a null address counts as none. Binding asks for the
registered symbols one after the other and **stops at the first that is missing**, while an audit
goes through all of them.

Main definitions:

* `LateBinding.Symbol.Source`, `LateBinding.Symbol.require`;
* `LateBinding.Symbol.missing` — all symbols of a table that a source lacks;
* `LateBinding.Symbol.bindAll` — the symbols asked for, and the one that stopped it;
* `LateBinding.Symbol.FloatSupport` — whether floating-point numbers can be passed.
-/

set_option autoImplicit false

namespace LateBinding.Symbol

/-- Where symbols are looked up: the address of each, if there is one. -/
abbrev Source := String → Option Nat

/-- Whether a source has a symbol at an address that is not null. -/
def isBound (source : Source) (symbol : String) : Bool :=
  match source symbol with
  | some address => address != 0
  | none => false

/-- The address of a symbol, or the error that it is missing. -/
def require (source : Source) (symbol : String) : Except Error Nat :=
  match source symbol with
  | some address => if address = 0 then .error (.symbolMissing symbol) else .ok address
  | none => .error (.symbolMissing symbol)

/-- The symbols of a table that a source lacks, in order. -/
def missing (source : Source) (table : List Slot) : List String :=
  (table.map Slot.symbol).filter fun s => !isBound source s

/-- Asks for symbols in order until one is missing: those asked for, and the missing one. -/
def bindAll (source : Source) : List String → List String × Option String
  | [] => ([], none)
  | s :: rest =>
    if isBound source s then
      let (asked, stop) := bindAll source rest
      (s :: asked, stop)
    else ([s], some s)

/-! ### Floating-point numbers -/

/-- Whether a platform can pass floating-point numbers. -/
inductive FloatSupport where
  | native
  | unsupported
deriving DecidableEq, Repr

namespace FloatSupport

/-- The support of a platform with words of 64 bits. -/
def active : FloatSupport := .native

/-- Whether floating-point numbers can be passed. -/
def isSupported : FloatSupport → Bool
  | .native => true
  | .unsupported => false

/-- The functions that are bound besides those of the main table. -/
def table : FloatSupport → List Slot
  | .native => floatTable
  | .unsupported => []

/-- What the functions are about, in a message. -/
def operation : String := "NetworkThreadPriority"

/-- Why a floating-point call cannot be made, given whether its functions are bound. -/
def refusal (f : FloatSupport) (bound : Bool) : Option Error :=
  match f with
  | .unsupported => some (.platformUnsupported operation)
  | .native =>
    if bound then none
    else some (.symbolMissing "Cronet_EngineParams_network_thread_priority_set")

/-- Binds the functions for floating-point numbers from a source: whether they are bound. -/
def bind (f : FloatSupport) (source : Source) : Except Error Bool :=
  match (bindAll source (f.table.map Slot.symbol)).2 with
  | some symbol => .error (.symbolMissing symbol)
  | none => .ok f.isSupported

end FloatSupport

/-- A source that knows every registered symbol, except some that it lacks and some that it has at
the null address. -/
def sourceOf (lacks nulls : List String) : Source := fun symbol =>
  if lacks.contains symbol then none
  else if allSlots.any fun s => s.symbol == symbol then
    some (if nulls.contains symbol then 0 else 1)
  else none

end LateBinding.Symbol
