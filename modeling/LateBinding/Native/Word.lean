import LateBinding.Callback.Target
import LateBinding.Native.HeaderArray
import LateBinding.Native.PointerArray
import LateBinding.Symbol.Slot

/-!
**What crosses the boundary, seen from both sides.**

On the native side a call has words: numbers, handles, and pointers, each pointer given by the
memory behind it. On the safe side it has values: texts, lists of headers, named codes. A value goes
out as a word, and a word that comes in is decoded by the kind that the signature names.

Main definitions:

* `LateBinding.Native.Word` — the native side;
* `LateBinding.Native.Value` — the safe side;
* `LateBinding.Native.Value.toWord`, `LateBinding.Native.Word.decode`;
* `LateBinding.Native.Word.zero` — what a function answers that has nothing to answer.
-/

set_option autoImplicit false

namespace LateBinding.Native

/-- An address of a native object; zero is the null handle. -/
abbrev Address := UInt64

/-- A word that crosses the boundary. A pointer to text or data is the memory behind it, or none for
the null pointer; what is only passed on, such as a raw pointer, is a number. A pointer to a
function, or to a table of functions, is what these lead to, which is not read where the pointer is
only shown. -/
inductive Word where
  | unit
  | handle (address : Address)
  | context (value : UInt64)
  | int (n : Int)
  | bool (b : Bool)
  | double (bits : UInt64)
  | text (memory : Option (List UInt8))
  | data (memory : Option (List UInt8))
  | headers (array : Option HeaderArray)
  | pointers (array : PointerArray)
  | function {targets : List Callback.Target}
deriving DecidableEq, Repr, Inhabited

/-- A value on the safe side. -/
inductive Value where
  | unit
  | handle (address : Address)
  | context (value : UInt64)
  | int (n : Int)
  | bool (b : Bool)
  | double (bits : UInt64)
  | code (type : Symbol.CodeType) (raw : Int)
  | text (s : String)
  | path (p : Path)
  | bytes (bs : List UInt8)
  | pointer (isSet : Bool)
  | headers (hs : List (String × String))
deriving DecidableEq, Repr, Inhabited

/-- The word of a C string that the native side sees as a copy. -/
def CString.toWord (c : CString) : Word := .text (some c.withTerminator)

/-- The word as which a value goes out. -/
def Value.toWord : Value → Word
  | .unit => .unit
  | .handle a => .handle a
  | .context c => .context c
  | .int n => .int n
  | .bool b => .bool b
  | .double bits => .double bits
  | .code _ raw => .int raw
  | .text s => (CString.ofText s).toWord
  | .path p => (CString.ofPath p).toWord
  | .bytes bs => .data (some bs)
  | .pointer isSet => .data (if isSet then some [] else none)
  | .headers hs => .headers (some (HeaderArray.ofList hs))

namespace Word

/-- The address of a handle; the null handle for other words. -/
def address : Word → Address
  | .handle a => a
  | _ => 0

/-- The number of a word; zero for other words. -/
def number : Word → Int
  | .int n => n
  | _ => 0

/-- The memory behind a pointer. -/
def memory : Word → Option (List UInt8)
  | .text m => m
  | .data m => m
  | _ => none

/-- What the functions behind a pointer lead to. -/
def targets : Word → List Callback.Target
  | @function ts => ts
  | _ => []

/-- The value that a word of a kind stands for. -/
def decode : Symbol.Kind → Word → Value
  | .code type, w => .code type w.number
  | .text, w => .text (readCString w.memory)
  | .path, w => .text (readCString w.memory)
  | .data, w => .pointer w.memory.isSome
  | .headers, .headers a => .headers (readHeaders a)
  | _, .handle a => .handle a
  | _, .context c => .context c
  | _, .int n => .int n
  | _, .bool b => .bool b
  | _, .double bits => .double bits
  | _, _ => .unit

/-- The word that a function of a kind answers when it has nothing to answer: zero, false or
null. -/
def zero : Symbol.Kind → Word
  | .unit => .unit
  | .handle _ => .handle 0
  | .context => .context 0
  | .rawPointer => .context 0
  | .int32 => .int 0
  | .int64 => .int 0
  | .uint32 => .int 0
  | .uint64 => .int 0
  | .code _ => .int 0
  | .bool => .bool false
  | .double => .double 0
  | .text => .text none
  | .path => .text none
  | .data => .data none
  | .headers => .headers none
  | .pointers => .pointers ⟨[]⟩
  | .function => @function []

end Word

/-- What the functions lead to that are among some words, in order. -/
def targetsIn (ws : List Word) : List Callback.Target := ws.flatMap Word.targets

end LateBinding.Native
