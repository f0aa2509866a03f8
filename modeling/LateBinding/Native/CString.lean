import LateBinding.Path

/-!
**Texts that end at a zero byte.**

Going out, a text is copied into a buffer of its own with a zero byte after it; the native side sees
what stands before the first zero byte. Coming in, memory is read up to a zero byte, and **never
beyond 65,536 bytes**, so that a buffer that was not terminated cannot be read without end; what was
read is decoded as UTF-8 with repair.

Main definitions:

* `LateBinding.Native.CString` — an owned copy of bytes;
* `LateBinding.Native.CString.withTerminator`, `LateBinding.Native.CString.seen`;
* `LateBinding.Native.readCString` — the text behind a pointer;
* `LateBinding.Native.readBytes` — bytes of a known size behind a pointer.
-/

set_option autoImplicit false

namespace LateBinding.Native

/-- An owned copy of bytes, to which a zero byte is added. -/
structure CString where
  content : List UInt8
deriving DecidableEq, Repr

namespace CString

/-- The copy of a text. -/
def ofText (s : String) : CString := ⟨Text.Utf8.bytes s⟩

/-- The copy of a path. -/
def ofPath (p : Path) : CString := ⟨p.bytes⟩

/-- The bytes in memory, the terminator included. -/
def withTerminator (c : CString) : List UInt8 := c.content ++ [0]

/-- The number of bytes before the terminator. -/
def length (c : CString) : Nat := c.content.length

/-- The bytes that the native side sees: those before the first zero byte. -/
def seen (c : CString) : List UInt8 := c.withTerminator.takeWhile (· != 0)

end CString

/-- The greatest number of bytes that are read as a text. -/
def maxTextLength : Nat := 65536

/-- The bytes of a text that starts where the memory does. -/
def textBytes (memory : List UInt8) : List UInt8 :=
  (memory.take maxTextLength).takeWhile (· != 0)

/-- The text behind a pointer, the pointer given by the memory from there on; the null pointer,
given by no memory, stands for the empty text. -/
def readCString : Option (List UInt8) → String
  | none => ""
  | some memory => Text.Utf8.toText (textBytes memory)

/-- Bytes of a known size behind a pointer; none behind the null pointer. -/
def readBytes (memory : Option (List UInt8)) (size : Nat) : List UInt8 :=
  match memory with
  | none => []
  | some bs => bs.take size

end LateBinding.Native
