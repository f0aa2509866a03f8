/-!
**Bytes as hexadecimal digits.**

Two digits a byte, the high one first; digits above nine are lower case when written and of either
case when read.

Main definitions:

* `LateBinding.Hex.encode`, `LateBinding.Hex.decode?`;
* `LateBinding.Hex.digit?` — the value of one digit.
-/

set_option autoImplicit false

namespace LateBinding.Hex

/-- The lower-case digit of a value below sixteen. -/
def digit (n : Nat) : Char :=
  if n < 10 then Char.ofNat (48 + n) else Char.ofNat (87 + n)

/-- The value of a digit of either case. -/
def digit? (c : Char) : Option Nat :=
  if '0' ≤ c ∧ c ≤ '9' then some (c.toNat - 48)
  else if 'a' ≤ c ∧ c ≤ 'f' then some (c.toNat - 87)
  else if 'A' ≤ c ∧ c ≤ 'F' then some (c.toNat - 55)
  else none

/-- The digits of bytes. -/
def encode (bs : List UInt8) : String :=
  String.ofList (bs.flatMap fun b => [digit (b.toNat / 16), digit (b.toNat % 16)])

/-- The bytes of digits, two at a time. -/
def decodeChars? : List Char → Option (List UInt8)
  | [] => some []
  | a :: b :: rest => do
    let h ← digit? a
    let l ← digit? b
    let bs ← decodeChars? rest
    return UInt8.ofNat (h * 16 + l) :: bs
  | [_] => none

/-- The bytes that a text of digits writes. -/
def decode? (s : String) : Option (List UInt8) :=
  decodeChars? s.toList

end LateBinding.Hex
