/-!
**Base64, in its strict and its lenient reading.**

Three bytes are four characters of six bits each. The strict reading accepts exactly what writing
produces: groups of four, padding where the last group is short, and no bit set in the part of the
last character that no byte uses. The lenient reading, which armoured files need, skips white
space, lets the padding be absent and ignores the unused bits.

Main definitions:

* `LateBinding.Base64.encode` — the canonical text of bytes;
* `LateBinding.Base64.decode?` — the bytes of a canonical text;
* `LateBinding.Base64.decodeLenient?` — the bytes of the body of an armoured section.
-/

set_option autoImplicit false

namespace LateBinding.Base64

/-- The character of a value below 64. -/
def digit (n : Nat) : Char :=
  if n < 26 then Char.ofNat (65 + n)
  else if n < 52 then Char.ofNat (71 + n)
  else if n < 62 then Char.ofNat (n - 4)
  else if n = 62 then '+'
  else '/'

/-- The value of a character of the alphabet. -/
def digit? (c : Char) : Option Nat :=
  if 'A' ≤ c ∧ c ≤ 'Z' then some (c.toNat - 65)
  else if 'a' ≤ c ∧ c ≤ 'z' then some (c.toNat - 71)
  else if '0' ≤ c ∧ c ≤ '9' then some (c.toNat + 4)
  else if c = '+' then some 62
  else if c = '/' then some 63
  else none

/-- The character that fills the last group. -/
def pad : Char := '='

/-- The canonical text of bytes, a group of three at a time. -/
def encode : List UInt8 → List Char
  | [] => []
  | [a] =>
    [digit (a.toNat / 4), digit (a.toNat % 4 * 16), pad, pad]
  | [a, b] =>
    [digit (a.toNat / 4), digit (a.toNat % 4 * 16 + b.toNat / 16), digit (b.toNat % 16 * 4), pad]
  | a :: b :: c :: rest =>
    digit (a.toNat / 4) :: digit (a.toNat % 4 * 16 + b.toNat / 16) ::
      digit (b.toNat % 16 * 4 + c.toNat / 64) :: digit (c.toNat % 64) :: encode rest

/-- The bytes of two, three and four values of six bits. -/
def pack2 (a b : Nat) : List UInt8 := [UInt8.ofNat (a * 4 + b / 16)]

/-- Two bytes from three values. -/
def pack3 (a b c : Nat) : List UInt8 :=
  [UInt8.ofNat (a * 4 + b / 16), UInt8.ofNat (b % 16 * 16 + c / 4)]

/-- Three bytes from four values. -/
def pack4 (a b c d : Nat) : List UInt8 :=
  [UInt8.ofNat (a * 4 + b / 16), UInt8.ofNat (b % 16 * 16 + c / 4), UInt8.ofNat (c % 4 * 64 + d)]

/-- The bytes of a canonical text: padding in the last group only, and the unused bits zero. -/
def decode? : List Char → Option (List UInt8)
  | [] => some []
  | a :: b :: c :: d :: rest => do
    let x ← digit? a
    let y ← digit? b
    if d = pad ∧ rest = [] then
      if c = pad then
        guard (y % 16 = 0)
        return pack2 x y
      else
        let z ← digit? c
        guard (z % 4 = 0)
        return pack3 x y z
    else
      let z ← digit? c
      let w ← digit? d
      let bs ← decode? rest
      return pack4 x y z w ++ bs
  | _ => none

/-- White space inside an armoured body: tab to carriage return, and the space. -/
def isGap (c : Char) : Bool :=
  (9 ≤ c.toNat && c.toNat ≤ 13) || c == ' '

/-- The bytes of a body without white space: full groups, then at most one short group, its
padding complete or absent. -/
def decodeGroups? : List Char → Option (List UInt8)
  | [] => some []
  | [a, b] => do return pack2 (← digit? a) (← digit? b)
  | [a, b, c] => do
    if c = pad then none else
      return pack3 (← digit? a) (← digit? b) (← digit? c)
  | a :: b :: c :: d :: rest => do
    let x ← digit? a
    let y ← digit? b
    if d = pad ∧ rest = [] then
      if c = pad then
        return pack2 x y
      else
        return pack3 x y (← digit? c)
    else
      let z ← digit? c
      let w ← digit? d
      let bs ← decodeGroups? rest
      return pack4 x y z w ++ bs
  | _ => none

/-- The bytes of an armoured body. -/
def decodeLenient? (s : List Char) : Option (List UInt8) :=
  decodeGroups? (s.filter fun c => !isGap c)

end LateBinding.Base64
