/-!
**Elements of the distinguished encoding.**

An element is an identifier, a length and that many bytes of content. The identifier has a class, a
flag for content made of elements, and a tag number, which may take several bytes. A length below
128 is one byte; a longer one says first how many bytes it has. Indefinite lengths are refused.

Main definitions:

* `LateBinding.Der.Header`, `LateBinding.Der.readHeader`;
* `LateBinding.Der.Element`, `LateBinding.Der.read` — the element at the front of some bytes;
* `LateBinding.Der.expect` — an element with a given tag.
-/

set_option autoImplicit false

namespace LateBinding.Der

/-- The identifier of an element and the length of its content. -/
structure Header where
  cls : Nat
  constructed : Bool
  tag : Nat
  length : Nat
deriving DecidableEq, Repr

/-- The further bytes of a tag number, at most five: seven bits each, the last one without its top
bit. A number keeps 32 bits. -/
def readTag : Nat → Nat → List UInt8 → Option (Nat × List UInt8)
  | 0, _, _ => none
  | _ + 1, _, [] => none
  | fuel + 1, n, b :: rest =>
    let n := (n * 128 + b.toNat % 128) % 0x100000000
    if b.toNat < 128 then some (n, rest) else readTag fuel n rest

/-- The number that bytes write, the high one first. -/
def number (bs : List UInt8) : Nat := bs.foldl (fun n b => n * 256 + b.toNat) 0

/-- The length of an element's content. -/
def readLength : List UInt8 → Option (Nat × List UInt8)
  | [] => none
  | b :: rest =>
    let n := b.toNat
    if n < 128 then some (n, rest)
    else if n = 128 ∨ n = 255 then none
    else
      let ds := rest.take (n - 128)
      if ds.length < n - 128 || number ds ≥ 0x10000000000000000 then none
      else some (number ds, rest.drop (n - 128))

/-- The header at the front of some bytes. -/
def readHeader : List UInt8 → Option (Header × List UInt8)
  | [] => none
  | b :: rest => do
    let n := b.toNat
    let (tag, rest) ← if n % 32 = 31 then readTag 5 0 rest else some (n % 32, rest)
    let (length, rest) ← readLength rest
    return (⟨n / 64, n / 32 % 2 == 1, tag, length⟩, rest)

/-- An element: its header and its content. -/
structure Element where
  header : Header
  content : List UInt8
deriving DecidableEq, Repr

/-- The element at the front of some bytes, and the bytes after it. -/
def read (bs : List UInt8) : Option (Element × List UInt8) := do
  let (h, rest) ← readHeader bs
  let content := rest.take h.length
  if content.length < h.length then none else some (⟨h, content⟩, rest.drop h.length)

/-! ### Tag numbers -/

def tagBoolean : Nat := 1
def tagInteger : Nat := 2
def tagBitString : Nat := 3
def tagOctetString : Nat := 4
def tagObjectId : Nat := 6
def tagSequence : Nat := 16
def tagUtcTime : Nat := 23
def tagGeneralizedTime : Nat := 24

/-- The element at the front of some bytes, which must have a tag. -/
def expect (tag : Nat) (bs : List UInt8) : Option (Element × List UInt8) := do
  let (e, rest) ← read bs
  if e.header.tag = tag then some (e, rest) else none

/-- The content of the sequence at the front of some bytes. -/
def sequence (bs : List UInt8) : Option (List UInt8 × List UInt8) :=
  (expect tagSequence bs).map fun r => (r.1.content, r.2)

/-- The number of zero bits at the end of a byte. -/
def trailingZeros (b : UInt8) : Nat :=
  ((List.range 8).find? b.toNat.testBit).getD 8

/-- Whether content is that of a bit string: the number of unused bits, and bytes at whose end that
many bits are zero. -/
def isBitString (e : Element) : Bool :=
  !e.header.constructed &&
    match e.content with
    | [] => false
    | unused :: bits =>
      match bits.getLast? with
      | none => unused == 0
      | some last => unused.toNat ≤ trailingZeros last

/-- The bytes after a bit string. -/
def skipBitString (bs : List UInt8) : Option (List UInt8) := do
  let (e, rest) ← expect tagBitString bs
  if isBitString e then some rest else none

/-- Whether an element holds a number from 0 up to `2 ^ 32 - 1`, written with the fewest bytes. -/
def isSmallNumber (e : Element) : Bool :=
  !e.header.constructed &&
    match e.content with
    | [] => false
    | [b] => b.toNat < 128
    | a :: b :: rest =>
      a.toNat < 128 && !(a == 0 && b.toNat < 128) && number (a :: b :: rest) < 0x100000000

end LateBinding.Der
