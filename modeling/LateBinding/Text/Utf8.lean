/-!
**UTF-8, read strictly and read with repair.**

Bytes from outside need not be well-formed UTF-8. The decoder is a machine with one state for a
character boundary and one for a sequence that still waits for continuation bytes; each byte moves
it and may emit a character. Where a sequence breaks off, the bytes read of it were the longest
piece that could have begun a character, and **each such piece becomes one U+FFFD**.

Main definitions:

* `LateBinding.Text.Utf8.encode` — the bytes of a list of characters;
* `LateBinding.Text.Utf8.Pending` — a sequence begun and not yet complete;
* `LateBinding.Text.Utf8.decode` — the text of any bytes, ill-formed pieces replaced;
* `LateBinding.Text.Utf8.decode?` — the text of well-formed bytes, and none of others.
-/

set_option autoImplicit false

namespace LateBinding.Text.Utf8

/-- The bytes of a list of characters. -/
def encode (s : List Char) : List UInt8 :=
  s.flatMap String.utf8EncodeChar

/-- The bytes of a text. -/
def bytes (s : String) : List UInt8 :=
  encode s.toList

/-- The character that stands for an ill-formed piece. -/
def replacement : Char := '\uFFFD'

/-- A sequence that has begun: the bits read so far, how many continuation bytes it still needs
beyond the next one, and the interval in which the next one must lie. -/
structure Pending where
  value : Nat
  further : Nat
  low : Nat
  high : Nat
deriving DecidableEq, Repr

/-- What a byte begins at a character boundary: a character by itself, a longer sequence, or
nothing at all. The intervals for the second byte leave out overlong forms, surrogates and values
above U+10FFFF. -/
inductive Opening where
  | char (c : Char)
  | sequence (p : Pending)
  | nothing
deriving DecidableEq, Repr

/-- How a byte begins a character. -/
def opening (b : UInt8) : Opening :=
  let n := b.toNat
  if n < 0x80 then .char (Char.ofNat n)
  else if n < 0xC2 then .nothing
  else if n < 0xE0 then .sequence ⟨n - 0xC0, 0, 0x80, 0xBF⟩
  else if n == 0xE0 then .sequence ⟨0, 1, 0xA0, 0xBF⟩
  else if n == 0xED then .sequence ⟨0xD, 1, 0x80, 0x9F⟩
  else if n < 0xF0 then .sequence ⟨n - 0xE0, 1, 0x80, 0xBF⟩
  else if n == 0xF0 then .sequence ⟨0, 2, 0x90, 0xBF⟩
  else if n < 0xF4 then .sequence ⟨n - 0xF0, 2, 0x80, 0xBF⟩
  else if n == 0xF4 then .sequence ⟨4, 2, 0x80, 0x8F⟩
  else .nothing

/-- The sequence begun by a byte at a boundary, and what is emitted at once; `bad` stands for an
ill-formed piece. -/
def start {α : Type} (good : Char → α) (bad : α) (b : UInt8) : List α × Option Pending :=
  match opening b with
  | .char c => ([good c], none)
  | .sequence p => ([], some p)
  | .nothing => ([bad], none)

/-- One byte moves the decoder: a continuation byte in its interval extends the pending sequence
or completes it; any other byte breaks it off and begins anew. -/
def step {α : Type} (good : Char → α) (bad : α) :
    Option Pending → UInt8 → List α × Option Pending
  | none, b => start good bad b
  | some p, b =>
    let n := b.toNat
    if p.low ≤ n && n ≤ p.high then
      let v := p.value * 64 + (n - 0x80)
      match p.further with
      | 0 => ([good (Char.ofNat v)], none)
      | k + 1 => ([], some ⟨v, k, 0x80, 0xBF⟩)
    else
      let (out, q) := start good bad b
      (bad :: out, q)

/-- What is emitted where the bytes end: an unfinished sequence is one ill-formed piece. -/
def finish {α : Type} (bad : α) : Option Pending → List α
  | none => []
  | some _ => [bad]

/-- The pieces of a list of bytes, in order, from a given state on. -/
def pieces {α : Type} (good : Char → α) (bad : α) (p : Option Pending) (bs : List UInt8) :
    List α :=
  let (out, q) := bs.foldl (fun (s : List α × Option Pending) b =>
    let (new, q) := step good bad s.2 b
    (new.reverse ++ s.1, q)) ([], p)
  out.reverse ++ finish bad q

/-- The characters of any bytes, each ill-formed piece replaced by U+FFFD. -/
def decode (bs : List UInt8) : List Char :=
  pieces id replacement none bs

/-- The characters of well-formed bytes. -/
def decode? (bs : List UInt8) : Option (List Char) :=
  (pieces some none none bs).mapM id

/-- The text of any bytes, repaired. -/
def toText (bs : List UInt8) : String :=
  String.ofList (decode bs)

/-- The text of well-formed bytes. -/
def toText? (bs : List UInt8) : Option String :=
  (decode? bs).map String.ofList

end LateBinding.Text.Utf8
