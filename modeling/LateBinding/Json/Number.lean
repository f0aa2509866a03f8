import LateBinding.Decimal.Shortest

/-!
**The numbers of a JSON text.**

A whole number between `-2 ^ 63` and `2 ^ 64 - 1` is kept as it is. Any other number is a double,
kept by its bits: one with a fraction or an exponent, one out of that range, and `-0`.

A double is read in two steps that each may round. The digits are gathered into a word of 64 bits
until it would overflow (later whole digits only raise the exponent, later fraction digits are
dropped), and the word is then scaled by powers of ten, at most `10 ^ 308` at a time. It is written
with the fewest digits that read back, positionally when the decimal point falls within or near
the digits.

Main definitions:

* `LateBinding.Json.Number`;
* `LateBinding.Json.Numeral` — the parts of a numeral as it stands in a text;
* `LateBinding.Json.Numeral.toNumber?` — its number, unless it is out of range;
* `LateBinding.Json.Number.render` — how a number is written.
-/

set_option autoImplicit false

namespace LateBinding.Json

/-- A number: whole, or a double given by its bits. -/
inductive Number where
  | whole (n : Int)
  | double (bits : UInt64)
deriving DecidableEq, Repr, Inhabited

/-- A numeral: sign, whole digits, fraction digits, and exponent. -/
structure Numeral where
  negative : Bool
  whole : List Char
  fraction : Option (List Char)
  exponent : Option (Bool × List Char)
deriving DecidableEq, Repr

/-- The value of a decimal digit. -/
def digitValue (c : Char) : Nat := c.toNat - 48

/-- The value of a string of decimal digits. -/
def digitsValue (ds : List Char) : Nat :=
  ds.foldl (fun n c => n * 10 + digitValue c) 0

/-- The largest word of 64 bits. -/
def maxWord : Nat := 0xFFFFFFFFFFFFFFFF

/-- Whole digits gathered while they fit a word; each one after that raises the exponent. -/
def gatherWhole (ds : List Char) : Nat × Int :=
  let (n, raised, _) := ds.foldl (fun (s : Nat × Int × Bool) c =>
    let (n, raised, full) := s
    let next := n * 10 + digitValue c
    if full || next > maxWord then (n, raised + 1, true) else (next, raised, false)) (0, 0, false)
  (n, raised)

/-- Fraction digits gathered while they fit, each lowering the exponent; the rest are dropped. -/
def gatherFraction (start : Nat × Int) (ds : List Char) : Nat × Int :=
  let (n, e, _) := ds.foldl (fun (s : Nat × Int × Bool) c =>
    let (n, e, full) := s
    let next := n * 10 + digitValue c
    if full || next > maxWord then (n, e, true) else (next, e - 1, false))
    (start.1, start.2, false)
  (n, e)

/-- The double nearest to a power of ten up to `10 ^ 308`. -/
def powerOfTen (n : Nat) : Float := Float.ofScientific 1 false n

/-- A double scaled by a power of ten, in steps of at most `10 ^ 308`; `fuel` bounds the steps.
None if the result is too large. -/
def scale : Nat → Float → Int → Option Float
  | 0, f, _ => some f
  | fuel + 1, f, e =>
    if e.natAbs ≤ 308 then
      if e ≥ 0 then
        let g := f * powerOfTen e.natAbs
        if g.isInf then none else some g
      else some (f / powerOfTen e.natAbs)
    else if f == 0 then some f
    else if e ≥ 0 then none
    else scale fuel (f / powerOfTen 308) (e + 308)

/-- The largest exponent that is worth computing with. -/
def maxExponent : Nat := 0x7FFFFFFF

/-- A signed double as a number. -/
def signed (negative : Bool) (f : Float) : Number :=
  .double (if negative then (-f).toBits else f.toBits)

/-- The double of significand and exponent, the digits of an exponent given separately. An exponent
beyond the largest one makes the number zero or out of range. -/
def toDouble? (negative : Bool) (gathered : Nat × Int) (exponent : Option (Bool × List Char)) :
    Option Number :=
  let (n, e) := gathered
  let finishAt (e : Int) : Option Number :=
    (scale 40 ((UInt64.ofNat n).toFloat) e).map (signed negative)
  match exponent with
  | none => finishAt e
  | some (down, ds) =>
    let x := digitsValue ds
    if x > maxExponent then
      if n ≠ 0 && !down then none else some (signed negative 0)
    else
      let total := if down then e - x else e + x
      finishAt (max (-maxExponent - 1) (min total maxExponent))

/-- The number of a numeral, or none if it is out of the range of doubles. -/
def Numeral.toNumber? (x : Numeral) : Option Number :=
  match x.fraction, x.exponent with
  | none, none =>
    let n := digitsValue x.whole
    if n > maxWord then toDouble? x.negative (gatherWhole x.whole) none
    else if !x.negative then some (.whole n)
    else if n = 0 then some (signed true 0)
    else if n ≤ 0x8000000000000000 then some (.whole (-n))
    else some (signed true ((UInt64.ofNat n).toFloat))
  | fraction, exponent =>
    toDouble? x.negative (gatherFraction (gatherWhole x.whole) (fraction.getD [])) exponent

/-- Decimal digits of a natural number. -/
def natDigits (n : Nat) : List Char := Nat.toDigits 10 n

/-- A positive decimal: positional while the point is within 16 places of the first digit or less
than 5 zeros before it, else with a signed exponent. -/
def renderDigits (x : Decimal.Digits) : List Char :=
  let ds := natDigits x.digits
  let n : Int := ds.length
  let point := n + x.power
  if 0 ≤ x.power && point ≤ 16 then
    ds ++ List.replicate x.power.toNat '0' ++ ['.', '0']
  else if 0 < point && point ≤ 16 then
    ds.take point.toNat ++ '.' :: ds.drop point.toNat
  else if -5 < point && point ≤ 0 then
    '0' :: '.' :: (List.replicate (-point).toNat '0' ++ ds)
  else
    let e := point - 1
    let mark := if e < 0 then ['e', '-'] else ['e', '+']
    let mantissa := match ds with
      | [d] => [d]
      | d :: rest => d :: '.' :: rest
      | [] => []
    mantissa ++ mark ++ natDigits e.natAbs

/-- How a double is written. -/
def renderDouble (bits : UInt64) : List Char :=
  let n := bits.toNat
  let magnitude := n % 0x8000000000000000
  let sign := if n / 0x8000000000000000 = 1 then ['-'] else []
  if magnitude = 0 then sign ++ ['0', '.', '0']
  else sign ++ renderDigits (Decimal.shortest (Decimal.ofBits magnitude))

/-- How a number is written. -/
def Number.render : Number → List Char
  | .whole n => (if n < 0 then ['-'] else []) ++ natDigits n.natAbs
  | .double bits => renderDouble bits

end LateBinding.Json
