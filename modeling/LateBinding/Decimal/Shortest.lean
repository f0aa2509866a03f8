/-!
**The fewest decimal digits that read back as the same number.**

A positive double is `m · 2 ^ q`, and the reals that round to it form an interval around it whose
ends belong to it exactly when `m` is even. Among the decimals in that interval the shortest ones
are wanted, and of those the nearest to the number; an exact tie goes to the even last digit.
A grid of `n` digits hits the interval exactly when one of the two neighbours of the number on the
grid does, so only these are tried, for one digit, two digits and so on. Seventeen always suffice.

Main definitions:

* `LateBinding.Decimal.Interval` — a number and the ends of its interval over one denominator;
* `LateBinding.Decimal.ofBits` — the interval of a finite double, given by its 64 bits;
* `LateBinding.Decimal.shortest` — digits and power of ten of the shortest decimal.
-/

set_option autoImplicit false

namespace LateBinding.Decimal

/-- A positive number `value / den` and the interval from `low / den` to `high / den` of the reals
that round to it; `closed` says whether the ends belong to it. -/
structure Interval where
  low : Nat
  value : Nat
  high : Nat
  den : Nat
  closed : Bool
deriving DecidableEq, Repr

/-- The interval of `m · 2 ^ q`; below a power of two the grid of doubles is twice as fine, and
`edge` says that `m · 2 ^ q` is such a power. -/
def Interval.ofDyadic (m : Nat) (q : Int) (edge : Bool) : Interval :=
  let up := 1 <<< (q - 2).toNat
  { low := (4 * m - (if edge then 1 else 2)) * up
    value := 4 * m * up
    high := (4 * m + 2) * up
    den := 1 <<< (2 - q).toNat
    closed := m % 2 == 0 }

/-- The interval of a positive finite double, from its bits without the sign. -/
def ofBits (bits : Nat) : Interval :=
  let e : Nat := bits / 0x10000000000000 % 0x800
  let f : Nat := bits % 0x10000000000000
  if e = 0 then .ofDyadic f (-1074) false
  else .ofDyadic (0x10000000000000 + f) ((e : Int) - 1075) (f == 0 && e > 1)

/-- A decimal `digits · 10 ^ power`. -/
structure Digits where
  digits : Nat
  power : Int
deriving DecidableEq, Repr

/-- The number of decimal digits of a natural number. -/
def digitCount (n : Nat) : Nat :=
  (Nat.toDigits 10 n).length

/-- The place of the decimal point: the `k` with `10 ^ (k - 1) ≤ num / den < 10 ^ k`. -/
def place (num den : Nat) : Int :=
  if den ≤ num then digitCount (num / den)
  else 1 - (digitCount ((den - 1) / num) : Int)

/-- Where `d · 10 ^ g` lies, over the same denominator as the interval, both scaled to be whole. -/
def scaled (i : Interval) (d : Nat) (g : Int) : Nat :=
  d * Nat.pow 10 g.toNat * i.den

/-- Whether `d · 10 ^ g` rounds to the number of the interval. -/
def Interval.holds (i : Interval) (d : Nat) (g : Int) : Bool :=
  let s := Nat.pow 10 (-g).toNat
  let x := scaled i d g
  if i.closed then i.low * s ≤ x && x ≤ i.high * s
  else i.low * s < x && x < i.high * s

/-- The point of the grid `10 ^ g` in the interval that is nearest to the number, if any is in
it. -/
def nearestOn (i : Interval) (g : Int) : Option Digits :=
  let s := Nat.pow 10 (-g).toNat
  let d := i.value * s / (Nat.pow 10 g.toNat * i.den)
  let below := i.value * s - scaled i d g
  let above := scaled i (d + 1) g - i.value * s
  let lower := d ≠ 0 && i.holds d g
  let upper := i.holds (d + 1) g
  if lower && (!upper || below < above || (below == above && d % 2 == 0)) then some ⟨d, g⟩
  else if upper then some ⟨d + 1, g⟩
  else none

/-- A decimal with its trailing zeros moved into the power; `fuel` bounds their number. -/
def dropZeros : Nat → Digits → Digits
  | 0, x => x
  | fuel + 1, x =>
    if x.digits % 10 = 0 then dropZeros fuel ⟨x.digits / 10, x.power + 1⟩ else x

/-- The shortest decimal of an interval. -/
def shortest (i : Interval) : Digits :=
  let k := place i.value i.den
  let found := (List.range 17).findSome? fun (n : Nat) => nearestOn i (k - 1 - (n : Int))
  dropZeros 18 (found.getD ⟨0, 0⟩)

end LateBinding.Decimal
