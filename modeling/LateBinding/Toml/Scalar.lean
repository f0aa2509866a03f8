import LateBinding.Bytes.Hex
import LateBinding.Toml.Lexical
import LateBinding.Toml.Value

/-!
**Numbers and dates of TOML.**

An integer fits 64 bits with sign. A number with a fraction or an exponent must not round to
positive infinity. A date is a day of the calendar, and a time a time of a day with a possible leap
second. A text that could begin several of them is read as the first of date, number with fraction
and integer that it has the form of.

Main definitions:

* `LateBinding.Toml.readDateTime`, `LateBinding.Toml.readFloat`, `LateBinding.Toml.readInteger`;
* `LateBinding.Toml.readScalar` — the first of them that applies.
-/

set_option autoImplicit false

namespace LateBinding.Toml

/-- The outcome of trying one form of a scalar: it applies, another form may apply, or the text is
refused. -/
inductive Trial (α : Type) where
  | done (a : α) (rest : List Char)
  | other
  | refused

/-! ### Dates and times -/

/-- The value of decimal digits. -/
def digitsValue (ds : List Char) : Nat :=
  ds.foldl (fun n c => n * 10 + (c.toNat - 48)) 0

/-- A number of exactly `width` digits. -/
def fixedDigits (width : Nat) (s : List Char) : Option (Nat × List Char) :=
  let ds := s.take width
  if ds.length = width && ds.all isDigit then some (digitsValue ds, s.drop width) else none

/-- Whether a year has a 29th of February. -/
def isLeapYear (y : Nat) : Bool := y % 4 == 0 && (y % 100 != 0 || y % 400 == 0)

/-- The number of days of a month. -/
def daysIn (year month : Nat) : Nat :=
  if month = 2 then (if isLeapYear year then 29 else 28)
  else if month = 4 || month = 6 || month = 9 || month = 11 then 30
  else 31

/-- The text after a day of the calendar: year, month and day. -/
def readDate (s : List Char) : Trial Unit :=
  match fixedDigits 4 s with
  | some (year, '-' :: s) =>
    match fixedDigits 2 s with
    | some (month, '-' :: s) =>
      match fixedDigits 2 s with
      | some (day, s) =>
        if 1 ≤ month && month ≤ 12 && 1 ≤ day && day ≤ daysIn year month then .done () s
        else .refused
      | none => .refused
    | _ => .refused
  | _ => .other

/-- The text after a fraction of a second, if there is one. -/
def skipSecondFraction : List Char → List Char
  | '.' :: c :: rest => if isDigit c then rest.dropWhile isDigit else '.' :: c :: rest
  | s => s

/-- The text after a time of a day. -/
def readTime (s : List Char) : Trial Unit :=
  match fixedDigits 2 s with
  | some (hour, ':' :: s) =>
    if hour > 23 then .other else
    match fixedDigits 2 s with
    | some (minute, ':' :: s) =>
      match fixedDigits 2 s with
      | some (second, s) =>
        if minute ≤ 59 && second ≤ 60 then .done () (skipSecondFraction s) else .refused
      | none => .refused
    | _ => .refused
  | _ => .other

/-- The text after an offset from universal time, if there is one. -/
def readOffset : List Char → Trial Unit
  | [] => .done () []
  | c :: s =>
    if c = 'Z' || c = 'z' then .done () s
    else if c = '+' || c = '-' then
      match fixedDigits 2 s with
      | some (hour, ':' :: s) =>
        match fixedDigits 2 s with
        | some (minute, s) => if hour ≤ 23 && minute ≤ 59 then .done () s else .refused
        | none => .refused
      | _ => .refused
    else .done () (c :: s)

/-- The text after a day, and after a time of that day if one follows. -/
def readDayAndTime (s : List Char) : Trial Unit :=
  match readDate s with
  | .done _ [] => .done () []
  | .done _ (c :: s) =>
    if c = 'T' || c = 't' || c = ' ' then
      match readTime s with
      | .done _ s => readOffset s
      | .other => .done () (c :: s)
      | .refused => .refused
    else .done () (c :: s)
  | .other => readTime s
  | .refused => .refused

/-- What was taken off the front of a text. -/
def taken (s rest : List Char) : String := String.ofList (s.take (s.length - rest.length))

/-- A date, a time, or both. -/
def readDateTime (s : List Char) : Trial Toml :=
  match readDayAndTime s with
  | .done _ rest => .done (.dateTime (taken s rest)) rest
  | .other => .other
  | .refused => .refused

/-! ### Numbers -/

/-- Digits of a base, underscores between two of them allowed; none if an underscore is not
followed by a digit. The text begins after a first digit. -/
def moreDigits (isIn : Char → Bool) : List Char → List Char → Option (List Char × List Char)
  | acc, [] => some (acc.reverse, [])
  | acc, '_' :: c :: rest => if isIn c then moreDigits isIn (c :: acc) rest else none
  | acc, c :: rest =>
    if isIn c then moreDigits isIn (c :: acc) rest
    else if c = '_' then none
    else some (acc.reverse, c :: rest)

/-- One digit of a base and more. -/
def someDigits (isIn : Char → Bool) : List Char → Option (List Char × List Char)
  | c :: rest => if isIn c then moreDigits isIn [c] rest else none
  | [] => none

/-- A sign, if there is one: whether it is negative. -/
def readSign : List Char → Bool × List Char
  | '-' :: rest => (true, rest)
  | '+' :: rest => (false, rest)
  | s => (false, s)

/-- The whole digits of a decimal number; a zero stands alone. -/
def wholeDigits : List Char → Option (List Char × List Char)
  | '0' :: rest => some (['0'], rest)
  | s => someDigits isDigit s

/-- The least number that rounds to infinity: half a unit above the largest double. -/
def overflowBound : Nat := 1 <<< 1024 - 1 <<< 970

/-- Whether `digits · 10 ^ power` rounds to infinity. -/
def overflows (digits : Nat) (power : Int) : Bool :=
  let size : Int := (Nat.toDigits 10 digits).length + power
  if digits = 0 || size < 300 then false
  else if size > 320 then true
  else digits * Nat.pow 10 power.toNat ≥ overflowBound * Nat.pow 10 (-power).toNat

/-- The exponent of a number, if there is one: sign and digits. -/
def readExponent : List Char → Option (Option (Bool × List Char) × List Char)
  | c :: rest =>
    if c = 'e' || c = 'E' then
      let (down, s) := readSign rest
      (someDigits isDigit s).map fun r => (some (down, r.1), r.2)
    else some (none, c :: rest)
  | [] => some (none, [])

/-- Infinity or no number, after a sign. -/
def readSpecial (s : List Char) : Option (List Char) :=
  word "inf".toList s <|> word "nan".toList s

/-- A number with a fraction, an exponent, or both. -/
def readFloat (s : List Char) : Trial Toml :=
  let (negative, body) := readSign s
  match wholeDigits body with
  | some (whole, '.' :: rest) =>
    match someDigits isDigit rest with
    | none => .refused
    | some (fraction, rest) =>
      match readExponent rest with
      | none => .refused
      | some (e, rest) => check s negative (whole ++ fraction) fraction.length e rest
  | some (whole, c :: rest) =>
    if c = 'e' || c = 'E' then
      match readExponent (c :: rest) with
      | none => .refused
      | some (e, rest) => check s negative whole 0 e rest
    else .other
  | _ =>
    match readSpecial body with
    | some rest => .done (.float (taken s rest)) rest
    | none => .other
where
  /-- Refuses a number that rounds to positive infinity. -/
  check (s : List Char) (negative : Bool) (digits : List Char) (places : Nat)
      (e : Option (Bool × List Char)) (rest : List Char) : Trial Toml :=
    let power : Int := match e with
      | none => 0
      | some (down, ds) => if down then -(digitsValue ds : Int) else digitsValue ds
    if !negative && overflows (digitsValue digits) (power - places) then .refused
    else .done (.float (taken s rest)) rest

/-- The number of digits of a base. -/
def basedValue (base : Nat) (ds : List Char) : Nat :=
  ds.foldl (fun n c => n * base + (Hex.digit? c).getD 0) 0

/-- The magnitude of the least signed word of 64 bits. -/
def signedBound : Nat := 0x8000000000000000

/-- An integer of a base given by its mark. -/
def readBased (base : Nat) (isIn : Char → Bool) (s : List Char) : Trial Toml :=
  match someDigits isIn s with
  | none => .refused
  | some (ds, rest) =>
    let n := basedValue base ds
    if n < signedBound then .done (.integer n) rest else .refused

/-- An integer. -/
def readInteger (s : List Char) : Trial Toml :=
  match s with
  | '0' :: 'x' :: rest => readBased 16 isHexDigit rest
  | '0' :: 'o' :: rest => readBased 8 (fun c => '0' ≤ c && c ≤ '7') rest
  | '0' :: 'b' :: rest => readBased 2 (fun c => c == '0' || c == '1') rest
  | s =>
    let (negative, body) := readSign s
    match wholeDigits body with
    | none => .refused
    | some (ds, rest) =>
      let n := digitsValue ds
      if negative then
        if n ≤ signedBound then .done (.integer (-n)) rest else .refused
      else if n < signedBound then .done (.integer n) rest else .refused

/-- A date, a number with a fraction, or an integer. -/
def readScalar (s : List Char) : Option (Toml × List Char) :=
  match readDateTime s with
  | .done v rest => some (v, rest)
  | .refused => none
  | .other =>
    match readFloat s with
    | .done v rest => some (v, rest)
    | .refused => none
    | .other =>
      match readInteger s with
      | .done v rest => some (v, rest)
      | _ => none

end LateBinding.Toml
