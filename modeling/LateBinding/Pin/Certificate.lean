import LateBinding.Bytes.Sha256
import LateBinding.Pin.Der

/-!
**The public key of a certificate.**

A certificate is checked for its structure, from the version to the signature, and the bytes of its
public-key information are taken out; signatures and dates are not verified. What follows the
certificate is ignored, and so are further elements at the end of most of its sequences.

Each reader here gives the bytes after the part that it checks.

Main definitions:

* `LateBinding.Certificate.skipTime` — a point in time on the calendar;
* `LateBinding.Certificate.publicKeyInfo` — the bytes of the public-key information;
* `LateBinding.Certificate.keyHash?` — their SHA-256 digest.
-/

set_option autoImplicit false

namespace LateBinding.Certificate

open Der

/-! ### Points in time -/

/-- The value of two decimal digits. -/
def twoDigits (a b : UInt8) : Option Nat :=
  if 48 ≤ a && a ≤ 57 && 48 ≤ b && b ≤ 57 then
    some ((a.toNat - 48) * 10 + (b.toNat - 48))
  else none

/-- The numbers that pairs of decimal digits write. -/
def pairs : Nat → List UInt8 → Option (List Nat × List UInt8)
  | 0, bs => some ([], bs)
  | n + 1, a :: b :: rest => do
    let x ← twoDigits a b
    let (xs, rest) ← pairs n rest
    return (x :: xs, rest)
  | _ + 1, _ => none

/-- Whether a year has a 29th of February. -/
def isLeapYear (y : Nat) : Bool := y % 4 == 0 && (y % 100 != 0 || y % 400 == 0)

/-- The number of days of a month, none for a number that is no month. -/
def monthDays (year month : Nat) : Nat :=
  if month = 0 || month > 12 then 0
  else if month = 2 then (if isLeapYear year then 29 else 28)
  else if month = 4 || month = 6 || month = 9 || month = 11 then 30
  else 31

/-- The letter for universal time. -/
def zulu : UInt8 := 90

/-- Seconds, which may be absent, and what follows them. -/
def seconds : List UInt8 → Option (Nat × List UInt8)
  | a :: b :: rest => do return (← twoDigits a b, rest)
  | bs => some (0, bs)

/-- Whether what follows the seconds ends a time: the letter for universal time, after a fraction of
one to three digits where that is allowed. -/
def isTail (fraction : Bool) (bs : List UInt8) : Bool :=
  match bs with
  | [z] => z == zulu
  | 46 :: rest =>
    fraction && rest.getLast? == some zulu && 2 ≤ rest.length && rest.length ≤ 4 &&
      rest.dropLast.all fun b => 48 ≤ b && b ≤ 57
  | _ => false

/-- Whether a day and a time of day, given by their parts, are on the calendar. -/
def isMoment (year month day hour minute second : Nat) : Bool :=
  1 ≤ day && day ≤ monthDays year month && hour ≤ 23 && minute ≤ 59 && second ≤ 59

/-- Whether content is a point in time whose year has two digits; years below 50 are in the
21st century. -/
def isUtcTime (bs : List UInt8) : Bool :=
  match pairs 5 bs with
  | some ([y, month, day, hour, minute], rest) =>
    match seconds rest with
    | some (second, tail) =>
      isMoment (if y < 50 then 2000 + y else 1900 + y) month day hour minute second &&
        isTail false tail
    | none => false
  | _ => false

/-- Whether content is a point in time whose year has four digits. -/
def isGeneralizedTime (bs : List UInt8) : Bool :=
  match pairs 6 bs with
  | some ([c, y, month, day, hour, minute], rest) =>
    match seconds rest with
    | some (second, tail) =>
      isMoment (c * 100 + y) month day hour minute second && isTail true tail
    | none => false
  | _ => false

/-- A point in time of either form. -/
def skipTime (bs : List UInt8) : Option (List UInt8) := do
  let (e, rest) ← read bs
  if e.header.tag = tagUtcTime && isUtcTime e.content then some rest
  else if e.header.tag = tagGeneralizedTime && isGeneralizedTime e.content then some rest
  else none

/-! ### Parts of a certificate -/

/-- An object identifier. -/
def skipObjectId (bs : List UInt8) : Option (List UInt8) := do
  let (e, rest) ← expect tagObjectId bs
  if e.header.constructed then none else some rest

/-- An algorithm: its identifier, and parameters that are any element. -/
def skipAlgorithm (bs : List UInt8) : Option (List UInt8) := do
  let (content, rest) ← sequence bs
  let params ← skipObjectId content
  if params.isEmpty then some rest
  else
    let _ ← read params
    return rest

/-- The version, which may be absent. -/
def skipVersion (bs : List UInt8) : Option (List UInt8) := do
  let (h, _) ← readHeader bs
  if h.tag ≠ 0 then some bs
  else
    let (e, rest) ← read bs
    let (version, _) ← expect tagInteger e.content
    if e.header.cls = 2 && isSmallNumber version then some rest else none

/-- The period of validity. -/
def skipValidity (bs : List UInt8) : Option (List UInt8) := do
  let (content, rest) ← sequence bs
  let upTo ← skipTime content
  let _ ← skipTime upTo
  return rest

/-- The public-key information: its bytes up to the end of the key, and what follows it. -/
def takeKeyInfo (bs : List UInt8) : Option (List UInt8 × List UInt8) := do
  let (content, rest) ← sequence bs
  let key ← skipAlgorithm content
  let unused ← skipBitString key
  let length := bs.length - rest.length - unused.length
  return (bs.take length, rest)

/-- A unique identifier with a tag, which may be absent. -/
def skipUniqueId (tag : Nat) (bs : List UInt8) : Option (List UInt8) :=
  if bs.isEmpty then some []
  else do
    let (e, rest) ← read bs
    if e.header.tag ≠ tag then some bs
    else if e.header.cls = 2 && isBitString e then some rest
    else none

/-- Whether content is an extension: identifier, an optional flag, and its value. -/
def isExtension (content : List UInt8) : Bool :=
  (do
    let rest ← skipObjectId content
    let rest := match expect tagBoolean rest with
      | some (e, after) => if e.content.length = 1 && !e.header.constructed then after else rest
      | none => rest
    let (e, _) ← expect tagOctetString rest
    if e.header.constructed then none else some ()).isSome

/-- Whether bytes are extensions and nothing else; `fuel` bounds their number. -/
def areExtensions : Nat → List UInt8 → Bool
  | _, [] => true
  | 0, _ => false
  | fuel + 1, bs =>
    match sequence bs with
    | some (content, rest) => isExtension content && areExtensions fuel rest
    | none => false

/-- Whether the end of a certificate's signed part holds extensions, or nothing. -/
def isEnd (bs : List UInt8) : Bool :=
  bs.isEmpty ||
    match readHeader bs with
    | some (h, rest) =>
      h.tag = 3 &&
        match sequence rest with
        | some (content, []) => areExtensions (content.length + 1) content
        | _ => false
    | none => false

/-- The public-key information of a certificate's signed part. -/
def ofSigned (bs : List UInt8) : Option (List UInt8) := do
  let bs ← skipVersion bs
  let (_, bs) ← expect tagInteger bs
  let bs ← skipAlgorithm bs
  let (_, bs) ← sequence bs
  let bs ← skipValidity bs
  let (_, bs) ← sequence bs
  let (key, bs) ← takeKeyInfo bs
  let bs ← skipUniqueId 1 bs
  let bs ← skipUniqueId 2 bs
  if isEnd bs then some key else none

/-- The bytes of the public-key information of a certificate. -/
def publicKeyInfo (bs : List UInt8) : Option (List UInt8) := do
  let (certificate, _) ← sequence bs
  let (signed, rest) ← sequence certificate
  let key ← ofSigned signed
  let rest ← skipAlgorithm rest
  let _ ← skipBitString rest
  return key

/-- The digest of the public-key information of a certificate. -/
def keyHash? (bs : List UInt8) : Option (List UInt8) :=
  (publicKeyInfo bs).map Sha256.digest

end LateBinding.Certificate
