import LateBinding.Bytes.Hex
import LateBinding.Json.Value

/-!
**Reading a JSON text.**

A text is one value between spaces; anything after it is refused. Arrays and objects may stand at
most 127 deep inside one another: the depth that is left is what the reader recurses on. Within one
array or object the items are read one after the other, at most as many as characters remain.

Main definitions:

* `LateBinding.Json.scanString` — the characters of a string after its opening mark;
* `LateBinding.Json.scanNumeral` — the parts of a numeral;
* `LateBinding.Json.readValue` — a value at the front of a text and what follows it;
* `LateBinding.Json.parse?` — the value of a whole text.
-/

set_option autoImplicit false

namespace LateBinding.Json

/-- Space, tab, line feed and carriage return: the only space between tokens. -/
def isSpace (c : Char) : Bool :=
  c == ' ' || c == '\t' || c == '\n' || c == '\r'

/-- The text after its leading space. -/
def skipSpace (s : List Char) : List Char :=
  s.dropWhile isSpace

/-- The value of four hexadecimal digits. -/
def hex4? (a b c d : Char) : Option Nat := do
  let w ← Hex.digit? a
  let x ← Hex.digit? b
  let y ← Hex.digit? c
  let z ← Hex.digit? d
  return ((w * 16 + x) * 16 + y) * 16 + z

/-- The character that a letter after a backslash stands for. -/
def escaped? : Char → Option Char
  | '"' => some '"'
  | '\\' => some '\\'
  | '/' => some '/'
  | 'b' => some '\x08'
  | 'f' => some '\x0c'
  | 'n' => some '\n'
  | 'r' => some '\r'
  | 't' => some '\t'
  | _ => none

/-- Whether a unit of 16 bits is the first of a surrogate pair. -/
def isLeading (n : Nat) : Bool := 0xD800 ≤ n && n < 0xDC00

/-- Whether a unit of 16 bits is the second of a surrogate pair. -/
def isTrailing (n : Nat) : Bool := 0xDC00 ≤ n && n < 0xE000

/-- The characters of a string up to its closing mark, collected in reverse, and the rest. -/
def scanOnto (acc : List Char) : List Char → Option (List Char × List Char)
  | [] => none
  | '"' :: rest => some (acc.reverse, rest)
  | '\\' :: 'u' :: a :: b :: c :: d :: rest =>
    match hex4? a b c d with
    | none => none
    | some n =>
      if isTrailing n then none
      else if isLeading n then
        match rest with
        | '\\' :: 'u' :: e :: f :: g :: h :: rest' =>
          match hex4? e f g h with
          | none => none
          | some m =>
            if isTrailing m then
              scanOnto (Char.ofNat (0x10000 + (n - 0xD800) * 0x400 + (m - 0xDC00)) :: acc) rest'
            else none
        | _ => none
      else scanOnto (Char.ofNat n :: acc) rest
  | '\\' :: e :: rest =>
    match escaped? e with
    | none => none
    | some c => scanOnto (c :: acc) rest
  | c :: rest =>
    if c.toNat < 0x20 || c == '\\' then none else scanOnto (c :: acc) rest

/-- The characters of a string after its opening mark, and the rest of the text. -/
def scanString (s : List Char) : Option (String × List Char) :=
  (scanOnto [] s).map fun r => (String.ofList r.1, r.2)

/-- Whether a character is a decimal digit. -/
def isDigit (c : Char) : Bool := '0' ≤ c && c ≤ '9'

/-- The leading digits of a text, at least one, and the rest. -/
def scanDigits (s : List Char) : Option (List Char × List Char) :=
  match s.takeWhile isDigit with
  | [] => none
  | ds => some (ds, s.dropWhile isDigit)

/-- The whole digits of a numeral: a zero stands alone. -/
def scanWhole (s : List Char) : Option (List Char × List Char) := do
  let (ds, rest) ← scanDigits s
  if ds.length > 1 && ds.head? == some '0' then none else some (ds, rest)

/-- The fraction of a numeral, if it has one. -/
def scanFraction : List Char → Option (Option (List Char) × List Char)
  | '.' :: rest => (scanDigits rest).map fun r => (some r.1, r.2)
  | s => some (none, s)

/-- The digits of an exponent after its sign. -/
def scanExponentDigits (down : Bool) (s : List Char) :
    Option (Option (Bool × List Char) × List Char) :=
  (scanDigits s).map fun r => (some (down, r.1), r.2)

/-- The exponent of a numeral, if it has one. -/
def scanExponent : List Char → Option (Option (Bool × List Char) × List Char)
  | c :: rest =>
    if c = 'e' ∨ c = 'E' then
      match rest with
      | '-' :: ds => scanExponentDigits true ds
      | '+' :: ds => scanExponentDigits false ds
      | ds => scanExponentDigits false ds
    else some (none, c :: rest)
  | [] => some (none, [])

/-- The parts of a numeral after its sign. -/
def scanUnsigned (negative : Bool) (s : List Char) : Option (Numeral × List Char) := do
  let (whole, s) ← scanWhole s
  let (fraction, s) ← scanFraction s
  let (exponent, s) ← scanExponent s
  return (⟨negative, whole, fraction, exponent⟩, s)

/-- The parts of a numeral. -/
def scanNumeral : List Char → Option (Numeral × List Char)
  | '-' :: rest => scanUnsigned true rest
  | s => scanUnsigned false s

/-- A word that must stand at the front of a text. -/
def expect (word s : List Char) : Option (List Char) :=
  if s.take word.length = word then some (s.drop word.length) else none

/-- A reader takes something off the front of a text. -/
abbrev Reader (α : Type) := List Char → Option (α × List Char)

/-- Items separated by commas up to a closing character, collected in reverse. The text begins
with an item. `fuel` bounds the number of items. -/
def readItems {α : Type} (item : Reader α) (close : Char) :
    Nat → List α → Reader (List α)
  | 0, _, _ => none
  | fuel + 1, acc, s => do
    let (x, s) ← item s
    match skipSpace s with
    | [] => none
    | c :: rest =>
      if c = close then return ((x :: acc).reverse, rest)
      else if c = ',' then readItems item close fuel (x :: acc) (skipSpace rest)
      else none

/-- The items of an array or object after its opening character. -/
def readSequence {α : Type} (item : Reader α) (close : Char) (s : List Char) :
    Option (List α × List Char) :=
  match skipSpace s with
  | [] => none
  | c :: rest =>
    if c = close then some ([], rest)
    else readItems item close (rest.length + 1) [] (c :: rest)

/-- A member of an object: key, colon, value. -/
def readMember (value : Reader Json) : Reader (String × Json)
  | '"' :: rest => do
    let (key, s) ← scanString rest
    match skipSpace s with
    | ':' :: s => do
      let (v, s) ← value (skipSpace s)
      return ((key, v), s)
    | _ => none
  | _ => none

/-- A value at the front of a text that begins with no space; `depth` is how many arrays and
objects may still be opened. -/
def readValue : Nat → Reader Json
  | depth, s =>
    match s with
    | [] => none
    | c :: rest =>
      if c = '"' then (scanString rest).map fun r => (.string r.1, r.2)
      else if c = '[' then
        match depth with
        | 0 => none
        | depth + 1 => (readSequence (readValue depth) ']' rest).map fun r => (.array r.1, r.2)
      else if c = '\x7b' then
        match depth with
        | 0 => none
        | depth + 1 =>
          (readSequence (readMember (readValue depth)) '\x7d' rest).map fun r =>
            (.ofPairs r.1, r.2)
      else if c = 'n' then (expect "ull".toList rest).map fun r => (.null, r)
      else if c = 't' then (expect "rue".toList rest).map fun r => (.bool true, r)
      else if c = 'f' then (expect "alse".toList rest).map fun r => (.bool false, r)
      else do
        let (x, s) ← scanNumeral (c :: rest)
        let n ← x.toNumber?
        return (.number n, s)

/-- How deep arrays and objects may stand inside one another. -/
def maxDepth : Nat := 127

/-- The value of a whole text. -/
def parseChars? (s : List Char) : Option Json := do
  let (v, rest) ← readValue maxDepth (skipSpace s)
  if (skipSpace rest).isEmpty then some v else none

/-- The value of a whole text. -/
def parse? (s : String) : Option Json :=
  parseChars? s.toList

end LateBinding.Json
