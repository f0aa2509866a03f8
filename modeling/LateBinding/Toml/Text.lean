import LateBinding.Bytes.Hex
import LateBinding.Toml.Lexical

/-!
**The four forms of a TOML string.**

A basic string stands between quotation marks and has escapes; a literal one stands between
apostrophes and has none. Written with three marks at each end, either may run over several lines:
an end of line right after the opening is dropped, and up to two marks may stand before the
closing.

Main definitions:

* `LateBinding.Toml.readString` — a string of any form;
* `LateBinding.Toml.readLine` — a string of one of the two forms on a single line, as keys use.
-/

set_option autoImplicit false

namespace LateBinding.Toml

/-- The number of a string of hexadecimal digits. -/
def hexNumber? (ds : List Char) : Option Nat :=
  ds.foldl (fun n d => do return (← n) * 16 + (← Hex.digit? d)) (some 0)

/-- The character of a number, if it is one. -/
def character? (n : Nat) : Option Char :=
  if n.isValidChar then some (Char.ofNat n) else none

/-- The character of an escape given by its number in `width` digits. -/
def numbered (width : Nat) (s : List Char) : Option (Char × List Char) :=
  let ds := s.take width
  if ds.length = width then do
    let n ← hexNumber? ds
    let c ← character? n
    return (c, s.drop width)
  else none

/-- The character of an escape, after its backslash. -/
def escape : Reader Char
  | 'b' :: rest => some ('\x08', rest)
  | 't' :: rest => some ('\t', rest)
  | 'n' :: rest => some ('\n', rest)
  | 'f' :: rest => some ('\x0c', rest)
  | 'r' :: rest => some ('\r', rest)
  | '"' :: rest => some ('"', rest)
  | '\\' :: rest => some ('\\', rest)
  | 'u' :: rest => numbered 4 rest
  | 'U' :: rest => numbered 8 rest
  | _ => none

/-- A character that needs no escape in a basic string. -/
def isPlain (c : Char) : Bool :=
  c == '\t' || (0x20 ≤ c.toNat && c.toNat ≤ 0x7E && c != '"' && c != '\\') || isWide c

/-- A character of a literal string. -/
def isLiteral (c : Char) : Bool :=
  c == '\t' || (0x20 ≤ c.toNat && c.toNat ≤ 0x7E && c != '\'') || isWide c

/-- The characters of a basic string up to its closing mark; `fuel` bounds their number. -/
def basicOnto : Nat → List Char → Reader String
  | 0, _, _ => none
  | fuel + 1, acc, s =>
    match s with
    | [] => none
    | '"' :: rest => some (String.ofList acc.reverse, rest)
    | '\\' :: rest =>
      match escape rest with
      | some (c, rest) => basicOnto fuel (c :: acc) rest
      | none => none
    | c :: rest => if isPlain c then basicOnto fuel (c :: acc) rest else none

/-- The characters of a literal string up to its closing mark. -/
def literal (s : List Char) : Option (String × List Char) :=
  match s.dropWhile isLiteral with
  | '\'' :: rest => some (String.ofList (s.takeWhile isLiteral), rest)
  | _ => none

/-- The number of marks at the front of a text. -/
def markCount (mark : Char) (s : List Char) : Nat := (s.takeWhile (· == mark)).length

/-- A run of marks inside a string of several lines: fewer than three belong to the text; of more,
the last three close the string, and at most two before them belong to the text. -/
def marks (mark : Char) (s : List Char) : List Char × List Char × Bool :=
  let n := markCount mark s
  if n < 3 then (List.replicate n mark, s.drop n, false)
  else
    let inside := min (n - 3) 2
    (List.replicate inside mark, s.drop (inside + 3), true)

/-- The characters of a basic string of several lines; `fuel` bounds their number. A backslash at
the end of a line drops all blanks and ends of lines up to the next character. -/
def basicLinesOnto : Nat → List Char → Reader String
  | 0, _, _ => none
  | fuel + 1, acc, s =>
    match s with
    | [] => none
    | '"' :: _ =>
      match marks '"' s with
      | (inside, rest, true) => some (String.ofList (inside ++ acc).reverse, rest)
      | (inside, rest, false) => basicLinesOnto fuel (inside ++ acc) rest
    | '\\' :: rest =>
      match newline (skipBlank rest) with
      | some rest => basicLinesOnto fuel acc (skipLines rest)
      | none =>
        match escape rest with
        | some (c, rest) => basicLinesOnto fuel (c :: acc) rest
        | none => none
    | c :: rest =>
      if isPlain c then basicLinesOnto fuel (c :: acc) rest
      else
        match newline (c :: rest) with
        | some rest => basicLinesOnto fuel ('\n' :: acc) rest
        | none => none

/-- The characters of a literal string of several lines; `fuel` bounds their number. -/
def literalLinesOnto : Nat → List Char → Reader String
  | 0, _, _ => none
  | fuel + 1, acc, s =>
    match s with
    | [] => none
    | '\'' :: _ =>
      match marks '\'' s with
      | (inside, rest, true) => some (String.ofList (inside ++ acc).reverse, rest)
      | (inside, rest, false) => literalLinesOnto fuel (inside ++ acc) rest
    | c :: rest =>
      if isLiteral c then literalLinesOnto fuel (c :: acc) rest
      else
        match newline (c :: rest) with
        | some rest => literalLinesOnto fuel ('\n' :: acc) rest
        | none => none

/-- The text after an end of line, if one stands at its front. -/
def dropNewline (s : List Char) : List Char := (newline s).getD s

/-- A string on a single line. -/
def readLine : Reader String
  | '"' :: rest => basicOnto (rest.length + 1) [] rest
  | '\'' :: rest => literal rest
  | _ => none

/-- A string of any form. -/
def readString : Reader String
  | '"' :: '"' :: '"' :: rest => basicLinesOnto (rest.length + 1) [] (dropNewline rest)
  | '\'' :: '\'' :: '\'' :: rest => literalLinesOnto (rest.length + 1) [] (dropNewline rest)
  | s => readLine s

end LateBinding.Toml
