import LateBinding.Text.Unprintable
import LateBinding.Text.Utf8

/-!
**A text between quotation marks, fit for a message.**

A quoted text shows every character so that it can be told apart: five characters and the
quotation mark have an escape of one letter, an unprintable character is shown by its number in
hexadecimal, and all else stands for itself. A path is quoted the same way, except that a byte
which is no part of a character is shown by itself.

Main definitions:

* `LateBinding.Text.quote` — a text in quotation marks;
* `LateBinding.Text.quoteBytes` — bytes in quotation marks, stray ones as `\xFF`.
-/

set_option autoImplicit false

namespace LateBinding.Text

/-- How a character is written between quotation marks. -/
def quoteChar (c : Char) : List Char :=
  match c with
  | '"' => ['\\', '"']
  | '\\' => ['\\', '\\']
  | '\n' => ['\\', 'n']
  | '\r' => ['\\', 'r']
  | '\t' => ['\\', 't']
  | '\x00' => ['\\', '0']
  | c =>
    if isUnprintable c then
      '\\' :: 'u' :: '\x7b' :: (Nat.toDigits 16 c.toNat ++ ['\x7d'])
    else [c]

/-- A text in quotation marks. -/
def quote (s : String) : String :=
  String.ofList ('"' :: (s.toList.flatMap quoteChar ++ ['"']))

/-- An upper-case hexadecimal digit. -/
def upperHexDigit (n : Nat) : Char :=
  if n < 10 then Char.ofNat (48 + n) else Char.ofNat (55 + n)

/-- How a byte that belongs to no character is written. -/
def quoteByte (b : UInt8) : List Char :=
  ['\\', 'x', upperHexDigit (b.toNat / 16), upperHexDigit (b.toNat % 16)]

/-- Bytes split into characters and stray bytes. A sequence that breaks off leaves all its bytes
stray. -/
def splitStray (bs : List UInt8) : List (Char ⊕ UInt8) :=
  let (out, pending, held) := bs.foldl
    (fun (s : List (Char ⊕ UInt8) × Option Utf8.Pending × List UInt8) b =>
      let (out, pending, held) := s
      match Utf8.step (fun c => some c) none pending b with
      | (new, some p) =>
        if new.isEmpty then (out, some p, b :: held)
        else (held.map Sum.inr ++ out, some p, [b])
      | ([some c], none) => (.inl c :: out, none, [])
      | ([none, some c], none) => (.inl c :: (held.map Sum.inr ++ out), none, [])
      | (_, none) => (.inr b :: (held.map Sum.inr ++ out), none, []))
    ([], none, [])
  match pending with
  | none => out.reverse
  | some _ => (held.map Sum.inr ++ out).reverse

/-- Bytes in quotation marks: characters as in `quote`, stray bytes in hexadecimal. -/
def quoteBytes (bs : List UInt8) : String :=
  String.ofList <| '"' :: ((splitStray bs).flatMap fun
    | .inl c => quoteChar c
    | .inr b => quoteByte b) ++ ['"']

end LateBinding.Text
