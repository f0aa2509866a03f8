import LateBinding.Bytes.Hex
import LateBinding.Json.Value

/-!
**JSON values as compact text.**

No space is written. In a string the quotation mark, the backslash and the control characters are
escaped, and every other character stands for itself.

Main definitions:

* `LateBinding.Json.renderString` — a string in quotation marks;
* `LateBinding.Json.render` — the compact text of a value.
-/

set_option autoImplicit false

namespace LateBinding.Json

/-- How a character is written inside a string. -/
def renderChar (c : Char) : List Char :=
  match c with
  | '"' => ['\\', '"']
  | '\\' => ['\\', '\\']
  | '\x08' => ['\\', 'b']
  | '\x0c' => ['\\', 'f']
  | '\n' => ['\\', 'n']
  | '\r' => ['\\', 'r']
  | '\t' => ['\\', 't']
  | c =>
    if c.toNat < 0x20 then
      ['\\', 'u', '0', '0', Hex.digit (c.toNat / 16), Hex.digit (c.toNat % 16)]
    else [c]

/-- A string in quotation marks. -/
def renderString (s : String) : List Char :=
  '"' :: (s.toList.flatMap renderChar ++ ['"'])

mutual

/-- The compact text of a value. -/
def renderChars : Json → List Char
  | .null => ['n', 'u', 'l', 'l']
  | .bool true => ['t', 'r', 'u', 'e']
  | .bool false => ['f', 'a', 'l', 's', 'e']
  | .number n => n.render
  | .string s => renderString s
  | .array [] => ['[', ']']
  | .array (v :: rest) => '[' :: (v.renderChars ++ renderItems rest)
  | .object [] => ['\x7b', '\x7d']
  | .object ((k, v) :: rest) =>
    '\x7b' :: (renderString k ++ ':' :: (v.renderChars ++ renderMembers rest))

/-- The items after the first one, and the closing bracket. -/
def renderItems : List Json → List Char
  | [] => [']']
  | v :: rest => ',' :: (v.renderChars ++ renderItems rest)

/-- The members after the first one, and the closing brace. -/
def renderMembers : List (String × Json) → List Char
  | [] => ['\x7d']
  | (k, v) :: rest =>
    ',' :: (renderString k ++ ':' :: (v.renderChars ++ renderMembers rest))

end

/-- The compact text of a value, as a text. -/
def render (v : Json) : String :=
  String.ofList v.renderChars

end LateBinding.Json
