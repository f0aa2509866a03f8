import LateBinding.Text.Quoted
import LateBinding.Toml.Value

/-!
**Writing TOML strings and lists.**

A string is written in the first of five forms that fits it, and the last one fits every text. The
forms without escapes come first, so that most texts stand in the document as they are. A list of
two or more items is written one item a line.

Main definitions:

* `LateBinding.Toml.Form`, `LateBinding.Toml.Form.choose` — the forms and which one is taken;
* `LateBinding.Toml.renderString` — a text as a TOML string;
* `LateBinding.Toml.renderStrings` — a list of texts as a TOML array.
-/

set_option autoImplicit false

namespace LateBinding.Toml

/-- The forms of a string. -/
inductive Form where
  | basic
  | literal
  | basicLines
  | literalLines
deriving DecidableEq, Repr

/-- The greatest number of times that a character stands in a row. -/
def longestRun (mark : Char) (s : List Char) : Nat :=
  (s.foldl (fun (r : Nat × Nat) c =>
    let now := if c = mark then r.1 + 1 else 0
    (now, max r.2 now)) (0, 0)).2

/-- A control character that no form without escapes can hold: any but tab and line feed. -/
def isControl (c : Char) : Bool :=
  c != '\t' && c != '\n' && (c.toNat < 0x20 || c.toNat = 0x7F)

/-- The form in which a text is written. -/
def Form.choose (s : List Char) : Form :=
  let control := s.any isControl
  let backslash := s.contains '\\'
  let lines := s.contains '\n'
  let quotes := longestRun '"' s
  let apostrophes := longestRun '\'' s
  if !control && !backslash && quotes = 0 && !lines then .basic
  else if !control && apostrophes = 0 && !lines then .literal
  else if !control && !backslash && quotes ≤ 2 then .basicLines
  else if !control && apostrophes ≤ 2 then .literalLines
  else if lines then .basicLines
  else .basic

/-- How a character is written in a form with escapes, the quotation mark apart. -/
def escapeChar (lines : Bool) (c : Char) : List Char :=
  match c with
  | '\x08' => ['\\', 'b']
  | '\t' => ['\\', 't']
  | '\n' => if lines then ['\n'] else ['\\', 'n']
  | '\x0c' => ['\\', 'f']
  | '\r' => ['\\', 'r']
  | '\\' => ['\\', '\\']
  | c =>
    if c.toNat < 0x20 || c.toNat = 0x7F then
      ['\\', 'u', '0', '0', Text.upperHexDigit (c.toNat / 16), Text.upperHexDigit (c.toNat % 16)]
    else [c]

/-- A text with its escapes. At most `free` quotation marks in a row stand for themselves; the next
one is escaped. `run` counts those just written. -/
def escapeText (lines : Bool) (free : Nat) : Nat → List Char → List Char
  | _, [] => []
  | run, c :: rest =>
    if c = '"' then
      if run < free then '"' :: escapeText lines free (run + 1) rest
      else '\\' :: '"' :: escapeText lines free 0 rest
    else escapeChar lines c ++ escapeText lines free 0 rest

/-- A text in a form. A line feed after the opening of a form of several lines is not part of the
text; it is written where the text has lines. -/
def Form.render (f : Form) (s : List Char) : List Char :=
  let lines := s.contains '\n'
  let opening := if lines then ['\n'] else []
  match f with
  | .basic => '"' :: (escapeText false 0 0 s ++ ['"'])
  | .literal => '\'' :: (s ++ ['\''])
  | .basicLines =>
    ['"', '"', '"'] ++ opening ++ escapeText lines 2 0 s ++ ['"', '"', '"']
  | .literalLines => ['\'', '\'', '\''] ++ opening ++ s ++ ['\'', '\'', '\'']

/-- A text as a TOML string. -/
def renderString (s : String) : List Char :=
  (Form.choose s.toList).render s.toList

/-- A list of texts as a TOML array. -/
def renderStrings : List String → List Char
  | [] => ['[', ']']
  | [s] => '[' :: (renderString s ++ [']'])
  | items =>
    ['[', '\n'] ++ items.flatMap (fun s => [' ', ' ', ' ', ' '] ++ renderString s ++ [',', '\n']) ++
      [']']

end LateBinding.Toml
