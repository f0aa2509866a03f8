/-!
**The character classes of TOML, and what may stand between its tokens.**

A reader takes something off the front of a text and gives the rest.

Main definitions:

* `LateBinding.Toml.skipBlank` — spaces and tabs;
* `LateBinding.Toml.newline` — a line feed, alone or after a carriage return;
* `LateBinding.Toml.comment` — from a number sign to the end of the line;
* `LateBinding.Toml.lineEnd` — the end of a statement's line;
* `LateBinding.Toml.skipFiller` — what may stand between the items of an array.
-/

set_option autoImplicit false

namespace LateBinding.Toml

/-- A reader takes something off the front of a text. -/
abbrev Reader (α : Type) := List Char → Option (α × List Char)

/-- Space and tab. -/
def isBlank (c : Char) : Bool := c == ' ' || c == '\t'

/-- Characters outside ASCII. -/
def isWide (c : Char) : Bool := 0x80 ≤ c.toNat

/-- A decimal digit. -/
def isDigit (c : Char) : Bool := '0' ≤ c && c ≤ '9'

/-- A hexadecimal digit of either case. -/
def isHexDigit (c : Char) : Bool :=
  isDigit c || ('a' ≤ c && c ≤ 'f') || ('A' ≤ c && c ≤ 'F')

/-- A character of a bare key. -/
def isBare (c : Char) : Bool :=
  ('a' ≤ c && c ≤ 'z') || ('A' ≤ c && c ≤ 'Z') || isDigit c || c == '_' || c == '-'

/-- A character that a comment may hold: tab, and all that is neither control nor delete. -/
def isCommentary (c : Char) : Bool :=
  c == '\t' || (0x20 ≤ c.toNat && c.toNat ≤ 0x7E) || isWide c

/-- The text after leading spaces and tabs. -/
def skipBlank (s : List Char) : List Char := s.dropWhile isBlank

/-- The text after one end of line. -/
def newline : List Char → Option (List Char)
  | '\n' :: rest => some rest
  | '\r' :: '\n' :: rest => some rest
  | _ => none

/-- The text after a comment's characters, its end of line excluded. -/
def skipCommentary (s : List Char) : List Char := s.dropWhile isCommentary

/-- The text after an end of line, or nothing where the text ends. -/
def newlineOrEnd : List Char → Option (List Char)
  | [] => some []
  | s => newline s

/-- The text after a comment and the end of its line. -/
def comment : List Char → Option (List Char)
  | '#' :: rest => newlineOrEnd (skipCommentary rest)
  | _ => none

/-- The text after the end of a statement: blanks, an optional comment, the end of the line. -/
def lineEnd (s : List Char) : Option (List Char) :=
  match skipBlank s with
  | '#' :: rest => comment ('#' :: rest)
  | s => newlineOrEnd s

/-- The text after blanks, ends of lines and comments; `fuel` bounds their number. -/
def skipFillerFrom : Nat → List Char → Option (List Char)
  | 0, s => some s
  | fuel + 1, s =>
    match skipBlank s with
    | '#' :: rest =>
      match newline (skipCommentary rest) with
      | some rest => skipFillerFrom fuel rest
      | none => none
    | s =>
      match newline s with
      | some rest => skipFillerFrom fuel rest
      | none => some s

/-- The text after blanks, ends of lines and comments. -/
def skipFiller (s : List Char) : Option (List Char) := skipFillerFrom (s.length + 1) s

/-- The text after blanks and ends of lines. -/
def skipLines (s : List Char) : List Char :=
  match s with
  | [] => []
  | '\r' :: '\n' :: rest => skipLines rest
  | c :: rest => if isBlank c || c == '\n' then skipLines rest else c :: rest

/-- The text after a word that must stand at its front. -/
def word (w s : List Char) : Option (List Char) :=
  if s.take w.length = w then some (s.drop w.length) else none

end LateBinding.Toml
