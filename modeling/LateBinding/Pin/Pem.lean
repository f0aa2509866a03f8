import LateBinding.Bytes.Base64

/-!
**Armoured sections in a text.**

A section stands between a line that begins it and one that ends it, both of which name its label;
in between is the base64 of its bytes. Text outside sections is skipped. A line that begins a
section inside another one starts it anew. A section that is not closed, a beginning without its
five dashes, and a body that is not base64 are errors, whatever the label.

Main definitions:

* `LateBinding.Pem.Section`;
* `LateBinding.Pem.lines` — the lines of a text, each with its end;
* `LateBinding.Pem.label?` — the label that a line begins a section of;
* `LateBinding.Pem.sections?` — the sections of a text, in order.
-/

set_option autoImplicit false

namespace LateBinding.Pem

/-- A section: its label and its bytes. -/
structure Section where
  label : List Char
  content : List UInt8
deriving DecidableEq, Repr

/-- Whether a character ends a line. -/
def endsLine (c : Char) : Bool := c == '\n' || c == '\r'

/-- The lines of a text, each with the character that ends it. -/
def lines (s : List Char) : List (List Char) :=
  let (done, now) := s.foldl (fun (r : List (List Char) × List Char) c =>
    if endsLine c then ((c :: r.2).reverse :: r.1, []) else (r.1, c :: r.2)) ([], [])
  (if now.isEmpty then done else now.reverse :: done).reverse

/-- How a line that begins a section starts. -/
def opening : List Char := "-----BEGIN ".toList

/-- How a line that ends a section starts. -/
def closing : List Char := "-----END ".toList

/-- The five dashes after a label. -/
def dashes : List Char := "-----".toList

/-- Whether a line begins a section. -/
def isOpening (line : List Char) : Bool := opening.isPrefixOf line

/-- What may stand from the dashes after a label to the end of its line. -/
def isTail (c : Char) : Bool := c == '-' || c == ' ' || c == '\n' || c == '\r'

/-- The label of a line that begins a section, if five dashes stand in the tail of the line. The
label ends where the first of these stands. -/
def label? (line : List Char) : Option (List Char) :=
  let tail := line.reverse.takeWhile isTail
  if (tail.filter (· == '-')).length = 5 then
    let after := (tail.reverse.dropWhile (· != '-')).length
    some ((line.take (line.length - after)).drop opening.length)
  else none

/-- The line that closes a section with a label starts with this. -/
def closingOf (label : List Char) : List Char := closing ++ label ++ dashes

/-- A section that is open: its label, and the lines of its body, newest first. -/
structure Open where
  label : List Char
  body : List (List Char)

/-- Reads on from a state: the sections finished so far, newest first, and the one that is open. -/
def readOn : List Section → Option Open → List (List Char) → Option (List Section)
  | done, none, [] => some done.reverse
  | _, some _, [] => none
  | done, current, line :: rest =>
    if isOpening line then
      match label? line with
      | some label => readOn done (some ⟨label, []⟩) rest
      | none => none
    else
      match current with
      | none => readOn done none rest
      | some o =>
        if (closingOf o.label).isPrefixOf line then
          match Base64.decodeLenient? o.body.reverse.flatten with
          | some content => readOn (⟨o.label, content⟩ :: done) none rest
          | none => none
        else readOn done (some { o with body := line :: o.body }) rest

/-- The sections of a text, in order. -/
def sections? (s : List Char) : Option (List Section) :=
  readOn [] none (lines s)

/-- The label of certificates. -/
def certificateLabel : List Char := "CERTIFICATE".toList

/-- The certificates of a text, in order. -/
def certificates? (s : List Char) : Option (List (List UInt8)) :=
  (sections? s).map fun ss =>
    (ss.filter fun x => x.label = certificateLabel).map Section.content

end LateBinding.Pem
