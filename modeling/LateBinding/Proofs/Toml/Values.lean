import LateBinding.Proofs.Toml.Forms
import LateBinding.Toml.Parser

/-!
**Written strings and lists are read back as values.**

A list is written on one line or with one item a line, and a comma follows every item that has a
line of its own. Between the items the reader passes over ends of lines and blanks, which no item
begins with.

Main definitions:

* `LateBinding.Toml.isFiller` — what may stand between the items of an array;
* `LateBinding.Toml.itemLine` — an item on a line of its own.

Main results:

* `LateBinding.Toml.skipFiller_cons`, `LateBinding.Toml.skipFiller_nextLine` — what is passed over
  before a token;
* `LateBinding.Toml.readValue_renderString` — **a written string is a value**;
* `LateBinding.Toml.readArrayItems_lines` — items written one a line;
* `LateBinding.Toml.readValue_renderStrings` — **a written list is a value**.
-/

set_option autoImplicit false

namespace LateBinding.Toml

variable {c : Char} {t rest : List Char} {s : String} {fuel depth : Nat}

/-! ### Between the tokens -/

/-- What may stand between the items of an array, a comment by its first character. -/
def isFiller (c : Char) : Bool := isBlank c || c == '#' || c == '\n' || c == '\r'

theorem skipBlank_cons (hc : isBlank c = false) : skipBlank (c :: t) = c :: t :=
  List.dropWhile_cons_of_neg (by simp [hc])

theorem isBlank_of_not_isFiller (hc : isFiller c = false) : isBlank c = false := by
  simp only [isFiller, Bool.or_eq_false_iff] at hc
  exact hc.1.1.1

theorem ne_of_not_isFiller {d : Char} (hc : isFiller c = false) (hd : isFiller d = true) : c ≠ d :=
  (ne_of_class hd hc).symm

/-- A token is no filler. -/
theorem skipFillerFrom_cons (hc : isFiller c = false) :
    skipFillerFrom fuel (c :: t) = some (c :: t) := by
  cases fuel with
  | zero => rfl
  | succ fuel =>
      have hhash : c ≠ '#' := ne_of_not_isFiller hc (by decide)
      have hline : c ≠ '\n' := ne_of_not_isFiller hc (by decide)
      have hreturn : c ≠ '\r' := ne_of_not_isFiller hc (by decide)
      rw [skipFillerFrom, skipBlank_cons (isBlank_of_not_isFiller hc)]
      simp [newline, hhash, hline, hreturn]

theorem skipFiller_cons (hc : isFiller c = false) : skipFiller (c :: t) = some (c :: t) :=
  skipFillerFrom_cons hc

/-- An end of line and blanks before a token are passed over. -/
theorem skipFiller_nextLine {blanks : List Char} (hblanks : ∀ b ∈ blanks, isBlank b = true)
    (hc : isFiller c = false) :
    skipFiller ('\n' :: (blanks ++ c :: t)) = some (c :: t) := by
  have hskip : skipBlank (blanks ++ c :: t) = c :: t := by
    rw [skipBlank, List.dropWhile_append_of_pos hblanks]
    exact skipBlank_cons (isBlank_of_not_isFiller hc)
  have hline : ∀ fuel, skipFillerFrom (fuel + 2) ('\n' :: (blanks ++ c :: t)) =
      skipFillerFrom (fuel + 1) (blanks ++ c :: t) := fun fuel => rfl
  have htoken : ∀ fuel, skipFillerFrom (fuel + 1) (blanks ++ c :: t) =
      skipFillerFrom (fuel + 1) (c :: t) := by
    intro fuel
    rw [skipFillerFrom, skipFillerFrom, hskip, skipBlank_cons (isBlank_of_not_isFiller hc)]
  rw [skipFiller, List.length_cons, hline, htoken, skipFillerFrom_cons hc]

/-! ### Values -/

/-- A written string begins with a mark. -/
theorem renderString_eq_cons (s : String) :
    ∃ q t, renderString s = q :: t ∧ (q = '"' ∨ q = '\'') := by
  rw [renderString]
  cases Form.choose s.toList with
  | basic => exact ⟨'"', _, rfl, Or.inl rfl⟩
  | literal => exact ⟨'\'', _, rfl, Or.inr rfl⟩
  | basicLines => exact ⟨'"', _, rfl, Or.inl rfl⟩
  | literalLines => exact ⟨'\'', _, rfl, Or.inr rfl⟩

/-- **A written string is read back as a value.** -/
theorem readValue_renderString (hc : c ≠ '"' ∧ c ≠ '\'') :
    readValue depth (renderString s ++ c :: rest) = some (.string s, c :: rest) := by
  have hread : readString (renderString s ++ c :: rest) = some (s, c :: rest) :=
    readString_renderString (by simpa using hc.1) (by simpa using hc.2)
  obtain ⟨q, t, hq, hmark⟩ := renderString_eq_cons s
  rw [hq, List.cons_append] at hread ⊢
  rw [readValue.eq_def]
  dsimp only
  rw [if_pos hmark, hread]
  rfl

/-- Nothing stands before a written string that is no part of it. -/
theorem skipFiller_renderString :
    skipFiller (renderString s ++ rest) = some (renderString s ++ rest) := by
  obtain ⟨q, t, hq, hmark⟩ := renderString_eq_cons s
  rw [hq]
  exact skipFiller_cons (by rcases hmark with rfl | rfl <;> decide)

/-- On a line of its own there are blanks. -/
theorem skipFiller_line {blanks : List Char} (hblanks : ∀ b ∈ blanks, isBlank b = true) :
    skipFiller ('\n' :: (blanks ++ (renderString s ++ rest))) = some (renderString s ++ rest) := by
  obtain ⟨q, t, hq, hmark⟩ := renderString_eq_cons s
  rw [hq]
  exact skipFiller_nextLine hblanks (by rcases hmark with rfl | rfl <;> decide)

/-- A written string as an item of an array, with what follows it. -/
theorem readArrayItems_renderString {text : List Char} {acc : List Toml} (hc : c = ',' ∨ c = ']')
    (h : skipFiller text = some (renderString s ++ c :: rest)) :
    readArrayItems (readValue depth) (fuel + 1) acc text =
      if c = ',' then readArrayItems (readValue depth) fuel (.string s :: acc) rest
      else some (.array (.string s :: acc).reverse, rest) := by
  have hvalue : readValue depth (renderString s ++ c :: rest) = some (.string s, c :: rest) :=
    readValue_renderString (by rcases hc with rfl | rfl <;> decide)
  obtain ⟨q, t, hq, hmark⟩ := renderString_eq_cons s
  have hbracket : q ≠ ']' := by
    rcases hmark with rfl | rfl <;> decide
  rw [hq, List.cons_append] at h hvalue
  rw [readArrayItems, h]
  rcases hc with rfl | rfl
  · have hfiller : skipFiller (',' :: rest) = some (',' :: rest) := skipFiller_cons (by decide)
    simp [hvalue, hfiller, hbracket]
  · have hfiller : skipFiller (']' :: rest) = some (']' :: rest) := skipFiller_cons (by decide)
    simp [hvalue, hfiller, hbracket]

/-- A written list begins with a bracket. -/
theorem renderStrings_eq_cons (items : List String) : ∃ t, renderStrings items = '[' :: t := by
  match items with
  | [] => exact ⟨_, rfl⟩
  | [s] => exact ⟨_, rfl⟩
  | s :: s' :: more => exact ⟨_, rfl⟩

/-- An item on a line of its own. -/
def itemLine (s : String) : List Char := [' ', ' ', ' ', ' '] ++ renderString s ++ [',', '\n']

/-- **Items written one a line are read back.** -/
theorem readArrayItems_lines {items : List String} {acc : List Toml}
    (hfuel : (items.flatMap itemLine).length < fuel) :
    readArrayItems (readValue depth) fuel acc ('\n' :: (items.flatMap itemLine ++ ']' :: rest)) =
      some (.array (acc.reverse ++ items.map .string), rest) := by
  induction items generalizing acc fuel with
  | nil =>
      obtain ⟨fuel, rfl⟩ : ∃ n, fuel = n + 1 := ⟨fuel - 1, by omega⟩
      have hfiller : skipFiller ('\n' :: ']' :: rest) = some (']' :: rest) :=
        skipFiller_nextLine (List.forall_mem_nil _) (by decide)
      rw [List.flatMap_nil, List.nil_append, readArrayItems, hfiller]
      simp
  | cons s items ih =>
      obtain ⟨fuel, rfl⟩ : ∃ n, fuel = n + 1 := ⟨fuel - 1, by omega⟩
      have hblanks : ∀ b ∈ [' ', ' ', ' ', ' '], isBlank b = true := by simp [isBlank]
      have hline : 0 < (itemLine s).length := by simp [itemLine]
      rw [List.flatMap_cons, List.length_append] at hfuel
      rw [List.flatMap_cons, itemLine, List.append_assoc, List.append_assoc, List.append_assoc,
        List.cons_append (a := ','),
        readArrayItems_renderString (Or.inl rfl) (skipFiller_line hblanks), if_pos rfl,
        List.singleton_append, ih (by omega)]
      simp

/-- **A written list is read back as a value.** -/
theorem readValue_renderStrings (items : List String) :
    readValue (depth + 1) (renderStrings items ++ rest) =
      some (.array (items.map .string), rest) := by
  have harray : ∀ t, readValue (depth + 1) ('[' :: t) =
      readArrayItems (readValue depth) (t.length + 1) [] t := fun t => rfl
  match items with
  | [] =>
      have hfiller : skipFiller (']' :: rest) = some (']' :: rest) := skipFiller_cons (by decide)
      rw [renderStrings, List.cons_append, List.cons_append, harray, readArrayItems,
        List.nil_append, hfiller]
      rfl
  | [s] =>
      rw [renderStrings, List.cons_append, List.append_assoc, List.singleton_append, harray,
        readArrayItems_renderString (Or.inr rfl) skipFiller_renderString, if_neg (by decide)]
      rfl
  | s :: s' :: more =>
      have hitems : renderStrings (s :: s' :: more) =
          ['[', '\n'] ++ (s :: s' :: more).flatMap itemLine ++ [']'] := rfl
      have htext : renderStrings (s :: s' :: more) ++ rest =
          '[' :: '\n' :: ((s :: s' :: more).flatMap itemLine ++ ']' :: rest) := by
        rw [hitems]
        simp
      rw [htext, harray, readArrayItems_lines (by rw [List.length_cons, List.length_append]; omega)]
      rfl

end LateBinding.Toml
