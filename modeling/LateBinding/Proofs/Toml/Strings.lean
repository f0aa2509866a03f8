import LateBinding.Toml.Printer
import LateBinding.Toml.Text

/-!
**What stands between the marks of a string is read back.**

In a basic string each character is written as itself or as an escape, in a literal one only as
itself. On one line the next mark closes the string. Over several lines fewer than three marks in a
row belong to the text, and three more than those close it, so that a text is read back if it is
written without three marks in a row. How the characters themselves are written does not matter for
this: it is one argument for both kinds of string.

Main definitions:

* `LateBinding.Toml.EscapedAs` — what a character is written as in a basic string;
* `LateBinding.Toml.ReadsLines` — a reader of strings of several lines;
* `LateBinding.Toml.Written` — **a text written without three marks in a row**.

Main results:

* `LateBinding.Toml.escapedAs_escapeChar` — every character is written as one of its escapes;
* `LateBinding.Toml.basicOnto_escapeText`, `LateBinding.Toml.literal_append` — strings on one line;
* `LateBinding.Toml.ReadsLines.read_eq` — **strings of several lines**;
* `LateBinding.Toml.readsLines_basic`, `LateBinding.Toml.readsLines_literal` — the two kinds of
  them.
-/

set_option autoImplicit false

namespace LateBinding.Toml

variable {c mark : Char} {s t w rest acc : List Char} {lines : Bool} {run fuel : Nat}

/-! ### One character -/

/-- Characters of which one is in a class and the other is not. -/
theorem ne_of_class {P : Char → Bool} {d : Char} (hc : P c = true) (hd : P d = false) : c ≠ d := by
  rintro rfl
  rw [hc] at hd
  cases hd

/-- The number that four digits write. -/
theorem hexNumber?_control {n : Nat} (hn : n < 0x80) :
    hexNumber? ['0', '0', Text.upperHexDigit (n / 16), Text.upperHexDigit (n % 16)] = some n := by
  revert n
  decide

/-- `EscapedAs lines c w`: the character `c` is written as `w` between quotation marks: as itself,
as a line feed where the string has lines, or as an escape. -/
inductive EscapedAs (lines : Bool) (c : Char) : List Char → Prop
  | plain (h : isPlain c = true) : EscapedAs lines c [c]
  | lineFeed (hlines : lines = true) (h : c = '\n') : EscapedAs lines c [c]
  | escape {d : Char} {w : List Char} (hd : isBlank d = false ∧ d ≠ '\n' ∧ d ≠ '\r')
      (h : ∀ t, Toml.escape (d :: w ++ t) = some (c, t)) : EscapedAs lines c ('\\' :: d :: w)

/-- How a character is escaped by its number. -/
theorem escape_number (hc : c.toNat < 0x80) (t : List Char) :
    escape (['u', '0', '0', Text.upperHexDigit (c.toNat / 16),
      Text.upperHexDigit (c.toNat % 16)] ++ t) = some (c, t) := by
  have hchar : character? c.toNat = some c := by
    have hvalid : c.toNat.isValidChar := c.valid
    rw [character?, if_pos hvalid, Char.ofNat_toNat]
  simp [escape, numbered, hexNumber?_control hc, hchar]

/-- **Every character but the mark has its escape.** -/
theorem escapedAs_escapeChar (lines : Bool) (hc : c ≠ '"') :
    EscapedAs lines c (escapeChar lines c) := by
  unfold escapeChar
  split
  · exact .escape (by decide) fun t => rfl
  · exact .escape (by decide) fun t => rfl
  · cases lines with
    | true => exact .lineFeed rfl rfl
    | false => exact .escape (by decide) fun t => rfl
  · exact .escape (by decide) fun t => rfl
  · exact .escape (by decide) fun t => rfl
  · exact .escape (by decide) fun t => rfl
  · next hback =>
    split
    · next hcontrol =>
      have hlt : c.toNat < 0x80 := by
        simp only [Bool.or_eq_true, decide_eq_true_eq] at hcontrol
        omega
      exact .escape (by decide) (escape_number hlt)
    · next hcontrol =>
      refine .plain ?_
      simp only [Bool.or_eq_true, decide_eq_true_eq, not_or] at hcontrol
      simp only [isPlain, isWide, Bool.or_eq_true, Bool.and_eq_true, decide_eq_true_eq, bne_iff_ne]
      by_cases hwide : 0x80 ≤ c.toNat
      · exact Or.inr hwide
      · exact Or.inl (Or.inr ⟨⟨⟨by omega, by omega⟩, hc⟩, hback⟩)

theorem escapedAs_mark (lines : Bool) : EscapedAs lines '"' ['\\', '"'] :=
  .escape (by decide) fun t => rfl

namespace EscapedAs

/-- What a character is written as begins with no mark, and with a line feed only for a line
feed. -/
theorem exists_cons (h : EscapedAs lines c w) :
    ∃ d u, w = d :: u ∧ d ≠ '"' ∧ d ≠ '\r' ∧ (d = '\n' → c = '\n') := by
  cases h with
  | plain h =>
      exact ⟨c, [], rfl, ne_of_class h (by decide), ne_of_class h (by decide), id⟩
  | lineFeed _ h => exact ⟨c, [], rfl, by rw [h]; decide, by rw [h]; decide, id⟩
  | @escape d u => exact ⟨'\\', d :: u, rfl, by decide, by decide, fun he => absurd he (by decide)⟩

/-- In a string of several lines every escape may stand. -/
theorem in_lines (h : EscapedAs lines c w) : EscapedAs true c w := by
  cases h with
  | plain h => exact .plain h
  | lineFeed _ h => exact .lineFeed rfl h
  | escape hd h => exact .escape hd h

/-- Between two quotation marks a character is read in one step. -/
theorem basicOnto_eq (h : EscapedAs false c w) :
    basicOnto (fuel + 1) acc (w ++ t) = basicOnto fuel (c :: acc) t := by
  cases h with
  | plain h =>
      have hmark : c ≠ '"' := ne_of_class h (by decide)
      have hback : c ≠ '\\' := ne_of_class h (by decide)
      rw [List.singleton_append, basicOnto, if_pos h]
      · exact hmark
      · exact hback
  | lineFeed hlines => cases hlines
  | escape hd h =>
      rw [List.cons_append, basicOnto, h]

/-- So it is in a string of several lines. -/
theorem basicLinesOnto_eq (h : EscapedAs true c w) :
    basicLinesOnto (fuel + 1) acc (w ++ t) = basicLinesOnto fuel (c :: acc) t := by
  cases h with
  | plain h =>
      have hmark : c ≠ '"' := ne_of_class h (by decide)
      have hback : c ≠ '\\' := ne_of_class h (by decide)
      rw [List.singleton_append, basicLinesOnto, if_pos h]
      · exact hmark
      · exact hback
  | lineFeed _ h =>
      subst h
      rfl
  | @escape d u hd h =>
      have hline : newline (skipBlank (d :: u ++ t)) = none := by
        rw [List.cons_append, skipBlank, List.dropWhile_cons_of_neg (by simp [hd.1])]
        simp [newline, hd.2]
      rw [List.cons_append, basicLinesOnto, hline, h]

end EscapedAs

/-! ### Strings on one line -/

/-- Between two quotation marks every character is escaped by itself. -/
theorem escapeText_cons (c : Char) (s : List Char) (run : Nat) :
    ∃ w, EscapedAs false c w ∧ escapeText false 0 run (c :: s) = w ++ escapeText false 0 0 s := by
  rw [escapeText]
  by_cases hc : c = '"'
  · subst hc
    rw [if_pos rfl, if_neg (Nat.not_lt_zero run)]
    exact ⟨['\\', '"'], escapedAs_mark false, rfl⟩
  · rw [if_neg hc]
    exact ⟨_, escapedAs_escapeChar false hc, rfl⟩

/-- **What is escaped between two quotation marks is read back.** -/
theorem basicOnto_escapeText (hfuel : (escapeText false 0 run s).length < fuel) :
    basicOnto fuel acc (escapeText false 0 run s ++ '"' :: rest) =
      some (String.ofList (acc.reverse ++ s), rest) := by
  induction s generalizing fuel acc run with
  | nil =>
      obtain ⟨fuel, rfl⟩ : ∃ n, fuel = n + 1 := ⟨fuel - 1, by omega⟩
      simp [escapeText, basicOnto]
  | cons c s ih =>
      obtain ⟨fuel, rfl⟩ : ∃ n, fuel = n + 1 := ⟨fuel - 1, by omega⟩
      obtain ⟨w, hw, he⟩ := escapeText_cons c s run
      obtain ⟨d, u, rfl, -⟩ := hw.exists_cons
      rw [he, List.length_append, List.length_cons] at hfuel
      rw [he, List.append_assoc, hw.basicOnto_eq, ih (by omega)]
      simp

/-- **What stands between two apostrophes is read back.** -/
theorem literal_append (hs : ∀ c ∈ s, isLiteral c = true) :
    literal (s ++ '\'' :: rest) = some (String.ofList s, rest) := by
  have hmark : isLiteral '\'' = false := by decide
  have hdrop : (s ++ '\'' :: rest).dropWhile isLiteral = '\'' :: rest := by
    rw [List.dropWhile_append_of_pos hs, List.dropWhile_cons_of_neg (by simp [hmark])]
  have htake : (s ++ '\'' :: rest).takeWhile isLiteral = s := by
    rw [List.takeWhile_append_of_pos hs, List.takeWhile_cons_of_neg (by simp [hmark]),
      List.append_nil]
  rw [literal, hdrop, htake]
  rfl

/-! ### Strings of several lines -/

theorem markCount_replicate_append (ht : t.head? ≠ some mark) :
    markCount mark (List.replicate run mark ++ t) = run := by
  have hnone : t.takeWhile (· == mark) = [] := by
    cases t with
    | nil => rfl
    | cons d t => exact List.takeWhile_cons_of_neg (by simpa using ht)
  rw [markCount, List.takeWhile_append_of_pos (by simp), hnone, List.append_nil,
    List.length_replicate]

/-- Fewer than three marks belong to the text. -/
theorem marks_of_lt (hrun : run < 3) (ht : t.head? ≠ some mark) :
    marks mark (List.replicate run mark ++ t) = (List.replicate run mark, t, false) := by
  rw [marks, markCount_replicate_append ht]
  simp [hrun]

/-- Three more close the string. -/
theorem marks_of_closing (hrun : run < 3) (ht : t.head? ≠ some mark) :
    marks mark (List.replicate (run + 3) mark ++ t) = (List.replicate run mark, t, true) := by
  rw [marks, markCount_replicate_append ht]
  simp [Nat.min_eq_left (Nat.le_of_lt_succ hrun)]

/-- How a reader goes over a string of several lines: it counts marks, and `one c w` says that it
takes `w` for the character `c`, which is no mark and begins no end of line but for a line feed. -/
structure ReadsLines (mark : Char) (one : Char → List Char → Prop)
    (read : Nat → List Char → Reader String) : Prop where
  inside :
    ∀ {fuel : Nat} {acc t inside rest : List Char}, marks mark (mark :: t) = (inside, rest, false) →
    read (fuel + 1) acc (mark :: t) = read fuel (inside ++ acc) rest
  closing :
    ∀ {fuel : Nat} {acc t inside rest : List Char}, marks mark (mark :: t) = (inside, rest, true) →
    read (fuel + 1) acc (mark :: t) = some (String.ofList (inside ++ acc).reverse, rest)
  char : ∀ {fuel : Nat} {c : Char} {acc w t : List Char}, one c w →
    read (fuel + 1) acc (w ++ t) = read fuel (c :: acc) t
  front : ∀ {c : Char} {w : List Char}, one c w →
    ∃ d u, w = d :: u ∧ d ≠ mark ∧ d ≠ '\r' ∧ (d = '\n' → c = '\n')

theorem readsLines_basic : ReadsLines '"' (EscapedAs true) basicLinesOnto where
  inside h := by rw [basicLinesOnto, h]
  closing h := by rw [basicLinesOnto, h]
  char hc := hc.basicLinesOnto_eq
  front hc := hc.exists_cons

/-- A character of a literal string that may run over several lines. -/
def StandsFor (c : Char) (w : List Char) : Prop := w = [c] ∧ (isLiteral c = true ∨ c = '\n')

theorem readsLines_literal : ReadsLines '\'' StandsFor literalLinesOnto where
  inside h := by rw [literalLinesOnto, h]
  closing h := by rw [literalLinesOnto, h]
  char hc := by
    obtain ⟨rfl, hc | rfl⟩ := hc
    · rw [List.singleton_append, literalLinesOnto, if_pos hc]
      exact ne_of_class hc (by decide)
    · rfl
  front hc := by
    obtain ⟨rfl, hc | rfl⟩ := hc
    · exact ⟨_, [], rfl, ne_of_class hc (by decide), ne_of_class hc (by decide), id⟩
    · exact ⟨_, [], rfl, by decide, by decide, id⟩

/-- `Written mark one run s t`: after `run` marks the text `s` is written as `t`, never three marks
in a row. -/
inductive Written (mark : Char) (one : Char → List Char → Prop) : Nat → List Char → List Char → Prop
  | nil {run : Nat} (hrun : run < 3) : Written mark one run [] []
  | mark {run : Nat} {s t : List Char} (h : Written mark one (run + 1) s t) :
      Written mark one run (mark :: s) (mark :: t)
  | char {run : Nat} {c : Char} {w s t : List Char} (hrun : run < 3) (hc : one c w)
      (h : Written mark one 0 s t) : Written mark one run (c :: s) (w ++ t)

namespace ReadsLines

variable {one : Char → List Char → Prop} {read : Nat → List Char → Reader String}

/-- Marks that belong to the text are read in one step. -/
theorem read_marks (hread : ReadsLines mark one read) (hpos : 0 < run) (hrun : run < 3)
    (ht : t.head? ≠ some mark) :
    read (fuel + 1) acc (List.replicate run mark ++ t) =
      read fuel (List.replicate run mark ++ acc) t := by
  have hmarks := marks_of_lt hrun ht
  obtain ⟨n, rfl⟩ := Nat.exists_eq_add_of_lt hpos
  rw [Nat.zero_add, List.replicate_succ, List.cons_append] at hmarks ⊢
  exact hread.inside hmarks

/-- The closing marks are read with those before them. -/
theorem read_closing (hread : ReadsLines mark one read) (hrun : run < 3)
    (ht : t.head? ≠ some mark) : read (fuel + 1) acc (List.replicate (run + 3) mark ++ t) =
      some (String.ofList (List.replicate run mark ++ acc).reverse, t) := by
  have hmarks := marks_of_closing hrun ht
  rw [List.replicate_succ, List.cons_append] at hmarks ⊢
  exact hread.closing hmarks

/-- **A string of several lines is read back.** -/
theorem read_eq (hread : ReadsLines mark one read) (h : Written mark one run s t)
    (hrest : rest.head? ≠ some mark) (hfuel : t.length + run < fuel) :
    read fuel acc (List.replicate run mark ++ (t ++ (List.replicate 3 mark ++ rest))) =
      some (String.ofList (acc.reverse ++ List.replicate run mark ++ s), rest) := by
  -- along the text: marks are gathered until another character or the closing follows them
  induction h generalizing fuel acc with
  | @nil run hrun =>
      obtain ⟨fuel, rfl⟩ : ∃ n, fuel = n + 1 := ⟨fuel - 1, by omega⟩
      rw [List.nil_append, ← List.append_assoc, List.replicate_append_replicate,
        hread.read_closing hrun hrest]
      simp
  | @mark run s t h ih =>
      rw [List.length_cons] at hfuel
      have hmore : read fuel acc _ = some (_, rest) := ih (by omega)
      simpa [List.replicate_succ'] using hmore
  | @char run c w s t hrun hc h ih =>
      obtain ⟨d, u, rfl, hd, -⟩ := hread.front hc
      rw [List.length_append, List.length_cons] at hfuel
      rw [List.append_assoc]
      cases Nat.eq_zero_or_pos run with
      | inl hzero =>
          subst hzero
          obtain ⟨fuel, rfl⟩ : ∃ n, fuel = n + 1 := ⟨fuel - 1, by omega⟩
          have hmore : read fuel (c :: acc) _ = some (_, rest) := ih (by omega)
          rw [List.replicate_zero, List.nil_append, hread.char hc]
          simpa using hmore
      | inr hpos =>
          obtain ⟨fuel, rfl⟩ : ∃ n, fuel = n + 2 := ⟨fuel - 2, by omega⟩
          have hmore : read fuel (c :: (List.replicate run mark ++ acc)) _ = some (_, rest) :=
            ih (by omega)
          rw [hread.read_marks hpos hrun (by simpa using hd), hread.char hc]
          simpa using hmore

end ReadsLines

end LateBinding.Toml
