import LateBinding.Proofs.Json.Lexical

/-!
**How strings and numerals are spelled.**

What stands between the marks of a string spells characters, and a numeral has a sign, digits, a
fraction and an exponent; both are said here without saying how to read them. The reader scans a
string up to its closing mark exactly if what stands there spells it, and takes a numeral off the
front of a text exactly if the text begins with one, provided that **nothing goes on with it**.

Main definitions:

* `LateBinding.Json.Spells` — the characters that the inside of a string stands for;
* `LateBinding.Json.NumeralText` — the texts of numerals.

Main results:

* `LateBinding.Json.spells_of_scanOnto`, `LateBinding.Json.scanOnto_of_spells` — what is scanned was
  spelled, and what is spelled is scanned;
* `LateBinding.Json.scanString_eq_some_iff` — so a string is scanned exactly as it is spelled;
* `LateBinding.Json.numeralText_of_scan`, `LateBinding.Json.scanNumeral_of_text` — the same of
  numerals.
-/

set_option autoImplicit false

namespace LateBinding.Json

/-! ### Strings -/

/-- `Spells s cs`: between the marks of a string, `s` stands for the characters `cs`. A character
that is no control character, mark or backslash stands for itself; the others are escaped, by a
letter, by a unit of 16 bits, or by a pair of surrogates. -/
inductive Spells : List Char → List Char → Prop
  | nil : Spells [] []
  | plain {s cs : List Char} {c : Char} (hc : 0x20 ≤ c.toNat) (hm : c ≠ '"') (hb : c ≠ '\\')
      (h : Spells s cs) : Spells (c :: s) (c :: cs)
  | escape {s cs : List Char} {e c : Char} (he : escaped? e = some c) (h : Spells s cs) :
      Spells ('\\' :: e :: s) (c :: cs)
  | unit {s cs : List Char} {a b c d : Char} {n : Nat} (hn : hex4? a b c d = some n)
      (ht : isTrailing n = false) (hl : isLeading n = false) (h : Spells s cs) :
      Spells ('\\' :: 'u' :: a :: b :: c :: d :: s) (Char.ofNat n :: cs)
  | pair {s cs : List Char} {a b c d e f g x : Char} {n m : Nat} (hn : hex4? a b c d = some n)
      (ht : isTrailing n = false) (hl : isLeading n = true) (hm : hex4? e f g x = some m)
      (htm : isTrailing m = true) (h : Spells s cs) :
      Spells ('\\' :: 'u' :: a :: b :: c :: d :: '\\' :: 'u' :: e :: f :: g :: x :: s)
        (Char.ofNat (0x10000 + (n - 0xD800) * 0x400 + (m - 0xDC00)) :: cs)

/-- **What is scanned was spelled**, up to the closing mark. -/
theorem spells_of_scanOnto {acc s cs rest : List Char} (h : scanOnto acc s = some (cs, rest)) :
    ∃ t ds, s = t ++ '"' :: rest ∧ Spells t ds ∧ cs = acc.reverse ++ ds := by
  fun_induction scanOnto acc s with
  | case2 acc rest' =>
      cases h
      exact ⟨[], [], rfl, .nil, by simp⟩
  | case6 acc a b c d n hn ht hl e f g x rest' m hm htm ih =>
      obtain ⟨t, ds, rfl, hs, rfl⟩ := ih h
      exact ⟨_, _, rfl, .pair hn (by simpa using ht) hl hm htm hs, by simp⟩
  | case9 acc a b c d rest' n hn ht hl ih =>
      obtain ⟨t, ds, rfl, hs, rfl⟩ := ih h
      exact ⟨_, _, rfl, .unit hn (by simpa using ht) (by simpa using hl) hs, by simp⟩
  | case11 acc e rest' hnot c he ih =>
      obtain ⟨t, ds, rfl, hs, rfl⟩ := ih h
      exact ⟨_, _, rfl, .escape he hs, by simp⟩
  | case13 acc c rest' hmark _ _ hc ih =>
      obtain ⟨t, ds, rfl, hs, rfl⟩ := ih h
      obtain ⟨hlow, hback⟩ : 0x20 ≤ c.toNat ∧ c ≠ '\\' := by simpa using hc
      exact ⟨_, _, rfl, .plain hlow hmark hback hs, by simp⟩
  | _ => cases h

/-- **What is spelled is scanned.** -/
theorem scanOnto_of_spells {t ds : List Char} (h : Spells t ds) (acc rest : List Char) :
    scanOnto acc (t ++ '"' :: rest) = some (acc.reverse ++ ds, rest) := by
  induction h generalizing acc with
  | nil => exact scanOnto_mark.trans (by simp)
  | plain hc hm hb h ih => exact (scanOnto_plain hc hm hb).trans ((ih _).trans (by simp))
  | escape he h ih => exact (scanOnto_escape he).trans ((ih _).trans (by simp))
  | unit hn ht hl h ih => exact (scanOnto_unit hn ht hl).trans ((ih _).trans (by simp))
  | pair hn ht hl hm htm h ih =>
      exact (scanOnto_pair hn ht hl hm htm).trans ((ih _).trans (by simp))

/-- A string is scanned exactly as it is spelled. -/
theorem scanString_eq_some_iff {s rest : List Char} {x : String} :
    scanString s = some (x, rest) ↔ ∃ t, s = t ++ '"' :: rest ∧ Spells t x.toList := by
  constructor
  · intro h
    obtain ⟨⟨cs, rest'⟩, hscan, he⟩ := Option.map_eq_some_iff.1 h
    cases he
    obtain ⟨t, ds, rfl, hs, rfl⟩ := spells_of_scanOnto hscan
    exact ⟨t, rfl, by simpa using hs⟩
  · rintro ⟨t, rfl, hs⟩
    rw [scanString, scanOnto_of_spells hs]
    simp

/-! ### Numerals -/

/-- Decimal digits, at least one. -/
def IsDigits (ds : List Char) : Prop := ds ≠ [] ∧ ∀ c ∈ ds, isDigit c = true

/-- The texts of fractions: none, or a point and digits. -/
inductive FractionText : List Char → Option (List Char) → Prop
  | none : FractionText [] none
  | some {ds : List Char} (h : IsDigits ds) : FractionText ('.' :: ds) (some ds)

/-- The texts of exponents: none, or a letter, perhaps a sign, and digits. -/
inductive ExponentText : List Char → Option (Bool × List Char) → Prop
  | none : ExponentText [] none
  | minus {c : Char} {ds : List Char} (hc : c = 'e' ∨ c = 'E') (h : IsDigits ds) :
      ExponentText (c :: '-' :: ds) (some (true, ds))
  | plus {c : Char} {ds : List Char} (hc : c = 'e' ∨ c = 'E') (h : IsDigits ds) :
      ExponentText (c :: '+' :: ds) (some (false, ds))
  | unsigned {c : Char} {ds : List Char} (hc : c = 'e' ∨ c = 'E') (h : IsDigits ds) :
      ExponentText (c :: ds) (some (false, ds))

/-- The texts of numerals: perhaps a sign, digits of which a zero stands alone, a fraction and an
exponent. -/
inductive NumeralText : List Char → Numeral → Prop
  | mk {f e : List Char} {x : Numeral} (hw : IsDigits x.whole)
      (hzero : x.whole.head? = some '0' → x.whole = ['0']) (hf : FractionText f x.fraction)
      (he : ExponentText e x.exponent) :
      NumeralText ((if x.negative then ['-'] else []) ++ (x.whole ++ (f ++ e))) x

/-- A numeral begins with a digit or a sign. -/
theorem NumeralText.exists_cons {s : List Char} {x : Numeral} (h : NumeralText s x) :
    ∃ c cs, s = c :: cs ∧ (isDigit c = true ∨ c = '-') := by
  cases h with
  | mk hw hzero hf he =>
      obtain ⟨hne, hdigits⟩ := hw
      obtain ⟨c, ds, hds⟩ := List.exists_cons_of_ne_nil hne
      cases x.negative with
      | true => exact ⟨'-', _, rfl, Or.inr rfl⟩
      | false => exact ⟨c, _, by rw [hds]; rfl, Or.inl (hdigits c (by simp [hds]))⟩

/-- A digit is no sign. -/
theorem ne_sign_of_isDigit {c : Char} (hc : isDigit c = true) : c ≠ '-' ∧ c ≠ '+' := by
  constructor <;> rintro rfl <;> cases hc

theorem text_of_scanWhole {s ds rest : List Char} (h : scanWhole s = some (ds, rest)) :
    s = ds ++ rest ∧ IsDigits ds ∧ (ds.head? = some '0' → ds = ['0']) := by
  rw [scanWhole, Option.bind_eq_bind, Option.bind_eq_some_iff] at h
  obtain ⟨⟨ds', rest'⟩, hscan, h⟩ := h
  obtain ⟨hlong, he⟩ := Option.ite_none_left_eq_some.1 h
  cases he
  obtain ⟨rfl, hne, hdigits⟩ := of_scanDigits hscan
  refine ⟨rfl, ⟨hne, hdigits⟩, fun hzero => ?_⟩
  obtain ⟨tail, rfl⟩ := List.head?_eq_some_iff.1 hzero
  cases tail with
  | nil => rfl
  | cons c tail => simp at hlong

theorem scanWhole_of_text {ds rest : List Char} (hds : IsDigits ds)
    (hzero : ds.head? = some '0' → ds = ['0']) (hrest : ∀ c ∈ rest.head?, isDigit c = false) :
    scanWhole (ds ++ rest) = some (ds, rest) := by
  rw [scanWhole, scanDigits_append hds.2 hds.1 hrest]
  refine if_neg ?_
  intro hlong
  simp only [Bool.and_eq_true, decide_eq_true_eq, beq_iff_eq] at hlong
  rw [hzero hlong.2] at hlong
  simp at hlong

theorem text_of_scanFraction {s rest : List Char} {f : Option (List Char)}
    (h : scanFraction s = some (f, rest)) : ∃ t, s = t ++ rest ∧ FractionText t f := by
  rw [scanFraction.eq_def] at h
  split at h
  · obtain ⟨⟨ds, rest'⟩, hscan, he⟩ := Option.map_eq_some_iff.1 h
    cases he
    obtain ⟨rfl, hds⟩ := of_scanDigits hscan
    exact ⟨_, rfl, .some hds⟩
  · cases h
    exact ⟨[], rfl, .none⟩

theorem scanFraction_of_text {t rest : List Char} {f : Option (List Char)} (h : FractionText t f)
    (hrest : ∀ c ∈ rest.head?, isDigit c = false ∧ c ≠ '.') :
    scanFraction (t ++ rest) = some (f, rest) := by
  cases h with
  | none =>
      rw [List.nil_append, scanFraction]
      rintro rest' rfl
      exact (hrest '.' rfl).2 rfl
  | some hds =>
      rw [List.cons_append, scanFraction, scanDigits_append hds.2 hds.1 fun c hc => (hrest c hc).1]
      rfl

theorem text_of_scanExponent {s rest : List Char} {e : Option (Bool × List Char)}
    (h : scanExponent s = some (e, rest)) : ∃ t, s = t ++ rest ∧ ExponentText t e := by
  rw [scanExponent.eq_def] at h
  split at h
  · next c s' =>
      split at h
      · next hc =>
          split at h
          · obtain ⟨ds, rfl, rfl, hds⟩ := of_scanExponentDigits h
            exact ⟨c :: '-' :: ds, rfl, .minus hc hds⟩
          · obtain ⟨ds, rfl, rfl, hds⟩ := of_scanExponentDigits h
            exact ⟨c :: '+' :: ds, rfl, .plus hc hds⟩
          · obtain ⟨ds, rfl, rfl, hds⟩ := of_scanExponentDigits h
            exact ⟨c :: ds, rfl, .unsigned hc hds⟩
      · cases h
        exact ⟨[], rfl, .none⟩
  · cases h
    exact ⟨[], rfl, .none⟩

theorem scanExponent_of_text {t rest : List Char} {e : Option (Bool × List Char)}
    (h : ExponentText t e) (hrest : ∀ c ∈ rest.head?, isDigit c = false ∧ c ≠ 'e' ∧ c ≠ 'E') :
    scanExponent (t ++ rest) = some (e, rest) := by
  have hdigit : ∀ c ∈ rest.head?, isDigit c = false := fun c hc => (hrest c hc).1
  cases h with
  | none => exact scanExponent_none fun c hc => (hrest c hc).2
  | minus hc hds =>
      exact (scanExponent_minus hc).trans (scanExponentDigits_append hds.2 hds.1 hdigit)
  | plus hc hds =>
      exact (scanExponent_plus hc).trans (scanExponentDigits_append hds.2 hds.1 hdigit)
  | @unsigned c ds hc hds =>
      obtain ⟨d, ds', rfl⟩ := List.exists_cons_of_ne_nil hds.1
      have hsign := ne_sign_of_isDigit (hds.2 d List.mem_cons_self)
      refine (scanExponent_digits hc ?_).trans (scanExponentDigits_append hds.2 hds.1 hdigit)
      intro x hx
      cases hx
      exact hsign

theorem text_of_scanUnsigned {negative : Bool} {s rest : List Char} {x : Numeral}
    (h : scanUnsigned negative s = some (x, rest)) :
    ∃ t, NumeralText ((if negative then ['-'] else []) ++ t) x ∧ s = t ++ rest := by
  simp only [scanUnsigned, Option.bind_eq_bind, Option.bind_eq_some_iff] at h
  obtain ⟨⟨w, s₁⟩, hw, ⟨f, s₂⟩, hf, ⟨e, s₃⟩, he, h⟩ := h
  cases h
  obtain ⟨rfl, hdigits, hzero⟩ := text_of_scanWhole hw
  obtain ⟨tf, rfl, hfraction⟩ := text_of_scanFraction hf
  obtain ⟨te, rfl, hexponent⟩ := text_of_scanExponent he
  exact ⟨w ++ (tf ++ te), .mk (x := ⟨negative, w, f, e⟩) hdigits hzero hfraction hexponent, by simp⟩

theorem FractionText.head? {t : List Char} {f : Option (List Char)} (h : FractionText t f) :
    ∀ c ∈ t.head?, c = '.' := by
  intro c hc
  cases h with
  | none => cases hc
  | some hds => exact (Option.some.inj hc).symm

theorem ExponentText.head? {t : List Char} {e : Option (Bool × List Char)} (h : ExponentText t e) :
    ∀ c ∈ t.head?, c = 'e' ∨ c = 'E' := by
  intro c hc
  cases h with
  | none => cases hc
  | minus hc' hds => cases hc; exact hc'
  | plus hc' hds => cases hc; exact hc'
  | unsigned hc' hds => cases hc; exact hc'

theorem scanUnsigned_of_text {f e rest : List Char} {x : Numeral} (hw : IsDigits x.whole)
    (hzero : x.whole.head? = some '0' → x.whole = ['0']) (hf : FractionText f x.fraction)
    (he : ExponentText e x.exponent) (hrest : Terminated rest) :
    scanUnsigned x.negative (x.whole ++ (f ++ (e ++ rest))) = some (x, rest) := by
  -- what follows each part begins with the mark of a later part or with what follows the numeral
  have hafterf : ∀ c ∈ (e ++ rest).head?, isDigit c = false ∧ c ≠ '.' := by
    intro c hc
    rcases head?_append_cases hc with hc | hc
    · rcases he.head? c hc with rfl | rfl <;> decide
    · exact ⟨(hrest c hc).1, (hrest c hc).2.1⟩
  have hafterw : ∀ c ∈ (f ++ (e ++ rest)).head?, isDigit c = false := by
    intro c hc
    rcases head?_append_cases hc with hc | hc
    · rw [hf.head? c hc]
      decide
    · exact (hafterf c hc).1
  have haftere : ∀ c ∈ rest.head?, isDigit c = false ∧ c ≠ 'e' ∧ c ≠ 'E' := fun c hc =>
    ⟨(hrest c hc).1, (hrest c hc).2.2⟩
  simp only [scanUnsigned, scanWhole_of_text hw hzero hafterw, scanFraction_of_text hf hafterf,
    scanExponent_of_text he haftere, Option.bind_eq_bind, Option.bind_some]
  rfl

/-- **What is scanned as a numeral is one.** -/
theorem numeralText_of_scan {s rest : List Char} {x : Numeral}
    (h : scanNumeral s = some (x, rest)) : ∃ t, s = t ++ rest ∧ NumeralText t x := by
  rw [scanNumeral.eq_def] at h
  split at h
  · obtain ⟨t, ht, rfl⟩ := text_of_scanUnsigned h
    exact ⟨'-' :: t, rfl, ht⟩
  · obtain ⟨t, ht, rfl⟩ := text_of_scanUnsigned h
    exact ⟨t, rfl, ht⟩

/-- **A numeral is scanned as such**, where nothing goes on with it. -/
theorem scanNumeral_of_text {t rest : List Char} {x : Numeral} (h : NumeralText t x)
    (hrest : Terminated rest) : scanNumeral (t ++ rest) = some (x, rest) := by
  cases h with
  | @mk f e x hw hzero hf he =>
      have hscan := scanUnsigned_of_text hw hzero hf he hrest
      cases hneg : x.negative with
      | true =>
          rw [hneg] at hscan
          simpa [scanNumeral] using hscan
      | false =>
          rw [hneg] at hscan
          have htext : (if false = true then ['-'] else []) ++ (x.whole ++ (f ++ e)) ++ rest =
              x.whole ++ (f ++ (e ++ rest)) := by simp
          rw [htext, scanNumeral]
          · exact hscan
          · -- a numeral without a sign begins with a digit
            intro rest' heq
            obtain ⟨c, ds, hds⟩ := List.exists_cons_of_ne_nil hw.1
            rw [hds] at heq
            obtain ⟨rfl, -⟩ := List.cons.inj heq
            exact (ne_sign_of_isDigit (hw.2 '-' (by simp [hds]))).1 rfl

end LateBinding.Json
