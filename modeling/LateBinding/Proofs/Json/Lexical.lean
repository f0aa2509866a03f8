import LateBinding.Json.Parser

/-!
**Tokens end where they end, whatever follows.**

A reader takes something off the front of a text and leaves the rest. Had another rest followed, it
would have taken the same and left that: a string whatever follows, a numeral if what follows does
not go on with it.

Main definitions:

* `LateBinding.Json.Terminated` — a text that does not go on with a number;
* `LateBinding.Json.IsLocal` — a reader that does not look at what follows;
* `LateBinding.Json.IsEnclosed` — likewise, and what it takes ends with a certain character.

Main results:

* `LateBinding.Json.exists_space` — space is skipped, whatever follows it;
* `LateBinding.Json.scanOnto_local` — **strings end by themselves**;
* `LateBinding.Json.scanNumeral_local` — **numerals end where nothing goes on with them**.
-/

set_option autoImplicit false

namespace LateBinding.Json

variable {α : Type}

/-! ### Readers that do not look ahead -/

/-- A text that does not go on with a number. -/
def Terminated (t : List Char) : Prop :=
  ∀ c ∈ t.head?, isDigit c = false ∧ c ≠ '.' ∧ c ≠ 'e' ∧ c ≠ 'E'

/-- A reader takes something off the front of a text, and takes the same whatever allowed text
follows. -/
def IsLocal (r : Reader α) (allowed : List Char → Prop) : Prop :=
  ∀ s x rest, r s = some (x, rest) →
    ∃ pre, s = pre ++ rest ∧ ∀ t, allowed t → r (pre ++ t) = some (x, t)

/-- A reader takes something that ends with a closing character, and takes the same whatever
follows. -/
def IsEnclosed (r : Reader α) (close : Char) : Prop :=
  ∀ s x rest, r s = some (x, rest) →
    ∃ pre, s = pre ++ close :: rest ∧ ∀ t, r (pre ++ close :: t) = some (x, t)

/-- What begins a text of two parts begins the first part, unless that is empty. -/
theorem head?_append_cases {s t : List Char} {c : Char} (hc : c ∈ (s ++ t).head?) :
    c ∈ s.head? ∨ c ∈ t.head? := by
  cases s with
  | nil => exact Or.inr hc
  | cons d s => exact Or.inl hc

/-! ### Space -/

/-- A text that begins with no space. -/
def IsSolid (t : List Char) : Prop := ∀ c ∈ t.head?, isSpace c = false

theorem IsSolid.skipSpace {t : List Char} (ht : IsSolid t) : skipSpace t = t := by
  cases t with
  | nil => rfl
  | cons c t =>
      have hc : isSpace c = false := ht c rfl
      rw [Json.skipSpace, List.dropWhile_cons_of_neg (by simp [hc])]

/-- Space is skipped, whatever follows it that is no space. -/
theorem exists_space (s : List Char) :
    ∃ sp, s = sp ++ skipSpace s ∧ (∀ c ∈ sp, isSpace c = true) ∧ IsSolid (skipSpace s) ∧
      ∀ t, IsSolid t → skipSpace (sp ++ t) = t := by
  refine ⟨s.takeWhile isSpace, List.takeWhile_append_dropWhile.symm,
    fun c hc => List.all_eq_true.1 List.all_takeWhile c hc, fun c hc => ?_, fun t ht => ?_⟩
  · have hhead := List.head?_dropWhile_not isSpace s
    rw [show (s.dropWhile isSpace).head? = some c from hc] at hhead
    simpa using hhead
  · rw [Json.skipSpace, List.dropWhile_append_of_pos fun c hc =>
      List.all_eq_true.1 List.all_takeWhile c hc]
    exact ht.skipSpace

/-- What begins with space, or with something else that is no part of a number, goes on with
none. -/
theorem terminated_space {sp t : List Char} (hsp : ∀ c ∈ sp, isSpace c = true) (ht : Terminated t) :
    Terminated (sp ++ t) := by
  cases sp with
  | nil => exact ht
  | cons c sp =>
      intro d hd
      obtain rfl : c = d := by simpa using hd
      have hc := hsp c List.mem_cons_self
      simp only [isSpace, Bool.or_eq_true, beq_iff_eq] at hc
      rcases hc with ((rfl | rfl) | rfl) | rfl <;> decide

/-! ### Strings -/

section Strings

variable {acc rest cs : List Char} {a b c d e f g x : Char} {n m : Nat}

theorem scanOnto_mark : scanOnto acc ('"' :: rest) = some (acc.reverse, rest) := by
  rw [scanOnto]

theorem scanOnto_escape (he : escaped? e = some c) :
    scanOnto acc ('\\' :: e :: rest) = scanOnto (c :: acc) rest := by
  rw [scanOnto]
  · simp [he]
  · rintro a b c d rest rfl -
    cases he

theorem scanOnto_unit (hn : hex4? a b c d = some n) (ht : isTrailing n = false)
    (hl : isLeading n = false) :
    scanOnto acc ('\\' :: 'u' :: a :: b :: c :: d :: rest) =
      scanOnto (Char.ofNat n :: acc) rest := by
  rw [scanOnto]
  simp [hn, ht, hl]

theorem scanOnto_pair (hn : hex4? a b c d = some n) (ht : isTrailing n = false)
    (hl : isLeading n = true) (hm : hex4? e f g x = some m) (htm : isTrailing m = true) :
    scanOnto acc ('\\' :: 'u' :: a :: b :: c :: d :: '\\' :: 'u' :: e :: f :: g :: x :: rest) =
      scanOnto (Char.ofNat (0x10000 + (n - 0xD800) * 0x400 + (m - 0xDC00)) :: acc) rest := by
  rw [scanOnto]
  simp [hn, ht, hl, hm, htm]

theorem scanOnto_plain (hc : 0x20 ≤ c.toNat) (hm : c ≠ '"') (hb : c ≠ '\\') :
    scanOnto acc (c :: rest) = scanOnto (c :: acc) rest := by
  rw [scanOnto]
  · have hlt : ¬ c.toNat < 32 := by omega
    simp [hlt, hb]
  · exact hm
  · exact fun _ _ _ _ _ h _ => hb h
  · exact fun _ _ h _ => hb h

/-- **Strings end by themselves.** -/
theorem scanOnto_local {s : List Char} (h : scanOnto acc s = some (cs, rest)) :
    ∃ pre, s = pre ++ '"' :: rest ∧ ∀ t, scanOnto acc (pre ++ '"' :: t) = some (cs, t) := by
  fun_induction scanOnto acc s with
  | case2 acc rest' =>
      cases h
      exact ⟨[], rfl, fun t => scanOnto_mark⟩
  | case6 acc a b c d n hn ht hl e f g x rest' m hm htm ih =>
      obtain ⟨pre, rfl, hpre⟩ := ih h
      refine ⟨'\\' :: 'u' :: a :: b :: c :: d :: '\\' :: 'u' :: e :: f :: g :: x :: pre, rfl,
        fun t => ?_⟩
      exact (scanOnto_pair hn (by simpa using ht) hl hm htm).trans (hpre t)
  | case9 acc a b c d rest' n hn ht hl ih =>
      obtain ⟨pre, rfl, hpre⟩ := ih h
      refine ⟨'\\' :: 'u' :: a :: b :: c :: d :: pre, rfl, fun t => ?_⟩
      exact (scanOnto_unit hn (by simpa using ht) (by simpa using hl)).trans (hpre t)
  | case11 acc e rest' hnot c he ih =>
      obtain ⟨pre, rfl, hpre⟩ := ih h
      exact ⟨'\\' :: e :: pre, rfl, fun t => (scanOnto_escape he).trans (hpre t)⟩
  | case13 acc c rest' hmark _ _ hc ih =>
      obtain ⟨pre, rfl, hpre⟩ := ih h
      obtain ⟨hlow, hback⟩ : 0x20 ≤ c.toNat ∧ c ≠ '\\' := by simpa using hc
      exact ⟨c :: pre, rfl, fun t => (scanOnto_plain hlow hmark hback).trans (hpre t)⟩
  | _ => cases h

theorem scanString_enclosed : IsEnclosed scanString '"' := by
  intro s x rest h
  obtain ⟨⟨cs, rest'⟩, hscan, he⟩ := Option.map_eq_some_iff.1 h
  cases he
  obtain ⟨pre, rfl, hpre⟩ := scanOnto_local hscan
  exact ⟨pre, rfl, fun t => by rw [scanString, hpre]; rfl⟩

end Strings

/-! ### Numerals -/

section Numerals

/-- Digits are taken as they are, whatever follows that is no digit. -/
theorem scanDigits_append {ds t : List Char} (hds : ∀ c ∈ ds, isDigit c = true) (hne : ds ≠ [])
    (ht : ∀ c ∈ t.head?, isDigit c = false) : scanDigits (ds ++ t) = some (ds, t) := by
  have htake : (ds ++ t).takeWhile isDigit = ds := by
    rw [List.takeWhile_append_of_pos hds]
    cases t with
    | nil => simp
    | cons c t => rw [List.takeWhile_cons_of_neg (by simp [ht c rfl]), List.append_nil]
  have hdrop : (ds ++ t).dropWhile isDigit = t := by
    rw [List.dropWhile_append_of_pos hds]
    cases t with
    | nil => rfl
    | cons c t => rw [List.dropWhile_cons_of_neg (by simp [ht c rfl])]
  rw [scanDigits, htake, hdrop]
  cases ds with
  | nil => exact absurd rfl hne
  | cons c ds => rfl

/-- What was taken are digits. -/
theorem of_scanDigits {s ds rest : List Char} (h : scanDigits s = some (ds, rest)) :
    s = ds ++ rest ∧ ds ≠ [] ∧ ∀ c ∈ ds, isDigit c = true := by
  rw [scanDigits] at h
  split at h
  · cases h
  · next hne =>
      cases h
      exact ⟨List.takeWhile_append_dropWhile.symm, hne,
        fun c hc => List.all_eq_true.1 List.all_takeWhile c hc⟩

theorem scanWhole_local : IsLocal scanWhole fun t => ∀ c ∈ t.head?, isDigit c = false := by
  intro s ds rest h
  rw [scanWhole, Option.bind_eq_bind, Option.bind_eq_some_iff] at h
  obtain ⟨⟨ds', rest'⟩, hscan, h⟩ := h
  obtain ⟨rfl, hne, hds⟩ := of_scanDigits hscan
  obtain ⟨hzero, he⟩ := Option.ite_none_left_eq_some.1 h
  cases he
  refine ⟨ds, rfl, fun t ht => ?_⟩
  rw [scanWhole, scanDigits_append hds hne ht]
  exact if_neg hzero

theorem scanFraction_local {s rest : List Char} {f : Option (List Char)}
    (h : scanFraction s = some (f, rest)) :
    ∃ pre, s = pre ++ rest ∧ (∀ c ∈ pre.head?, c = '.') ∧
      ∀ t, (∀ c ∈ t.head?, isDigit c = false ∧ c ≠ '.') →
        scanFraction (pre ++ t) = some (f, t) := by
  rw [scanFraction.eq_def] at h
  split at h
  · next s' =>
      obtain ⟨⟨ds, rest'⟩, hscan, he⟩ := Option.map_eq_some_iff.1 h
      cases he
      obtain ⟨rfl, hne, hds⟩ := of_scanDigits hscan
      refine ⟨'.' :: ds, rfl, fun c hc => by simpa [eq_comm] using hc, fun t ht => ?_⟩
      rw [List.cons_append, scanFraction, scanDigits_append hds hne fun c hc => (ht c hc).1]
      rfl
  · cases h
    refine ⟨[], rfl, fun c hc => (by cases hc), fun t ht => ?_⟩
    rw [List.nil_append, scanFraction]
    rintro rest rfl
    exact (ht '.' rfl).2 rfl

theorem scanExponentDigits_append {down : Bool} {ds t : List Char}
    (hds : ∀ c ∈ ds, isDigit c = true) (hne : ds ≠ []) (ht : ∀ c ∈ t.head?, isDigit c = false) :
    scanExponentDigits down (ds ++ t) = some (some (down, ds), t) := by
  rw [scanExponentDigits, scanDigits_append hds hne ht]
  rfl

theorem of_scanExponentDigits {down : Bool} {s rest : List Char} {e : Option (Bool × List Char)}
    (h : scanExponentDigits down s = some (e, rest)) :
    ∃ ds, e = some (down, ds) ∧ s = ds ++ rest ∧ ds ≠ [] ∧ ∀ c ∈ ds, isDigit c = true := by
  obtain ⟨⟨ds, rest'⟩, hscan, he⟩ := Option.map_eq_some_iff.1 h
  cases he
  exact ⟨ds, rfl, of_scanDigits hscan⟩

theorem scanExponent_none {t : List Char} (ht : ∀ c ∈ t.head?, c ≠ 'e' ∧ c ≠ 'E') :
    scanExponent t = some (none, t) := by
  cases t with
  | nil => rfl
  | cons c t =>
      obtain ⟨he, hE⟩ := ht c rfl
      rw [scanExponent.eq_def]
      simp [he, hE]

theorem scanExponent_minus {c : Char} {s : List Char} (hc : c = 'e' ∨ c = 'E') :
    scanExponent (c :: '-' :: s) = scanExponentDigits true s := by
  rw [scanExponent, if_pos hc]

theorem scanExponent_plus {c : Char} {s : List Char} (hc : c = 'e' ∨ c = 'E') :
    scanExponent (c :: '+' :: s) = scanExponentDigits false s := by
  rw [scanExponent, if_pos hc]

theorem scanExponent_digits {c : Char} {s : List Char} (hc : c = 'e' ∨ c = 'E')
    (hs : ∀ d ∈ s.head?, d ≠ '-' ∧ d ≠ '+') :
    scanExponent (c :: s) = scanExponentDigits false s := by
  rw [scanExponent, if_pos hc]
  · rintro ds rfl
    exact (hs '-' rfl).1 rfl
  · rintro ds rfl
    exact (hs '+' rfl).2 rfl

theorem scanExponent_local {s rest : List Char} {e : Option (Bool × List Char)}
    (h : scanExponent s = some (e, rest)) :
    ∃ pre, s = pre ++ rest ∧ (∀ c ∈ pre.head?, c = 'e' ∨ c = 'E') ∧
      ∀ t, (∀ c ∈ t.head?, isDigit c = false ∧ c ≠ 'e' ∧ c ≠ 'E') →
        scanExponent (pre ++ t) = some (e, t) := by
  by_cases hs : ∃ c s', s = c :: s' ∧ (c = 'e' ∨ c = 'E')
  · obtain ⟨c, s, rfl, hc⟩ := hs
    by_cases hminus : ∃ s', s = '-' :: s'
    · obtain ⟨s, rfl⟩ := hminus
      rw [scanExponent_minus hc] at h
      obtain ⟨ds, rfl, rfl, hne, hds⟩ := of_scanExponentDigits h
      refine ⟨c :: '-' :: ds, rfl, by simpa using hc, fun t ht => ?_⟩
      exact (scanExponent_minus hc).trans
        (scanExponentDigits_append hds hne fun c hc => (ht c hc).1)
    by_cases hplus : ∃ s', s = '+' :: s'
    · obtain ⟨s, rfl⟩ := hplus
      rw [scanExponent_plus hc] at h
      obtain ⟨ds, rfl, rfl, hne, hds⟩ := of_scanExponentDigits h
      refine ⟨c :: '+' :: ds, rfl, by simpa using hc, fun t ht => ?_⟩
      exact (scanExponent_plus hc).trans
        (scanExponentDigits_append hds hne fun c hc => (ht c hc).1)
    rw [scanExponent_digits hc] at h
    · obtain ⟨ds, rfl, rfl, hne, hds⟩ := of_scanExponentDigits h
      refine ⟨c :: ds, rfl, by simpa using hc, fun t ht => ?_⟩
      rw [List.cons_append, scanExponent_digits hc]
      · exact scanExponentDigits_append hds hne fun c hc => (ht c hc).1
      · -- what follows begins with a digit
        intro d hd
        obtain ⟨d', ds, rfl⟩ := List.exists_cons_of_ne_nil hne
        obtain rfl : d' = d := by simpa using hd
        have hdigit := hds d' List.mem_cons_self
        constructor <;> rintro rfl <;> cases hdigit
    · intro d hd
      obtain ⟨s', rfl⟩ := List.head?_eq_some_iff.1 hd
      constructor
      · rintro rfl
        exact hminus ⟨s', rfl⟩
      · rintro rfl
        exact hplus ⟨s', rfl⟩
  · rw [scanExponent_none] at h
    · cases h
      exact ⟨[], rfl, fun c hc => (by cases hc), fun t ht =>
        scanExponent_none fun c hc => (ht c hc).2⟩
    · intro c hc
      obtain ⟨s', rfl⟩ := List.head?_eq_some_iff.1 hc
      constructor
      · rintro rfl
        exact hs ⟨_, _, rfl, Or.inl rfl⟩
      · rintro rfl
        exact hs ⟨_, _, rfl, Or.inr rfl⟩

theorem scanUnsigned_local (negative : Bool) : IsLocal (scanUnsigned negative) Terminated := by
  intro s x rest h
  simp only [scanUnsigned, Option.bind_eq_bind, Option.bind_eq_some_iff] at h
  obtain ⟨⟨w, s₁⟩, hw, ⟨f, s₂⟩, hf, ⟨e, s₃⟩, he, h⟩ := h
  cases h
  obtain ⟨prew, rfl, hprew⟩ := scanWhole_local _ _ _ hw
  obtain ⟨pref, rfl, hdot, hpref⟩ := scanFraction_local hf
  obtain ⟨pree, rfl, hexp, hpree⟩ := scanExponent_local he
  refine ⟨prew ++ (pref ++ pree), by simp, fun t ht => ?_⟩
  -- what follows each part begins with the mark of a later part or with what follows the numeral
  have hafterf : ∀ c ∈ (pree ++ t).head?, isDigit c = false ∧ c ≠ '.' := by
    intro c hc
    rcases head?_append_cases hc with hc | hc
    · rcases hexp c hc with rfl | rfl <;> decide
    · exact ⟨(ht c hc).1, (ht c hc).2.1⟩
  have hafterw : ∀ c ∈ (pref ++ (pree ++ t)).head?, isDigit c = false := by
    intro c hc
    rcases head?_append_cases hc with hc | hc
    · rw [hdot c hc]
      decide
    · exact (hafterf c hc).1
  have haftere : ∀ c ∈ t.head?, isDigit c = false ∧ c ≠ 'e' ∧ c ≠ 'E' := fun c hc =>
    ⟨(ht c hc).1, (ht c hc).2.2⟩
  simp only [scanUnsigned, List.append_assoc, hprew _ hafterw, hpref _ hafterf, hpree _ haftere,
    Option.bind_eq_bind, Option.bind_some]
  rfl

theorem scanNumeral_local : IsLocal scanNumeral Terminated := by
  intro s x rest h
  rw [scanNumeral.eq_def] at h
  split at h
  · obtain ⟨pre, rfl, hpre⟩ := scanUnsigned_local true _ _ _ h
    exact ⟨'-' :: pre, rfl, hpre⟩
  · next hneg =>
      obtain ⟨pre, rfl, hpre⟩ := scanUnsigned_local false _ _ _ h
      refine ⟨pre, rfl, fun t ht => ?_⟩
      rw [scanNumeral]
      · exact hpre t ht
      · -- a numeral without a sign begins with a digit
        rintro rest' heq
        have hscan := hpre [] (by simp [Terminated])
        rw [List.append_nil] at hscan
        cases pre with
        | nil => cases hscan
        | cons c pre =>
            obtain ⟨rfl, -⟩ := List.cons.inj heq
            exact hneg _ rfl

end Numerals

end LateBinding.Json
