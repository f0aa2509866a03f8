import LateBinding.Proofs.Json.Grammar

/-!
**No proper part of an object, taken from its front, is an object.**

Whoever goes through the text of an object, counts the arrays and objects that stand open and minds
what stands in strings, finds the mark that closes it at its very end. This holds of every text that
conforms to the grammar of the format, also of those that the reader refuses: however deep they are,
whatever the size of their numbers, and even if an escape in a string stands for half a pair of
surrogates. So if the reader takes an object off the front of such a text, **nothing is left over**,
and a text that was cut off does not read.

Main definitions:

* `LateBinding.Json.Formed`, `LateBinding.Json.FormedObject` — the texts that conform to the
  grammar;
* `LateBinding.Json.afterClose` — what follows the closing mark;
* `LateBinding.Json.IsBalanced` — text that leaves as many arrays and objects open as it found.

Main results:

* `LateBinding.Json.Enclosed.isBalanced`, `LateBinding.Json.Formed.isBalanced` — the texts of values
  are balanced;
* `LateBinding.Json.FormedObject.eq_nil_of_append` — **no object is a proper part of another from
  its front**;
* `LateBinding.Json.Writes.formed` — what the reader takes conforms to the grammar;
* `LateBinding.Json.FormedObject.rest_eq_nil` — so it leaves nothing of an object.
-/

set_option autoImplicit false

namespace LateBinding.Json

/-! ### The grammar by its letter -/

/-- What stands between the marks of a string, whether or not its escapes stand for characters. -/
inductive FormedString : List Char → Prop
  | nil : FormedString []
  | plain {s : List Char} {c : Char} (hc : 0x20 ≤ c.toNat) (hm : c ≠ '"') (hb : c ≠ '\\')
      (h : FormedString s) : FormedString (c :: s)
  | escape {s : List Char} {e c : Char} (he : escaped? e = some c) (h : FormedString s) :
      FormedString ('\\' :: e :: s)
  | unit {s : List Char} {a b c d : Char} {n : Nat} (hn : hex4? a b c d = some n)
      (h : FormedString s) : FormedString ('\\' :: 'u' :: a :: b :: c :: d :: s)

/-- Words, strings, and numerals of any size. -/
inductive FormedScalar : List Char → Prop
  | word {t : List Char} (ht : t ∈ ["null".toList, "true".toList, "false".toList]) : FormedScalar t
  | string {s : List Char} (hs : FormedString s) : FormedScalar ('"' :: (s ++ ['"']))
  | number {t : List Char} {x : Numeral} (ht : NumeralText t x) : FormedScalar t

/-- Members of objects, given the texts of their values. -/
inductive FormedMember (value : List Char → Prop) : List Char → Prop
  | mk {s sp sp' t : List Char} (hs : FormedString s) (hsp : IsSpacing sp) (hsp' : IsSpacing sp')
      (ht : value t) : FormedMember value ('"' :: (s ++ '"' :: (sp ++ ':' :: (sp' ++ t))))

/-- The text of some items with commas, between an opening and a closing mark. -/
def Between (opening closing : Char) (item : List Char → Prop) (x : List Char) : Prop :=
  ∃ s xs, x = opening :: (s ++ [closing]) ∧ Enclosed (fun t (_ : Unit) => item t) s xs

/-- The texts of values with at most so many arrays and objects inside one another. -/
def Formed : Nat → List Char → Prop
  | 0, t => FormedScalar t
  | d + 1, t =>
    FormedScalar t ∨ Between '[' ']' (Formed d) t ∨
      Between '\x7b' '\x7d' (FormedMember (Formed d)) t

/-- The texts of objects, however deep. -/
def FormedObject (x : List Char) : Prop := ∃ d, Between '\x7b' '\x7d' (FormedMember (Formed d)) x

/-! ### Finding the closing mark -/

/-- What follows the mark that closes the outermost of some open arrays and objects, where `depth`
of them stand in it: nothing counts that stands in a string. -/
def afterClose : Nat → Bool → List Char → Option (List Char)
  | _, _, [] => none
  | depth, true, c :: s =>
    if c = '\\' then
      match s with
      | [] => none
      | _ :: s => afterClose depth true s
    else if c = '"' then afterClose depth false s
    else afterClose depth true s
  | depth, false, c :: s =>
    if c = '"' then afterClose depth true s
    else if c = '[' ∨ c = '\x7b' then afterClose (depth + 1) false s
    else if c = ']' ∨ c = '\x7d' then
      match depth with
      | 0 => some s
      | depth + 1 => afterClose depth false s
    else afterClose depth false s

/-- A character that neither opens nor closes anything. -/
def IsNeutral (c : Char) : Prop := c ∉ ['\x00', '"', '[', '\x7b', ']', '\x7d']

instance (c : Char) : Decidable (IsNeutral c) := inferInstanceAs (Decidable (_ ∉ _))

/-- A character of a kind to which none of the marks belongs is neutral. -/
theorem isNeutral_of_kind {kind : Char → Bool} {c : Char} (hc : kind c = true)
    (hmarks : ∀ x ∈ ['\x00', '"', '[', '\x7b', ']', '\x7d'], kind x = false) : IsNeutral c := by
  intro hmem
  rw [hmarks c hmem] at hc
  cases hc

section Steps

variable {depth : Nat} {s : List Char} {c : Char}

theorem afterClose_neutral (hc : IsNeutral c) :
    afterClose depth false (c :: s) = afterClose depth false s := by
  simp only [IsNeutral, List.mem_cons, List.not_mem_nil, or_false, not_or] at hc
  simp [afterClose, hc]

theorem afterClose_open (hc : c = '[' ∨ c = '\x7b') :
    afterClose depth false (c :: s) = afterClose (depth + 1) false s := by
  rcases hc with rfl | rfl <;> simp [afterClose]

theorem afterClose_close (hc : c = ']' ∨ c = '\x7d') :
    afterClose (depth + 1) false (c :: s) = afterClose depth false s := by
  rcases hc with rfl | rfl <;> simp [afterClose]

theorem afterClose_last (hc : c = ']' ∨ c = '\x7d') : afterClose 0 false (c :: s) = some s := by
  rcases hc with rfl | rfl <;> simp [afterClose]

theorem afterClose_string_end : afterClose depth true ('"' :: s) = afterClose depth false s := by
  cases s <;> simp [afterClose]

theorem afterClose_escaped : afterClose depth true ('\\' :: c :: s) = afterClose depth true s := by
  simp [afterClose]

theorem afterClose_in_string (hm : c ≠ '"') (hb : c ≠ '\\') :
    afterClose depth true (c :: s) = afterClose depth true s := by
  cases s <;> simp [afterClose, hm, hb]

end Steps

/-- A hexadecimal digit is no mark. -/
theorem ne_of_digit? {c : Char} {n : Nat} (h : Hex.digit? c = some n) :
    c ≠ '\x00' ∧ c ≠ '"' ∧ c ≠ '\\' := by
  have hnone : ∀ x ∈ ['\x00', '"', '\\'], Hex.digit? x = none := by simp [Hex.digit?]
  have hne : ∀ x, Hex.digit? x = none → c ≠ x := by
    rintro x hx rfl
    rw [hx] at h
    cases h
  simp only [List.forall_mem_cons] at hnone
  obtain ⟨hzero, hmark, hback, -⟩ := hnone
  exact ⟨hne _ hzero, hne _ hmark, hne _ hback⟩

theorem digits_of_hex4? {a b c d : Char} {n : Nat} (h : hex4? a b c d = some n) :
    ∀ x ∈ [a, b, c, d], x ≠ '\x00' ∧ x ≠ '"' ∧ x ≠ '\\' := by
  simp only [hex4?, Option.bind_eq_bind, Option.bind_eq_some_iff] at h
  obtain ⟨w, hw, x, hx, y, hy, z, hz, -⟩ := h
  simp only [List.forall_mem_cons]
  exact ⟨ne_of_digit? hw, ne_of_digit? hx, ne_of_digit? hy, ne_of_digit? hz, List.forall_mem_nil _⟩

/-- A string ends at its closing mark. -/
theorem FormedString.afterClose_eq {s : List Char} (h : FormedString s) (depth : Nat)
    (rest : List Char) :
    afterClose depth true (s ++ '"' :: rest) = afterClose depth false rest := by
  induction h with
  | nil => exact afterClose_string_end
  | plain hc hm hb h ih => rw [List.cons_append, afterClose_in_string hm hb, ih]
  | escape he h ih => exact afterClose_escaped.trans ih
  | unit hn h ih =>
      have hdigits := digits_of_hex4? hn
      simp only [List.forall_mem_cons] at hdigits
      obtain ⟨⟨-, ha, ha'⟩, ⟨-, hb, hb'⟩, ⟨-, hc, hc'⟩, ⟨-, hd, hd'⟩, -⟩ := hdigits
      simp only [List.cons_append]
      rw [afterClose_escaped, afterClose_in_string ha ha', afterClose_in_string hb hb',
        afterClose_in_string hc hc', afterClose_in_string hd hd', ih]

theorem FormedString.ne_zero {s : List Char} (h : FormedString s) : ∀ c ∈ s, c ≠ '\x00' := by
  induction h with
  | nil => nofun
  | plain hc hm hb h ih =>
      refine List.forall_mem_cons.2 ⟨?_, ih⟩
      rintro rfl
      exact absurd hc (by decide)
  | escape he h ih =>
      refine List.forall_mem_cons.2 ⟨by decide, List.forall_mem_cons.2 ⟨?_, ih⟩⟩
      rintro rfl
      cases he
  | unit hn h ih =>
      have hdigits := digits_of_hex4? hn
      simp only [List.forall_mem_cons] at hdigits ⊢
      obtain ⟨⟨ha, -⟩, ⟨hb, -⟩, ⟨hc, -⟩, ⟨hd, -⟩, -⟩ := hdigits
      exact ⟨by decide, by decide, ha, hb, hc, hd, ih⟩

/-! ### Balanced text -/

/-- Text that leaves as many arrays and objects open as it found, and no string. -/
structure IsBalanced (t : List Char) : Prop where
  ne_zero : ∀ c ∈ t, c ≠ '\x00'
  skipped : ∀ depth rest, afterClose depth false (t ++ rest) = afterClose depth false rest

section Balanced

variable {s t : List Char}

theorem IsBalanced.nil : IsBalanced [] := ⟨nofun, fun _ _ => rfl⟩

theorem IsBalanced.append (hs : IsBalanced s) (ht : IsBalanced t) : IsBalanced (s ++ t) :=
  ⟨List.forall_mem_append.2 ⟨hs.ne_zero, ht.ne_zero⟩, fun depth rest => by
    rw [List.append_assoc, hs.skipped, ht.skipped]⟩

theorem isBalanced_of_neutral (h : ∀ c ∈ t, IsNeutral c) : IsBalanced t := by
  induction t with
  | nil => exact .nil
  | cons c t ih =>
      obtain ⟨hc, ht⟩ := List.forall_mem_cons.1 h
      refine ⟨List.forall_mem_cons.2 ⟨?_, (ih ht).ne_zero⟩, fun depth rest => ?_⟩
      · rintro rfl
        exact hc (by simp)
      · rw [List.cons_append, afterClose_neutral hc, (ih ht).skipped]

theorem IsBalanced.cons {c : Char} (hc : IsNeutral c) (ht : IsBalanced t) : IsBalanced (c :: t) :=
  (isBalanced_of_neutral (t := [c]) (by simpa using hc)).append ht

theorem IsSpacing.isBalanced (h : IsSpacing s) : IsBalanced s :=
  isBalanced_of_neutral fun c hc => isNeutral_of_kind (h c hc) (by simp [isSpace])

/-- A string with its marks, and what comes after it. -/
theorem FormedString.isBalanced (hs : FormedString s) (ht : IsBalanced t) :
    IsBalanced ('"' :: (s ++ '"' :: t)) := by
  refine ⟨?_, fun depth rest => ?_⟩
  · simp only [List.forall_mem_cons, List.forall_mem_append]
    exact ⟨by decide, hs.ne_zero, by decide, ht.ne_zero⟩
  · have hopen : afterClose depth false ('"' :: (s ++ '"' :: t) ++ rest) =
        afterClose depth true (s ++ '"' :: (t ++ rest)) := by simp [afterClose]
    rw [hopen, hs.afterClose_eq, ht.skipped]

/-- What stands between an opening mark and a closing one. -/
theorem IsBalanced.between {opening closing : Char} (hs : IsBalanced s)
    (hopening : opening = '[' ∨ opening = '\x7b') (hclosing : closing = ']' ∨ closing = '\x7d') :
    IsBalanced (opening :: (s ++ [closing])) := by
  refine ⟨?_, fun depth rest => ?_⟩
  · simp only [List.forall_mem_cons, List.forall_mem_append]
    refine ⟨?_, hs.ne_zero, ?_, nofun⟩
    · rcases hopening with rfl | rfl <;> decide
    · rcases hclosing with rfl | rfl <;> decide
  · rw [List.cons_append, afterClose_open hopening, List.append_assoc, hs.skipped]
    exact afterClose_close hclosing

end Balanced

/-! ### The texts of values -/

section Items

variable {α : Type} {item : List Char → α → Prop} {r : List Char} {xs : List α}

theorem Listed.isBalanced (h : Listed item r xs) (hitem : ∀ t x, item t x → IsBalanced t) :
    IsBalanced r := by
  induction h with
  | one h hsp => exact (hitem _ _ h).append hsp.isBalanced
  | cons h hsp hsp' hr ih =>
      exact (hitem _ _ h).append
        (hsp.isBalanced.append (.cons (by decide) (hsp'.isBalanced.append ih)))

/-- **Balanced items, with commas and space, are balanced.** -/
theorem Enclosed.isBalanced (h : Enclosed item r xs) (hitem : ∀ t x, item t x → IsBalanced t) :
    IsBalanced r := by
  cases h with
  | empty hsp => exact hsp.isBalanced
  | listed hsp hr => exact hsp.isBalanced.append (hr.isBalanced hitem)

/-- Items of another kind that have the same texts. -/
theorem Listed.map {β : Type} {item' : List Char → β → Prop} (f : α → β)
    (hitem : ∀ t x, item t x → item' t (f x)) (h : Listed item r xs) :
    Listed item' r (xs.map f) := by
  induction h with
  | one h hsp => exact .one (hitem _ _ h) hsp
  | cons h hsp hsp' hr ih => exact .cons (hitem _ _ h) hsp hsp' ih

theorem Enclosed.map {β : Type} {item' : List Char → β → Prop} (f : α → β)
    (hitem : ∀ t x, item t x → item' t (f x)) (h : Enclosed item r xs) :
    Enclosed item' r (xs.map f) := by
  cases h with
  | empty hsp => exact .empty hsp
  | listed hsp hr => exact .listed hsp (hr.map f hitem)

end Items

theorem Between.isBalanced {opening closing : Char} {item : List Char → Prop} {x : List Char}
    (h : Between opening closing item x) (hopening : opening = '[' ∨ opening = '\x7b')
    (hclosing : closing = ']' ∨ closing = '\x7d') (hitem : ∀ t, item t → IsBalanced t) :
    IsBalanced x := by
  obtain ⟨s, xs, rfl, hs⟩ := h
  exact (hs.isBalanced fun t _ => hitem t).between hopening hclosing

theorem IsDigits.isBalanced {ds : List Char} (h : IsDigits ds) : IsBalanced ds :=
  isBalanced_of_neutral fun c hc => isNeutral_of_kind (h.2 c hc) (by simp [isDigit])

theorem FractionText.isBalanced {f : List Char} {x : Option (List Char)} (h : FractionText f x) :
    IsBalanced f := by
  cases h with
  | none => exact .nil
  | some h => exact .cons (by decide) h.isBalanced

theorem ExponentText.isBalanced {e : List Char} {x : Option (Bool × List Char)}
    (h : ExponentText e x) : IsBalanced e := by
  have hletter : ∀ {c : Char}, c = 'e' ∨ c = 'E' → IsNeutral c := by
    rintro c (rfl | rfl) <;> decide
  cases h with
  | none => exact .nil
  | minus hc h => exact .cons (hletter hc) (.cons (by decide) h.isBalanced)
  | plus hc h => exact .cons (hletter hc) (.cons (by decide) h.isBalanced)
  | unsigned hc h => exact .cons (hletter hc) h.isBalanced

theorem NumeralText.isBalanced {t : List Char} {x : Numeral} (h : NumeralText t x) :
    IsBalanced t := by
  cases h with
  | mk hw hzero hf he =>
      refine .append ?_ (hw.isBalanced.append (hf.isBalanced.append he.isBalanced))
      cases x.negative with
      | true => exact .cons (by decide) .nil
      | false => exact .nil

theorem FormedScalar.isBalanced {t : List Char} (h : FormedScalar t) : IsBalanced t := by
  cases h with
  | word ht =>
      have hwords : ∀ t ∈ ["null".toList, "true".toList, "false".toList], ∀ c ∈ t, IsNeutral c := by
        simp [IsNeutral]
      exact isBalanced_of_neutral (hwords _ ht)
  | string hs => exact hs.isBalanced .nil
  | number ht => exact ht.isBalanced

theorem FormedMember.isBalanced {value : List Char → Prop} {t : List Char}
    (hvalue : ∀ t, value t → IsBalanced t) (h : FormedMember value t) : IsBalanced t := by
  cases h with
  | mk hs hsp hsp' ht =>
      exact hs.isBalanced (hsp.isBalanced.append
        (.cons (by decide) (hsp'.isBalanced.append (hvalue _ ht))))

/-- **The texts of values are balanced.** -/
theorem Formed.isBalanced {d : Nat} {t : List Char} (h : Formed d t) : IsBalanced t := by
  -- what stands in an array or object is one less deep
  induction d generalizing t with
  | zero => exact FormedScalar.isBalanced h
  | succ d ih =>
      rcases h with h | h | h
      · exact h.isBalanced
      · exact h.isBalanced (.inl rfl) (.inl rfl) fun t ht => ih ht
      · exact h.isBalanced (.inr rfl) (.inr rfl) fun t ht => ht.isBalanced fun t ht => ih ht

/-! ### Objects -/

namespace FormedObject

variable {x t : List Char}

/-- **The mark that closes an object stands at its end.** -/
theorem afterClose_eq (hx : FormedObject x) (rest : List Char) :
    ∃ s, x = '\x7b' :: s ∧ afterClose 0 false (s ++ rest) = some rest := by
  obtain ⟨d, s, xs, rfl, hs⟩ := hx
  have hbalanced : IsBalanced s :=
    hs.isBalanced fun t _ ht => ht.isBalanced fun t ht => ht.isBalanced
  refine ⟨s ++ ['\x7d'], rfl, ?_⟩
  rw [List.append_assoc, hbalanced.skipped]
  exact afterClose_last (.inr rfl)

/-- **No object is a proper part of another one from its front.** -/
theorem eq_nil_of_append {rest : List Char} (ht : FormedObject t) (hx : FormedObject (t ++ rest)) :
    rest = [] := by
  obtain ⟨s, rfl, hs⟩ := ht.afterClose_eq rest
  obtain ⟨s', hs', hall⟩ := hx.afterClose_eq []
  obtain rfl : s ++ rest = s' := (List.cons.inj hs').2
  rw [List.append_nil, hs] at hall
  exact Option.some.inj hall

theorem ne_zero (hx : FormedObject x) : ∀ c ∈ x, c ≠ '\x00' := by
  obtain ⟨d, hx⟩ := hx
  exact (hx.isBalanced (.inr rfl) (.inr rfl) fun t ht =>
    ht.isBalanced fun t ht => ht.isBalanced).ne_zero

end FormedObject

/-! ### What the reader takes -/

theorem Spells.formed {s cs : List Char} (h : Spells s cs) : FormedString s := by
  induction h with
  | nil => exact .nil
  | plain hc hm hb h ih => exact .plain hc hm hb ih
  | escape he h ih => exact .escape he ih
  | unit hn ht hl h ih => exact .unit hn ih
  | pair hn ht hl hm htm h ih => exact .unit hn (.unit hm ih)

theorem ScalarText.formed {t : List Char} {v : Json} (h : ScalarText t v) : FormedScalar t := by
  cases h with
  | null => exact .word (by simp)
  | true => exact .word (by simp)
  | false => exact .word (by simp)
  | string hs => exact .string hs.formed
  | number ht hn => exact .number ht

/-- **What the reader takes conforms to the grammar.** -/
theorem Writes.formed {d : Nat} {t : List Char} {v : Json} (h : Writes d t v) : Formed d t := by
  induction d generalizing t v with
  | zero => exact ScalarText.formed h
  | succ d ih =>
      rcases h with h | h
      · exact Or.inl h.formed
      · cases h with
        | array h => exact Or.inr (Or.inl ⟨_, _, rfl, h.map (fun _ => ()) fun t v ht => ih ht⟩)
        | object h =>
            refine Or.inr (Or.inr ⟨_, _, rfl, h.map (fun _ => ()) fun t p hp => ?_⟩)
            cases hp with
            | mk hs hsp hsp' ht => exact .mk hs.formed hsp hsp' (ih ht)

/-- A value that begins with a brace is an object. -/
theorem Formed.object_of_brace {d : Nat} {t : List Char} (h : Formed d ('\x7b' :: t)) :
    FormedObject ('\x7b' :: t) := by
  have hscalar : ¬ FormedScalar ('\x7b' :: t) := by
    intro h
    generalize hx : '\x7b' :: t = x at h
    cases h with
    | word ht =>
        subst hx
        simp at ht
    | string hs => cases hx
    | number ht =>
        obtain ⟨c, cs, rfl, hc⟩ := ht.exists_cons
        cases hx
        rcases hc with hc | hc <;> cases hc
  cases d with
  | zero => exact absurd h hscalar
  | succ d =>
      rcases h with h | ⟨s, xs, h, -⟩ | h
      · exact absurd h hscalar
      · cases h
      · exact ⟨d, h⟩

/-- **The reader leaves nothing of an object.** -/
theorem FormedObject.rest_eq_nil {d : Nat} {x rest : List Char} {v : Json} (hx : FormedObject x)
    (h : readValue d x = some (v, rest)) : rest = [] := by
  obtain ⟨t, rfl, ht⟩ := writes_of_readValue h
  obtain ⟨c, cs, rfl, -, -⟩ := ht.beginsItem
  obtain ⟨s, hs, -⟩ := hx.afterClose_eq []
  obtain ⟨rfl, -⟩ := List.cons.inj hs
  exact ht.formed.object_of_brace.eq_nil_of_append hx

end LateBinding.Json
