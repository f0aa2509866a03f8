import LateBinding.Proofs.Native.CString
import LateBinding.Proofs.Text.Repair

/-!
**What comes back of a text is what comes back of that again.**

A text goes out as a C string and is read again. Of the characters before its first zero character
those come back that lie within the cap as a whole. If the cap falls inside a character, one U+FFFD
comes after them; it takes three bytes, so what comes back may be up to two bytes longer than the
cap. When it goes out in its turn, the cap falls behind that U+FFFD or inside it, and **the same
comes back**.

Main definitions:

* `LateBinding.Native.returned` — what comes back of a text;
* `LateBinding.Native.beforeZero` — the part of a text that the native side sees;
* `LateBinding.Native.IsLongestFitting`, `LateBinding.Native.IsCutInside` — the longest part of a
  text within the cap, and where the cap falls.

Main results:

* `LateBinding.Native.seen_ofText` — what the native side sees of any text;
* `LateBinding.Native.returned_cases` — **what comes back of any text**;
* `LateBinding.Native.returned_eq_self`, `LateBinding.Native.returned_returned` — which texts come
  back as they were;
* `LateBinding.Native.length_returned_le` — how long a text is that comes back.
-/

set_option autoImplicit false

namespace LateBinding.Native

open Text.Utf8 (bytes encode decode encode_append encode_cons replacement)

/-- What comes back of a text that goes out as a C string. -/
def returned (s : String) : String := readCString (some (CString.ofText s).withTerminator)

/-- The characters before the first zero character. -/
def beforeZero (s : List Char) : List Char := s.takeWhile (· != '\x00')

/-- The part of a text from its front that has as many bytes as the cap allows, in whole
characters. -/
structure IsLongestFitting (p s : List Char) : Prop where
  isPrefix : p <+: s
  fits : (encode p).length ≤ maxTextLength
  longest : ∀ q, q <+: s → (encode q).length ≤ maxTextLength → q <+: p

/-- The cap falls strictly inside a character. -/
def IsCutInside (s : List Char) : Prop :=
  ∃ before c after, s = before ++ c :: after ∧ (encode before).length < maxTextLength ∧
    maxTextLength < (encode before).length + (String.utf8EncodeChar c).length

/-! ### What is seen -/

theorem ne_zero_of_mem_beforeZero {s : List Char} : ∀ c ∈ beforeZero s, c ≠ '\x00' := fun c hc => by
  simpa using List.mem_takeWhile_imp hc

theorem beforeZero_eq_self {s : List Char} (h0 : ∀ c ∈ s, c ≠ '\x00') : beforeZero s = s :=
  List.takeWhile_eq_self_iff.2 fun c hc => by simpa using h0 c hc

/-- After them comes a zero character, or nothing. -/
theorem exists_beforeZero (s : List Char) :
    ∃ rest, s = beforeZero s ++ rest ∧ ∀ b ∈ (encode rest).head?, b = 0 := by
  refine ⟨s.dropWhile (· != '\x00'), List.takeWhile_append_dropWhile.symm, fun b hb => ?_⟩
  cases hrest : s.dropWhile (· != '\x00') with
  | nil =>
      rw [hrest] at hb
      cases hb
  | cons c rest =>
      have hc := List.head?_dropWhile_not (· != '\x00') s
      rw [hrest] at hc hb
      obtain rfl : c = '\x00' := by simpa using hc
      exact (Option.some.inj hb).symm

/-- **The native side sees the characters before the first zero character.** -/
theorem seen_ofText (s : String) : (CString.ofText s).seen = encode (beforeZero s.toList) := by
  obtain ⟨rest, hs, hrest⟩ := exists_beforeZero s.toList
  have hbytes : (CString.ofText s).withTerminator =
      encode (beforeZero s.toList) ++ (encode rest ++ [0]) := by
    rw [← List.append_assoc, ← encode_append, ← hs]
    rfl
  have hhead : ∀ b ∈ (encode rest ++ [0]).head?, b = 0 := fun b hb => by
    cases hr : encode rest with
    | nil =>
        rw [hr] at hb
        exact (Option.some.inj hb).symm
    | cons c cs =>
        rw [hr] at hb hrest
        exact hrest b hb
  rw [CString.seen, hbytes, takeWhile_ne_zero (fun b hb => Text.Utf8.ne_zero_of_mem_encode
    ne_zero_of_mem_beforeZero hb) hhead]

/-- What is read of a text is what is seen of it, as far as the cap allows. -/
theorem toList_returned (s : String) :
    (returned s).toList = decode ((encode (beforeZero s.toList)).take maxTextLength) := by
  rw [returned, readCString, textBytes_eq, ← seen_ofText, Text.Utf8.toText, String.toList_ofList]
  rfl

/-- A library that keeps a copy of what it sees answers the same. -/
theorem readCString_kept_eq (s : String) :
    readCString (some (CString.ofText s).kept) = returned s := by
  have hkept : textBytes (CString.ofText s).kept = (CString.ofText s).seen.take maxTextLength := by
    rw [CString.kept, seen_ofText]
    exact textBytes_append fun b hb => Text.Utf8.ne_zero_of_mem_encode ne_zero_of_mem_beforeZero hb
  rw [returned, readCString, readCString, hkept, textBytes_eq]
  rfl

/-! ### Where the cap falls -/

section Cap

variable {s p q before after : List Char} {c : Char}

/-- A part from the front ends before a character, or has it. -/
theorem prefix_or_concat_prefix (hq : q <+: before ++ c :: after) :
    q <+: before ∨ before ++ [c] <+: q := by
  rcases List.prefix_or_prefix_of_prefix hq (List.prefix_append before (c :: after)) with
    h | ⟨t, rfl⟩
  · exact Or.inl h
  · rw [List.prefix_append_right_inj] at hq
    cases t with
    | nil => exact Or.inl (by simp)
    | cons d t =>
        obtain ⟨rfl, -⟩ := List.cons_prefix_cons.1 hq
        exact Or.inr ⟨t, by simp⟩

theorem length_encode_le_of_prefix (h : p <+: q) : (encode p).length ≤ (encode q).length := by
  obtain ⟨t, rfl⟩ := h
  rw [encode_append, List.length_append]
  exact Nat.le_add_right _ _

theorem length_encode_concat :
    (encode (before ++ [c])).length =
      (encode before).length + (String.utf8EncodeChar c).length := by
  rw [encode_append, List.length_append]
  simp [encode]

/-- All of a short text fits. -/
theorem isLongestFitting_self (h : (encode s).length ≤ maxTextLength) : IsLongestFitting s s :=
  ⟨List.prefix_refl s, h, fun _ hq _ => hq⟩

/-- Of a long one it is what stands before the character at the cap. -/
theorem isLongestFitting_before (hlow : (encode before).length ≤ maxTextLength)
    (hhigh : maxTextLength < (encode before).length + (String.utf8EncodeChar c).length) :
    IsLongestFitting before (before ++ c :: after) := by
  refine ⟨List.prefix_append _ _, hlow, fun q hq hfits => ?_⟩
  rcases prefix_or_concat_prefix hq with h | h
  · exact h
  · have hle := length_encode_le_of_prefix h
    rw [length_encode_concat] at hle
    omega

/-- The cap falls inside no character of a short text. -/
theorem not_isCutInside_of_length_le (h : (encode s).length ≤ maxTextLength) : ¬IsCutInside s := by
  rintro ⟨before, c, after, rfl, -, hhigh⟩
  have hprefix : before ++ [c] <+: before ++ c :: after := ⟨after, by simp⟩
  have hle := length_encode_le_of_prefix hprefix
  rw [length_encode_concat] at hle
  omega

/-- Nor of one that has a part of just as many bytes. -/
theorem not_isCutInside_of_length_eq (h : (encode before).length = maxTextLength) :
    ¬IsCutInside (before ++ after) := by
  rintro ⟨before', c', after', he, hlow, hhigh⟩
  have hprefix : before <+: before' ++ c' :: after' := ⟨after, he⟩
  rcases prefix_or_concat_prefix hprefix with hbefore | hbefore
  · have hle := length_encode_le_of_prefix hbefore
    omega
  · have hle := length_encode_le_of_prefix hbefore
    rw [length_encode_concat] at hle
    omega

end Cap

/-! ### What comes back -/

/-- **What comes back of any text**: of what is seen of it the longest part that fits, and one
U+FFFD after it if and only if the cap falls inside a character. -/
theorem returned_cases (s : String) :
    ∃ p, IsLongestFitting p (beforeZero s.toList) ∧
      ((IsCutInside (beforeZero s.toList) ∧ (encode p).length < maxTextLength ∧
          (returned s).toList = p ++ [replacement]) ∨
        (¬IsCutInside (beforeZero s.toList) ∧ (returned s).toList = p)) := by
  rw [toList_returned]
  by_cases hlen : (encode (beforeZero s.toList)).length ≤ maxTextLength
  · refine ⟨_, isLongestFitting_self hlen, Or.inr ⟨not_isCutInside_of_length_le hlen, ?_⟩⟩
    rw [List.take_of_length_le hlen, Text.Utf8.decode_encode]
  · obtain ⟨before, c, after, hs, hlow, hhigh⟩ := Text.Utf8.exists_cut (Nat.lt_of_not_le hlen)
    rw [hs, Text.Utf8.decode_take_encode hlow hhigh]
    refine ⟨before, isLongestFitting_before hlow hhigh, ?_⟩
    by_cases heq : maxTextLength = (encode before).length
    · refine Or.inr ⟨not_isCutInside_of_length_eq heq.symm, ?_⟩
      rw [if_pos heq, List.append_nil]
    · have hlt : (encode before).length < maxTextLength := by omega
      refine Or.inl ⟨⟨before, c, after, rfl, hlt, hhigh⟩, hlt, ?_⟩
      rw [if_neg heq]

/-- **A text without zero characters that fits comes back as it was.** -/
theorem returned_eq_self {s : String} (h0 : ∀ c ∈ s.toList, c ≠ '\x00')
    (hlen : (bytes s).length ≤ maxTextLength) : returned s = s := by
  rw [← readCString_kept_eq, readCString_kept h0 hlen]

/-- No zero character comes back. -/
theorem ne_zero_of_mem_returned (s : String) : ∀ c ∈ (returned s).toList, c ≠ '\x00' := by
  obtain ⟨p, hp, ⟨-, -, h⟩ | ⟨-, h⟩⟩ := returned_cases s
  · rw [h]
    intro c hc
    rcases List.mem_append.1 hc with hc | hc
    · exact ne_zero_of_mem_beforeZero c (hp.isPrefix.subset hc)
    · obtain rfl := List.mem_singleton.1 hc
      decide
  · rw [h]
    exact fun c hc => ne_zero_of_mem_beforeZero c (hp.isPrefix.subset hc)

theorem length_encode_replacement : (String.utf8EncodeChar replacement).length = 3 := by decide

/-- **What comes back has two bytes at most beyond the cap.** -/
theorem length_returned_le (s : String) : (bytes (returned s)).length ≤ maxTextLength + 2 := by
  rw [bytes]
  obtain ⟨p, hp, ⟨-, hlt, h⟩ | ⟨-, h⟩⟩ := returned_cases s
  · rw [h, length_encode_concat, length_encode_replacement]
    omega
  · rw [h]
    exact hp.fits.trans (Nat.le_add_right _ _)

/-- **What came back comes back again.** -/
theorem returned_returned (s : String) : returned (returned s) = returned s := by
  have h0 := ne_zero_of_mem_returned s
  obtain ⟨p, hp, ⟨-, hlt, h⟩ | ⟨-, h⟩⟩ := returned_cases s
  · by_cases hfits : (bytes (returned s)).length ≤ maxTextLength
    · exact returned_eq_self h0 hfits
    · -- now the cap falls inside the U+FFFD, which is replaced by itself
      rw [bytes, h, length_encode_concat] at hfits
      have hcut : decode ((encode (p ++ [replacement])).take maxTextLength) =
          p ++ if maxTextLength = (encode p).length then [] else [replacement] :=
        Text.Utf8.decode_take_encode hlt.le (by omega)
      apply String.toList_injective
      rw [toList_returned, beforeZero_eq_self h0, h, hcut, if_neg (by omega)]
  · have hfits : (bytes (returned s)).length ≤ maxTextLength := by
      rw [bytes, h]
      exact hp.fits
    exact returned_eq_self h0 hfits

/-- As long a text does come back: the cap falls after the first byte of the last character. -/
theorem exists_length_returned_eq : ∃ s, (bytes (returned s)).length = maxTextLength + 2 := by
  have hlength : (encode (List.replicate (maxTextLength - 1) 'a')).length = maxTextLength - 1 := by
    rw [Text.Utf8.length_encode_replicate]
    rfl
  have hpos : 0 < maxTextLength := by decide
  have htwo : (String.utf8EncodeChar 'é').length = 2 := by decide
  have h0 : ∀ c ∈ List.replicate (maxTextLength - 1) 'a' ++ ['é'], c ≠ '\x00' := by
    intro c hc
    rcases List.mem_append.1 hc with hc | hc
    · rw [List.eq_of_mem_replicate hc]
      decide
    · rw [List.mem_singleton.1 hc]
      decide
  have hcut :
      decode ((encode (List.replicate (maxTextLength - 1) 'a' ++ ['é'])).take maxTextLength) =
        List.replicate (maxTextLength - 1) 'a' ++
        if maxTextLength = (encode (List.replicate (maxTextLength - 1) 'a')).length then []
        else [replacement] :=
    Text.Utf8.decode_take_encode (by omega) (by omega)
  refine ⟨String.ofList (List.replicate (maxTextLength - 1) 'a' ++ ['é']), ?_⟩
  rw [bytes, toList_returned, String.toList_ofList, beforeZero_eq_self h0, hcut, if_neg (by omega),
    length_encode_concat, hlength, length_encode_replacement]
  omega

end LateBinding.Native
