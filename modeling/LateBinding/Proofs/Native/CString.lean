import Mathlib.Data.List.TakeWhile
import LateBinding.Native.CString
import LateBinding.Proofs.Text.Utf8

/-!
**What a text without zero bytes becomes on its way out and back.**

A text that has no zero character goes out as a whole, and comes back as it was if it has at most
65,536 bytes. Of a longer one the characters come back that lie within the first 65,536 bytes as a
whole, with one U+FFFD after them if there the cut falls inside a character.

Main definitions:

* `LateBinding.Native.CString.kept` — what is left of a text for which a library keeps a copy;
* `LateBinding.Native.IsTextOf` — the text that stands behind a pointer, however long it is.

Main results:

* `LateBinding.Native.readCString_kept` — **a short text comes back as it was**;
* `LateBinding.Native.IsTextOf.readCString_eq` — so does a short text in any memory;
* `LateBinding.Native.exists_readCString_append` — what is read of a long one;
* `LateBinding.Native.readCString_kept_append` — what fills the cap hides what follows it.
-/

set_option autoImplicit false

namespace LateBinding.Native

open Text.Utf8 (bytes encode decode decode_encode exists_cut decode_take_encode replacement
  ne_zero_of_mem_encode)

/-- A copy of what the native side sees of a text, with a terminator of its own. -/
def CString.kept (c : CString) : List UInt8 := c.seen ++ [0]

/-- Bytes before the first zero byte. -/
theorem takeWhile_ne_zero {bs rest : List UInt8} (h0 : ∀ b ∈ bs, b ≠ 0)
    (hrest : ∀ b ∈ rest.head?, b = 0) : (bs ++ rest).takeWhile (· != 0) = bs := by
  rw [List.takeWhile_append_of_pos fun b hb => by simpa using h0 b hb]
  cases rest with
  | nil => exact List.append_nil bs
  | cons b rest =>
      rw [List.takeWhile_cons_of_neg (by simp [hrest b rfl]), List.append_nil]

/-- What is read comes before the first zero byte, and is no more than is allowed. -/
theorem textBytes_eq (memory : List UInt8) :
    textBytes memory = (memory.takeWhile (· != 0)).take maxTextLength := List.take_takeWhile.symm

/-- What comes after the terminator does not matter. -/
theorem textBytes_append {bs rest : List UInt8} (h0 : ∀ b ∈ bs, b ≠ 0) :
    textBytes (bs ++ 0 :: rest) = bs.take maxTextLength := by
  have hhead : ∀ b ∈ (0 :: rest).head?, b = 0 := fun b hb => (Option.some.inj hb).symm
  rw [textBytes_eq, takeWhile_ne_zero h0 hhead]

section Texts

variable {s : String}

theorem kept_ofText (h0 : ∀ c ∈ s.toList, c ≠ '\x00') :
    (CString.ofText s).kept = encode s.toList ++ [0] := by
  have hseen : (encode s.toList ++ [0]).takeWhile (· != 0) = encode s.toList :=
    takeWhile_ne_zero (fun b hb => ne_zero_of_mem_encode h0 hb) (by simp)
  rw [CString.kept, show (CString.ofText s).seen = encode s.toList from hseen]

/-- `IsTextOf memory x`: the text `x` stands behind a pointer, up to its terminator. Behind the null
pointer stands the empty text. -/
inductive IsTextOf : Option (List UInt8) → String → Prop
  | null : IsTextOf none ""
  | memory {x : String} (h0 : ∀ c ∈ x.toList, c ≠ '\x00') (rest : List UInt8) :
      IsTextOf (some (encode x.toList ++ 0 :: rest)) x

/-- **A text that the cap does not cut is read as it is.** -/
theorem IsTextOf.readCString_eq {memory : Option (List UInt8)} (h : IsTextOf memory s)
    (hlen : (encode s.toList).length ≤ maxTextLength) : readCString memory = s := by
  cases h with
  | null => rfl
  | memory h0 rest =>
      rw [readCString, textBytes_append fun b hb => ne_zero_of_mem_encode h0 hb,
        List.take_of_length_le hlen, Text.Utf8.toText, decode_encode, String.ofList_toList]

/-- **A short text comes back as it was.** -/
theorem readCString_kept (h0 : ∀ c ∈ s.toList, c ≠ '\x00')
    (hlen : (encode s.toList).length ≤ maxTextLength) :
    readCString (some (CString.ofText s).kept) = s := by
  rw [kept_ofText h0]
  exact (IsTextOf.memory h0 []).readCString_eq hlen

/-- **What is read of a long text** in memory: the characters before a cut, and U+FFFD if the cut
falls inside a character. -/
theorem exists_readCString_append {s : List Char} (h0 : ∀ c ∈ s, c ≠ '\x00')
    (hlen : maxTextLength < (encode s).length) (rest : List UInt8) :
    ∃ before c after, s = before ++ c :: after ∧ (encode before).length ≤ maxTextLength ∧
      maxTextLength < (encode before).length + (String.utf8EncodeChar c).length ∧
      (readCString (some (encode s ++ 0 :: rest))).toList =
        before ++ if maxTextLength = (encode before).length then [] else [replacement] := by
  obtain ⟨before, c, after, hs, hlow, hhigh⟩ := exists_cut hlen
  refine ⟨before, c, after, hs, hlow, hhigh, ?_⟩
  rw [readCString, textBytes_append fun b hb => ne_zero_of_mem_encode h0 hb, Text.Utf8.toText, hs,
    decode_take_encode hlow hhigh, String.toList_ofList]

/-- Nothing is read of a text but what fills the cap. -/
theorem readCString_kept_append {s t : List Char} (h0 : ∀ c ∈ s, c ≠ '\x00')
    (hlen : (encode s).length = maxTextLength) :
    readCString (some (CString.ofText (String.ofList (s ++ t))).kept) = String.ofList s := by
  have hall : ∀ b ∈ encode s, (b != 0) = true := fun b hb => by
    simpa using ne_zero_of_mem_encode h0 hb
  have hseen : (CString.ofText (String.ofList (s ++ t))).seen =
      encode s ++ (encode t ++ [0]).takeWhile (· != 0) := by
    rw [← List.takeWhile_append_of_pos hall, ← List.append_assoc, ← Text.Utf8.encode_append]
    simp [CString.seen, CString.withTerminator, CString.ofText, bytes]
  rw [readCString, CString.kept, hseen, List.append_assoc, textBytes, List.take_left' hlen,
    List.takeWhile_eq_self_iff.2 hall, Text.Utf8.toText, decode_encode]

end Texts

end LateBinding.Native
