import LateBinding.Proofs.Native.CString
import LateBinding.Proofs.Text.Repair

/-!
**Which bytes are looked at when memory is read as a text.**

A text is read by going through the memory byte by byte until a zero byte is found or the cap is
reached. So no byte is looked at behind the first zero byte, and none at the cap or behind it;
memory that has a zero byte, or as many bytes as the cap allows, is **never overrun**, and nothing
that was not looked at can change what is read. What was found is repaired: every piece that is no
character becomes one U+FFFD.

Main definitions:

* `LateBinding.Native.Scan`, `LateBinding.Native.scan` — **going through memory**, with the places
  looked at;
* `LateBinding.Native.IsReadable` — memory that a scan does not overrun.

Main results:

* `LateBinding.Native.bytes_scan` — what a scan finds is what is read;
* `LateBinding.Native.of_mem_looked_scan`, `LateBinding.Native.isOverrun_scan_eq_false_iff` — where
  it looks, and which memory it does not overrun;
* `LateBinding.Native.scan_congr`, `LateBinding.Native.readCString_congr` — **it depends on what it
  looked at only**;
* `LateBinding.Native.reading_is_bounded_and_exact` — all of it together.
-/

set_option autoImplicit false

namespace LateBinding.Native

open Text.Utf8 (Repaired bytes encode decode)

/-! ### Scans -/

/-- What came of going through memory: the indices that were looked at, the bytes that were found
before the end, and whether a byte was looked at that is not there. -/
structure Scan where
  looked : List Nat
  bytes : List UInt8
  isOverrun : Bool

/-- Goes through memory from an index on until there is a zero byte or the budget is used up. -/
def scan (memory : List UInt8) : Nat → Nat → Scan
  | 0, _ => ⟨[], [], false⟩
  | budget + 1, i =>
    match memory[i]? with
    | none => ⟨[i], [], true⟩
    | some b =>
      if b = 0 then ⟨[i], [], false⟩
      else
        let rest := scan memory budget (i + 1)
        ⟨i :: rest.looked, b :: rest.bytes, rest.isOverrun⟩

variable {memory other : List UInt8} {budget i : Nat}

theorem scan_of_none (h : memory[i]? = none) : scan memory (budget + 1) i = ⟨[i], [], true⟩ := by
  rw [scan, h]

theorem scan_of_zero (h : memory[i]? = some 0) : scan memory (budget + 1) i = ⟨[i], [], false⟩ := by
  rw [scan, h]
  rfl

theorem scan_of_ne_zero {b : UInt8} (h : memory[i]? = some b) (hb : b ≠ 0) :
    scan memory (budget + 1) i =
      ⟨i :: (scan memory budget (i + 1)).looked, b :: (scan memory budget (i + 1)).bytes,
        (scan memory budget (i + 1)).isOverrun⟩ := by
  rw [scan, h]
  exact if_neg hb

/-- A scan meets the end of the memory, a zero byte, or another byte. -/
theorem byte_cases (memory : List UInt8) (i : Nat) :
    (memory[i]? = none ∧ memory.drop i = []) ∨
      (memory[i]? = some 0 ∧ memory.drop i = 0 :: memory.drop (i + 1)) ∨
      ∃ b, memory[i]? = some b ∧ b ≠ 0 ∧ memory.drop i = b :: memory.drop (i + 1) := by
  by_cases hi : i < memory.length
  · have hget : memory[i]? = some memory[i] := List.getElem?_eq_getElem hi
    have hdrop : memory.drop i = memory[i] :: memory.drop (i + 1) := List.drop_eq_getElem_cons hi
    by_cases h0 : memory[i] = 0
    · rw [h0] at hget hdrop
      exact Or.inr (Or.inl ⟨hget, hdrop⟩)
    · exact Or.inr (Or.inr ⟨_, hget, h0, hdrop⟩)
  · exact Or.inl ⟨List.getElem?_eq_none (by omega), List.drop_eq_nil_of_le (by omega)⟩

/-- **What a scan finds** are the bytes before the first zero byte, as many as the budget allows. -/
theorem bytes_scan (memory : List UInt8) (budget i : Nat) :
    (scan memory budget i).bytes = ((memory.drop i).take budget).takeWhile (· != 0) := by
  induction budget generalizing i with
  | zero => rfl
  | succ n ih =>
      rcases byte_cases memory i with ⟨h, hdrop⟩ | ⟨h, hdrop⟩ | ⟨b, h, hb, hdrop⟩
      · rw [scan_of_none h, hdrop]
        rfl
      · rw [scan_of_zero h, hdrop]
        rfl
      · rw [scan_of_ne_zero h hb, hdrop, List.take_succ_cons, List.takeWhile_cons_of_pos (by simpa),
          ih]

/-- **Where a scan looks**: within its budget, and nowhere behind a zero byte or behind the end. -/
theorem of_mem_looked_scan {j : Nat} (hj : j ∈ (scan memory budget i).looked) :
    i ≤ j ∧ j < i + budget ∧ ∀ k, i ≤ k → k < j → ∃ b, memory[k]? = some b ∧ b ≠ 0 := by
  induction budget generalizing i with
  | zero => cases hj
  | succ n ih =>
      have hfirst :
          i ≤ i ∧ i < i + (n + 1) ∧ ∀ k, i ≤ k → k < i → ∃ b, memory[k]? = some b ∧ b ≠ 0 :=
        ⟨Nat.le_refl i, by omega, fun k hik hki => absurd hik (Nat.not_le.2 hki)⟩
      rcases byte_cases memory i with ⟨h, -⟩ | ⟨h, -⟩ | ⟨b, h, hb, -⟩
      · rw [scan_of_none h] at hj
        obtain rfl := List.mem_singleton.1 hj
        exact hfirst
      · rw [scan_of_zero h] at hj
        obtain rfl := List.mem_singleton.1 hj
        exact hfirst
      · rw [scan_of_ne_zero h hb] at hj
        rcases List.mem_cons.1 hj with rfl | hj
        · exact hfirst
        · obtain ⟨hij, hjn, hbefore⟩ := ih hj
          refine ⟨by omega, by omega, fun k hik hkj => ?_⟩
          rcases Nat.eq_or_lt_of_le hik with rfl | hik
          · exact ⟨b, h, hb⟩
          · exact hbefore k hik hkj

/-- **A scan depends on what it looked at only.** -/
theorem scan_congr (h : ∀ j ∈ (scan memory budget i).looked, other[j]? = memory[j]?) :
    scan other budget i = scan memory budget i := by
  induction budget generalizing i with
  | zero => rfl
  | succ n ih =>
      rcases byte_cases memory i with ⟨hi, -⟩ | ⟨hi, -⟩ | ⟨b, hi, hb, -⟩
      · rw [scan_of_none hi] at h ⊢
        rw [scan_of_none ((h i List.mem_cons_self).trans hi)]
      · rw [scan_of_zero hi] at h ⊢
        rw [scan_of_zero ((h i List.mem_cons_self).trans hi)]
      · rw [scan_of_ne_zero hi hb] at h ⊢
        rw [scan_of_ne_zero ((h i List.mem_cons_self).trans hi) hb,
          ih fun j hj => h j (List.mem_cons_of_mem i hj)]

/-- **A scan overruns the memory exactly if there is no zero byte in its budget and the budget is
larger than the memory.** -/
theorem isOverrun_scan_eq_false_iff :
    (scan memory budget i).isOverrun = false ↔
      0 ∈ (memory.drop i).take budget ∨ budget ≤ (memory.drop i).length := by
  induction budget generalizing i with
  | zero => simp [scan]
  | succ n ih =>
      rcases byte_cases memory i with ⟨h, hdrop⟩ | ⟨h, hdrop⟩ | ⟨b, h, hb, hdrop⟩
      · simp [scan_of_none h, hdrop]
      · simp [scan_of_zero h, hdrop]
      · rw [scan_of_ne_zero h hb, hdrop]
        simp [ih, Ne.symm hb]

/-- Without an overrun, it looks at bytes that are there. -/
theorem lt_length_of_mem_looked_scan {j : Nat} (h : (scan memory budget i).isOverrun = false)
    (hj : j ∈ (scan memory budget i).looked) : j < memory.length := by
  induction budget generalizing i with
  | zero => cases hj
  | succ n ih =>
      have hlt : ∀ {b : UInt8}, memory[i]? = some b → i < memory.length := fun hi => by
        obtain ⟨hlt, -⟩ := List.getElem?_eq_some_iff.1 hi
        exact hlt
      rcases byte_cases memory i with ⟨hi, -⟩ | ⟨hi, -⟩ | ⟨b, hi, hb, -⟩
      · rw [scan_of_none hi] at h
        cases h
      · rw [scan_of_zero hi] at hj
        obtain rfl := List.mem_singleton.1 hj
        exact hlt hi
      · rw [scan_of_ne_zero hi hb] at h hj
        rcases List.mem_cons.1 hj with rfl | hj
        · exact hlt hi
        · exact ih h hj

/-! ### Reading a text -/

/-- Memory that may be read as a text: it has a zero byte, or as many bytes as the cap allows. -/
def IsReadable (memory : List UInt8) : Prop := 0 ∈ memory ∨ maxTextLength ≤ memory.length

theorem isOverrun_scan_of_isReadable (h : IsReadable memory) :
    (scan memory maxTextLength 0).isOverrun = false := by
  rw [isOverrun_scan_eq_false_iff, List.drop_zero]
  by_cases hlen : maxTextLength ≤ memory.length
  · exact Or.inr hlen
  · rw [List.take_of_length_le (by omega)]
    exact Or.inl (h.resolve_right hlen)

/-- **What is read is what a scan finds.** -/
theorem readCString_eq_scan (memory : List UInt8) :
    readCString (some memory) = Text.Utf8.toText (scan memory maxTextLength 0).bytes := by
  rw [bytes_scan]
  rfl

/-- A scan stays within any part from the front that has a zero byte, or as many bytes as the
cap. -/
theorem lt_of_mem_looked_scan {n j : Nat} (h : 0 ∈ memory.take n ∨ maxTextLength ≤ n)
    (hj : j ∈ (scan memory maxTextLength 0).looked) : j < n := by
  obtain ⟨-, hlt, hbefore⟩ := of_mem_looked_scan hj
  rcases h with hzero | hn
  · obtain ⟨k, hk⟩ := List.mem_iff_getElem?.1 hzero
    rw [List.getElem?_take] at hk
    obtain ⟨hkn, hk⟩ := Option.ite_none_right_eq_some.1 hk
    by_contra hjn
    obtain ⟨b, hb, hne⟩ := hbefore k (Nat.zero_le k) (by omega)
    exact hne (Option.some.inj (hb.symm.trans hk))
  · omega

/-- **Memory that agrees up to a zero byte, or up to the cap, reads the same.** -/
theorem readCString_congr {n : Nat} (hagree : other.take n = memory.take n)
    (h : 0 ∈ memory.take n ∨ maxTextLength ≤ n) :
    readCString (some other) = readCString (some memory) := by
  have hsame : ∀ j ∈ (scan memory maxTextLength 0).looked, other[j]? = memory[j]? := fun j hj => by
    have hj := lt_of_mem_looked_scan h hj
    rw [← List.getElem?_take_of_lt hj, hagree, List.getElem?_take_of_lt hj]
  rw [readCString_eq_scan, readCString_eq_scan, scan_congr hsame]

/-- The bytes of a text end before a zero byte, or at the cap, or with the memory. -/
theorem exists_textBytes (memory : List UInt8) :
    ∃ rest, memory = textBytes memory ++ rest ∧ 0 ∉ textBytes memory ∧
      (textBytes memory).length ≤ maxTextLength ∧
      ((textBytes memory).length < maxTextLength → ∀ b ∈ rest.head?, b = 0) := by
  have h0 : ∀ b ∈ memory.takeWhile (· != 0), b ≠ 0 := fun b hb => by
    simpa using List.mem_takeWhile_imp hb
  rw [textBytes_eq]
  refine ⟨(memory.takeWhile (· != 0)).drop maxTextLength ++ memory.dropWhile (· != 0), ?_,
    fun hmem => h0 0 (List.mem_of_mem_take hmem) rfl, List.length_take_le _ _, fun hlt b hb => ?_⟩
  · rw [← List.append_assoc, List.take_append_drop, List.takeWhile_append_dropWhile]
  · rw [List.length_take] at hlt
    rw [List.drop_eq_nil_of_le (by omega), List.nil_append] at hb
    have hhead := List.head?_dropWhile_not (· != 0) memory
    rw [hb] at hhead
    simpa using hhead

/-- **What is read of memory is its repaired text.** -/
theorem toList_readCString_eq_iff {memory : List UInt8} {cs : List Char} :
    (readCString (some memory)).toList = cs ↔ Repaired (textBytes memory) cs := by
  rw [readCString, Text.Utf8.toText, String.toList_ofList, Text.Utf8.decode_eq_iff]

theorem repaired_readCString (memory : List UInt8) :
    Repaired (textBytes memory) (readCString (some memory)).toList :=
  toList_readCString_eq_iff.1 rfl

/-- Nothing is read where there is nothing before the end of the text. -/
theorem readCString_eq_empty_iff (h : IsReadable memory) :
    readCString (some memory) = "" ↔ memory.head? = some 0 := by
  have hempty : readCString (some memory) = "" ↔ textBytes memory = [] := by
    rw [← (repaired_readCString memory).eq_nil_iff, ← String.toList_inj]
    rfl
  rw [hempty]
  cases memory with
  | nil =>
      rcases h with h | h
      · cases h
      · exact absurd h (by decide)
  | cons b memory =>
      have hcons : (b :: memory).take maxTextLength = b :: memory.take (maxTextLength - 1) :=
        List.take_cons (by decide)
      by_cases hb : b = 0
      · rw [textBytes, hcons, List.takeWhile_cons_of_neg (by simp [hb])]
        simp [hb]
      · rw [textBytes, hcons, List.takeWhile_cons_of_pos (by simpa)]
        simp [hb]

/-- **Reading a text is bounded and exact.** What is read is what a scan of the memory finds. It
looks at no byte behind the first zero byte and at none from the cap on, so memory that may be read
is not overrun, and memory that is the same at the places that were looked at reads the same, as
does memory that agrees up to a zero byte or up to the cap. The text is that of the bytes before the
first zero byte or the cap, with one U+FFFD for every piece that is no character, and as it is where
there is none; it has no zero character and three bytes at most for each byte. It is empty exactly
for the null pointer, and where a zero byte comes first. -/
theorem reading_is_bounded_and_exact (memory : List UInt8) :
    readCString (some memory) = Text.Utf8.toText (scan memory maxTextLength 0).bytes ∧
    (∀ i ∈ (scan memory maxTextLength 0).looked, i < maxTextLength ∧ ∀ j < i, memory[j]? ≠ some 0) ∧
    (IsReadable memory → (scan memory maxTextLength 0).isOverrun = false ∧
      ∀ i ∈ (scan memory maxTextLength 0).looked, i < memory.length) ∧
    (∀ other : List UInt8, (∀ i ∈ (scan memory maxTextLength 0).looked, other[i]? = memory[i]?) →
      readCString (some other) = readCString (some memory)) ∧
    (∀ (other : List UInt8) (n : Nat), other.take n = memory.take n →
      (0 ∈ memory.take n ∨ maxTextLength ≤ n) →
      readCString (some other) = readCString (some memory)) ∧
    (∃ bs rest, memory = bs ++ rest ∧ 0 ∉ bs ∧ bs.length ≤ maxTextLength ∧
      (bs.length < maxTextLength → ∀ b ∈ rest.head?, b = 0) ∧
      (∀ cs, (readCString (some memory)).toList = cs ↔ Repaired bs cs) ∧
      ∀ cs, bs = encode cs → (readCString (some memory)).toList = cs) ∧
    (∀ c ∈ (readCString (some memory)).toList, c ≠ '\x00') ∧
    (bytes (readCString (some memory))).length ≤ 3 * maxTextLength ∧
    readCString none = "" ∧
    (IsReadable memory → (readCString (some memory) = "" ↔ memory.head? = some 0)) := by
  obtain ⟨rest, hmemory, h0, hlength, hrest⟩ := exists_textBytes memory
  have hrepaired := repaired_readCString memory
  refine ⟨readCString_eq_scan memory, fun i hi => ?_, fun h => ?_, fun other hother => ?_,
    fun _ _ => readCString_congr, ?_, hrepaired.ne_zero h0, ?_, rfl,
    readCString_eq_empty_iff⟩
  · obtain ⟨-, hlt, hbefore⟩ := of_mem_looked_scan hi
    refine ⟨by omega, fun j hj hzero => ?_⟩
    obtain ⟨b, hb, hne⟩ := hbefore j (Nat.zero_le j) hj
    exact hne (Option.some.inj (hb.symm.trans hzero))
  · have hoverrun := isOverrun_scan_of_isReadable h
    exact ⟨hoverrun, fun i => lt_length_of_mem_looked_scan hoverrun⟩
  · rw [readCString_eq_scan, readCString_eq_scan, scan_congr hother]
  · refine ⟨textBytes memory, rest, hmemory, h0, hlength, hrest,
      fun cs => toList_readCString_eq_iff, fun cs hcs => ?_⟩
    rw [toList_readCString_eq_iff, ← Text.Utf8.decode_eq_iff, hcs, Text.Utf8.decode_encode]
  · exact hrepaired.length_le.trans (Nat.mul_le_mul_left 3 hlength)

/-- Memory with a character that is broken off, and with other bytes behind the zero byte. -/
def brokenOff : List UInt8 := [0x61, 0xE2, 0x82, 0x62, 0x00, 0xFF]

/-- It may be read, nothing behind the zero byte matters, and the text is not empty. -/
theorem broken_off_text_read :
    IsReadable brokenOff ∧ (scan brokenOff maxTextLength 0).isOverrun = false ∧
      readCString (some (brokenOff.take 5)) = readCString (some brokenOff) ∧
      readCString (some brokenOff) = "a\uFFFDb" ∧ readCString (some brokenOff) ≠ "" := by
  have hread : IsReadable brokenOff := Or.inl (by decide)
  obtain ⟨-, -, hbound, -, hcongr, -, -, -, -, hempty⟩ := reading_is_bounded_and_exact brokenOff
  refine ⟨hread, (hbound hread).1, hcongr _ 5 (by decide) (Or.inl (by decide)),
    by decide +kernel, ?_⟩
  rw [Ne, hempty hread]
  decide

end LateBinding.Native
