import LateBinding.Text.Utf8

/-!
**What was encoded is decoded, and what was cut off is repaired.**

The decoder gives back every text that was encoded. Of the first bytes of an encoded text it gives
back the characters that are there as a whole; if the cut falls inside a character, that one becomes
one U+FFFD.

Main definitions:

* `LateBinding.Text.Utf8.emit` — what the decoder has emitted so far, and where it stands.

Main results:

* `LateBinding.Text.Utf8.emit_char` — the bytes of a character emit that character;
* `LateBinding.Text.Utf8.emit_take_char` — some of them emit nothing and wait for the others;
* `LateBinding.Text.Utf8.decode_encode` — **what was encoded is decoded**;
* `LateBinding.Text.Utf8.decode_take_encode` — **what a cut leaves of a text**.
-/

set_option autoImplicit false

namespace LateBinding.Text.Utf8

variable {α : Type} {good : Char → α} {bad : α}

/-! ### The decoder, byte by byte -/

/-- What the decoder emits for some bytes, in order, and where it stands then. -/
def emit (good : Char → α) (bad : α) : Option Pending → List UInt8 → List α × Option Pending
  | p, [] => ([], p)
  | p, b :: bs =>
    ((step good bad p b).1 ++ (emit good bad (step good bad p b).2 bs).1,
      (emit good bad (step good bad p b).2 bs).2)

theorem emit_append (p : Option Pending) (bs cs : List UInt8) :
    emit good bad p (bs ++ cs) =
      ((emit good bad p bs).1 ++ (emit good bad (emit good bad p bs).2 cs).1,
        (emit good bad (emit good bad p bs).2 cs).2) := by
  induction bs generalizing p with
  | nil => rfl
  | cons b bs ih =>
      rw [List.cons_append, emit, emit, ih]
      simp

/-- The decoder goes through the bytes from the left and keeps what it emitted, the newest first. -/
theorem foldl_step (out : List α) (p : Option Pending) (bs : List UInt8) :
    bs.foldl (fun s b => ((step good bad s.2 b).1.reverse ++ s.1, (step good bad s.2 b).2))
      (out, p) = ((emit good bad p bs).1.reverse ++ out, (emit good bad p bs).2) := by
  induction bs generalizing out p with
  | nil => rfl
  | cons b bs ih =>
      rw [List.foldl_cons, ih, emit]
      simp

/-- The pieces of some bytes are what is emitted, and what is left over at the end. -/
theorem pieces_eq_emit (p : Option Pending) (bs : List UInt8) :
    pieces good bad p bs = (emit good bad p bs).1 ++ finish bad (emit good bad p bs).2 := by
  have hpieces : pieces good bad p bs =
      ((emit good bad p bs).1.reverse ++ []).reverse ++ finish bad (emit good bad p bs).2 :=
    congrArg (fun s => s.1.reverse ++ finish bad s.2) (foldl_step [] p bs)
  simpa using hpieces

theorem pieces_append (p : Option Pending) (bs cs : List UInt8) :
    pieces good bad p (bs ++ cs) =
      (emit good bad p bs).1 ++ pieces good bad (emit good bad p bs).2 cs := by
  rw [pieces_eq_emit, pieces_eq_emit, emit_append, List.append_assoc]

/-! ### The bytes of one character -/

/-- A continuation byte that is allowed takes a sequence further. -/
theorem step_further {p : Pending} {k x : Nat} {b : UInt8} (hb : b.toNat = x + 128)
    (hlow : p.low ≤ x + 128)
    (hhigh : x + 128 ≤ p.high) (hk : p.further = k + 1) :
    step good bad (some p) b = ([], some ⟨p.value * 64 + x, k, 0x80, 0xBF⟩) := by
  simp [step, hb, hlow, hhigh, hk]

/-- The last one ends it. -/
theorem step_last {p : Pending} {x : Nat} {b : UInt8} (hb : b.toNat = x + 128)
    (hlow : p.low ≤ x + 128)
    (hhigh : x + 128 ≤ p.high) (hk : p.further = 0) :
    step good bad (some p) b = ([good (Char.ofNat (p.value * 64 + x))], none) := by
  simp [step, hb, hlow, hhigh, hk]

theorem toNat_ofNat_of_lt {n : Nat} (hn : n < 256) : (UInt8.ofNat n).toNat = n := by
  simp [Nat.mod_eq_of_lt hn]

/-- What the bytes of a character do to the decoder: before the last one it emits nothing and waits,
with the last one it emits the character. -/
inductive Emits (c : Char) : Option Pending → List UInt8 → Prop
  | last {p : Option Pending} {b : UInt8}
      (h : ∀ {α : Type} (good : Char → α) (bad : α), step good bad p b = ([good c], none)) :
      Emits c p [b]
  | further {p : Option Pending} {q : Pending} {b : UInt8} {bs : List UInt8}
      (h : ∀ {α : Type} (good : Char → α) (bad : α), step good bad p b = ([], some q))
      (hbs : Emits c (some q) bs) : Emits c p (b :: bs)

/-- A character is a scalar value: no surrogate, and not above the last one. -/
theorem toNat_char (c : Char) :
    c.val.toNat < 0xD800 ∨ (0xDFFF < c.val.toNat ∧ c.val.toNat < 0x110000) := c.valid

/-- The first byte of two. -/
theorem opening_two {v : Nat} (hlow : 127 < v) (hhigh : v ≤ 2047) :
    opening (UInt8.ofNat (v / 64 % 32 + 192)) = .sequence ⟨v / 64, 0, 0x80, 0xBF⟩ := by
  have hb : (UInt8.ofNat (v / 64 % 32 + 192)).toNat = v / 64 + 192 := by
    rw [toNat_ofNat_of_lt (by omega)]
    omega
  rw [opening, hb, if_neg (by omega), if_neg (by omega), if_pos (by omega)]
  simp

/-- The first byte of three; where the second one would be overlong or make a surrogate, it is not
allowed. -/
theorem opening_three {v : Nat} (hlow : 2047 < v) (hhigh : v ≤ 65535)
    (hvalid : v < 0xD800 ∨ 0xDFFF < v) :
    ∃ low high, opening (UInt8.ofNat (v / 4096 % 16 + 224)) = .sequence ⟨v / 4096, 1, low, high⟩ ∧
      low ≤ v / 64 % 64 + 128 ∧ v / 64 % 64 + 128 ≤ high := by
  have hb : (UInt8.ofNat (v / 4096 % 16 + 224)).toNat = v / 4096 + 224 := by
    rw [toNat_ofNat_of_lt (by omega)]
    omega
  rw [opening, hb, if_neg (by omega), if_neg (by omega), if_neg (by omega)]
  simp only [beq_iff_eq]
  split
  · next h0 => exact ⟨0xA0, 0xBF, by rw [show v / 4096 = 0 by omega], by omega, by omega⟩
  split
  · next h0 hd => exact ⟨0x80, 0x9F, by rw [show v / 4096 = 0xD by omega], by omega, by omega⟩
  · next h0 hd => exact ⟨0x80, 0xBF, by rw [if_pos (by omega)]; simp, by omega, by omega⟩

/-- The first byte of four; where the second one would be overlong or too large, it is not
allowed. -/
theorem opening_four {v : Nat} (hlow : 65535 < v) (hhigh : v < 0x110000) :
    ∃ low high, opening (UInt8.ofNat (v / 262144 % 8 + 240)) =
        .sequence ⟨v / 262144, 2, low, high⟩ ∧
      low ≤ v / 4096 % 64 + 128 ∧ v / 4096 % 64 + 128 ≤ high := by
  have hb : (UInt8.ofNat (v / 262144 % 8 + 240)).toNat = v / 262144 + 240 := by
    rw [toNat_ofNat_of_lt (by omega)]
    omega
  rw [opening, hb, if_neg (by omega), if_neg (by omega), if_neg (by omega)]
  simp only [beq_iff_eq]
  rw [if_neg (by omega), if_neg (by omega), if_neg (by omega)]
  split
  · next h0 => exact ⟨0x90, 0xBF, by rw [show v / 262144 = 0 by omega], by omega, by omega⟩
  split
  · next h0 h4 => exact ⟨0x80, 0xBF, by simp, by omega, by omega⟩
  · next h0 h4 =>
      refine ⟨0x80, 0x8F, ?_, by omega, by omega⟩
      rw [if_pos (by omega), show v / 262144 = 4 by omega]

theorem step_none_of_sequence {b : UInt8} {q : Pending} (hb : opening b = .sequence q) :
    step good bad none b = ([], some q) := by
  rw [step, start, hb]

/-- **The bytes of a character.** -/
theorem emits_utf8EncodeChar (c : Char) : Emits c none (String.utf8EncodeChar c) := by
  have hvalid := toNat_char c
  have hc : Char.ofNat c.val.toNat = c := Char.ofNat_toNat c
  simp only [String.utf8EncodeChar]
  generalize c.val.toNat = v at hvalid hc
  split
  · next h1 =>
      refine .last fun good bad => ?_
      have hb : (UInt8.ofNat v).toNat = v := toNat_ofNat_of_lt (by omega)
      simp only [step, start, opening, hb, if_pos (show v < 128 by omega), hc]
  split
  · next h1 h2 =>
      have hlast : (UInt8.ofNat (v % 64 + 128)).toNat = v % 64 + 128 := toNat_ofNat_of_lt (by omega)
      have hsum : v / 64 * 64 + v % 64 = v := by omega
      refine .further (fun _ _ => step_none_of_sequence (opening_two (by omega) h2)) ?_
      refine .last fun good bad => ?_
      rw [step_last hlast (by simp) (by simp; omega) rfl, hsum, hc]
  split
  · next h1 h2 h3 =>
      obtain ⟨low, high, hopen, hlow, hhigh⟩ := opening_three (v := v) (by omega) h3 (by omega)
      have hsecond : (UInt8.ofNat (v / 64 % 64 + 128)).toNat = v / 64 % 64 + 128 :=
        toNat_ofNat_of_lt (by omega)
      have hlast : (UInt8.ofNat (v % 64 + 128)).toNat = v % 64 + 128 := toNat_ofNat_of_lt (by omega)
      have hsum : (v / 4096 * 64 + v / 64 % 64) * 64 + v % 64 = v := by omega
      refine .further (fun _ _ => step_none_of_sequence hopen) ?_
      refine .further (fun _ _ => step_further hsecond hlow hhigh rfl) ?_
      refine .last fun good bad => ?_
      rw [step_last hlast (by simp) (by simp; omega) rfl, hsum, hc]
  · next h1 h2 h3 =>
      obtain ⟨low, high, hopen, hlow, hhigh⟩ := opening_four (v := v) (by omega) (by omega)
      have hsecond : (UInt8.ofNat (v / 4096 % 64 + 128)).toNat = v / 4096 % 64 + 128 :=
        toNat_ofNat_of_lt (by omega)
      have hthird : (UInt8.ofNat (v / 64 % 64 + 128)).toNat = v / 64 % 64 + 128 :=
        toNat_ofNat_of_lt (by omega)
      have hlast : (UInt8.ofNat (v % 64 + 128)).toNat = v % 64 + 128 := toNat_ofNat_of_lt (by omega)
      have hsum : ((v / 262144 * 64 + v / 4096 % 64) * 64 + v / 64 % 64) * 64 + v % 64 = v := by
        omega
      refine .further (fun _ _ => step_none_of_sequence hopen) ?_
      refine .further (fun _ _ => step_further hsecond hlow hhigh rfl) ?_
      refine .further (fun _ _ => step_further hthird (by simp) (by simp; omega) rfl) ?_
      refine .last fun good bad => ?_
      rw [step_last hlast (by simp) (by simp; omega) rfl, hsum, hc]

namespace Emits

variable {c : Char} {p : Option Pending} {bs : List UInt8}

theorem emit_eq (h : Emits c p bs) : emit good bad p bs = ([good c], none) := by
  induction h with
  | last h => simp [emit, h good bad]
  | further h _ ih => simp [emit, h good bad, ih]

/-- Before its last byte a character has emitted nothing, and the decoder waits. -/
theorem emit_take {n : Nat} (h : Emits c p bs) (hp : p.isSome = true ∨ 0 < n) (hn : n < bs.length) :
    ∃ q, emit good bad p (bs.take n) = ([], some q) := by
  induction h generalizing n with
  | last h =>
      obtain rfl : n = 0 := by simpa using hn
      rcases hp with hp | hp
      · obtain ⟨q, rfl⟩ := Option.isSome_iff_exists.1 hp
        exact ⟨q, rfl⟩
      · cases hp
  | @further p q b bs h _ ih =>
      cases n with
      | zero =>
          rcases hp with hp | hp
          · obtain ⟨q, rfl⟩ := Option.isSome_iff_exists.1 hp
            exact ⟨q, rfl⟩
          · cases hp
      | succ n =>
          obtain ⟨r, hr⟩ := ih (n := n) (Or.inl rfl) (by simpa using hn)
          exact ⟨r, by rw [List.take_succ_cons, emit, h good bad, hr]; rfl⟩

end Emits

/-! ### Texts -/

theorem encode_append (s t : List Char) : encode (s ++ t) = encode s ++ encode t := by
  simp [encode]

theorem encode_cons (c : Char) (s : List Char) :
    encode (c :: s) = String.utf8EncodeChar c ++ encode s := rfl

/-- The bytes of a character that is repeated. -/
theorem length_encode_replicate (n : Nat) (c : Char) :
    (encode (List.replicate n c)).length = n * (String.utf8EncodeChar c).length := by
  simp [encode, List.flatMap_replicate]

theorem emit_encode (s : List Char) : emit good bad none (encode s) = (s.map good, none) := by
  induction s with
  | nil => rfl
  | cons c s ih =>
      rw [encode_cons, emit_append, (emits_utf8EncodeChar c).emit_eq, ih]
      rfl

/-- **What was encoded is decoded.** -/
theorem decode_encode (s : List Char) : decode (encode s) = s := by
  rw [decode, pieces_eq_emit, emit_encode]
  simp [finish]

/-- A cut stands before a character or inside one. -/
theorem exists_cut {s : List Char} {n : Nat} (hn : n < (encode s).length) :
    ∃ kept c lost, s = kept ++ c :: lost ∧ (encode kept).length ≤ n ∧
      n < (encode kept).length + (String.utf8EncodeChar c).length := by
  induction s generalizing n with
  | nil => cases hn
  | cons c s ih =>
      by_cases hc : n < (String.utf8EncodeChar c).length
      · exact ⟨[], c, s, rfl, Nat.zero_le _, by simpa [encode] using hc⟩
      · rw [encode_cons, List.length_append] at hn
        obtain ⟨kept, d, lost, rfl, hlow, hhigh⟩ :=
          ih (n := n - (String.utf8EncodeChar c).length) (by omega)
        refine ⟨c :: kept, d, lost, rfl, ?_, ?_⟩
        · rw [encode_cons, List.length_append]
          omega
        · rw [encode_cons, List.length_append]
          omega

/-- **What a cut leaves of a text**: the characters before it, and U+FFFD if it falls inside one. -/
theorem decode_take_encode {kept lost : List Char} {c : Char} {n : Nat}
    (hlow : (encode kept).length ≤ n)
    (hhigh : n < (encode kept).length + (String.utf8EncodeChar c).length) :
    decode ((encode (kept ++ c :: lost)).take n) =
      kept ++ if n = (encode kept).length then [] else [replacement] := by
  obtain ⟨m, rfl⟩ : ∃ m, n = (encode kept).length + m := ⟨n - (encode kept).length, by omega⟩
  have hm : m < (String.utf8EncodeChar c).length := by omega
  rw [encode_append, List.take_length_add_append, encode_cons,
    List.take_append_of_le_length (by omega), decode, pieces_append, emit_encode, List.map_id,
    pieces_eq_emit]
  congr 1
  by_cases h0 : m = 0
  · subst h0
    rw [if_pos (by omega)]
    rfl
  · have hwait : ∃ q, emit id replacement none ((String.utf8EncodeChar c).take m) = ([], some q) :=
      (emits_utf8EncodeChar c).emit_take (Or.inr (by omega)) hm
    obtain ⟨q, hq⟩ := hwait
    rw [if_neg (by omega), hq]
    rfl

/-- Only the zero character has a zero byte. -/
theorem ne_zero_of_mem_encode {s : List Char} (hs : ∀ c ∈ s, c ≠ '\x00') {b : UInt8}
    (hb : b ∈ encode s) : b ≠ 0 := by
  obtain ⟨c, hc, hb⟩ := List.mem_flatMap.1 hb
  have hne : c.val.toNat ≠ 0 := by
    intro h0
    refine hs c hc (Char.ext (UInt32.toNat_inj.1 ?_))
    rw [h0]
    rfl
  have hvalid := toNat_char c
  simp only [String.utf8EncodeChar] at hb
  generalize c.val.toNat = v at hb hne hvalid
  have hofNat : ∀ n, 0 < n → n < 256 → UInt8.ofNat n ≠ 0 := by
    intro n h0 hlt he
    have hn := congrArg UInt8.toNat he
    rw [toNat_ofNat_of_lt hlt] at hn
    exact absurd hn (by simp; omega)
  split at hb
  · obtain rfl := List.mem_singleton.1 hb
    exact hofNat v (by omega) (by omega)
  split at hb
  · simp only [List.mem_cons, List.not_mem_nil, or_false] at hb
    rcases hb with rfl | rfl <;> exact hofNat _ (by omega) (by omega)
  split at hb
  · simp only [List.mem_cons, List.not_mem_nil, or_false] at hb
    rcases hb with rfl | rfl | rfl <;> exact hofNat _ (by omega) (by omega)
  · simp only [List.mem_cons, List.not_mem_nil, or_false] at hb
    rcases hb with rfl | rfl | rfl | rfl <;> exact hofNat _ (by omega) (by omega)

end LateBinding.Text.Utf8
