import LateBinding.Bytes.Base64
import Mathlib.Data.Option.Basic

/-!
**Every list of bytes has one text in base64.**

The bits of the bytes, eight each, are cut into pieces of six; fewer than six zeros fill up the last
one, and each piece is a character of the alphabet by its number. Padding completes the last group
of four characters. The strict reading accepts exactly the texts that writing produces, so nothing
in them is free: **not the padding, and not the bits that no byte uses**.

Main definitions:

* `LateBinding.Base64.alphabet` — the characters, each at the place of its value;
* `LateBinding.Base64.bits` — the bits of a number, the highest first;
* `LateBinding.Base64.Spells` — **what characters spell**, bit by bit.

Main results:

* `LateBinding.Base64.eq_digit_of_digit?` — what has a value is the character of that value;
* `LateBinding.Base64.Spells.unique` — **bytes are spelt in one way**;
* `LateBinding.Base64.exists_spells` — what is written spells the bytes, with padding after it;
* `LateBinding.Base64.decode?_eq_some_iff` — **reading accepts exactly what writing produces**;
* `LateBinding.Base64.exists_groups_of_padded` — what the last group must be like to be read.
-/

set_option autoImplicit false

namespace LateBinding.Base64

/-! ### The alphabet -/

/-- The characters in the order of their values. -/
def alphabet : List Char :=
  "ABCDEFGHIJKLMNOPQRSTUVWXYZabcdefghijklmnopqrstuvwxyz0123456789+/".toList

/-- The value of a character is its place in the alphabet. -/
def value (c : Char) : Nat := alphabet.idxOf c

theorem value_digit : ∀ n < 64, digit n ∈ alphabet ∧ value (digit n) = n := by decide

theorem digit?_of_mem {c : Char} (hc : c ∈ alphabet) : digit? c = some (value c) := by
  have hall : alphabet.all (fun c => digit? c = some (value c)) = true := by decide
  exact of_decide_eq_true (List.all_eq_true.1 hall c hc)

theorem digit?_digit : ∀ n < 64, digit? (digit n) = some n := by decide

theorem digit_ne_pad : ∀ n < 64, digit n ≠ pad := by decide

theorem value_lt {c : Char} (hc : c ∈ alphabet) : value c < 64 := List.idxOf_lt_length_of_mem hc

/-- A character with a value is the one that this value is written with. -/
theorem eq_digit_of_digit? {c : Char} {n : Nat} (h : digit? c = some n) : n < 64 ∧ c = digit n := by
  have hc : Char.ofNat c.toNat = c := Char.ofNat_toNat c
  rw [digit?] at h
  split at h
  · next hupper =>
      obtain rfl := Option.some.inj h
      have hlow : 65 ≤ c.toNat := hupper.1
      have hhigh : c.toNat ≤ 90 := hupper.2
      refine ⟨by omega, ?_⟩
      rw [digit, if_pos (by omega), Nat.add_sub_cancel' hlow, hc]
  split at h
  · next hlower =>
      obtain rfl := Option.some.inj h
      have hlow : 97 ≤ c.toNat := hlower.1
      have hhigh : c.toNat ≤ 122 := hlower.2
      refine ⟨by omega, ?_⟩
      rw [digit, if_neg (by omega), if_pos (by omega), Nat.add_sub_cancel' (by omega), hc]
  split at h
  · next hdecimal =>
      obtain rfl := Option.some.inj h
      have hlow : 48 ≤ c.toNat := hdecimal.1
      have hhigh : c.toNat ≤ 57 := hdecimal.2
      refine ⟨by omega, ?_⟩
      rw [digit, if_neg (by omega), if_neg (by omega), if_pos (by omega), Nat.add_sub_cancel, hc]
  split at h
  · next hplus =>
      obtain rfl := Option.some.inj h
      exact ⟨by decide, hplus⟩
  split at h
  · next hslash =>
      obtain rfl := Option.some.inj h
      exact ⟨by decide, hslash⟩
  · cases h

theorem digit_value {c : Char} (hc : c ∈ alphabet) : digit (value c) = c :=
  (eq_digit_of_digit? (digit?_of_mem hc)).2.symm

/-! ### Bits -/

/-- The last `width` bits of a number, the highest first. -/
def bits : Nat → Nat → List Nat
  | 0, _ => []
  | width + 1, n => bits width (n / 2) ++ [n % 2]

@[simp] theorem length_bits (width n : Nat) : (bits width n).length = width := by
  induction width generalizing n with
  | zero => rfl
  | succ width ih => rw [bits, List.length_append, ih, List.length_singleton]

/-- The bits of a number in two parts. -/
theorem bits_mul_add (width k x : Nat) {y : Nat} (hy : y < Nat.pow 2 k) :
    bits (width + k) (x * Nat.pow 2 k + y) = bits width x ++ bits k y := by
  induction k generalizing y with
  | zero =>
      obtain rfl : y = 0 := Nat.lt_one_iff.1 hy
      simp [bits]
  | succ k ih =>
      have hpow : Nat.pow 2 (k + 1) = 2 * Nat.pow 2 k := Nat.pow_succ'
      rw [hpow] at hy ⊢
      have hhalf : (x * (2 * Nat.pow 2 k) + y) / 2 = x * Nat.pow 2 k + y / 2 := by
        rw [Nat.mul_left_comm, Nat.mul_add_div (by decide)]
      have hlast : (x * (2 * Nat.pow 2 k) + y) % 2 = y % 2 := by
        rw [Nat.mul_left_comm, Nat.mul_add_mod]
      rw [← Nat.add_assoc, bits, hhalf, hlast, ih (by omega), bits, List.append_assoc]

theorem bits_div_mod (width k n : Nat) :
    bits (width + k) n = bits width (n / Nat.pow 2 k) ++ bits k (n % Nat.pow 2 k) := by
  rw [← bits_mul_add width k _ (Nat.mod_lt _ (Nat.pow_pos (by decide))), Nat.div_add_mod']

theorem bits_zero (width : Nat) : bits width 0 = List.replicate width 0 := by
  induction width with
  | zero => rfl
  | succ width ih => rw [bits, ih, List.replicate_succ']

/-- The bits of bytes, eight each. -/
def byteBits (bs : List UInt8) : List Nat := bs.flatMap fun b => bits 8 b.toNat

/-- The bits of characters, six each. -/
def charBits (cs : List Char) : List Nat := cs.flatMap fun c => bits 6 (value c)

theorem bits_six_inj {m n : Nat} (hm : m < 64) (hn : n < 64) (h : bits 6 m = bits 6 n) : m = n := by
  simp only [bits, List.nil_append, List.cons_append, List.cons.injEq] at h
  omega

section Pieces

variable {α : Type} {width : Nat} {f : α → List Nat}

theorem length_flatMap_of_length (hf : ∀ x, (f x).length = width) (xs : List α) :
    (xs.flatMap f).length = width * xs.length := by
  induction xs with
  | nil => rfl
  | cons x xs ih =>
      rw [List.flatMap_cons, List.length_append, hf, ih, List.length_cons, Nat.mul_succ,
        Nat.add_comm]

/-- Pieces of one length determine the items that they are made of, where one piece does. -/
theorem flatMap_inj_of_length {xs ys : List α} (hf : ∀ x, (f x).length = width)
    (hinj : ∀ x ∈ xs, ∀ y ∈ ys, f x = f y → x = y) (hlen : xs.length = ys.length)
    (h : xs.flatMap f = ys.flatMap f) : xs = ys := by
  induction xs generalizing ys with
  | nil => exact (List.eq_nil_of_length_eq_zero hlen.symm).symm
  | cons x xs ih =>
      cases ys with
      | nil => cases hlen
      | cons y ys =>
          rw [List.flatMap_cons, List.flatMap_cons] at h
          obtain ⟨hhead, htail⟩ := List.append_inj h (by rw [hf, hf])
          obtain rfl := hinj x List.mem_cons_self y List.mem_cons_self hhead
          rw [ih (fun x hx y hy => hinj x (List.mem_cons_of_mem _ hx) y (List.mem_cons_of_mem _ hy))
            (Nat.succ.inj hlen) htail]

end Pieces

theorem length_byteBits (bs : List UInt8) : (byteBits bs).length = 8 * bs.length := by
  have hbyte : ∀ b : UInt8, (bits 8 b.toNat).length = 8 := fun b => length_bits 8 b.toNat
  exact length_flatMap_of_length hbyte bs

theorem length_charBits (cs : List Char) : (charBits cs).length = 6 * cs.length := by
  have hchar : ∀ c, (bits 6 (value c)).length = 6 := fun c => length_bits 6 (value c)
  exact length_flatMap_of_length hchar cs

theorem charBits_inj {cs cs' : List Char} (hcs : ∀ c ∈ cs, c ∈ alphabet)
    (hcs' : ∀ c ∈ cs', c ∈ alphabet) (hlen : cs.length = cs'.length)
    (h : charBits cs = charBits cs') : cs = cs' := by
  have hchar : ∀ c, (bits 6 (value c)).length = 6 := fun c => length_bits 6 (value c)
  refine flatMap_inj_of_length hchar (fun c hc d hd he => ?_) hlen h
  have hvalue : value c = value d := bits_six_inj (value_lt (hcs c hc)) (value_lt (hcs' d hd)) he
  rw [← digit_value (hcs c hc), ← digit_value (hcs' d hd), hvalue]

/-! ### What characters spell -/

/-- `Spells cs bs`: the bits of the characters `cs` are those of the bytes `bs`, and after them
fewer than six zeros. -/
structure Spells (cs : List Char) (bs : List UInt8) : Prop where
  mem_alphabet : ∀ c ∈ cs, c ∈ alphabet
  bits_eq : ∃ unused < 6, charBits cs = byteBits bs ++ List.replicate unused 0

namespace Spells

variable {cs cs' : List Char} {bs : List UInt8}

/-- How many characters spell how many bytes. -/
theorem length_eq (h : Spells cs bs) : ∃ unused < 6, 6 * cs.length = 8 * bs.length + unused := by
  obtain ⟨unused, hunused, hbits⟩ := h.bits_eq
  refine ⟨unused, hunused, ?_⟩
  rw [← length_charBits, hbits, List.length_append, length_byteBits, List.length_replicate]

/-- **Bytes are spelt in one way.** -/
theorem unique (h : Spells cs bs) (h' : Spells cs' bs) : cs = cs' := by
  obtain ⟨unused, hunused, hbits⟩ := h.bits_eq
  obtain ⟨unused', hunused', hbits'⟩ := h'.bits_eq
  have htotal := congrArg List.length hbits
  have htotal' := congrArg List.length hbits'
  rw [length_charBits, List.length_append, length_byteBits, List.length_replicate] at htotal htotal'
  -- both fill up to the next multiple of six, so the zeros are as many
  obtain rfl : unused = unused' := by omega
  have hlen : cs.length = cs'.length := by omega
  exact charBits_inj h.mem_alphabet h'.mem_alphabet hlen (hbits.trans hbits'.symm)

/-- Where two bits are unused they are zero. -/
theorem value_mod_four {c : Char} (h : Spells (cs ++ [c]) bs)
    (hlen : 6 * (cs.length + 1) = 8 * bs.length + 2) : value c % 4 = 0 := by
  obtain ⟨unused, -, hbits⟩ := h.bits_eq
  have htotal := congrArg List.length hbits
  rw [length_charBits, List.length_append, List.length_append, length_byteBits,
    List.length_replicate, List.length_singleton] at htotal
  obtain rfl : unused = 2 := by omega
  have hlast : bits 6 (value c) = bits 4 (value c / 4) ++ bits 2 (value c % 4) :=
    bits_div_mod 4 2 (value c)
  rw [charBits, List.flatMap_append, List.flatMap_singleton, hlast, ← List.append_assoc] at hbits
  have hzeros := (List.append_inj' hbits (by rw [length_bits, List.length_replicate])).2
  simp only [bits, List.nil_append, List.cons_append, List.replicate, List.cons.injEq] at hzeros
  omega

theorem nil : Spells [] [] := ⟨nofun, 0, by decide, rfl⟩

/-- Characters without a bit left over go before others. -/
theorem append {ds : List Char} {as : List UInt8} (h : Spells cs bs) (hds : ∀ c ∈ ds, c ∈ alphabet)
    (hbits : charBits ds = byteBits as) : Spells (ds ++ cs) (as ++ bs) := by
  obtain ⟨unused, hunused, htotal⟩ := h.bits_eq
  refine ⟨fun c hc => (List.mem_append.1 hc).elim (hds c) (h.mem_alphabet c), unused, hunused, ?_⟩
  rw [charBits, List.flatMap_append, byteBits, List.flatMap_append, List.append_assoc]
  exact congr (congrArg _ hbits) htotal

end Spells

/-! ### Writing -/

theorem digits_mem {vs : List Nat} (hvs : ∀ v ∈ vs, v < 64) : ∀ c ∈ vs.map digit, c ∈ alphabet := by
  intro c hc
  obtain ⟨v, hv, rfl⟩ := List.mem_map.1 hc
  exact (value_digit v (hvs v hv)).1

theorem charBits_digits {vs : List Nat} (hvs : ∀ v ∈ vs, v < 64) :
    charBits (vs.map digit) = vs.flatMap (bits 6) := by
  induction vs with
  | nil => rfl
  | cons v vs ih =>
      rw [List.forall_mem_cons] at hvs
      rw [List.map_cons, charBits, List.flatMap_cons, (value_digit v hvs.1).2, List.flatMap_cons]
      exact congrArg _ (ih hvs.2)

/-! Where the bits of three bytes are cut into four pieces. -/

theorem bits_first (a : Nat) : bits 8 a = bits 6 (a / 4) ++ bits 2 (a % 4) := bits_div_mod 6 2 a

theorem bits_second (b : Nat) : bits 8 b = bits 4 (b / 16) ++ bits 4 (b % 16) := bits_div_mod 4 4 b

theorem bits_third (c : Nat) : bits 8 c = bits 2 (c / 64) ++ bits 6 (c % 64) := bits_div_mod 2 6 c

theorem bits_across_first (x : Nat) {y : Nat} (hy : y < 16) :
    bits 6 (x * 16 + y) = bits 2 x ++ bits 4 y := bits_mul_add 2 4 x hy

theorem bits_across_second (x : Nat) {y : Nat} (hy : y < 4) :
    bits 6 (x * 4 + y) = bits 4 x ++ bits 2 y := bits_mul_add 4 2 x hy

/-- Values and bytes with the same bits, but for zeros. -/
theorem spells_digits {vs : List Nat} {bs : List UInt8} {unused : Nat} (hvs : ∀ v ∈ vs, v < 64)
    (hunused : unused < 6)
    (hbits : vs.flatMap (bits 6) = (bs.map UInt8.toNat).flatMap (bits 8) ++
      List.replicate unused 0) :
    Spells (vs.map digit) bs := by
  refine ⟨digits_mem hvs, unused, hunused, ?_⟩
  rw [charBits_digits hvs, hbits, List.flatMap_map]
  rfl

/-- One byte is two values. -/
theorem flatMap_bits_one (a : Nat) :
    [a / 4, a % 4 * 16].flatMap (bits 6) = [a].flatMap (bits 8) ++ List.replicate 4 0 := by
  have hcut := bits_across_first (a % 4) (show 0 < 16 by decide)
  rw [Nat.add_zero, bits_zero] at hcut
  simp only [List.flatMap_cons, List.flatMap_nil, List.append_nil, List.append_assoc, bits_first a,
    hcut]

/-- Two bytes are three values. -/
theorem flatMap_bits_two (a : Nat) {b : Nat} (hb : b < 256) :
    [a / 4, a % 4 * 16 + b / 16, b % 16 * 4].flatMap (bits 6) =
      [a, b].flatMap (bits 8) ++ List.replicate 2 0 := by
  have hcut := bits_across_first (a % 4) (show b / 16 < 16 by omega)
  have hlast := bits_across_second (b % 16) (show 0 < 4 by decide)
  rw [Nat.add_zero, bits_zero] at hlast
  simp only [List.flatMap_cons, List.flatMap_nil, List.append_nil, List.append_assoc, bits_first a,
    bits_second b, hcut, hlast]

/-- Three bytes are four values. -/
theorem flatMap_bits_three (a : Nat) {b c : Nat} (hb : b < 256) (hc : c < 256) :
    [a / 4, a % 4 * 16 + b / 16, b % 16 * 4 + c / 64, c % 64].flatMap (bits 6) =
      [a, b, c].flatMap (bits 8) := by
  have hcut := bits_across_first (a % 4) (show b / 16 < 16 by omega)
  have hcut' := bits_across_second (b % 16) (show c / 64 < 4 by omega)
  simp only [List.flatMap_cons, List.flatMap_nil, List.append_nil, List.append_assoc, bits_first a,
    bits_second b, bits_third c, hcut, hcut']

/-- **What is written spells the bytes**, and padding completes the last group. -/
theorem exists_spells (bs : List UInt8) :
    ∃ cs, encode bs = cs ++ List.replicate ((3 - bs.length % 3) % 3) pad ∧ Spells cs bs := by
  induction bs using encode.induct with
  | case1 => exact ⟨[], rfl, .nil⟩
  | case2 a =>
      have ha := a.toNat_lt
      refine ⟨[a.toNat / 4, a.toNat % 4 * 16].map digit, rfl, ?_⟩
      refine spells_digits (fun v hv => ?_) (by decide) (flatMap_bits_one a.toNat)
      simp only [List.mem_cons, List.not_mem_nil, or_false] at hv
      omega
  | case3 a b =>
      have ha := a.toNat_lt
      have hb := b.toNat_lt
      refine ⟨[a.toNat / 4, a.toNat % 4 * 16 + b.toNat / 16, b.toNat % 16 * 4].map digit, rfl, ?_⟩
      refine spells_digits (fun v hv => ?_) (by decide) (flatMap_bits_two a.toNat hb)
      simp only [List.mem_cons, List.not_mem_nil, or_false] at hv
      omega
  | case4 a b c rest ih =>
      have ha := a.toNat_lt
      have hb := b.toNat_lt
      have hc := c.toNat_lt
      obtain ⟨cs, hrest, hspells⟩ := ih
      have hvs : ∀ v ∈ [a.toNat / 4, a.toNat % 4 * 16 + b.toNat / 16,
          b.toNat % 16 * 4 + c.toNat / 64, c.toNat % 64], v < 64 := by
        intro v hv
        simp only [List.mem_cons, List.not_mem_nil, or_false] at hv
        omega
      have hgroup := charBits_digits hvs
      rw [flatMap_bits_three a.toNat hb hc] at hgroup
      have hbytes : charBits _ = byteBits [a, b, c] := hgroup
      refine ⟨_, ?_, hspells.append (digits_mem hvs) hbytes⟩
      have hlen : (a :: b :: c :: rest).length % 3 = rest.length % 3 :=
        Nat.add_mod_right rest.length 3
      rw [encode, hrest, hlen]
      rfl

/-! ### Reading -/

/-- What the strict reading takes for a group: the last one may be padded, its unused bits zero. -/
inductive Groups : List Char → List UInt8 → Prop
  | nil : Groups [] []
  | two {x y : Nat} (hx : x < 64) (hy : y < 64) (hzero : y % 16 = 0) :
      Groups [digit x, digit y, pad, pad] (pack2 x y)
  | three {x y z : Nat} (hx : x < 64) (hy : y < 64) (hz : z < 64) (hzero : z % 4 = 0) :
      Groups [digit x, digit y, digit z, pad] (pack3 x y z)
  | four {x y z w : Nat} {s : List Char} {bs : List UInt8} (hx : x < 64) (hy : y < 64) (hz : z < 64)
      (hw : w < 64) (h : Groups s bs) :
      Groups (digit x :: digit y :: digit z :: digit w :: s) (pack4 x y z w ++ bs)

theorem decode?_of_groups {s : List Char} {bs : List UInt8} (h : Groups s bs) :
    decode? s = some bs := by
  induction h with
  | nil => rfl
  | @two x y hx hy hzero =>
      have hunused : guard (y % 16 = 0) = some () := (Option.guard_eq_some' ()).2 hzero
      rw [decode?, digit?_digit x hx, digit?_digit y hy, Option.bind_eq_bind, Option.bind_some,
        Option.bind_eq_bind, Option.bind_some, if_pos ⟨rfl, rfl⟩, if_pos rfl, hunused]
      rfl
  | @three x y z hx hy hz hzero =>
      have hunused : guard (z % 4 = 0) = some () := (Option.guard_eq_some' ()).2 hzero
      rw [decode?, digit?_digit x hx, digit?_digit y hy, digit?_digit z hz, Option.bind_eq_bind,
        Option.bind_some, Option.bind_eq_bind, Option.bind_some, if_pos ⟨rfl, rfl⟩,
        if_neg (digit_ne_pad z hz), Option.bind_some, hunused]
      rfl
  | @four x y z w s bs hx hy hz hw h ih =>
      rw [decode?, digit?_digit x hx, digit?_digit y hy, digit?_digit z hz, digit?_digit w hw,
        Option.bind_eq_bind, Option.bind_some, Option.bind_eq_bind, Option.bind_some,
        if_neg fun hlast => digit_ne_pad w hw hlast.1, Option.bind_some, Option.bind_some, ih]
      rfl

theorem groups_of_decode? {s : List Char} {bs : List UInt8} (h : decode? s = some bs) :
    Groups s bs := by
  fun_induction decode? s generalizing bs with
  | case1 =>
      obtain rfl := Option.some.inj h
      exact .nil
  | case2 a b c d rest ih =>
      obtain ⟨x, ha, hafter⟩ := Option.bind_eq_some_iff.1 h
      obtain ⟨y, hb, hlater⟩ := Option.bind_eq_some_iff.1 hafter
      obtain ⟨hx, rfl⟩ := eq_digit_of_digit? ha
      obtain ⟨hy, rfl⟩ := eq_digit_of_digit? hb
      clear h hafter
      split at hlater
      · next hlast =>
          obtain ⟨rfl, rfl⟩ := hlast
          split at hlater
          · next hpad =>
              subst hpad
              obtain ⟨u, hzero, hbytes⟩ := Option.bind_eq_some_iff.1 hlater
              obtain rfl := Option.some.inj hbytes
              exact .two hx hy ((Option.guard_eq_some' u).1 hzero)
          · obtain ⟨z, hc, hunused⟩ := Option.bind_eq_some_iff.1 hlater
            obtain ⟨u, hzero, hbytes⟩ := Option.bind_eq_some_iff.1 hunused
            obtain rfl := Option.some.inj hbytes
            obtain ⟨hz, rfl⟩ := eq_digit_of_digit? hc
            exact .three hx hy hz ((Option.guard_eq_some' u).1 hzero)
      · obtain ⟨z, hc, hfourth⟩ := Option.bind_eq_some_iff.1 hlater
        obtain ⟨w, hd, htail⟩ := Option.bind_eq_some_iff.1 hfourth
        obtain ⟨bs', hrest, hbytes⟩ := Option.bind_eq_some_iff.1 htail
        obtain rfl := Option.some.inj hbytes
        obtain ⟨hz, rfl⟩ := eq_digit_of_digit? hc
        obtain ⟨hw, rfl⟩ := eq_digit_of_digit? hd
        exact .four hx hy hz hw (ih hrest)
  | case3 => cases h

theorem Groups.eq_encode {s : List Char} {bs : List UInt8} (h : Groups s bs) : s = encode bs := by
  induction h with
  | nil => rfl
  | @two x y hx hy hzero =>
      have ha : (UInt8.ofNat (x * 4 + y / 16)).toNat = x * 4 + y / 16 := Nat.mod_eq_of_lt (by omega)
      rw [pack2, encode, ha, show (x * 4 + y / 16) / 4 = x by omega,
        show (x * 4 + y / 16) % 4 * 16 = y by omega]
  | @three x y z hx hy hz hzero =>
      have ha : (UInt8.ofNat (x * 4 + y / 16)).toNat = x * 4 + y / 16 := Nat.mod_eq_of_lt (by omega)
      have hb : (UInt8.ofNat (y % 16 * 16 + z / 4)).toNat = y % 16 * 16 + z / 4 :=
        Nat.mod_eq_of_lt (by omega)
      rw [pack3, encode, ha, hb, show (x * 4 + y / 16) / 4 = x by omega,
        show (x * 4 + y / 16) % 4 * 16 + (y % 16 * 16 + z / 4) / 16 = y by omega,
        show (y % 16 * 16 + z / 4) % 16 * 4 = z by omega]
  | @four x y z w s bs hx hy hz hw h ih =>
      have ha : (UInt8.ofNat (x * 4 + y / 16)).toNat = x * 4 + y / 16 := Nat.mod_eq_of_lt (by omega)
      have hb : (UInt8.ofNat (y % 16 * 16 + z / 4)).toNat = y % 16 * 16 + z / 4 :=
        Nat.mod_eq_of_lt (by omega)
      have hc : (UInt8.ofNat (z % 4 * 64 + w)).toNat = z % 4 * 64 + w := Nat.mod_eq_of_lt (by omega)
      rw [pack4, List.cons_append, List.cons_append, List.cons_append, List.nil_append, encode, ha,
        hb, hc, show (x * 4 + y / 16) / 4 = x by omega,
        show (x * 4 + y / 16) % 4 * 16 + (y % 16 * 16 + z / 4) / 16 = y by omega,
        show (y % 16 * 16 + z / 4) % 16 * 4 + (z % 4 * 64 + w) / 64 = z by omega,
        show (z % 4 * 64 + w) % 64 = w by omega, ih]

/-! The bytes put together from the pieces that they were cut into. -/

theorem pack2_pieces (a : UInt8) : pack2 (a.toNat / 4) (a.toNat % 4 * 16) = [a] := by
  rw [pack2, show a.toNat / 4 * 4 + a.toNat % 4 * 16 / 16 = a.toNat by omega, UInt8.ofNat_toNat]

theorem pack3_pieces (a b : UInt8) :
    pack3 (a.toNat / 4) (a.toNat % 4 * 16 + b.toNat / 16) (b.toNat % 16 * 4) = [a, b] := by
  have hb := b.toNat_lt
  rw [pack3, show a.toNat / 4 * 4 + (a.toNat % 4 * 16 + b.toNat / 16) / 16 = a.toNat by omega,
    show (a.toNat % 4 * 16 + b.toNat / 16) % 16 * 16 + b.toNat % 16 * 4 / 4 = b.toNat by omega,
    UInt8.ofNat_toNat, UInt8.ofNat_toNat]

theorem pack4_pieces (a b c : UInt8) :
    pack4 (a.toNat / 4) (a.toNat % 4 * 16 + b.toNat / 16) (b.toNat % 16 * 4 + c.toNat / 64)
      (c.toNat % 64) = [a, b, c] := by
  have hb := b.toNat_lt
  have hc := c.toNat_lt
  rw [pack4, show a.toNat / 4 * 4 + (a.toNat % 4 * 16 + b.toNat / 16) / 16 = a.toNat by omega,
    show (a.toNat % 4 * 16 + b.toNat / 16) % 16 * 16 + (b.toNat % 16 * 4 + c.toNat / 64) / 4 =
      b.toNat by omega,
    show (b.toNat % 16 * 4 + c.toNat / 64) % 4 * 64 + c.toNat % 64 = c.toNat by omega,
    UInt8.ofNat_toNat, UInt8.ofNat_toNat, UInt8.ofNat_toNat]

theorem groups_encode (bs : List UInt8) : Groups (encode bs) bs := by
  induction bs using encode.induct with
  | case1 => exact .nil
  | case2 a =>
      have ha := a.toNat_lt
      have hgroup : Groups _ (pack2 (a.toNat / 4) (a.toNat % 4 * 16)) :=
        .two (by omega) (by omega) (by omega)
      rwa [pack2_pieces] at hgroup
  | case3 a b =>
      have ha := a.toNat_lt
      have hb := b.toNat_lt
      have hgroup : Groups _
          (pack3 (a.toNat / 4) (a.toNat % 4 * 16 + b.toNat / 16) (b.toNat % 16 * 4)) :=
        .three (by omega) (by omega) (by omega) (by omega)
      rwa [pack3_pieces] at hgroup
  | case4 a b c rest ih =>
      have ha := a.toNat_lt
      have hb := b.toNat_lt
      have hc := c.toNat_lt
      have hgroup : Groups _
          (pack4 (a.toNat / 4) (a.toNat % 4 * 16 + b.toNat / 16) (b.toNat % 16 * 4 + c.toNat / 64)
            (c.toNat % 64) ++ rest) :=
        .four (by omega) (by omega) (by omega) (by omega) ih
      rwa [pack4_pieces] at hgroup

/-- **Reading accepts exactly what writing produces.** -/
theorem decode?_eq_some_iff {s : List Char} {bs : List UInt8} :
    decode? s = some bs ↔ s = encode bs := by
  constructor
  · intro h
    exact (groups_of_decode? h).eq_encode
  · rintro rfl
    exact decode?_of_groups (groups_encode bs)

/-- A text with one padding character is read if the unused bits before it are zero. -/
theorem exists_groups_of_padded {cs : List Char} {c : Char} (hcs : ∀ d ∈ cs, d ∈ alphabet)
    (hlen : cs.length % 4 = 2) (hc : c ∈ alphabet) (hzero : value c % 4 = 0) :
    ∃ bs, Groups (cs ++ [c, pad]) bs ∧ 4 * bs.length = 3 * cs.length + 2 := by
  -- by the groups of four characters before the last one
  match cs, hcs, hlen with
  | [a, b], hcs, _ =>
      simp only [List.forall_mem_cons] at hcs
      obtain ⟨ha, hb, -⟩ := hcs
      have hgroup := Groups.three (value_lt ha) (value_lt hb) (value_lt hc) hzero
      rw [digit_value ha, digit_value hb, digit_value hc] at hgroup
      exact ⟨_, hgroup, rfl⟩
  | a :: b :: d :: e :: cs, hcs, hlen =>
      simp only [List.forall_mem_cons] at hcs
      obtain ⟨ha, hb, hd, he, hcs⟩ := hcs
      obtain ⟨bs, hrest, hsize⟩ :=
        exists_groups_of_padded hcs (by rwa [← Nat.add_mod_right]) hc hzero
      have hgroup := Groups.four (value_lt ha) (value_lt hb) (value_lt hd) (value_lt he) hrest
      rw [digit_value ha, digit_value hb, digit_value hd, digit_value he] at hgroup
      refine ⟨_, hgroup, ?_⟩
      simp only [pack4, List.length_append, List.length_cons, List.length_nil]
      omega
  | [], _, hlen => cases hlen
  | [a], _, hlen => cases hlen
  | [a, b, d], _, hlen => cases hlen

end LateBinding.Base64
