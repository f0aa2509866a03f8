import LateBinding.Proofs.Text.Utf8

/-!
**Which pieces of a text are replaced.**

Bytes that are no text fall into characters and into pieces that are none. Where no character
stands, the piece is the longest one there that could have begun a character, and a byte that begins
none is a piece by itself; this says nothing about how to decode. The decoder gives exactly the
characters that stand there, with **one U+FFFD for each piece**.

Main definitions:

* `LateBinding.Text.Utf8.Begins` — bytes with which a character begins;
* `LateBinding.Text.Utf8.IsPiece` — the ill-formed piece at the front of some bytes;
* `LateBinding.Text.Utf8.Repaired` — **the repaired texts of bytes**;
* `LateBinding.Text.Utf8.Taken` — the bytes of a sequence that the decoder has begun.

Main results:

* `LateBinding.Text.Utf8.Taken.complete`, `LateBinding.Text.Utf8.Taken.begins`,
  `LateBinding.Text.Utf8.Taken.not_begins` — a sequence that is begun can be completed, and a byte
  that breaks it off could not have gone on with it;
* `LateBinding.Text.Utf8.decode_eq_iff` — **decoding is repairing**;
* `LateBinding.Text.Utf8.Repaired.length_le`, `LateBinding.Text.Utf8.Repaired.ne_zero` — how long a
  repaired text is, and that no zero character comes into it.
-/

set_option autoImplicit false

namespace LateBinding.Text.Utf8

/-! ### Pieces -/

/-- A character begins with these bytes. -/
def Begins (p : List UInt8) : Prop := ∃ c, p <+: String.utf8EncodeChar c

/-- The ill-formed piece `p` at the front of `p ++ rest`: no character stands there, and of what
could have begun one it is the longest; a byte that begins none is a piece by itself. -/
structure IsPiece (p rest : List UInt8) : Prop where
  ne_nil : p ≠ []
  no_char : ∀ c, ¬String.utf8EncodeChar c <+: p ++ rest
  begins : 1 < p.length → Begins p
  longest : ∀ q, q <+: p ++ rest → Begins q → q <+: p

/-- `Repaired bs cs`: the characters `cs` are those of the bytes `bs`, with U+FFFD for each piece
that is none. -/
inductive Repaired : List UInt8 → List Char → Prop
  | nil : Repaired [] []
  | char {c : Char} {bs : List UInt8} {cs : List Char} (h : Repaired bs cs) :
      Repaired (String.utf8EncodeChar c ++ bs) (c :: cs)
  | piece {p bs : List UInt8} {cs : List Char} (hp : IsPiece p bs) (h : Repaired bs cs) :
      Repaired (p ++ bs) (replacement :: cs)

/-- The piece at the front of some bytes is determined by them. -/
theorem IsPiece.unique {p q rest rest' : List UInt8} (hp : IsPiece p rest) (hq : IsPiece q rest')
    (he : p ++ rest = q ++ rest') : p = q := by
  -- a longer one begins a character, so it is no longer than the longest that does
  have hle : ∀ {p q rest rest' : List UInt8}, IsPiece p rest → IsPiece q rest' →
      p ++ rest = q ++ rest' → q.length ≤ p.length := by
    intro p q rest rest' hp hq he
    by_cases hone : 1 < q.length
    · have hprefix : q <+: p ++ rest := he ▸ List.prefix_append q rest'
      exact (hp.longest q hprefix (hq.begins hone)).length_le
    · have hpos := List.length_pos_iff.2 hp.ne_nil
      omega
  exact (List.append_inj he (Nat.le_antisymm (hle hq hp he.symm) (hle hp hq he))).1

/-! ### Characters by their bytes -/

theorem toNat_char_ofNat {v : Nat} (hv : v < 0xD800 ∨ (0xDFFF < v ∧ v < 0x110000)) :
    (Char.ofNat v).val.toNat = v := by
  have hvalid : v.isValidChar := hv
  rw [Char.ofNat, dif_pos hvalid]
  rfl

/-- A byte with a given number. -/
theorem ofNat_eq_of_toNat {n : Nat} {b : UInt8} (h : b.toNat = n) : UInt8.ofNat n = b := by
  rw [← h, UInt8.ofNat_toNat]

section Bytes

variable {a b c d : UInt8}

/-- A byte that is a character by itself. -/
theorem utf8EncodeChar_of_opening {x : Char} (h : opening a = .char x) :
    String.utf8EncodeChar x = [a] := by
  have hx : a.toNat < 0x80 ∧ x = Char.ofNat a.toNat := by
    simp only [opening] at h
    split at h
    · next hlt => exact ⟨hlt, (Opening.char.inj h).symm⟩
    · repeat' split at h
      all_goals cases h
  obtain ⟨hlt, rfl⟩ := hx
  have hv : (Char.ofNat a.toNat).val.toNat = a.toNat := toNat_char_ofNat (by omega)
  simp only [String.utf8EncodeChar, hv]
  rw [if_pos (by omega), ofNat_eq_of_toNat rfl]

/-- Two bytes that are no overlong form are a character. -/
theorem utf8EncodeChar_two {v : Nat} (ha : v / 64 + 0xC0 = a.toNat) (hb : v % 64 + 0x80 = b.toNat)
    (hlow : 0x80 ≤ v) (hhigh : v < 0x800) : String.utf8EncodeChar (Char.ofNat v) = [a, b] := by
  have hv : (Char.ofNat v).val.toNat = v := toNat_char_ofNat (by omega)
  simp only [String.utf8EncodeChar, hv]
  rw [if_neg (by omega), if_pos (by omega), ofNat_eq_of_toNat (b := a) (by omega),
    ofNat_eq_of_toNat (b := b) (by omega)]

/-- Three bytes that are no overlong form and no surrogate are one. -/
theorem utf8EncodeChar_three {v : Nat} (ha : v / 4096 + 0xE0 = a.toNat)
    (hb : v / 64 % 64 + 0x80 = b.toNat) (hc : v % 64 + 0x80 = c.toNat) (hlow : 0x800 ≤ v)
    (hhigh : v < 0x10000) (hvalid : v < 0xD800 ∨ 0xDFFF < v) :
    String.utf8EncodeChar (Char.ofNat v) = [a, b, c] := by
  have hv : (Char.ofNat v).val.toNat = v := toNat_char_ofNat (by omega)
  simp only [String.utf8EncodeChar, hv]
  rw [if_neg (by omega), if_neg (by omega), if_pos (by omega),
    ofNat_eq_of_toNat (b := a) (by omega), ofNat_eq_of_toNat (b := b) (by omega),
    ofNat_eq_of_toNat (b := c) (by omega)]

/-- Four bytes that are no overlong form and not too large are one. -/
theorem utf8EncodeChar_four {v : Nat} (ha : v / 262144 + 0xF0 = a.toNat)
    (hb : v / 4096 % 64 + 0x80 = b.toNat) (hc : v / 64 % 64 + 0x80 = c.toNat)
    (hd : v % 64 + 0x80 = d.toNat) (hlow : 0x10000 ≤ v) (hhigh : v < 0x110000) :
    String.utf8EncodeChar (Char.ofNat v) = [a, b, c, d] := by
  have hv : (Char.ofNat v).val.toNat = v := toNat_char_ofNat (by omega)
  simp only [String.utf8EncodeChar, hv]
  rw [if_neg (by omega), if_neg (by omega), if_neg (by omega),
    ofNat_eq_of_toNat (b := a) (by omega), ofNat_eq_of_toNat (b := b) (by omega),
    ofNat_eq_of_toNat (b := c) (by omega), ofNat_eq_of_toNat (b := d) (by omega)]

end Bytes

/-! ### Sequences that are begun -/

/-- What the first byte of a sequence says: how many bytes follow, and between which bounds the next
one must lie, so that there is no overlong form, no surrogate and nothing too large. -/
inductive Lead (n : Nat) : Pending → Prop
  | two {v : Nat} (hv : v + 0xC0 = n) (hlow : 0xC2 ≤ n) (hhigh : n < 0xE0) :
      Lead n ⟨v, 0, 0x80, 0xBF⟩
  | three {v low high : Nat} (hv : v + 0xE0 = n) (hhigh : n < 0xF0)
      (hle : 0x80 ≤ low ∧ low ≤ high ∧ high ≤ 0xBF) (hover : n = 0xE0 → 0xA0 ≤ low)
      (hsurrogate : n = 0xED → high ≤ 0x9F) : Lead n ⟨v, 1, low, high⟩
  | four {v low high : Nat} (hv : v + 0xF0 = n) (hhigh : n < 0xF5)
      (hle : 0x80 ≤ low ∧ low ≤ high ∧ high ≤ 0xBF) (hover : n = 0xF0 → 0x90 ≤ low)
      (hlarge : n = 0xF4 → high ≤ 0x8F) : Lead n ⟨v, 2, low, high⟩

theorem lead_of_opening {b : UInt8} {p : Pending} (h : opening b = .sequence p) :
    Lead b.toNat p := by
  simp only [opening, beq_iff_eq] at h
  generalize b.toNat = n at h
  split at h
  · cases h
  split at h
  · cases h
  split at h
  · obtain rfl := Opening.sequence.inj h
    exact .two (by omega) (by omega) (by omega)
  split at h
  · obtain rfl := Opening.sequence.inj h
    exact .three (by omega) (by omega) (by omega) (by omega) (by omega)
  split at h
  · obtain rfl := Opening.sequence.inj h
    exact .three (by omega) (by omega) (by omega) (by omega) (by omega)
  split at h
  · obtain rfl := Opening.sequence.inj h
    exact .three (by omega) (by omega) (by omega) (by omega) (by omega)
  split at h
  · obtain rfl := Opening.sequence.inj h
    exact .four (by omega) (by omega) (by omega) (by omega) (by omega)
  split at h
  · obtain rfl := Opening.sequence.inj h
    exact .four (by omega) (by omega) (by omega) (by omega) (by omega)
  split at h
  · obtain rfl := Opening.sequence.inj h
    exact .four (by omega) (by omega) (by omega) (by omega) (by omega)
  · cases h

/-- `Taken w p`: the bytes `w` have begun a sequence, of which `p` is what is known and still
missing. -/
inductive Taken : List UInt8 → Pending → Prop
  | first {b : UInt8} {p : Pending} (h : opening b = .sequence p) : Taken [b] p
  | next {w : List UInt8} {p : Pending} {b : UInt8} {k : Nat} (h : Taken w p)
      (hb : p.low ≤ b.toNat ∧ b.toNat ≤ p.high) (hk : p.further = k + 1) :
      Taken (w ++ [b]) ⟨p.value * 64 + (b.toNat - 0x80), k, 0x80, 0xBF⟩

namespace Taken

variable {α : Type} {good : Char → α} {bad : α} {w : List UInt8} {p : Pending} {b : UInt8}

/-- Nothing has been emitted of it, and the decoder waits. -/
theorem emit_eq (h : Taken w p) : emit good bad none w = ([], some p) := by
  induction h with
  | first h => simp [emit, step_none_of_sequence h]
  | @next w p b k h hb hk ih =>
      rw [emit_append, ih]
      simp [emit, step, hb, hk]

theorem bounds (h : Taken w p) : 0x80 ≤ p.low ∧ p.low ≤ p.high ∧ p.high ≤ 0xBF := by
  cases h with
  | first h =>
      cases lead_of_opening h with
      | two => exact ⟨by simp, by simp, by simp⟩
      | three _ _ hle => exact hle
      | four _ _ hle => exact hle
  | next h hb hk => exact ⟨by simp, by simp, by simp⟩

theorem ne_nil (h : Taken w p) : w ≠ [] := by
  cases h <;> simp

/-- A sequence has four bytes at most, and one of them is still missing beyond those that follow. -/
theorem further_add_length_le (h : Taken w p) : p.further + w.length ≤ 3 := by
  induction h with
  | first h => cases lead_of_opening h <;> simp
  | next h hb hk ih =>
      rw [List.length_append, List.length_singleton]
      simp only at ih ⊢
      omega

/-- **The last byte completes a character**, and these are the bytes of that character. -/
theorem complete (h : Taken w p) (hb : p.low ≤ b.toNat ∧ b.toNat ≤ p.high) (hk : p.further = 0) :
    String.utf8EncodeChar (Char.ofNat (p.value * 64 + (b.toNat - 0x80))) = w ++ [b] := by
  -- by the number of bytes taken: one, two or three
  cases h with
  | @first a p h =>
      cases lead_of_opening h with
      | two hv hlow hhigh =>
          simp only at hb
          exact utf8EncodeChar_two (by simp only; omega) (by simp only; omega) (by simp only; omega)
            (by simp only; omega)
      | three => cases hk
      | four => cases hk
  | @next w p c k h hc hk' =>
      simp only at hb hk
      subst hk
      cases h with
      | @first a p h =>
          cases lead_of_opening h with
          | two => cases hk'
          | three hv hhigh hle hover hsurrogate =>
              simp only at hc
              exact utf8EncodeChar_three (by simp only; omega) (by simp only; omega)
                (by simp only; omega) (by simp only; omega) (by simp only; omega)
                (by simp only; omega)
          | four => cases hk'
      | @next w p d k h hd hk'' =>
          simp only at hc hk'
          subst hk'
          cases h with
          | @first a p h =>
              cases lead_of_opening h with
              | two => cases hk''
              | three => cases hk''
              | four hv hhigh hle hover hlarge =>
                  simp only at hd
                  exact utf8EncodeChar_four (by simp only; omega) (by simp only; omega)
                    (by simp only; omega) (by simp only; omega) (by simp only; omega)
                    (by simp only; omega)
          | next h he hk''' =>
              -- a fourth byte would have completed the sequence
              simp only at hk''
              have hlength := h.further_add_length_le
              have hpos := List.length_pos_iff.2 h.ne_nil
              omega

/-- **A sequence that is begun can be completed.** -/
theorem begins (h : Taken w p) : Begins w := by
  obtain ⟨value, further, low, high⟩ := p
  -- by the bytes that are missing, each the least that is allowed
  induction further generalizing w value low high with
  | zero =>
      have hle : 0x80 ≤ low ∧ low ≤ high ∧ high ≤ 0xBF := h.bounds
      have hb : (UInt8.ofNat low).toNat = low := toNat_ofNat_of_lt (by omega)
      have hallowed : low ≤ (UInt8.ofNat low).toNat ∧ (UInt8.ofNat low).toNat ≤ high := by omega
      exact ⟨_, _, (h.complete hallowed rfl).symm⟩
  | succ k ih =>
      have hle : 0x80 ≤ low ∧ low ≤ high ∧ high ≤ 0xBF := h.bounds
      have hb : (UInt8.ofNat low).toNat = low := toNat_ofNat_of_lt (by omega)
      have hallowed : low ≤ (UInt8.ofNat low).toNat ∧ (UInt8.ofNat low).toNat ≤ high := by omega
      obtain ⟨c, hc⟩ := ih _ _ _ (h.next hallowed rfl)
      exact ⟨c, (List.prefix_append w _).trans hc⟩

end Taken

/-- With no part of a character the decoder has emitted a replacement. -/
theorem emit_of_begins {q : List UInt8} (hne : q ≠ []) (h : Begins q) :
    emit some none none q = ([], (emit some none none q).2) ∨
      ∃ c, emit some none none q = ([some c], none) := by
  obtain ⟨c, hc⟩ := h
  rw [List.prefix_iff_eq_take] at hc
  by_cases hlen : q.length < (String.utf8EncodeChar c).length
  · have hwait :
        ∃ p, emit some none none ((String.utf8EncodeChar c).take q.length) = ([], some p) :=
      (emits_utf8EncodeChar c).emit_take (Or.inr (List.length_pos_iff.2 hne)) hlen
    obtain ⟨p, hp⟩ := hwait
    rw [hc, hp]
    exact Or.inl rfl
  · rw [List.take_of_length_le (by omega)] at hc
    rw [hc]
    exact Or.inr ⟨c, (emits_utf8EncodeChar c).emit_eq⟩

namespace Taken

variable {w : List UInt8} {p : Pending} {b : UInt8}

/-- **A byte that breaks a sequence off could not have gone on with it.** -/
theorem not_begins (h : Taken w p) (hb : ¬(p.low ≤ b.toNat ∧ b.toNat ≤ p.high)) :
    ¬Begins (w ++ [b]) := by
  intro hbegins
  have hemit : ∃ out q, emit some none none (w ++ [b]) = (none :: out, q) := by
    rw [emit_append, h.emit_eq]
    simp [emit, step, hb]
  obtain ⟨out, q, hemit⟩ := hemit
  rcases emit_of_begins (by simp) hbegins with he | ⟨c, he⟩
  · rw [hemit] at he
    cases he
  · rw [hemit] at he
    cases he

/-- No character stands in a sequence that is begun. -/
theorem not_char_prefix (h : Taken w p) (c : Char) : ¬String.utf8EncodeChar c <+: w := by
  rintro ⟨rest, hrest⟩
  have hemit : emit some none none w = ([], some p) := h.emit_eq
  rw [← hrest, emit_append, (emits_utf8EncodeChar c).emit_eq] at hemit
  cases hemit

end Taken

/-! ### The front of some bytes -/

/-- What begins a character goes no further than to a byte that breaks it off. -/
theorem prefix_of_begins {w rest q : List UInt8} (hrest : ∀ b ∈ rest.head?, ¬Begins (w ++ [b]))
    (hq : q <+: w ++ rest) (h : Begins q) : q <+: w := by
  rcases List.prefix_or_prefix_of_prefix hq (List.prefix_append w rest) with hle | ⟨t, rfl⟩
  · exact hle
  · rw [List.prefix_append_right_inj] at hq
    cases t with
    | nil => simp
    | cons b t =>
        obtain ⟨r, rfl⟩ := hq
        obtain ⟨c, hc⟩ := h
        have hbegins : w ++ [b] <+: w ++ b :: t := ⟨t, by simp⟩
        exact absurd ⟨c, hbegins.trans hc⟩ (hrest b rfl)

/-- A sequence that is broken off, or not completed, is a piece. -/
theorem Taken.isPiece {w rest : List UInt8} {p : Pending} (h : Taken w p)
    (hrest : ∀ b ∈ rest.head?, ¬(p.low ≤ b.toNat ∧ b.toNat ≤ p.high)) : IsPiece w rest := by
  have hlongest : ∀ q, q <+: w ++ rest → Begins q → q <+: w := fun q =>
    prefix_of_begins fun b hb => h.not_begins (hrest b hb)
  exact ⟨h.ne_nil, fun c hc => h.not_char_prefix c (hlongest _ hc ⟨c, List.prefix_refl _⟩),
    fun _ => h.begins, hlongest⟩

/-- So is a byte that begins nothing. -/
theorem isPiece_of_nothing {b : UInt8} {rest : List UInt8} (h : opening b = .nothing) :
    IsPiece [b] rest := by
  have hbegins : ¬Begins [b] := by
    intro hbegins
    have hemit : emit some none none [b] = ([none], none) := by simp [emit, step, start, h]
    rcases emit_of_begins (List.cons_ne_nil b []) hbegins with he | ⟨c, he⟩
    · rw [hemit] at he
      cases he
    · rw [hemit] at he
      cases he
  have hhead : ∀ c ∈ (b :: rest).head?, ¬Begins ([] ++ [c]) := fun c hc => by
    cases hc
    exact hbegins
  have hlongest : ∀ q, q <+: b :: rest → Begins q → q <+: [] := fun q => prefix_of_begins hhead
  refine ⟨List.cons_ne_nil b [], fun c hc => ?_, fun hone => ?_, fun q hq hq' => ?_⟩
  · exact String.utf8EncodeChar_ne_nil (List.prefix_nil.1 (hlongest _ hc ⟨c, List.prefix_refl _⟩))
  · simp at hone
  · exact (hlongest q hq hq').trans List.nil_prefix

theorem pieces_cons {α : Type} {good : Char → α} {bad : α} (p : Option Pending) (b : UInt8)
    (bs : List UInt8) : pieces good bad p (b :: bs) =
      (step good bad p b).1 ++ pieces good bad (step good bad p b).2 bs := by
  rw [← List.singleton_append, pieces_append]
  simp [emit]

/-- `Front bs cs`: at the front of `bs` stands a character or a piece, and `cs` is what it becomes
and what the rest decodes to. -/
inductive Front (bs : List UInt8) (cs : List Char) : Prop
  | char {c : Char} {rest : List UInt8} (hbs : bs = String.utf8EncodeChar c ++ rest)
      (hcs : cs = c :: decode rest)
  | piece {p rest : List UInt8} (hp : IsPiece p rest) (hbs : bs = p ++ rest)
      (hcs : cs = replacement :: decode rest)

/-- A sequence that is begun ends as a character, or as a piece. -/
theorem Taken.front {w : List UInt8} {p : Pending} (h : Taken w p) (bs : List UInt8) :
    Front (w ++ bs) (pieces id replacement (some p) bs) := by
  induction bs generalizing w p with
  | nil => exact .piece (h.isPiece fun b hb => by cases hb) rfl rfl
  | cons b bs ih =>
      by_cases hb : p.low ≤ b.toNat ∧ b.toNat ≤ p.high
      · rw [List.append_cons, pieces_cons]
        cases hk : p.further with
        | zero =>
            have hlast : step id replacement (some p) b =
                ([Char.ofNat (p.value * 64 + (b.toNat - 0x80))], none) := by
              simp [step, hb, hk]
            rw [hlast]
            exact .char (by rw [h.complete hb hk]) rfl
        | succ k =>
            have hnext : step id replacement (some p) b =
                ([], some ⟨p.value * 64 + (b.toNat - 0x80), k, 0x80, 0xBF⟩) := by
              simp [step, hb, hk]
            rw [hnext]
            exact ih (h.next hb hk)
      · have hrest : ∀ c ∈ (b :: bs).head?, ¬(p.low ≤ c.toNat ∧ c.toNat ≤ p.high) := fun c hc => by
          cases hc
          exact hb
        refine .piece (h.isPiece hrest) rfl ?_
        rw [pieces_cons, decode, pieces_cons]
        simp [step, hb]

/-- **At the front of bytes stands a character or a piece.** -/
theorem front_cons (b : UInt8) (bs : List UInt8) : Front (b :: bs) (decode (b :: bs)) := by
  rw [decode, pieces_cons, step, start]
  cases hb : opening b with
  | char c =>
      have hbytes : b :: bs = String.utf8EncodeChar c ++ bs := by
        rw [utf8EncodeChar_of_opening hb]
        rfl
      exact .char hbytes rfl
  | sequence p => exact (Taken.first hb).front bs
  | nothing => exact .piece (isPiece_of_nothing hb) rfl rfl

/-! ### Repaired texts -/

/-- **What is decoded is repaired.** -/
theorem repaired_decode (bs : List UInt8) : Repaired bs (decode bs) := by
  -- by the number of bytes: a character and a piece take at least one
  induction hn : bs.length using Nat.strongRecOn generalizing bs with
  | ind n ih =>
      cases bs with
      | nil => exact .nil
      | cons b bs =>
          cases front_cons b bs with
          | @char c rest hbs hcs =>
              have hlen : rest.length < n := by
                have hpos := List.length_pos_iff.2 (String.utf8EncodeChar_ne_nil (c := c))
                rw [← hn, hbs, List.length_append]
                omega
              rw [hcs, hbs]
              exact .char (ih _ hlen rest rfl)
          | @piece p rest hp hbs hcs =>
              have hlen : rest.length < n := by
                have hpos := List.length_pos_iff.2 hp.ne_nil
                rw [← hn, hbs, List.length_append]
                omega
              rw [hcs, hbs]
              exact .piece hp (ih _ hlen rest rfl)

/-- The bytes of a character decode to it. -/
theorem decode_char_append (c : Char) (bs : List UInt8) :
    decode (String.utf8EncodeChar c ++ bs) = c :: decode bs := by
  rw [decode, pieces_append, (emits_utf8EncodeChar c).emit_eq]
  rfl

/-- A piece decodes to U+FFFD. -/
theorem IsPiece.decode_append {p rest : List UInt8} (hp : IsPiece p rest) :
    decode (p ++ rest) = replacement :: decode rest := by
  obtain ⟨b, t, rfl⟩ := List.exists_cons_of_ne_nil hp.ne_nil
  cases front_cons b (t ++ rest) with
  | @char c rest' hbs hcs => exact absurd ⟨rest', hbs.symm⟩ (hp.no_char c)
  | @piece q rest' hq hbs hcs =>
      rw [← List.cons_append] at hbs
      obtain rfl := hp.unique hq hbs
      rw [List.cons_append, hcs, List.append_cancel_left hbs]

/-- **Decoding is repairing**: the characters that stand in some bytes, and U+FFFD for each
piece. -/
theorem decode_eq_iff {bs : List UInt8} {cs : List Char} : decode bs = cs ↔ Repaired bs cs := by
  constructor
  · rintro rfl
    exact repaired_decode bs
  · intro h
    induction h with
    | nil => rfl
    | char h ih => rw [decode_char_append, ih]
    | piece hp h ih => rw [hp.decode_append, ih]

namespace Repaired

variable {bs : List UInt8} {cs : List Char}

/-- **A repaired text has three bytes at most for each byte.** -/
theorem length_le (h : Repaired bs cs) : (encode cs).length ≤ 3 * bs.length := by
  induction h with
  | nil => exact Nat.zero_le _
  | char h ih =>
      rw [encode_cons, List.length_append, List.length_append]
      omega
  | @piece p bs cs hp h ih =>
      have hpos := List.length_pos_iff.2 hp.ne_nil
      have hthree : (String.utf8EncodeChar replacement).length = 3 := by decide
      rw [encode_cons, List.length_append, List.length_append, hthree]
      omega

/-- **A zero character is a zero byte.** -/
theorem ne_zero (h : Repaired bs cs) (h0 : 0 ∉ bs) : ∀ c ∈ cs, c ≠ '\x00' := by
  induction h with
  | nil => exact nofun
  | @char c bs cs h ih =>
      rw [List.mem_append, not_or] at h0
      intro d hd
      rcases List.mem_cons.1 hd with rfl | hd
      · rintro rfl
        exact h0.1 (by decide)
      · exact ih h0.2 d hd
  | piece hp h ih =>
      rw [List.mem_append, not_or] at h0
      intro d hd
      rcases List.mem_cons.1 hd with rfl | hd
      · decide
      · exact ih h0.2 d hd

/-- Nothing is repaired to nothing only. -/
theorem eq_nil_iff (h : Repaired bs cs) : cs = [] ↔ bs = [] := by
  cases h with
  | nil => simp
  | char h => simp [String.utf8EncodeChar_ne_nil]
  | piece hp h => simp [hp.ne_nil]

end Repaired

end LateBinding.Text.Utf8
