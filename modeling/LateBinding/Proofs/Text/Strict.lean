import LateBinding.Proofs.Text.Repair

/-!
**Strictly read, bytes are a text only if they are its bytes.**

The strict reader gives a text for the bytes of that text and for no others: where it emits a
character it has taken the bytes of that character, and where it emits anything else the bytes are
no text.

Main results:

* `LateBinding.Text.Utf8.decode?_eq_some_iff`, `LateBinding.Text.Utf8.toText?_eq_some_iff` — **which
  bytes are a text, and which text that is**.
-/

set_option autoImplicit false

namespace LateBinding

/-- A function that inverts another one where it gives a result, applied to a list. -/
theorem mapM_eq_some_iff_eq_map {α β : Type} {f : α → Option β} {g : β → α}
    (h : ∀ a b, f a = some b ↔ a = g b) {as : List α} {bs : List β} :
    as.mapM f = some bs ↔ as = bs.map g := by
  induction as generalizing bs with
  | nil => cases bs <;> simp
  | cons a as ih =>
      have hcons : (a :: as).mapM f = some bs ↔
          ∃ b, f a = some b ∧ ∃ rest, as.mapM f = some rest ∧ b :: rest = bs := by
        simp [List.mapM_cons, Option.bind_eq_some_iff]
      rw [hcons]
      simp only [h, ih]
      constructor
      · rintro ⟨b, rfl, rest, rfl, rfl⟩
        rfl
      · intro he
        obtain ⟨b, rest, rfl, hb, hrest⟩ := List.map_eq_cons_iff.1 he.symm
        exact ⟨b, hb.symm, rest, hrest.symm, rfl⟩

namespace Text.Utf8

variable {w bs : List UInt8} {p : Option Pending} {cs : List Char}

/-- `Held w p`: the decoder stands at `p`, and holds the bytes `w` of a sequence that is begun. -/
inductive Held : List UInt8 → Option Pending → Prop
  | boundary : Held [] none
  | taken {w : List UInt8} {p : Pending} (h : Taken w p) : Held w (some p)

/-- **Where only characters are emitted, the bytes are those of the characters.** -/
theorem Held.eq_encode (h : Held w p) (hs : pieces some none p bs = cs.map some) :
    w ++ bs = encode cs := by
  -- along the bytes: each one begins a sequence, goes on with it or completes it
  induction bs generalizing w p cs with
  | nil =>
      cases h with
      | boundary =>
          obtain rfl : cs = [] := List.map_eq_nil_iff.1 hs.symm
          rfl
      | taken h =>
          obtain ⟨c, rest, -, hc, -⟩ := List.map_eq_cons_iff.1 hs.symm
          cases hc
  | cons b bs ih =>
      rw [pieces_cons] at hs
      cases h with
      | boundary =>
          cases hb : opening b with
          | char c =>
              simp only [step, start, hb] at hs
              obtain ⟨d, rest, rfl, hd, hrest⟩ := List.map_eq_cons_iff.1 hs.symm
              obtain rfl := Option.some.inj hd
              have hbs : bs = encode rest := ih .boundary hrest.symm
              rw [encode_cons, utf8EncodeChar_of_opening hb, hbs]
              rfl
          | sequence q =>
              simp only [step, start, hb] at hs
              exact ih (.taken (.first hb)) hs
          | nothing =>
              simp only [step, start, hb] at hs
              obtain ⟨d, rest, -, hd, -⟩ := List.map_eq_cons_iff.1 hs.symm
              cases hd
      | @taken w q h =>
          by_cases hb : q.low ≤ b.toNat ∧ b.toNat ≤ q.high
          · rw [List.append_cons]
            cases hk : q.further with
            | zero =>
                have hlast : step some none (some q) b =
                    ([some (Char.ofNat (q.value * 64 + (b.toNat - 0x80)))], none) := by
                  simp [step, hb, hk]
                rw [hlast, List.singleton_append] at hs
                obtain ⟨d, rest, rfl, hd, hrest⟩ := List.map_eq_cons_iff.1 hs.symm
                have hbs : bs = encode rest := ih .boundary hrest.symm
                rw [encode_cons, Option.some.inj hd, h.complete hb hk, hbs]
            | succ k =>
                have hnext : step some none (some q) b =
                    ([], some ⟨q.value * 64 + (b.toNat - 0x80), k, 0x80, 0xBF⟩) := by
                  simp [step, hb, hk]
                rw [hnext] at hs
                exact ih (.taken (h.next hb hk)) hs
          · have hnone : (step some none (some q) b).1 = none :: (start some none b).1 := by
              simp [step, hb]
            rw [hnone] at hs
            obtain ⟨d, rest, -, hd, -⟩ := List.map_eq_cons_iff.1 hs.symm
            cases hd

/-- **The strict reader reads the bytes of a text, and no others.** -/
theorem decode?_eq_some_iff : decode? bs = some cs ↔ bs = encode cs := by
  have hpieces : decode? bs = some cs ↔ pieces some none none bs = cs.map some :=
    mapM_eq_some_iff_eq_map fun _ _ => Iff.rfl
  rw [hpieces]
  constructor
  · intro hs
    exact Held.boundary.eq_encode hs
  · rintro rfl
    rw [pieces_eq_emit, emit_encode]
    exact List.append_nil _

/-- **Bytes are read as a text exactly if they are its bytes.** -/
theorem toText?_eq_some_iff {s : String} : toText? bs = some s ↔ bs = bytes s := by
  rw [toText?, Option.map_eq_some_iff, bytes]
  constructor
  · rintro ⟨cs, hcs, rfl⟩
    rw [String.toList_ofList]
    exact decode?_eq_some_iff.1 hcs
  · intro hbs
    exact ⟨s.toList, decode?_eq_some_iff.2 hbs, String.ofList_toList⟩

end Text.Utf8

end LateBinding
