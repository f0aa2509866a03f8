import LateBinding.Pin
import LateBinding.Proofs.Bytes.Base64

/-!
**A digest has one pin.**

A pin is `sha256/`, then the bits of the digest in 43 characters of six bits, the last two bits
being zero, then one padding character. No other text is read, and one that is not read is handed
back as it is: neither another spelling of the scheme, nor white space, another alphabet, other
padding, unused bits that are set, or a digest of another size.

Main definitions:

* `LateBinding.Pin.Pins` — **what a text pins**, bit by bit;
* `LateBinding.Pin.IsPin` — the form of a pin.

Main results:

* `LateBinding.Pin.digest?_eq_some_iff` — a digest is read from its own pin only;
* `LateBinding.Pin.eq_render_iff` — its pin is the text with its bits;
* `LateBinding.Pin.exists_parse_eq_ok_iff` — the texts that are read are those of the form of a pin;
* `LateBinding.Pin.pins_are_canonical` — all of it together.
-/

set_option autoImplicit false

namespace LateBinding.Pin

open Base64 (Spells alphabet value pad)

variable {t u : String} {digest : List UInt8}

/-- A text pins a digest: between the scheme and one padding character it has the digest's bits. -/
def Pins (t : String) (digest : List UInt8) : Prop :=
  ∃ cs, t.toList = "sha256/".toList ++ cs ++ ['='] ∧ Spells cs digest

/-- The form of a pin: between the scheme and one padding character stand 43 characters of the
alphabet, and of the last one two bits are unused and zero. -/
def IsPin (t : String) : Prop :=
  ∃ cs last, t.toList = "sha256/".toList ++ (cs ++ [last]) ++ ['='] ∧ cs.length = 42 ∧
    (∀ c ∈ cs, c ∈ alphabet) ∧ last ∈ alphabet ∧ value last % 4 = 0

/-! ### Reading -/

/-- **A digest is read from its own pin only.** -/
theorem digest?_eq_some_iff :
    digest? t = some digest ↔ digest.length = digestSize ∧ t = render digest := by
  have hrender : t = render digest ↔ t.toList = scheme ++ Base64.encode digest := by
    rw [render, ← String.toList_inj, String.toList_ofList]
  rw [hrender, digest?]
  constructor
  · intro h
    split at h
    · next hscheme =>
        rw [List.isPrefixOf_iff_prefix] at hscheme
        obtain ⟨rest, hrest⟩ := hscheme
        rw [← hrest, List.drop_left] at h
        split at h
        · next bs hbs =>
            split at h
            · next hsize =>
                obtain rfl := Option.some.inj h
                rw [Base64.decode?_eq_some_iff] at hbs
                exact ⟨hsize, by rw [← hrest, hbs]⟩
            · cases h
        · cases h
    · cases h
  · rintro ⟨hsize, ht⟩
    have hscheme : scheme.isPrefixOf t.toList = true := by
      rw [List.isPrefixOf_iff_prefix, ht]
      exact List.prefix_append _ _
    have hbs : Base64.decode? (t.toList.drop scheme.length) = some digest := by
      rw [ht, List.drop_left, Base64.decode?_eq_some_iff]
    rw [if_pos hscheme, hbs]
    exact if_pos hsize

theorem parse_eq_ok_iff :
    parse t = .ok digest ↔ digest.length = digestSize ∧ t = render digest := by
  rw [← digest?_eq_some_iff, parse]
  cases digest? t <;> simp

/-- A text that is not read is handed back. -/
theorem parse_eq_error (h : ∀ digest, parse t ≠ .ok digest) : parse t = .error (.invalidPin t) := by
  rw [parse]
  cases hdigest : digest? t with
  | some digest => exact absurd (by rw [parse, hdigest]) (h digest)
  | none => rfl

/-! ### The form of a pin -/

/-- **The pin of a digest is the text with its bits.** -/
theorem eq_render_iff (hsize : digest.length = digestSize) : t = render digest ↔ Pins t digest := by
  obtain ⟨cs, hencode, hspells⟩ := Base64.exists_spells digest
  have hrender : (render digest).toList = "sha256/".toList ++ cs ++ ['='] := by
    rw [render, String.toList_ofList, hencode, hsize, List.append_assoc]
    rfl
  constructor
  · rintro rfl
    exact ⟨cs, hrender, hspells⟩
  · rintro ⟨cs', ht, hspells'⟩
    rw [← String.toList_inj, ht, hrender, hspells'.unique hspells]

/-- **The texts that are read are those of the form of a pin.** -/
theorem exists_parse_eq_ok_iff : (∃ digest, parse t = .ok digest) ↔ IsPin t := by
  simp only [parse_eq_ok_iff]
  constructor
  · rintro ⟨digest, hsize, ht⟩
    obtain ⟨cs, ht, hspells⟩ := (eq_render_iff hsize).1 ht
    obtain ⟨unused, hunused, hlen⟩ := hspells.length_eq
    rw [hsize, digestSize] at hlen
    have hne : cs ≠ [] := by
      rintro rfl
      rw [List.length_nil] at hlen
      omega
    obtain ⟨front, last, rfl⟩ : ∃ front last, cs = front ++ [last] :=
      ⟨_, _, (List.dropLast_concat_getLast hne).symm⟩
    rw [List.length_append, List.length_singleton] at hlen
    have hfront : front.length = 42 := by omega
    refine ⟨front, last, ht, hfront, fun c hc => ?_, ?_, ?_⟩
    · exact hspells.mem_alphabet c (List.mem_append_left _ hc)
    · exact hspells.mem_alphabet last List.mem_concat_self
    · exact hspells.value_mod_four (by rw [hfront, hsize, digestSize])
  · rintro ⟨cs, last, ht, hlen, hcs, hlast, hzero⟩
    obtain ⟨digest, hgroups, hsize⟩ :=
      Base64.exists_groups_of_padded hcs (by rw [hlen]) hlast hzero
    rw [hlen] at hsize
    refine ⟨digest, Nat.eq_of_mul_eq_mul_left (by decide) hsize, ?_⟩
    rw [render, ← String.toList_inj, String.toList_ofList, ← hgroups.eq_encode, ht]
    simp [scheme, pad]

/-- **A digest has one pin.** -/
theorem pins_are_canonical :
    (∀ digest, digest.length = digestSize → parse (render digest) = .ok digest) ∧
      (∀ t digest, parse t = .ok digest ↔ digest.length = digestSize ∧ t = render digest) ∧
      (∀ t digest, digest.length = digestSize → (t = render digest ↔ Pins t digest)) ∧
      (∀ t, (∃ digest, parse t = .ok digest) ↔ IsPin t) ∧
      (∀ t, ¬IsPin t → parse t = .error (.invalidPin t)) ∧
      ∀ t u digest, parse t = .ok digest → parse u = .ok digest → t = u := by
  refine ⟨fun digest hsize => parse_eq_ok_iff.2 ⟨hsize, rfl⟩, fun t digest => parse_eq_ok_iff,
    fun t digest => eq_render_iff, fun t => exists_parse_eq_ok_iff, fun t hpin => ?_, ?_⟩
  · exact parse_eq_error fun digest h => hpin (exists_parse_eq_ok_iff.1 ⟨digest, h⟩)
  · intro t u digest ht hu
    rw [(parse_eq_ok_iff.1 ht).2, (parse_eq_ok_iff.1 hu).2]

/-- The pin of 32 bytes of seven; the same text with an unused bit set is none. -/
theorem pin_of_sevens :
    let digest : List UInt8 := List.replicate 32 7
    let pin := "sha256/BwcHBwcHBwcHBwcHBwcHBwcHBwcHBwcHBwcHBwcHBwc="
    let other := "sha256/BwcHBwcHBwcHBwcHBwcHBwcHBwcHBwcHBwcHBwcHBwd="
    digest.length = digestSize ∧ parse pin = .ok digest ∧ pin = render digest ∧ Pins pin digest ∧
      IsPin pin ∧ ¬IsPin other ∧ parse other = .error (.invalidPin other) := by
  intro digest pin other
  obtain ⟨hrender, hparse, hpins, hform, herror, hunique⟩ := pins_are_canonical
  have hsize : digest.length = digestSize := by decide
  have hok : parse pin = .ok digest := by
    rw [parse, show digest? pin = some digest by decide +kernel]
  have hpin : pin = render digest := hunique pin (render digest) digest hok (hrender digest hsize)
  have hother : ¬IsPin other := by
    rw [← hform, parse, show digest? other = none by decide +kernel]
    rintro ⟨d, hd⟩
    cases hd
  exact ⟨hsize, hok, hpin, (hpins pin digest hsize).1 hpin, (hform pin).1 ⟨digest, hok⟩, hother,
    herror other hother⟩

end LateBinding.Pin
