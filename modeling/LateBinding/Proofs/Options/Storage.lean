import LateBinding.Options
import LateBinding.Proofs.Json.RoundTrip
import LateBinding.Proofs.Native.CString

/-!
**An object that was stored reads back, or not at all.**

The text of an object goes out as a C string, is kept by the library, and is read again with a cap
on its bytes and a limit to its depth. An object that stays within both comes back as it was. Any
other does not read: too deep a text is refused, and a text that the cap cuts off is no object, be
it cut between characters or inside one.

Main definitions:

* `LateBinding.Options.IsCutOff` — what a cut leaves of the text of an object;
* `LateBinding.Options.Fits` — the text of an object is short and shallow enough to be read;
* `LateBinding.Options.stored` — what a library keeps of an object;
* `LateBinding.Options.applyAll` — edits made one after the other.

Main results:

* `LateBinding.Options.read_cut`, `LateBinding.Options.isCutOff_readCString` — **a text that is cut
  off is malformed**, and the cap cuts off what is longer;
* `LateBinding.Options.parse?_stored`, `LateBinding.Options.read_stored` — **an object that was
  stored reads back exactly if it fits**;
* `LateBinding.Options.get?_applyAll` — what edits do to the map from keys to values.
-/

set_option autoImplicit false

namespace LateBinding.Options

open Json (Members maxDepth)
open Native (CString readCString maxTextLength)
open Text.Utf8 (encode replacement)

variable {m : Members}

/-! ### Blank ends -/

/-- Where a text does not begin with a blank, only its end is trimmed. -/
theorem trimBlank_cons {c : Char} (hc : Text.isBlank c = false) (s : List Char) :
    ∃ t b, s = t ++ b ∧ (∀ x ∈ b, Text.isBlank x = true) ∧ Text.trimBlank (c :: s) = c :: t := by
  refine ⟨(s.reverse.dropWhile Text.isBlank).reverse, (s.reverse.takeWhile Text.isBlank).reverse,
    ?_, fun x hx => ?_, ?_⟩
  · rw [← List.reverse_append, List.takeWhile_append_dropWhile, List.reverse_reverse]
  · exact List.all_eq_true.1 List.all_takeWhile x (List.mem_reverse.1 hx)
  · rw [Text.trimBlank, List.dropWhile_cons_of_neg (by simp [hc]), List.reverse_cons,
      List.dropWhile_append]
    split
    · next hnil =>
        rw [List.dropWhile_cons_of_neg (by simp [hc]), List.isEmpty_iff.1 hnil]
        rfl
    · rw [List.reverse_append]
      rfl

/-- A text that ends with no blank has none at its end. -/
theorem trimBlank_of_concat {c d : Char} {s : List Char} (hc : Text.isBlank c = false)
    (hd : Text.isBlank d = false) : Text.trimBlank (c :: (s ++ [d])) = c :: (s ++ [d]) := by
  obtain ⟨t, b, hs, hb, htrim⟩ := trimBlank_cons hc (s ++ [d])
  rcases List.eq_nil_or_concat b with rfl | ⟨b', x, rfl⟩
  · rw [htrim, hs, List.append_nil]
  · -- the last of the blanks would be the last character
    rw [List.concat_eq_append, ← List.append_assoc] at hs
    obtain ⟨-, hx⟩ := List.append_inj' hs rfl
    obtain rfl : d = x := by simpa using hx
    rw [hb d (by simp)] at hd
    cases hd

/-- Blanks before a text are trimmed. -/
theorem trimBlank_replicate_append (n : Nat) (s : List Char) :
    Text.trimBlank (List.replicate n ' ' ++ s) = Text.trimBlank s := by
  have hblank : ∀ c ∈ List.replicate n ' ', Text.isBlank c = true := by
    intro c hc
    rw [List.eq_of_mem_replicate hc]
    decide
  rw [Text.trimBlank, List.dropWhile_append_of_pos hblank]
  rfl

/-! ### The text of an object -/

/-- The text of an object stands between braces. -/
theorem exists_renderChars (m : Members) :
    ∃ s, (Json.object m).renderChars = '\x7b' :: (s ++ ['\x7d']) := by
  rw [Json.renderChars_object]
  cases m with
  | nil => exact ⟨[], rfl⟩
  | cons p rest => exact ⟨_, rfl⟩

/-- **The whole text of an object reads exactly if it is not too deep**, and then nothing is left
over. -/
theorem readValue_object (hm : (Json.object m).IsExact) :
    Json.readValue maxDepth (Json.object m).renderChars =
      if (Json.object m).nesting ≤ maxDepth then some (.object m, []) else none := by
  have hread := Json.readValue_renderChars hm maxDepth (t := []) (by simp [Json.Terminated])
  rwa [List.append_nil] at hread

theorem parseChars?_object (hm : (Json.object m).IsExact) :
    Json.parseChars? (Json.object m).renderChars =
      if (Json.object m).nesting ≤ maxDepth then some (.object m) else none := by
  have hsolid : Json.IsSolid (Json.object m).renderChars := by
    obtain ⟨s, hs⟩ := exists_renderChars m
    rw [hs]
    intro c hc
    cases hc
    decide
  rw [Json.parseChars?, hsolid.skipSpace, readValue_object hm]
  split <;> rfl

theorem rest_eq_nil_of_object (hm : (Json.object m).IsExact) {v : Json} {rest : List Char}
    (h : Json.readValue maxDepth (Json.object m).renderChars = some (v, rest)) : rest = [] := by
  rw [readValue_object hm] at h
  obtain ⟨-, he⟩ := Option.ite_none_right_eq_some.1 h
  cases he
  rfl

/-- A text that reads as an object holds its members. -/
theorem read_of_object {x : String} {c : Char} {t : List Char}
    (htrim : Text.trimBlank x.toList = c :: t)
    (hparse : Json.parseChars? (c :: t) = some (.object m)) : read x = .ok m := by
  rw [read, htrim]
  simp only [hparse]

/-- A text that does not read is malformed. -/
theorem read_of_none {x : String} {c : Char} {t : List Char}
    (htrim : Text.trimBlank x.toList = c :: t) (hparse : Json.parseChars? (c :: t) = none) :
    read x = .error .malformed := by
  rw [read, htrim]
  simp only [hparse]

/-! ### Texts that are cut off -/

/-- What a cut leaves of the text of an object: a proper part of it from its front, with the opening
brace, be it as it is or with a U+FFFD at the cut. -/
def IsCutOff (x y : List Char) : Prop :=
  ∃ before after cut, x = '\x7b' :: before ++ after ∧ after ≠ [] ∧
    (cut = [] ∨ cut = [replacement]) ∧ y = '\x7b' :: before ++ cut

section Cut

variable {x : List Char} (hwhole : ∀ v rest, Json.readValue maxDepth x = some (v, rest) → rest = [])

include hwhole

/-- **It does not read**, if nothing is left over where the whole text reads. -/
theorem parseChars?_cut {y : List Char} (h : IsCutOff x y) : Json.parseChars? y = none := by
  obtain ⟨before, after, cut, rfl, hafter, hcut, rfl⟩ := h
  refine Json.parseChars?_eq_none_of_cut hafter (fun c hc => ?_) hwhole
  rcases hcut with rfl | rfl
  · cases hc
  · obtain rfl := List.mem_singleton.1 hc
    decide

/-- **So it is malformed**, also after blanks at the cut are trimmed. -/
theorem read_cut {y : String} (h : IsCutOff x y.toList) : read y = .error .malformed := by
  have hparse := parseChars?_cut hwhole h
  obtain ⟨before, after, cut, hx, hafter, hcut, hy⟩ := h
  rw [hy] at hparse
  rcases hcut with rfl | rfl
  · -- what trimming takes away at the cut is one more part of the text that is lost
    obtain ⟨t, b, rfl, -, htrim⟩ := trimBlank_cons (c := '\x7b') (by decide) before
    rw [List.append_nil] at hy
    rw [← hy] at htrim
    refine read_of_none htrim (parseChars?_cut hwhole ⟨t, b ++ after, [], ?_, ?_, Or.inl rfl, ?_⟩)
    · rw [hx]
      simp
    · simp [hafter]
    · rw [List.append_nil]
  · have htrim : Text.trimBlank ('\x7b' :: (before ++ [replacement])) =
        '\x7b' :: (before ++ [replacement]) := trimBlank_of_concat (by decide) (by decide)
    rw [← List.cons_append, ← hy] at htrim
    exact read_of_none (htrim.trans hy) hparse

end Cut

/-- **The cap cuts off the text of an object that is longer.** -/
theorem isCutOff_readCString {t : List Char} (h0 : ∀ c ∈ '\x7b' :: t, c ≠ '\x00')
    (hlen : maxTextLength < (encode ('\x7b' :: t)).length) (rest : List UInt8) :
    IsCutOff ('\x7b' :: t) (readCString (some (encode ('\x7b' :: t) ++ 0 :: rest))).toList := by
  obtain ⟨before, c, after, hs, hlow, hhigh, hread⟩ := Native.exists_readCString_append h0 hlen rest
  -- the opening brace is one byte, so the cut does not fall before it
  cases before with
  | nil =>
      obtain ⟨rfl, -⟩ := List.cons.inj hs
      exact absurd hhigh (by decide)
  | cons x before =>
      obtain ⟨rfl, -⟩ := List.cons.inj hs
      refine ⟨before, c :: after, _, hs, List.cons_ne_nil _ _, ?_, hread⟩
      split
      · exact Or.inl rfl
      · exact Or.inr rfl

/-! ### What is stored -/

/-- The text of an object is short and shallow enough to be read. -/
def Fits (m : Members) : Prop :=
  (Json.object m).nesting ≤ maxDepth ∧ (encode (Json.object m).renderChars).length ≤ maxTextLength

instance (m : Members) : Decidable (Fits m) := inferInstanceAs (Decidable (_ ∧ _))

/-- What a library keeps of the text of an object. -/
def stored (m : Members) : List UInt8 := (CString.ofText (Json.object m).render).kept

/-- What is read of a stored object is its whole text, or a part that the cap leaves of it. -/
theorem readCString_stored (hm : (Json.object m).IsExact) :
    ((encode (Json.object m).renderChars).length ≤ maxTextLength ∧
      readCString (some (stored m)) = (Json.object m).render) ∨
    (maxTextLength < (encode (Json.object m).renderChars).length ∧
      IsCutOff (Json.object m).renderChars (readCString (some (stored m))).toList) := by
  have htext : (Json.object m).render.toList = (Json.object m).renderChars := String.toList_ofList
  have h0 : ∀ c ∈ (Json.object m).render.toList, c ≠ '\x00' := fun c hc =>
    (Json.isPrinted_render hm c hc).ne_zero
  by_cases hlen : (encode (Json.object m).renderChars).length ≤ maxTextLength
  · refine Or.inl ⟨hlen, ?_⟩
    rw [stored, Native.readCString_kept h0 (by rwa [htext])]
  · obtain ⟨text, hbrace⟩ := exists_renderChars m
    refine Or.inr ⟨Nat.lt_of_not_le hlen, ?_⟩
    rw [htext] at h0
    rw [stored, Native.kept_ofText (by rwa [htext]), htext, hbrace]
    rw [hbrace] at h0 hlen
    exact isCutOff_readCString h0 (Nat.lt_of_not_le hlen) []

/-- **A stored object reads back exactly if it fits.** -/
theorem parse?_stored (hm : (Json.object m).IsExact) :
    Json.parse? (readCString (some (stored m))) = if Fits m then some (.object m) else none := by
  rw [Json.parse?]
  rcases readCString_stored hm with ⟨hlen, htext⟩ | ⟨hlen, hcut⟩
  · rw [htext, Json.render, String.toList_ofList, parseChars?_object hm]
    simp [Fits, hlen]
  · rw [parseChars?_cut (fun _ _ => rest_eq_nil_of_object hm) hcut, if_neg fun hf : Fits m =>
      Nat.not_le_of_lt hlen hf.2]

/-- What is read of any text is ordered. -/
theorem isOrdered_of_read {x : String} (h : read x = .ok m) : (Json.object m).IsOrdered := by
  rw [read.eq_def] at h
  split at h
  · cases h
    exact Json.IsExact.empty.1
  · next c s _ =>
      cases hparse : Json.parseChars? (c :: s) with
      | none => simp only [hparse] at h; cases h
      | some v =>
          have hv := Json.parseChars?_isOrdered hparse
          cases v with
          | object members => simp only [hparse] at h; cases h; exact hv
          | _ => simp only [hparse] at h; cases h

/-- **The whole text of an object reads exactly if it is not too deep.** -/
theorem read_render (hm : (Json.object m).IsExact) :
    read (Json.object m).render =
      if (Json.object m).nesting ≤ maxDepth then .ok m else .error .malformed := by
  obtain ⟨s, hbrace⟩ := exists_renderChars m
  have htrim : Text.trimBlank (Json.object m).render.toList = '\x7b' :: (s ++ ['\x7d']) := by
    rw [Json.render, String.toList_ofList, hbrace, trimBlank_of_concat (by decide) (by decide)]
  have hparse := parseChars?_object hm
  rw [hbrace] at hparse
  by_cases hdeep : (Json.object m).nesting ≤ maxDepth
  · rw [if_pos hdeep] at hparse ⊢
    exact read_of_object htrim hparse
  · rw [if_neg hdeep] at hparse ⊢
    exact read_of_none htrim hparse

/-- **What is read of it after it was stored** is all of it or, if it does not fit, malformed. -/
theorem read_stored (hm : (Json.object m).IsExact) :
    read (readCString (some (stored m))) = if Fits m then .ok m else .error .malformed := by
  rcases readCString_stored hm with ⟨hlen, htext⟩ | ⟨hlen, hcut⟩
  · rw [htext, read_render hm]
    simp [Fits, hlen]
  · rw [read_cut (fun _ _ => rest_eq_nil_of_object hm) hcut, if_neg fun hf : Fits m =>
      Nat.not_le_of_lt hlen hf.2]

/-- A text behind as many blanks as fill the cap. -/
def behindBlanks (s : List Char) : String := String.ofList (List.replicate maxTextLength ' ' ++ s)

/-- The blanks do not matter to who has the whole text. -/
theorem read_behindBlanks_eq (s : List Char) : read (behindBlanks s) = read (String.ofList s) := by
  rw [read, behindBlanks, String.toList_ofList, trimBlank_replicate_append, read,
    String.toList_ofList]

/-- **They hide it from whoever reads no more than the cap allows**: what was stored reads as the
empty object. -/
theorem read_behindBlanks (s : List Char) :
    read (readCString (some (CString.ofText (behindBlanks s)).kept)) = .ok [] := by
  have hlength : (encode (List.replicate maxTextLength ' ')).length = maxTextLength := by
    rw [Text.Utf8.length_encode_replicate]
    rfl
  have h0 : ∀ c ∈ List.replicate maxTextLength ' ', c ≠ '\x00' := by
    intro c hc
    rw [List.eq_of_mem_replicate hc]
    decide
  have htrim := trimBlank_replicate_append maxTextLength []
  rw [List.append_nil] at htrim
  rw [behindBlanks, Native.readCString_kept_append h0 hlength, read, String.toList_ofList, htrim]
  rfl

/-! ### Edits -/

/-- Edits made one after the other. -/
def applyAll (es : List (String × Option Json)) (m : Members) : Members :=
  es.foldl (fun m e => apply e.1 e.2 m) m

theorem applyAll_cons (e : String × Option Json) (es : List (String × Option Json)) (m : Members) :
    applyAll (e :: es) m = applyAll es (apply e.1 e.2 m) := rfl

/-- An edit keeps an object exact. -/
theorem isExact_apply {key : String} {value : Option Json} (hm : (Json.object m).IsExact)
    (hv : ∀ v ∈ value, v.IsExact) : (Json.object (apply key value m)).IsExact := by
  cases value with
  | none => exact hm.remove
  | some v => exact hm.put (hv v rfl)

theorem isExact_applyAll {es : List (String × Option Json)} (hm : (Json.object m).IsExact)
    (hv : ∀ e ∈ es, ∀ v ∈ e.2, v.IsExact) : (Json.object (applyAll es m)).IsExact := by
  induction es generalizing m with
  | nil => exact hm
  | cons e es ih =>
      exact ih (isExact_apply hm (hv e List.mem_cons_self))
        fun e he => hv e (List.mem_cons_of_mem _ he)

theorem get?_apply {key k : String} {value : Option Json} (hm : m.IsAscending) :
    (apply key value m).get? k = if k = key then value else m.get? k := by
  cases value with
  | none => exact Members.get?_remove hm
  | some v => exact Members.get?_put

/-- **Edits do to an object what they do to the map from its keys to its values.** -/
theorem get?_applyAll {es : List (String × Option Json)} (hm : (Json.object m).IsExact)
    (hv : ∀ e ∈ es, ∀ v ∈ e.2, v.IsExact) :
    (fun k => (applyAll es m).get? k) =
      es.foldl (fun f e => Function.update f e.1 e.2) fun k => m.get? k := by
  induction es generalizing m with
  | nil => rfl
  | cons e es ih =>
      obtain ⟨hasc, -⟩ := Json.IsExact.object_iff.1 hm
      rw [applyAll_cons, List.foldl_cons, ih (isExact_apply hm (hv e List.mem_cons_self))
        fun e he => hv e (List.mem_cons_of_mem _ he)]
      congr 1
      funext k
      rw [get?_apply hasc, Function.update_apply]

end LateBinding.Options
