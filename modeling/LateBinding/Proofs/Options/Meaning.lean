import LateBinding.Proofs.Json.Grammar
import LateBinding.Proofs.Options.Storage

/-!
**What an edit of a text of options means.**

A text of options is blank at most, or writes an object with at most 127 arrays and objects inside
one another; every other text is refused, as malformed or as a value of another kind. **The text
that an edit gives writes the object that the text wrote, with the one key set or removed**: every
other key has the value that it had, which is that of its last member. No control character stands
in it, so a C string copy of it has all of it.

Main definitions:

* `LateBinding.Options.OptionsText` — the texts that can be edited, with the members that they
  write;
* `LateBinding.Options.Reading` — what a text can read as;
* `LateBinding.Options.IsSettable` — the values that an edit may set;
* `LateBinding.Options.IsReadable` — the objects whose texts can be edited again.

Main results:

* `LateBinding.Options.read_eq_ok_iff`, `LateBinding.Options.read_eq_malformed_iff`,
  `LateBinding.Options.read_eq_notAnObject_iff` — what is read of a text, and why one is refused;
* `LateBinding.Options.OptionsText.isReadable` — the object of a text with whole numbers;
* `LateBinding.Options.IsReadable.apply` — an edit keeps an object readable;
* `LateBinding.Options.seen_of_isPrinted` — a text without control characters goes out as a whole;
* `LateBinding.Options.meaning_of_edit` — all of it together.
-/

set_option autoImplicit false

namespace LateBinding.Options

open Json
  (Members IsDigits IsPrinted IsSpacing IsText NumeralText ObjectText ScalarText Spells lastOf?
  maxDepth)
open Native (CString)

variable {current key x : String} {value : Option Json} {m : Members}
  {pairs : List (String × Json)}

/-! ### Texts of options -/

/-- The texts that can be edited, with the members that they write in the order in which they stand:
blank ones, and those of objects, blanks at both ends left aside. -/
inductive OptionsText (current : String) : List (String × Json) → Prop
  | blank (h : Text.trimBlank current.toList = []) : OptionsText current []
  | object {pairs : List (String × Json)} (h : ObjectText (Text.trimBlank current.toList) pairs) :
      OptionsText current pairs

/-- A text that writes a value is not empty. -/
theorem not_isText_nil (v : Json) : ¬IsText [] v := by
  intro h
  have hparse : Json.parseChars? [] = some v := Json.parseChars?_eq_some_iff.2 h
  cases hparse

theorem read_of_isText_object (h : IsText (Text.trimBlank current.toList) (.object m)) :
    read current = .ok m := by
  cases htrim : Text.trimBlank current.toList with
  | nil =>
      rw [htrim] at h
      exact absurd h (not_isText_nil _)
  | cons c t =>
      rw [htrim] at h
      exact read_of_object htrim (Json.parseChars?_eq_some_iff.2 h)

theorem read_of_isText_other {v : Json} (h : IsText (Text.trimBlank current.toList) v)
    (hv : ∀ m, v ≠ .object m) : read current = .error (.notAnObject v.kind) := by
  cases htrim : Text.trimBlank current.toList with
  | nil =>
      rw [htrim] at h
      exact absurd h (not_isText_nil _)
  | cons c t =>
      rw [htrim, ← Json.parseChars?_eq_some_iff] at h
      rw [read, htrim]
      -- the branch of objects is the one that `hv` excludes
      simp only [h]

theorem read_of_not_isText (hne : Text.trimBlank current.toList ≠ [])
    (h : ∀ v, ¬IsText (Text.trimBlank current.toList) v) : read current = .error .malformed := by
  obtain ⟨c, t, htrim⟩ := List.exists_cons_of_ne_nil hne
  rw [htrim] at h
  exact read_of_none htrim (Json.parseChars?_eq_none_iff.2 h)

/-- The members of a text are read, of equal keys the last. -/
theorem OptionsText.read_eq (h : OptionsText current pairs) :
    read current = .ok (Members.ofList pairs) := by
  cases h with
  | blank h =>
      rw [read, h]
      rfl
  | object h => exact read_of_isText_object (Json.isText_object_iff.2 ⟨pairs, h, rfl⟩)

/-- What a text can read as: the object of its members, a value of another kind, or nothing. -/
inductive Reading (current : String) : Except Error Members → Prop
  | object {pairs : List (String × Json)} (h : OptionsText current pairs) :
      Reading current (.ok (Members.ofList pairs))
  | other {v : Json} (h : IsText (Text.trimBlank current.toList) v) (hv : ∀ m, v ≠ .object m) :
      Reading current (.error (.notAnObject v.kind))
  | malformed (hne : Text.trimBlank current.toList ≠ [])
      (h : ∀ v, ¬IsText (Text.trimBlank current.toList) v) : Reading current (.error .malformed)

theorem Reading.read_eq {r : Except Error Members} (h : Reading current r) : read current = r := by
  cases h with
  | object h => exact h.read_eq
  | other h hv => exact read_of_isText_other h hv
  | malformed hne h => exact read_of_not_isText hne h

/-- Every text reads as one of these. -/
theorem exists_reading (current : String) : ∃ r, Reading current r := by
  by_cases hblank : Text.trimBlank current.toList = []
  · exact ⟨_, .object (.blank hblank)⟩
  · by_cases htext : ∃ v, IsText (Text.trimBlank current.toList) v
    · obtain ⟨v, hv⟩ := htext
      by_cases hobject : ∃ m, v = .object m
      · obtain ⟨m, rfl⟩ := hobject
        obtain ⟨pairs, hpairs, -⟩ := Json.isText_object_iff.1 hv
        exact ⟨_, .object (.object hpairs)⟩
      · exact ⟨_, .other hv (not_exists.1 hobject)⟩
    · exact ⟨_, .malformed hblank (not_exists.1 htext)⟩

theorem read_eq_iff {r : Except Error Members} : read current = r ↔ Reading current r := by
  refine ⟨?_, Reading.read_eq⟩
  rintro rfl
  obtain ⟨r, hr⟩ := exists_reading current
  rwa [hr.read_eq]

/-- **What is read is the object of the members that stand in the text.** -/
theorem read_eq_ok_iff :
    read current = .ok m ↔ ∃ pairs, OptionsText current pairs ∧ Members.ofList pairs = m := by
  rw [read_eq_iff]
  constructor
  · intro h
    cases h with
    | object h => exact ⟨_, h, rfl⟩
  · rintro ⟨pairs, h, rfl⟩
    exact .object h

/-- **A text is malformed exactly if it is not blank and writes no value.** -/
theorem read_eq_malformed_iff :
    read current = .error .malformed ↔
      Text.trimBlank current.toList ≠ [] ∧ ∀ v, ¬IsText (Text.trimBlank current.toList) v := by
  rw [read_eq_iff]
  constructor
  · intro h
    cases h with
    | malformed hne h => exact ⟨hne, h⟩
  · rintro ⟨hne, h⟩
    exact .malformed hne h

/-- **A text is no object exactly if it writes a value of another kind**, which the error names. -/
theorem read_eq_notAnObject_iff {kind : String} :
    read current = .error (.notAnObject kind) ↔
      (kind = "null" ∧ IsText (Text.trimBlank current.toList) .null) ∨
      (kind = "a boolean" ∧ ∃ b, IsText (Text.trimBlank current.toList) (.bool b)) ∨
      (kind = "a number" ∧ ∃ n, IsText (Text.trimBlank current.toList) (.number n)) ∨
      (kind = "a string" ∧ ∃ s, IsText (Text.trimBlank current.toList) (.string s)) ∨
      (kind = "an array" ∧ ∃ items, IsText (Text.trimBlank current.toList) (.array items)) := by
  rw [read_eq_iff]
  constructor
  · intro h
    cases h with
    | @other v h hv =>
        cases v with
        | null => exact .inl ⟨rfl, h⟩
        | bool b => exact .inr (.inl ⟨rfl, b, h⟩)
        | number n => exact .inr (.inr (.inl ⟨rfl, n, h⟩))
        | string s => exact .inr (.inr (.inr (.inl ⟨rfl, s, h⟩)))
        | array items => exact .inr (.inr (.inr (.inr ⟨rfl, items, h⟩)))
        | object m => exact absurd rfl (hv m)
  · rintro (⟨rfl, h⟩ | ⟨rfl, b, h⟩ | ⟨rfl, n, h⟩ | ⟨rfl, s, h⟩ | ⟨rfl, items, h⟩) <;>
      exact .other h nofun

/-! ### Objects that read back -/

/-- What an edit may set: a value with whole numbers that leaves room for the object around it. -/
def IsSettable (value : Option Json) : Prop := ∀ v ∈ value, v.IsExact ∧ v.nesting < maxDepth

/-- The text of an object can be read again. -/
def IsReadable (m : Members) : Prop := (Json.object m).IsExact ∧ (Json.object m).nesting ≤ maxDepth

theorem isReadable_iff :
    IsReadable m ↔ m.IsAscending ∧ ∀ p ∈ m, p.2.IsExact ∧ p.2.nesting < maxDepth := by
  rw [IsReadable, Json.IsExact.object_iff, Json.nesting, maxDepth, Nat.add_le_add_iff_right,
    Json.membersNesting_le_iff]
  constructor
  · rintro ⟨⟨ha, he⟩, hn⟩
    exact ⟨ha, fun p hp => ⟨he p hp, Nat.lt_succ_of_le (hn p hp)⟩⟩
  · rintro ⟨ha, hp⟩
    exact ⟨⟨ha, fun p h => (hp p h).1⟩, fun p h => Nat.le_of_lt_succ (hp p h).2⟩

/-- **The object of a text with whole numbers is readable**, even where keys stand in it twice. -/
theorem OptionsText.isReadable (h : OptionsText current pairs) (hw : ∀ p ∈ pairs, p.2.IsWhole) :
    IsReadable (Members.ofList pairs) := by
  rw [isReadable_iff]
  refine ⟨Members.isAscending_ofList pairs, fun p hp => ?_⟩
  have hmem : p ∈ pairs := Members.mem_of_mem_ofList hp
  cases h with
  | blank h => cases hmem
  | object h =>
      obtain ⟨sp, t, sp', -, -, -, henclosed⟩ := h
      obtain ⟨t', hwrites⟩ := henclosed.exists_value p hmem
      exact ⟨⟨hwrites.isOrdered, hw p hmem⟩, Nat.lt_succ_of_le hwrites.nesting_le⟩

/-- **An edit keeps an object readable.** -/
theorem IsReadable.apply (hm : IsReadable m) (hv : IsSettable value) :
    IsReadable (apply key value m) := by
  rw [isReadable_iff] at hm ⊢
  obtain ⟨ha, hp⟩ := hm
  cases value with
  | none => exact ⟨ha.remove, fun p h => hp p (Members.mem_remove h)⟩
  | some v =>
      refine ⟨ha.put, fun p h => ?_⟩
      rcases Members.mem_put h with rfl | h
      · exact hv v rfl
      · exact hp p h

theorem IsReadable.read_render (hm : IsReadable m) : read (Json.object m).render = .ok m := by
  rw [Options.read_render hm.1, if_pos hm.2]

theorem IsReadable.parse?_render (hm : IsReadable m) :
    Json.parse? (Json.object m).render = some (.object m) := by
  rw [Json.parse?, Json.render, String.toList_ofList, parseChars?_object hm.1, if_pos hm.2]

/-! ### Texts that go out as a whole -/

/-- **A copy of a text without control characters has all of it.** -/
theorem seen_of_isPrinted (hx : ∀ c ∈ x.toList, IsPrinted c) :
    (CString.ofText x).seen = Text.Utf8.bytes x := by
  have h0 : ∀ c ∈ x.toList, c ≠ '\x00' := fun c hc => (hx c hc).ne_zero
  have hkept : (CString.ofText x).seen ++ [0] = Text.Utf8.encode x.toList ++ [0] :=
    Native.kept_ofText h0
  exact List.append_cancel_right hkept

/-! ### Edits -/

/-- An edit fails as the reading fails. -/
theorem edit_eq_error_iff {e : Error} :
    edit current key value = .error e ↔ read current = .error e := by
  rw [edit]
  cases read current with
  | error e' => exact ⟨fun h => congrArg Except.error (Except.error.inj h),
      fun h => congrArg Except.error (Except.error.inj h)⟩
  | ok m => exact iff_of_false nofun nofun

/-- The text of the edited object. -/
theorem edit_of_read (h : read current = .ok m) :
    edit current key value = .ok (Json.object (apply key value m)).render := by
  rw [edit, h]
  rfl

/-- **What an edit means.** It succeeds exactly where the text is blank or writes an object, and
fails with the reason why it does neither: it is malformed, or it writes null, a boolean, a number,
a string or an array, and the error names which. Where it succeeds, the text that it gives writes
the object that the text wrote, with the key set or removed, and goes out as a whole. -/
theorem meaning_of_edit (current key : String) (value : Option Json) :
    ((∃ x, edit current key value = .ok x) ↔ ∃ pairs, OptionsText current pairs) ∧
    (edit current key value = .error .malformed ↔
      Text.trimBlank current.toList ≠ [] ∧ ∀ v, ¬IsText (Text.trimBlank current.toList) v) ∧
    (∀ kind, edit current key value = .error (.notAnObject kind) ↔
      (kind = "null" ∧ IsText (Text.trimBlank current.toList) .null) ∨
      (kind = "a boolean" ∧ ∃ b, IsText (Text.trimBlank current.toList) (.bool b)) ∨
      (kind = "a number" ∧ ∃ n, IsText (Text.trimBlank current.toList) (.number n)) ∨
      (kind = "a string" ∧ ∃ s, IsText (Text.trimBlank current.toList) (.string s)) ∨
      (kind = "an array" ∧ ∃ items, IsText (Text.trimBlank current.toList) (.array items))) ∧
    ∀ pairs, OptionsText current pairs → (∀ p ∈ pairs, p.2.IsWhole) → IsSettable value →
      ∃ (x : String) (m : Members), edit current key value = .ok x ∧
        Json.parse? x = some (.object m) ∧
          (∀ k, m.get? k = if k = key then value else lastOf? k pairs) ∧
        (∀ c ∈ x.toList, IsPrinted c) ∧ (CString.ofText x).seen = Text.Utf8.bytes x := by
  refine ⟨⟨?_, ?_⟩, ?_, fun kind => ?_, ?_⟩
  · rintro ⟨x, hx⟩
    cases hread : read current with
    | error e =>
        rw [edit_eq_error_iff.2 hread] at hx
        cases hx
    | ok m =>
        obtain ⟨pairs, hpairs, -⟩ := read_eq_ok_iff.1 hread
        exact ⟨pairs, hpairs⟩
  · rintro ⟨pairs, hpairs⟩
    exact ⟨_, edit_of_read hpairs.read_eq⟩
  · rw [edit_eq_error_iff, read_eq_malformed_iff]
  · rw [edit_eq_error_iff, read_eq_notAnObject_iff]
  · intro pairs hpairs hw hv
    have hm : IsReadable (Options.apply key value (Members.ofList pairs)) :=
      (hpairs.isReadable hw).apply hv
    have hprinted := Json.isPrinted_render hm.1
    refine ⟨_, _, edit_of_read hpairs.read_eq, hm.parse?_render, fun k => ?_, hprinted,
      seen_of_isPrinted hprinted⟩
    rw [get?_apply (Members.isAscending_ofList pairs), Members.get?_ofList]

/-- A text of options with blanks around it, in which a key stands twice. -/
def repeated : String := " \x7b\"a\":true, \"a\":1\x7d\n"

theorem optionsText_repeated :
    OptionsText repeated [("a", .bool true), ("a", .number (.whole 1))] := by
  have hkey : Spells ['a'] "a".toList := .plain (by decide) (by decide) (by decide) .nil
  have hnone : IsSpacing [] := nofun
  have hspace : IsSpacing [' '] := by simp [IsSpacing, Json.isSpace]
  have hdigit : IsDigits ['1'] := ⟨List.cons_ne_nil _ _, by simp [Json.isDigit]⟩
  have hzero : ['1'].head? = some '0' → ['1'] = ['0'] := by simp
  have hone : NumeralText ['1'] ⟨false, ['1'], none, none⟩ :=
    .mk (x := ⟨false, ['1'], none, none⟩) hdigit hzero .none .none
  refine .object ⟨[], _, [], ?_, hnone, hnone, .listed hnone (.cons
    (.mk hkey hnone hnone (ScalarText.true.writes _)) hnone hspace (.one
      (.mk hkey hnone hnone ((ScalarText.number hone rfl).writes _)) hnone))⟩
  decide +kernel

theorem isWhole_repeated :
    ∀ p ∈ [("a", Json.bool true), ("a", .number (.whole 1))], p.2.IsWhole := by
  simp [Json.IsWhole, Json.Everywhere, Json.Number.IsWhole, Json.maxWord]

/-- An edit of another key keeps the last value of the one that stands twice; the text of a number
is refused as one. -/
theorem last_value_kept :
    (∃ (x : String) (m : Members), edit repeated "b" (some .null) = .ok x ∧
      Json.parse? x = some (.object m) ∧ m.get? "a" = some (.number (.whole 1)) ∧
      m.get? "b" = some .null) ∧
    edit " 7\n" "b" none = .error (.notAnObject "a number") := by
  obtain ⟨-, -, hkind, -⟩ := meaning_of_edit " 7\n" "b" none
  have hdigit : IsDigits ['7'] := ⟨List.cons_ne_nil _ _, by simp [Json.isDigit]⟩
  have hseven : NumeralText ['7'] ⟨false, ['7'], none, none⟩ :=
    .mk (x := ⟨false, ['7'], none, none⟩) hdigit (by simp) .none .none
  have htext : IsText (Text.trimBlank " 7\n".toList) (.number (.whole 7)) :=
    ⟨[], ['7'], [], by decide +kernel, List.forall_mem_nil _, List.forall_mem_nil _,
      (ScalarText.number hseven rfl).writes _⟩
  refine ⟨?_, (hkind "a number").2 (.inr (.inr (.inl ⟨rfl, _, htext⟩)))⟩
  obtain ⟨-, -, -, hmeaning⟩ := meaning_of_edit repeated "b" (some .null)
  have hnull : IsSettable (some .null) := by
    simp [IsSettable, Json.IsExact, Json.IsOrdered, Json.IsWhole, Json.Everywhere, Json.nesting,
      maxDepth]
  obtain ⟨x, m, hx, hm, hget, -⟩ := hmeaning _ optionsText_repeated isWhole_repeated hnull
  exact ⟨x, m, hx, hm, hget "a", hget "b"⟩

end LateBinding.Options
