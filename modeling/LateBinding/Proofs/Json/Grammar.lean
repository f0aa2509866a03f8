import Mathlib.Data.List.TakeWhile
import LateBinding.Proofs.Json.RoundTrip
import LateBinding.Proofs.Json.Spelling

/-!
**What the reader accepts is what the grammar writes.**

The grammar says of a text whether it writes a value, without saying how to read it: strings,
numerals and words, and items between marks with commas and space, at most so many arrays and
objects inside one another. The reader takes a value off the front of a text exactly if the text
begins with one that the grammar writes, and **it accepts a whole text exactly if the grammar writes
it with at most 127 arrays and objects inside one another**.

Main definitions:

* `LateBinding.Json.Listed`, `LateBinding.Json.Enclosed` — items with commas, and what stands
  between marks;
* `LateBinding.Json.Writes`, `LateBinding.Json.IsText` — **the texts of values**, without and with
  space around them;
* `LateBinding.Json.ObjectText` — the texts of objects, with their members as they stand.

Main results:

* `LateBinding.Json.enclosed_of_readSequence`, `LateBinding.Json.readSequence_of_enclosed` — what
  stands between marks is what is read there;
* `LateBinding.Json.writes_of_readValue`, `LateBinding.Json.readValue_of_writes` — what is taken off
  the front of a text;
* `LateBinding.Json.parseChars?_eq_some_iff`, `LateBinding.Json.parseChars?_eq_none_iff` — **what is
  accepted as a whole**, and what is refused;
* `LateBinding.Json.isText_object_iff` — objects and their members;
* `LateBinding.Json.Writes.nesting_le`, `LateBinding.Json.Writes.isOrdered` — what is known of a
  value that is written.
-/

set_option autoImplicit false

namespace LateBinding.Json

variable {α : Type}

/-! ### Items -/

/-- Only space between tokens. -/
def IsSpacing (s : List Char) : Prop := ∀ c ∈ s, isSpace c = true

/-- One item or several, with commas between them and space around each but before the first. -/
inductive Listed (item : List Char → α → Prop) : List Char → List α → Prop
  | one {t sp : List Char} {x : α} (h : item t x) (hsp : IsSpacing sp) : Listed item (t ++ sp) [x]
  | cons {t sp sp' r : List Char} {x : α} {xs : List α} (h : item t x) (hsp : IsSpacing sp)
      (hsp' : IsSpacing sp') (hr : Listed item r xs) :
      Listed item (t ++ (sp ++ ',' :: (sp' ++ r))) (x :: xs)

/-- What stands between the marks of an array or object: space, or items with space around each. -/
inductive Enclosed (item : List Char → α → Prop) : List Char → List α → Prop
  | empty {sp : List Char} (hsp : IsSpacing sp) : Enclosed item sp []
  | listed {sp r : List Char} {xs : List α} (hsp : IsSpacing sp) (hr : Listed item r xs) :
      Enclosed item (sp ++ r) xs

section Items

variable {item : Reader α} {text : List Char → α → Prop} {close : Char}

theorem Listed.exists_eq {r : List Char} {xs : List α} (h : Listed text r xs) :
    ∃ t r' x, r = t ++ r' ∧ text t x := by
  cases h with
  | one h hsp => exact ⟨_, _, _, rfl, h⟩
  | cons h hsp hsp' hr => exact ⟨_, _, _, rfl, h⟩

/-- What is skipped is space. -/
theorem exists_isSpacing (s : List Char) :
    ∃ sp, s = sp ++ skipSpace s ∧ IsSpacing sp := by
  obtain ⟨sp, hs, hsp, -⟩ := exists_space s
  exact ⟨sp, hs, hsp⟩

theorem IsSpacing.skipSpace {sp t : List Char} (hsp : IsSpacing sp) (ht : IsSolid t) :
    skipSpace (sp ++ t) = t := by
  rw [Json.skipSpace, List.dropWhile_append_of_pos hsp]
  exact ht.skipSpace

theorem listed_of_readItems
    (hitem : ∀ s x rest, item s = some (x, rest) → ∃ t, s = t ++ rest ∧ text t x)
    {fuel : Nat} {acc xs : List α} {s rest : List Char}
    (h : readItems item close fuel acc s = some (xs, rest)) :
    ∃ r ys, s = r ++ close :: rest ∧ xs = acc.reverse ++ ys ∧ Listed text r ys := by
  induction fuel generalizing acc s with
  | zero => cases h
  | succ fuel ih =>
      rw [readItems, Option.bind_eq_bind, Option.bind_eq_some_iff] at h
      obtain ⟨⟨x, s₁⟩, hx, h⟩ := h
      obtain ⟨t, rfl, ht⟩ := hitem _ _ _ hx
      obtain ⟨sp, hs₁, hsp⟩ := exists_isSpacing s₁
      simp only at h
      cases hc : skipSpace s₁ with
      | nil =>
          rw [hc] at h
          cases h
      | cons c rest₁ =>
          rw [hc] at h hs₁
          by_cases hcl : c = close
          · subst hcl
            simp only [if_pos, Option.pure_def, Option.some.injEq, Prod.mk.injEq] at h
            obtain ⟨rfl, rfl⟩ := h
            exact ⟨t ++ sp, [x], by simp [hs₁], by simp, .one ht hsp⟩
          · simp only [if_neg hcl] at h
            obtain ⟨rfl, h⟩ := Option.ite_none_right_eq_some.1 h
            obtain ⟨r, ys, hr, rfl, hlisted⟩ := ih h
            obtain ⟨sp', hrest₁, hsp'⟩ := exists_isSpacing rest₁
            rw [hr] at hrest₁
            refine ⟨t ++ (sp ++ ',' :: (sp' ++ r)), x :: ys, ?_, by simp, .cons ht hsp hsp' hlisted⟩
            rw [hs₁, hrest₁]
            simp

theorem readItems_of_listed (hclose : IsMark close) (hcomma : close ≠ ',')
    (hitem : ∀ t x rest, text t x → Terminated rest → item (t ++ rest) = some (x, rest))
    (hbegin : ∀ t x, text t x → BeginsItem close t) {r : List Char} {xs : List α}
    (h : Listed text r xs) {fuel : Nat} (hfuel : r.length < fuel) (acc : List α)
    (rest : List Char) :
    readItems item close fuel acc (r ++ close :: rest) = some (acc.reverse ++ xs, rest) := by
  induction h generalizing fuel acc with
  | @one t sp x h hsp =>
      obtain ⟨n, rfl⟩ : ∃ n, fuel = n + 1 := ⟨fuel - 1, by omega⟩
      rw [readItems, List.append_assoc, hitem _ _ _ h (terminated_space hsp (hclose.2 rest)),
        Option.bind_eq_bind, Option.bind_some]
      simp [hsp.skipSpace hclose.isSolid]
  | @cons t sp sp' r x xs h hsp hsp' hr ih =>
      obtain ⟨n, rfl⟩ : ∃ n, fuel = n + 1 := ⟨fuel - 1, by omega⟩
      have hmark : IsMark ',' := isMark_of_mem (by simp)
      have hlen : r.length < n := by
        simp only [List.length_append, List.length_cons] at hfuel
        omega
      obtain ⟨t', r', x', hr', hx'⟩ := hr.exists_eq
      have hsolid : IsSolid (r ++ close :: rest) := by
        rw [hr', List.append_assoc]
        exact (hbegin t' x' hx').isSolid
      have hassoc : t ++ (sp ++ ',' :: (sp' ++ r)) ++ close :: rest =
          t ++ (sp ++ ',' :: (sp' ++ (r ++ close :: rest))) := by simp
      rw [readItems, hassoc, hitem _ _ _ h (terminated_space hsp (hmark.2 _)), Option.bind_eq_bind,
        Option.bind_some]
      simp only [hsp.skipSpace hmark.isSolid, hsp'.skipSpace hsolid, if_neg (Ne.symm hcomma),
        if_pos, ih hlen]
      simp

/-- **What is read between marks is what stands there.** -/
theorem enclosed_of_readSequence
    (hitem : ∀ s x rest, item s = some (x, rest) → ∃ t, s = t ++ rest ∧ text t x)
    {xs : List α} {s rest : List Char} (h : readSequence item close s = some (xs, rest)) :
    ∃ r, s = r ++ close :: rest ∧ Enclosed text r xs := by
  obtain ⟨sp, hs, hsp⟩ := exists_isSpacing s
  rw [readSequence.eq_def] at h
  cases hc : skipSpace s with
  | nil =>
      rw [hc] at h
      cases h
  | cons c rest₁ =>
      rw [hc] at h hs
      by_cases hcl : c = close
      · subst hcl
        simp only [if_pos, Option.some.injEq, Prod.mk.injEq] at h
        obtain ⟨rfl, rfl⟩ := h
        exact ⟨sp, hs, .empty hsp⟩
      · simp only [if_neg hcl] at h
        obtain ⟨r, ys, hr, rfl, hlisted⟩ := listed_of_readItems hitem h
        exact ⟨sp ++ r, by rw [hs, hr, List.append_assoc], .listed hsp hlisted⟩

/-- **What stands between marks is read.** -/
theorem readSequence_of_enclosed (hclose : IsMark close) (hcomma : close ≠ ',')
    (hitem : ∀ t x rest, text t x → Terminated rest → item (t ++ rest) = some (x, rest))
    (hbegin : ∀ t x, text t x → BeginsItem close t) {r : List Char} {xs : List α}
    (h : Enclosed text r xs) (rest : List Char) :
    readSequence item close (r ++ close :: rest) = some (xs, rest) := by
  cases h with
  | empty hsp =>
      rw [readSequence, hsp.skipSpace hclose.isSolid]
      exact if_pos rfl
  | @listed sp r xs hsp hr =>
      obtain ⟨t, r', x, rfl, hx⟩ := hr.exists_eq
      obtain ⟨c, cs, rfl, hc, hcl⟩ := hbegin t x hx
      have hsolid : IsSolid (c :: cs ++ r' ++ close :: rest) := by
        intro d hd
        cases hd
        exact hc
      have hfuel : (c :: cs ++ r').length < (cs ++ r' ++ close :: rest).length + 1 := by simp
      have hread := readItems_of_listed hclose hcomma hitem hbegin hr hfuel [] rest
      rw [readSequence, List.append_assoc, hsp.skipSpace hsolid]
      simp only [List.cons_append, if_neg hcl]
      exact hread

end Items

/-! ### Values -/

/-- The texts of members: a key in quotation marks, a colon, and a value. -/
inductive MemberText (value : List Char → Json → Prop) : List Char → String × Json → Prop
  | mk {s sp sp' t : List Char} {key : String} {v : Json} (hs : Spells s key.toList)
      (hsp : IsSpacing sp) (hsp' : IsSpacing sp') (ht : value t v) :
      MemberText value ('"' :: (s ++ '"' :: (sp ++ ':' :: (sp' ++ t)))) (key, v)

/-- The texts of values in which nothing stands. -/
inductive ScalarText : List Char → Json → Prop
  | null : ScalarText "null".toList .null
  | true : ScalarText "true".toList (.bool Bool.true)
  | false : ScalarText "false".toList (.bool Bool.false)
  | string {s : List Char} {x : String} (hs : Spells s x.toList) :
      ScalarText ('"' :: (s ++ ['"'])) (.string x)
  | number {t : List Char} {x : Numeral} {n : Number} (ht : NumeralText t x)
      (hn : x.toNumber? = some n) : ScalarText t (.number n)

/-- The texts of arrays and objects, given those of the values in them. Of members with equal keys
the last one counts. -/
inductive ContainerText (value : List Char → Json → Prop) : List Char → Json → Prop
  | array {s : List Char} {items : List Json} (h : Enclosed value s items) :
      ContainerText value ('[' :: (s ++ [']'])) (.array items)
  | object {s : List Char} {pairs : List (String × Json)}
      (h : Enclosed (MemberText value) s pairs) :
      ContainerText value ('\x7b' :: (s ++ ['\x7d'])) (.ofPairs pairs)

/-- `Writes d t v`: the text `t` writes the value `v` with at most `d` arrays and objects inside one
another. -/
def Writes : Nat → List Char → Json → Prop
  | 0, t, v => ScalarText t v
  | d + 1, t, v => ScalarText t v ∨ ContainerText (Writes d) t v

theorem ScalarText.writes {t : List Char} {v : Json} (h : ScalarText t v) (d : Nat) :
    Writes d t v := by
  cases d with
  | zero => exact h
  | succ d => exact Or.inl h

/-- A value is written from a text by its first character on. -/
theorem Writes.beginsItem {d : Nat} {t : List Char} {v : Json} (h : Writes d t v) :
    BeginsItem ']' t := by
  have hscalar : ∀ {t : List Char} {v : Json}, ScalarText t v → BeginsItem ']' t := by
    intro t v h
    cases h with
    | null => exact ⟨_, _, rfl, by decide, by decide⟩
    | true => exact ⟨_, _, rfl, by decide, by decide⟩
    | false => exact ⟨_, _, rfl, by decide, by decide⟩
    | string hs => exact ⟨_, _, rfl, by decide, by decide⟩
    | number ht hn =>
        obtain ⟨c, cs, rfl, hc⟩ := ht.exists_cons
        refine ⟨c, cs, rfl, ?_, ?_⟩
        · rcases hc with hc | rfl
          · exact isSpace_of_isDigit hc
          · decide
        · rintro rfl
          rcases hc with hc | hc <;> cases hc
  cases d with
  | zero => exact hscalar h
  | succ d =>
      rcases h with h | h
      · exact hscalar h
      · cases h with
        | array h => exact ⟨_, _, rfl, by decide, by decide⟩
        | object h => exact ⟨_, _, rfl, by decide, by decide⟩

theorem memberText_of_readMember {value : Reader Json} {text : List Char → Json → Prop}
    (hvalue : ∀ s v rest, value s = some (v, rest) → ∃ t, s = t ++ rest ∧ text t v)
    {s rest : List Char} {p : String × Json} (h : readMember value s = some (p, rest)) :
    ∃ t, s = t ++ rest ∧ MemberText text t p := by
  rw [readMember.eq_def] at h
  split at h
  · next s' =>
      rw [Option.bind_eq_bind, Option.bind_eq_some_iff] at h
      obtain ⟨⟨key, s₁⟩, hkey, h⟩ := h
      obtain ⟨k, rfl, hk⟩ := scanString_eq_some_iff.1 hkey
      obtain ⟨sp, hs₁, hsp⟩ := exists_isSpacing s₁
      simp only at h
      split at h
      · next s₂ hcolon =>
          rw [Option.bind_eq_bind, Option.bind_eq_some_iff] at h
          obtain ⟨⟨v, s₃⟩, hv, h⟩ := h
          cases h
          obtain ⟨sp', hs₂, hsp'⟩ := exists_isSpacing s₂
          obtain ⟨t, ht, hwrites⟩ := hvalue _ _ _ hv
          refine ⟨_, ?_, .mk hk hsp hsp' hwrites⟩
          rw [hs₁, hcolon, hs₂, ht]
          simp
      · cases h
  · cases h

theorem readMember_of_memberText {value : Reader Json} {text : List Char → Json → Prop}
    (hvalue : ∀ t v rest, text t v → Terminated rest → value (t ++ rest) = some (v, rest))
    (hbegin : ∀ t v, text t v → BeginsItem ']' t) {t rest : List Char} {p : String × Json}
    (h : MemberText text t p) (hrest : Terminated rest) :
    readMember value (t ++ rest) = some (p, rest) := by
  cases h with
  | @mk s sp sp' t key v hs hsp hsp' ht =>
      have hassoc : '"' :: (s ++ '"' :: (sp ++ ':' :: (sp' ++ t))) ++ rest =
          '"' :: (s ++ '"' :: (sp ++ ':' :: (sp' ++ (t ++ rest)))) := by simp
      have hkey : scanString (s ++ '"' :: (sp ++ ':' :: (sp' ++ (t ++ rest)))) =
          some (key, sp ++ ':' :: (sp' ++ (t ++ rest))) := scanString_eq_some_iff.2 ⟨s, rfl, hs⟩
      have hcolon : IsSolid (':' :: (sp' ++ (t ++ rest))) := by
        intro c hc
        cases hc
        decide
      rw [hassoc, readMember, hkey, Option.bind_eq_bind, Option.bind_some]
      simp only [hsp.skipSpace hcolon, hsp'.skipSpace (hbegin t v ht).isSolid,
        hvalue t v rest ht hrest, Option.bind_eq_bind, Option.bind_some]
      rfl

/-- **What is read is written there.** -/
theorem writes_of_readValue {d : Nat} {s rest : List Char} {v : Json}
    (h : readValue d s = some (v, rest)) : ∃ t, s = t ++ rest ∧ Writes d t v := by
  induction d using Nat.strongRecOn generalizing s rest v with
  | ind d ih =>
      cases readValue_eq_some_iff.1 h with
      | string hs =>
          obtain ⟨t, rfl, ht⟩ := scanString_eq_some_iff.1 hs
          exact ⟨'"' :: (t ++ ['"']), by simp, (ScalarText.string ht).writes d⟩
      | @array d s items hitems =>
          obtain ⟨r, rfl, hr⟩ :=
            enclosed_of_readSequence (fun _ _ _ hv => ih d (Nat.lt_succ_self d) hv) hitems
          exact ⟨'[' :: (r ++ [']']), by simp, Or.inr (.array hr)⟩
      | @object d s pairs hpairs =>
          obtain ⟨r, rfl, hr⟩ := enclosed_of_readSequence (fun _ _ _ hp =>
            memberText_of_readMember (fun _ _ _ hv => ih d (Nat.lt_succ_self d) hv) hp) hpairs
          exact ⟨'\x7b' :: (r ++ ['\x7d']), by simp, Or.inr (.object hr)⟩
      | null => exact ⟨_, rfl, ScalarText.null.writes d⟩
      | true => exact ⟨_, rfl, ScalarText.true.writes d⟩
      | false => exact ⟨_, rfl, ScalarText.false.writes d⟩
      | number hc hx hn =>
          obtain ⟨t, ht, hnumeral⟩ := numeralText_of_scan hx
          exact ⟨t, ht, (ScalarText.number hnumeral hn).writes d⟩

theorem readValue_of_scalarText {t rest : List Char} {v : Json} (h : ScalarText t v) (d : Nat)
    (hrest : Terminated rest) : readValue d (t ++ rest) = some (v, rest) := by
  rw [readValue_eq_some_iff]
  cases h with
  | null => exact .null
  | true => exact .true
  | false => exact .false
  | @string s x hs =>
      rw [List.cons_append, List.append_assoc]
      exact .string (scanString_eq_some_iff.2 ⟨s, rfl, hs⟩)
  | number ht hn =>
      have hscan := scanNumeral_of_text ht hrest
      obtain ⟨c, cs, rfl, hc⟩ := ht.exists_cons
      refine .number ?_ hscan hn
      intro hmem
      simp only [List.mem_cons, List.not_mem_nil, or_false] at hmem
      rcases hc with hc | rfl
      · rcases hmem with rfl | rfl | rfl | rfl | rfl | rfl <;> cases hc
      · simp at hmem

/-- **What is written is read**, where nothing goes on with it. -/
theorem readValue_of_writes {d : Nat} {t rest : List Char} {v : Json} (h : Writes d t v)
    (hrest : Terminated rest) : readValue d (t ++ rest) = some (v, rest) := by
  -- arrays and objects hand one depth less to what stands in them
  induction d generalizing t v rest with
  | zero => exact readValue_of_scalarText h 0 hrest
  | succ d ih =>
      rcases h with h | h
      · exact readValue_of_scalarText h (d + 1) hrest
      · have hvalue : ∀ t v rest, Writes d t v → Terminated rest →
            readValue d (t ++ rest) = some (v, rest) := fun t v rest ht hrest => ih ht hrest
        cases h with
        | @array s items h =>
            have hread := readSequence_of_enclosed (isMark_of_mem (by simp)) (by decide) hvalue
              (fun t v ht => ht.beginsItem) h rest
            rw [List.cons_append, List.append_assoc, readValue_array]
            exact congrArg _ hread
        | @object s pairs h =>
            have hbegin : ∀ t p, MemberText (Writes d) t p → BeginsItem '\x7d' t := by
              intro t p hp
              cases hp
              exact ⟨_, _, rfl, by decide, by decide⟩
            have hmember : ∀ t p rest, MemberText (Writes d) t p → Terminated rest →
                readMember (readValue d) (t ++ rest) = some (p, rest) := fun t p rest hp hrest =>
              readMember_of_memberText hvalue (fun t v ht => ht.beginsItem) hp hrest
            have hread := readSequence_of_enclosed (isMark_of_mem (by simp)) (by decide) hmember
              hbegin h rest
            rw [List.cons_append, List.append_assoc, readValue_object]
            exact congrArg _ hread

/-! ### Whole texts -/

/-- A text that writes a value with at most 127 arrays and objects inside one another, and with
space around it. -/
def IsText (s : List Char) (v : Json) : Prop :=
  ∃ sp t sp', s = sp ++ (t ++ sp') ∧ IsSpacing sp ∧ IsSpacing sp' ∧ Writes maxDepth t v

theorem skipSpace_eq_nil_iff {s : List Char} : skipSpace s = [] ↔ IsSpacing s := by
  rw [skipSpace, List.dropWhile_eq_nil_iff]
  rfl

theorem IsSpacing.terminated {s : List Char} (hs : IsSpacing s) : Terminated s := by
  have h := terminated_space (t := []) hs (by simp [Terminated])
  rwa [List.append_nil] at h

/-- **A text is accepted as a whole exactly if it writes a value.** -/
theorem parseChars?_eq_some_iff {s : List Char} {v : Json} :
    parseChars? s = some v ↔ IsText s v := by
  rw [parseChars?, Option.bind_eq_bind, Option.bind_eq_some_iff]
  constructor
  · rintro ⟨⟨v', rest⟩, hread, h⟩
    obtain ⟨hspace, he⟩ := Option.ite_none_right_eq_some.1 h
    cases he
    obtain ⟨sp, hs, hsp⟩ := exists_isSpacing s
    obtain ⟨t, ht, hwrites⟩ := writes_of_readValue hread
    exact ⟨sp, t, rest, by rw [hs, ht], hsp,
      skipSpace_eq_nil_iff.1 (List.isEmpty_iff.1 hspace), hwrites⟩
  · rintro ⟨sp, t, sp', rfl, hsp, hsp', hwrites⟩
    refine ⟨(v, sp'), ?_, ?_⟩
    · rw [hsp.skipSpace hwrites.beginsItem.isSolid]
      exact readValue_of_writes hwrites hsp'.terminated
    · simp [skipSpace_eq_nil_iff.2 hsp']

/-- **A text is refused exactly if it writes no value.** -/
theorem parseChars?_eq_none_iff {s : List Char} : parseChars? s = none ↔ ∀ v, ¬IsText s v := by
  rw [Option.eq_none_iff_forall_ne_some]
  exact forall_congr' fun v => not_congr parseChars?_eq_some_iff

/-- A text that writes an object, with its members in the order in which they stand. -/
def ObjectText (s : List Char) (pairs : List (String × Json)) : Prop :=
  ∃ sp t sp', s = sp ++ ('\x7b' :: (t ++ '\x7d' :: sp')) ∧ IsSpacing sp ∧ IsSpacing sp' ∧
    Enclosed (MemberText (Writes (maxDepth - 1))) t pairs

/-- **A text writes an object exactly if it stands for the object of its members.** -/
theorem isText_object_iff {s : List Char} {members : Members} :
    IsText s (.object members) ↔ ∃ pairs, ObjectText s pairs ∧ Members.ofList pairs = members := by
  constructor
  · rintro ⟨sp, t, sp', rfl, hsp, hsp', hwrites⟩
    generalize hv : Json.object members = v at hwrites
    rcases hwrites with h | h
    · cases h <;> cases hv
    · cases h with
      | array h => cases hv
      | @object s pairs h =>
          refine ⟨pairs, ⟨sp, s, sp', by simp, hsp, hsp', h⟩, ?_⟩
          exact (Json.object.inj hv).symm
  · rintro ⟨pairs, ⟨sp, t, sp', rfl, hsp, hsp', h⟩, rfl⟩
    exact ⟨sp, _, sp', by simp, hsp, hsp', Or.inr (.object h)⟩

/-! ### The values that are written -/

/-- What stands between marks is written there, item by item. -/
theorem Enclosed.forall_mem {text : List Char → α → Prop} {s : List Char} {xs : List α}
    (h : Enclosed text s xs) : ∀ x ∈ xs, ∃ t, text t x := by
  cases h with
  | empty hsp => exact nofun
  | listed hsp hr =>
      induction hr with
      | one h hsp =>
          intro x hx
          obtain rfl := List.mem_singleton.1 hx
          exact ⟨_, h⟩
      | cons h hsp hsp' hr ih =>
          intro x hx
          rcases List.mem_cons.1 hx with rfl | hx
          · exact ⟨_, h⟩
          · exact ih x hx

/-- A member is written with its value. -/
theorem Enclosed.exists_value {value : List Char → Json → Prop} {s : List Char}
    {pairs : List (String × Json)} (h : Enclosed (MemberText value) s pairs) :
    ∀ p ∈ pairs, ∃ t, value t p.2 := by
  intro p hp
  obtain ⟨t, ht⟩ := h.forall_mem p hp
  cases ht with
  | mk hs hsp hsp' hv => exact ⟨_, hv⟩

/-- **A value nests no deeper than the text that writes it.** -/
theorem Writes.nesting_le {d : Nat} {t : List Char} {v : Json} (h : Writes d t v) :
    v.nesting ≤ d := by
  have hscalar : ∀ {t : List Char} {v : Json} (d : Nat), ScalarText t v → v.nesting ≤ d := by
    intro t v d h
    cases h <;> exact Nat.zero_le d
  induction d generalizing t v with
  | zero => exact hscalar 0 h
  | succ d ih =>
      rcases h with h | h
      · exact hscalar (d + 1) h
      · cases h with
        | array h =>
            rw [nesting, Nat.add_le_add_iff_right, itemsNesting_le_iff]
            intro v hv
            obtain ⟨t, ht⟩ := h.forall_mem v hv
            exact ih ht
        | object h =>
            rw [ofPairs, nesting, Nat.add_le_add_iff_right, membersNesting_le_iff]
            intro p hp
            obtain ⟨t, ht⟩ := h.exists_value p (Members.mem_of_mem_ofList hp)
            exact ih ht

/-- **A value that is written is ordered**, in whatever order the members of objects stand. -/
theorem Writes.isOrdered {d : Nat} {t : List Char} {v : Json} (h : Writes d t v) : v.IsOrdered := by
  have hnil : Terminated [] := by simp [Terminated]
  exact readValue_isOrdered (readValue_of_writes h hnil)

end LateBinding.Json
