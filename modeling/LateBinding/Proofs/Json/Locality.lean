import LateBinding.Proofs.Json.Lexical
import LateBinding.Proofs.Json.Members

/-!
**What is read off the front of a text does not depend on what follows.**

The reader takes a value off the front of a text and leaves the rest, and would have taken the same
value had another rest followed: for a value that has its own end (a string, an array, an object, a
word) whatever follows, for a number if what follows does not go on with it. So an object that was
read from a part of a text is read from the whole text too, and **no text that is cut off inside an
object reads as one**.

Main definitions:

* `LateBinding.Json.Reads` — how a value is read, by its first character.

Main results:

* `LateBinding.Json.readSequence_enclosed` — arrays and objects end by themselves;
* `LateBinding.Json.readValue_eq_some_iff` — **what a value is read from**;
* `LateBinding.Json.readValue_local` — **reading a value is local**;
* `LateBinding.Json.readValue_append_of_object` — so an object is read whatever follows;
* `LateBinding.Json.readValue_isOrdered` — what is read is ordered;
* `LateBinding.Json.parseChars?_eq_none_of_cut` — **a text that is cut off inside an object does not
  read**.
-/

set_option autoImplicit false

namespace LateBinding.Json

variable {α : Type}

/-! ### Arrays and objects -/

section Sequences

variable {item : Reader α} {close : Char} {acc xs : List α} {rest : List Char}

theorem IsSolid.of_append {pre t t' : List Char} {c : Char} (h : IsSolid (pre ++ c :: t)) :
    IsSolid (pre ++ c :: t') := by
  cases pre <;> exact h

/-- A character after which no number goes on, and which is no space. -/
def IsMark (c : Char) : Prop := isSpace c = false ∧ ∀ t, Terminated (c :: t)

theorem isMark_of_mem {c : Char} (hc : c ∈ [',', ']', '\x7d']) : IsMark c := by
  simp only [List.mem_cons, List.not_mem_nil, or_false] at hc
  rcases hc with rfl | rfl | rfl <;> exact ⟨by decide, fun t c hc => by cases hc; decide⟩

theorem IsMark.isSolid {c : Char} {t : List Char} (hc : IsMark c) : IsSolid (c :: t) := by
  intro d hd
  cases hd
  exact hc.1

/-- **What follows the items of an array or object does not matter**, nor how many more could have
been read. -/
theorem readItems_local (hitem : IsLocal item Terminated) (hclose : IsMark close) {fuel : Nat}
    {s : List Char} (h : readItems item close fuel acc s = some (xs, rest)) :
    ∃ pre, s = pre ++ close :: rest ∧ ∀ fuel' t, pre.length < fuel' →
      readItems item close fuel' acc (pre ++ close :: t) = some (xs, t) := by
  induction fuel generalizing acc s with
  | zero => cases h
  | succ fuel ih =>
      rw [readItems, Option.bind_eq_bind, Option.bind_eq_some_iff] at h
      obtain ⟨⟨x, s₁⟩, hx, h⟩ := h
      obtain ⟨p, rfl, hp⟩ := hitem _ _ _ hx
      obtain ⟨sp, hs₁, hsp, -, hskip⟩ := exists_space s₁
      simp only at h
      cases hc : skipSpace s₁ with
      | nil =>
          rw [hc] at h
          cases h
      | cons c rest₁ =>
          rw [hc] at h hs₁
          by_cases hcl : c = close
          · subst hcl
            simp only [if_pos, Option.pure_def, Option.some.injEq, Prod.mk.injEq] at h
            obtain ⟨rfl, rfl⟩ := h
            refine ⟨p ++ sp, by rw [hs₁, List.append_assoc], fun fuel' t hfuel => ?_⟩
            obtain ⟨n, rfl⟩ : ∃ n, fuel' = n + 1 := ⟨fuel' - 1, by omega⟩
            rw [readItems, List.append_assoc, hp _ (terminated_space hsp (hclose.2 t)),
              Option.bind_eq_bind, Option.bind_some]
            simp [hskip _ hclose.isSolid]
          · simp only [if_neg hcl] at h
            obtain ⟨rfl, h⟩ := Option.ite_none_right_eq_some.1 h
            obtain ⟨pre, hpre, hlocal⟩ := ih h
            obtain ⟨sp', hrest₁, hsp', hsolid, hskip'⟩ := exists_space rest₁
            have hcomma : IsMark ',' := isMark_of_mem (by simp)
            refine ⟨p ++ (sp ++ ',' :: (sp' ++ pre)), ?_, fun fuel' t hfuel => ?_⟩
            · rw [hs₁, hrest₁, hpre]
              simp
            · obtain ⟨n, rfl⟩ : ∃ n, fuel' = n + 1 := ⟨fuel' - 1, by omega⟩
              have hn : pre.length < n := by
                simp only [List.length_append, List.length_cons] at hfuel
                omega
              have hsolid' : IsSolid (pre ++ close :: t) := IsSolid.of_append (hpre ▸ hsolid)
              have hassoc : p ++ (sp ++ ',' :: (sp' ++ pre)) ++ close :: t =
                  p ++ (sp ++ ',' :: (sp' ++ (pre ++ close :: t))) := by simp
              rw [readItems, hassoc, hp _ (terminated_space hsp (hcomma.2 _)), Option.bind_eq_bind,
                Option.bind_some]
              simp only [hskip _ hcomma.isSolid, hskip' _ hsolid', if_neg hcl, if_pos]
              exact hlocal n t hn

/-- **Arrays and objects end by themselves.** -/
theorem readSequence_enclosed (hitem : IsLocal item Terminated) (hclose : IsMark close) :
    IsEnclosed (readSequence item close) close := by
  intro s xs rest h
  obtain ⟨sp, hs, hsp, hsolid, hskip⟩ := exists_space s
  rw [readSequence.eq_def] at h
  cases hc : skipSpace s with
  | nil =>
      rw [hc] at h
      cases h
  | cons c rest₁ =>
      rw [hc] at h hs hsolid
      by_cases hcl : c = close
      · subst hcl
        simp only [if_pos, Option.some.injEq, Prod.mk.injEq] at h
        obtain ⟨rfl, rfl⟩ := h
        refine ⟨sp, hs, fun t => ?_⟩
        rw [readSequence, hskip _ hclose.isSolid]
        exact if_pos rfl
      · simp only [if_neg hcl] at h
        obtain ⟨pre, hpre, hlocal⟩ := readItems_local hitem hclose h
        -- the first item begins with a character that does not close
        obtain ⟨pre', rfl⟩ : ∃ pre', pre = c :: pre' := by
          cases pre with
          | nil => exact absurd (List.cons.inj hpre).1 hcl
          | cons d pre' => exact ⟨pre', by rw [(List.cons.inj hpre).1]⟩
        refine ⟨sp ++ c :: pre', by rw [hs, hpre, List.append_assoc], fun t => ?_⟩
        have hsolid' : IsSolid (c :: (pre' ++ close :: t)) := hsolid
        rw [readSequence, List.append_assoc, List.cons_append, hskip _ hsolid']
        simp only [if_neg hcl]
        exact hlocal _ t (by simp)

/-- Who reads nothing from nothing takes something wherever it reads. -/
theorem IsLocal.ne_nil {r : Reader α} {allowed : List Char → Prop} (hallowed : allowed [])
    (hnil : r [] = none) {pre : List Char} {x : α}
    (h : ∀ t, allowed t → r (pre ++ t) = some (x, t)) : pre ≠ [] := by
  rintro rfl
  have hread := h [] hallowed
  rw [List.nil_append, hnil] at hread
  cases hread

theorem readMember_local {value : Reader Json} (hvalue : IsLocal value Terminated)
    (hnil : value [] = none) : IsLocal (readMember value) Terminated := by
  intro s x rest h
  rw [readMember.eq_def] at h
  split at h
  · next s' =>
      rw [Option.bind_eq_bind, Option.bind_eq_some_iff] at h
      obtain ⟨⟨key, s₁⟩, hkey, h⟩ := h
      obtain ⟨prek, rfl, hprek⟩ := scanString_enclosed _ _ _ hkey
      obtain ⟨sp, hs₁, hsp, -, hskip⟩ := exists_space s₁
      simp only at h
      split at h
      · next s₂ hcolon =>
          rw [Option.bind_eq_bind, Option.bind_eq_some_iff] at h
          obtain ⟨⟨v, s₃⟩, hv, h⟩ := h
          cases h
          obtain ⟨sp', hs₂, hsp', hsolid, hskip'⟩ := exists_space s₂
          obtain ⟨prev, hprev, hlocal⟩ := hvalue _ _ _ hv
          have hne : prev ≠ [] := IsLocal.ne_nil (by simp [Terminated]) hnil hlocal
          obtain ⟨c, prev', rfl⟩ := List.exists_cons_of_ne_nil hne
          refine ⟨'"' :: (prek ++ '"' :: (sp ++ ':' :: (sp' ++ c :: prev'))), ?_, fun t ht => ?_⟩
          · rw [hs₁, hcolon, hs₂, hprev]
            simp
          · have hsolid' : IsSolid (c :: prev' ++ t) := by
              rw [hprev] at hsolid
              exact hsolid
            have hassoc : '"' :: (prek ++ '"' :: (sp ++ ':' :: (sp' ++ c :: prev'))) ++ t =
                '"' :: (prek ++ '"' :: (sp ++ ':' :: (sp' ++ (c :: prev' ++ t)))) := by simp
            have hcolon' : IsSolid (':' :: (sp' ++ (c :: prev' ++ t))) := by
              intro d hd
              cases hd
              decide
            rw [hassoc, readMember, hprek, Option.bind_eq_bind, Option.bind_some]
            simp only [hskip _ hcolon', hskip' _ hsolid', hlocal t ht, Option.bind_eq_bind,
              Option.bind_some]
            rfl
      · cases h
  · cases h

end Sequences

/-! ### Values -/

theorem expect_eq_some_iff {word s rest : List Char} :
    expect word s = some rest ↔ s = word ++ rest := by
  rw [expect]
  constructor
  · intro h
    obtain ⟨htake, hdrop⟩ := Option.ite_none_right_eq_some.1 h
    rw [← Option.some.inj hdrop]
    calc s = s.take word.length ++ s.drop word.length := (List.take_append_drop _ _).symm
      _ = word ++ s.drop word.length := by rw [htake]
  · rintro rfl
    simp

/-- How a value is read: by its first character. -/
inductive Reads (rest : List Char) : Nat → List Char → Json → Prop
  | string {d : Nat} {s : List Char} {x : String} (h : scanString s = some (x, rest)) :
      Reads rest d ('"' :: s) (.string x)
  | array {d : Nat} {s : List Char} {items : List Json}
      (h : readSequence (readValue d) ']' s = some (items, rest)) :
      Reads rest (d + 1) ('[' :: s) (.array items)
  | object {d : Nat} {s : List Char} {pairs : List (String × Json)}
      (h : readSequence (readMember (readValue d)) '\x7d' s = some (pairs, rest)) :
      Reads rest (d + 1) ('\x7b' :: s) (.ofPairs pairs)
  | null {d : Nat} : Reads rest d ("null".toList ++ rest) .null
  | true {d : Nat} : Reads rest d ("true".toList ++ rest) (.bool Bool.true)
  | false {d : Nat} : Reads rest d ("false".toList ++ rest) (.bool Bool.false)
  | number {d : Nat} {c : Char} {s : List Char} {x : Numeral} {n : Number}
      (hc : c ∉ ['"', '[', '\x7b', 'n', 't', 'f']) (hx : scanNumeral (c :: s) = some (x, rest))
      (hn : x.toNumber? = some n) : Reads rest d (c :: s) (.number n)

/-- **What a value is read from.** -/
theorem readValue_eq_some_iff {d : Nat} {s rest : List Char} {v : Json} :
    readValue d s = some (v, rest) ↔ Reads rest d s v := by
  constructor
  · intro h
    cases s with
    | nil => cases d <;> cases h
    | cons c s =>
        rw [readValue.eq_def] at h
        simp only at h
        split at h
        · next hc =>
            subst hc
            obtain ⟨⟨x, r⟩, hx, he⟩ := Option.map_eq_some_iff.1 h
            cases he
            exact .string hx
        split at h
        · next hc =>
            subst hc
            cases d with
            | zero => cases h
            | succ d =>
                obtain ⟨⟨items, r⟩, hx, he⟩ := Option.map_eq_some_iff.1 h
                cases he
                exact .array hx
        split at h
        · next hc =>
            subst hc
            cases d with
            | zero => cases h
            | succ d =>
                obtain ⟨⟨pairs, r⟩, hx, he⟩ := Option.map_eq_some_iff.1 h
                cases he
                exact .object hx
        split at h
        · next hc =>
            subst hc
            obtain ⟨r, hx, he⟩ := Option.map_eq_some_iff.1 h
            cases he
            rw [expect_eq_some_iff.1 hx]
            exact .null
        split at h
        · next hc =>
            subst hc
            obtain ⟨r, hx, he⟩ := Option.map_eq_some_iff.1 h
            cases he
            rw [expect_eq_some_iff.1 hx]
            exact .true
        split at h
        · next hc =>
            subst hc
            obtain ⟨r, hx, he⟩ := Option.map_eq_some_iff.1 h
            cases he
            rw [expect_eq_some_iff.1 hx]
            exact .false
        · rw [Option.bind_eq_bind, Option.bind_eq_some_iff] at h
          obtain ⟨⟨x, r⟩, hx, h⟩ := h
          rw [Option.bind_eq_bind, Option.bind_eq_some_iff] at h
          obtain ⟨n, hn, he⟩ := h
          cases he
          exact .number (by simp [*]) hx hn
  · intro h
    cases h with
    | string h =>
        rw [readValue.eq_def]
        simp [h]
    | array h =>
        rw [readValue.eq_def]
        simp [h]
    | object h =>
        rw [readValue.eq_def]
        simp [h]
    | null => cases d <;> rfl
    | true => cases d <;> rfl
    | false => cases d <;> rfl
    | number hc hx hn =>
        simp only [List.mem_cons, List.not_mem_nil, or_false, not_or] at hc
        rw [readValue.eq_def]
        simp [hc, hx, hn]

/-- Nothing is read from nothing. -/
theorem readValue_nil (d : Nat) : readValue d [] = none := by
  cases d <;> rfl

/-- What is read by its first character is read so whatever follows. -/
theorem Reads.local {d : Nat} {s rest : List Char} {v : Json} (h : Reads rest d s v)
    (hd : ∀ d' < d, IsLocal (readValue d') Terminated) :
    ∃ pre, s = pre ++ rest ∧ ∀ t, Terminated t → Reads t d (pre ++ t) v := by
  cases h with
  | string h =>
      obtain ⟨pre, rfl, hpre⟩ := scanString_enclosed _ _ _ h
      refine ⟨'"' :: (pre ++ ['"']), by simp, fun t _ => ?_⟩
      rw [List.cons_append, List.append_assoc]
      exact .string (hpre t)
  | @array d s items h =>
      have hitem := hd d (Nat.lt_succ_self d)
      obtain ⟨pre, rfl, hpre⟩ :=
        readSequence_enclosed hitem (isMark_of_mem (by simp)) _ _ _ h
      refine ⟨'[' :: (pre ++ [']']), by simp, fun t _ => ?_⟩
      rw [List.cons_append, List.append_assoc]
      exact .array (hpre t)
  | @object d s pairs h =>
      have hmember := readMember_local (hd d (Nat.lt_succ_self d)) (readValue_nil d)
      obtain ⟨pre, rfl, hpre⟩ :=
        readSequence_enclosed hmember (isMark_of_mem (by simp)) _ _ _ h
      refine ⟨'\x7b' :: (pre ++ ['\x7d']), by simp, fun t _ => ?_⟩
      rw [List.cons_append, List.append_assoc]
      exact .object (hpre t)
  | null => exact ⟨_, rfl, fun t _ => .null⟩
  | true => exact ⟨_, rfl, fun t _ => .true⟩
  | false => exact ⟨_, rfl, fun t _ => .false⟩
  | @number d c s x n hc hx hn =>
      obtain ⟨pre, hs, hpre⟩ := scanNumeral_local _ _ _ hx
      have hne : pre ≠ [] := IsLocal.ne_nil (by simp [Terminated]) rfl hpre
      obtain ⟨c', pre, rfl⟩ := List.exists_cons_of_ne_nil hne
      obtain ⟨rfl, rfl⟩ := List.cons.inj hs
      exact ⟨c :: pre, rfl, fun t ht => .number hc (hpre t ht) hn⟩

/-- **Reading a value is local.** -/
theorem readValue_local (d : Nat) : IsLocal (readValue d) Terminated := by
  induction d using Nat.strongRecOn with
  | ind d ih =>
      intro s v rest h
      obtain ⟨pre, rfl, hpre⟩ := (readValue_eq_some_iff.1 h).local ih
      exact ⟨pre, rfl, fun t ht => readValue_eq_some_iff.2 (hpre t ht)⟩

/-- **An object is read whatever follows**, and ends with its closing brace. -/
theorem readValue_append_of_object {d : Nat} {s rest : List Char} {members : Members}
    (h : readValue d s = some (.object members, rest)) :
    ∃ pre, s = pre ++ '\x7d' :: rest ∧
      ∀ t, readValue d (pre ++ '\x7d' :: t) = some (.object members, t) := by
  have hreads := readValue_eq_some_iff.1 h
  generalize hv : Json.object members = v at hreads
  cases hreads with
  | @object d s pairs hpairs =>
      have hmember := readMember_local (readValue_local d) (readValue_nil d)
      obtain ⟨pre, rfl, hpre⟩ :=
        readSequence_enclosed hmember (isMark_of_mem (by simp)) _ _ _ hpairs
      exact ⟨'\x7b' :: pre, rfl, fun t => readValue_eq_some_iff.2 (.object (hpre t))⟩
  | _ => cases hv

/-- What begins with a brace reads as an object, if it reads. -/
theorem exists_object_of_brace {d : Nat} {s rest : List Char} {v : Json}
    (h : readValue d ('\x7b' :: s) = some (v, rest)) : ∃ members, v = .object members := by
  cases readValue_eq_some_iff.1 h with
  | object h => exact ⟨_, rfl⟩
  | number hc => simp at hc

/-! ### What is read is ordered -/

/-- What holds of every item that is read holds of all items of an array or object. -/
theorem readItems_forall {α : Type} {item : Reader α} {close : Char} {P : α → Prop} {fuel : Nat}
    {acc xs : List α} {s rest : List Char} (hitem : ∀ s x rest, item s = some (x, rest) → P x)
    (hacc : ∀ x ∈ acc, P x) (h : readItems item close fuel acc s = some (xs, rest)) :
    ∀ x ∈ xs, P x := by
  induction fuel generalizing acc s with
  | zero => cases h
  | succ fuel ih =>
      rw [readItems, Option.bind_eq_bind, Option.bind_eq_some_iff] at h
      obtain ⟨⟨x, s₁⟩, hx, h⟩ := h
      have hacc' : ∀ y ∈ x :: acc, P y := by
        intro y hy
        rcases List.mem_cons.1 hy with rfl | hy
        · exact hitem _ _ _ hx
        · exact hacc y hy
      simp only at h
      split at h
      · cases h
      · split at h
        · cases h
          exact fun y hy => hacc' y (List.mem_reverse.1 hy)
        · obtain ⟨-, h⟩ := Option.ite_none_right_eq_some.1 h
          exact ih hacc' h

theorem readSequence_forall {α : Type} {item : Reader α} {close : Char} {P : α → Prop}
    {xs : List α} {s rest : List Char} (hitem : ∀ s x rest, item s = some (x, rest) → P x)
    (h : readSequence item close s = some (xs, rest)) : ∀ x ∈ xs, P x := by
  rw [readSequence.eq_def] at h
  split at h
  · cases h
  · split at h
    · cases h
      exact fun x hx => by cases hx
    · exact readItems_forall hitem (fun x hx => by cases hx) h

/-- The value of a member is read. -/
theorem readMember_forall {value : Reader Json} {P : Json → Prop}
    (hvalue : ∀ s v rest, value s = some (v, rest) → P v) {s rest : List Char} {p : String × Json}
    (h : readMember value s = some (p, rest)) : P p.2 := by
  rw [readMember.eq_def] at h
  split at h
  · rw [Option.bind_eq_bind, Option.bind_eq_some_iff] at h
    obtain ⟨⟨key, s₁⟩, -, h⟩ := h
    simp only at h
    split at h
    · rw [Option.bind_eq_bind, Option.bind_eq_some_iff] at h
      obtain ⟨⟨v, s₃⟩, hv, h⟩ := h
      cases h
      exact hvalue _ _ _ hv
    · cases h
  · cases h

/-- **What is read is ordered**, in whatever order the members of objects stood. -/
theorem readValue_isOrdered {d : Nat} {s rest : List Char} {v : Json}
    (h : readValue d s = some (v, rest)) : v.IsOrdered := by
  induction d using Nat.strongRecOn generalizing s rest v with
  | ind d ih =>
      cases readValue_eq_some_iff.1 h with
      | @array d s items hitems =>
          refine everywhere_array.2 ⟨trivial, ?_⟩
          exact readSequence_forall (fun _ _ _ hv => ih d (Nat.lt_succ_self d) hv) hitems
      | @object d s pairs hpairs =>
          refine Everywhere.ofPairs (Members.isAscending_ofList _) ?_
          exact readSequence_forall (P := fun p => p.2.IsOrdered) (fun _ _ _ hp =>
            readMember_forall (fun _ _ _ hv => ih d (Nat.lt_succ_self d) hv) hp) hpairs
      | _ => trivial

theorem parseChars?_isOrdered {s : List Char} {v : Json} (h : parseChars? s = some v) :
    v.IsOrdered := by
  rw [parseChars?, Option.bind_eq_bind, Option.bind_eq_some_iff] at h
  obtain ⟨⟨v', rest⟩, hread, h⟩ := h
  obtain ⟨-, he⟩ := Option.ite_none_right_eq_some.1 h
  cases he
  exact readValue_isOrdered hread

/-! ### Texts that are cut off -/

/-- **A text that is cut off inside an object does not read.** If nothing is left over where the
whole text reads, no proper part from its front reads, be it as it is or with characters at the cut
that are neither space nor braces. -/
theorem parseChars?_eq_none_of_cut {kept lost cut : List Char} (hlost : lost ≠ [])
    (hcut : ∀ c ∈ cut, isSpace c = false ∧ c ≠ '\x7d')
    (hwhole : ∀ v rest, readValue maxDepth ('\x7b' :: kept ++ lost) = some (v, rest) → rest = []) :
    parseChars? ('\x7b' :: kept ++ cut) = none := by
  rw [Option.eq_none_iff_forall_ne_some]
  intro v hv
  have hsolid : IsSolid ('\x7b' :: kept ++ cut) := by
    intro c hc
    cases hc
    decide
  rw [parseChars?, hsolid.skipSpace, Option.bind_eq_bind, Option.bind_eq_some_iff] at hv
  obtain ⟨⟨v', rest⟩, hread, hv⟩ := hv
  obtain ⟨hspace, -⟩ := Option.ite_none_right_eq_some.1 hv
  obtain ⟨members, rfl⟩ := exists_object_of_brace hread
  obtain ⟨pre, hpre, hlocal⟩ := readValue_append_of_object hread
  have hrest : ∀ c ∈ rest, isSpace c = true := by
    obtain ⟨sp, hsplit, hsp, -, -⟩ := exists_space rest
    rw [List.isEmpty_iff.1 hspace, List.append_nil] at hsplit
    rwa [hsplit]
  -- the object ends inside the part that was kept, so the whole text reads too, and leaves the rest
  have hnil : cut = [] := by
    refine Decidable.byContradiction fun hne => ?_
    obtain ⟨hsp, hbrace⟩ := hcut (cut.getLast hne) (List.getLast_mem hne)
    have hlast : cut.getLast hne = ('\x7d' :: rest).getLast (List.cons_ne_nil _ _) := by
      have h := congrArg List.getLast? hpre
      rwa [List.getLast?_append, List.getLast?_append, List.getLast?_eq_some_getLast hne,
        List.getLast?_eq_some_getLast (List.cons_ne_nil _ rest), Option.some_or, Option.some_or,
        Option.some.injEq] at h
    rcases List.mem_cons.1 (hlast ▸ List.getLast_mem (List.cons_ne_nil '\x7d' rest)) with h | h
    · exact hbrace h
    · rw [hrest _ h] at hsp
      cases hsp
  subst hnil
  rw [List.append_nil] at hpre
  have hall := hlocal (rest ++ lost)
  rw [← List.cons_append, ← List.append_assoc, ← hpre] at hall
  exact hlost (List.append_eq_nil_iff.1 (hwhole _ _ hall)).2

end LateBinding.Json
