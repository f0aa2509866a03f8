import LateBinding.Json.Printer
import LateBinding.Proofs.Json.Locality

/-!
**What is written is read back, unless it nests too deep.**

The text of an exact value, with anything after it that does not go on with a number, reads as that
very value and leaves what comes after. The one limit is the depth: where more arrays and objects
stand inside one another than the reader may open, it reads nothing.

Main definitions:

* `LateBinding.Json.listing` — items as they stand between the marks of an array or object.

Main results:

* `LateBinding.Json.scanString_renderString`, `LateBinding.Json.scanNumeral_render` — strings and
  whole numbers are read back;
* `LateBinding.Json.readSequence_listing` — so are items, if each is;
* `LateBinding.Json.readValue_renderChars` — **the text of a value reads as the value exactly if it
  nests no deeper than may be read**;
* `LateBinding.Json.isPrinted_renderChars` — the text of a value has no control characters.
-/

set_option autoImplicit false

namespace LateBinding.Json

/-! ### Whole numbers -/

section Numbers

theorem isDigit_of_isDigit {c : Char} (hc : c.isDigit = true) : isDigit c = true := by
  simpa [isDigit, Char.isDigit, Char.le_def, UInt32.le_iff_toNat_le] using hc

theorem isDigit_of_mem_natDigits {n : Nat} {c : Char} (hc : c ∈ natDigits n) : isDigit c = true :=
  isDigit_of_isDigit (Nat.isDigit_of_mem_toDigits (by omega) (by omega) hc)

theorem natDigits_ne_nil (n : Nat) : natDigits n ≠ [] := Nat.toDigits_ne_nil

theorem digitsValue_natDigits (n : Nat) : digitsValue (natDigits n) = n := by
  have hfold : digitsValue (natDigits n) = Nat.ofDigitChars 10 (natDigits n) 0 := by
    simp only [digitsValue, Nat.ofDigitChars, digitValue, Nat.mul_comm]
    rfl
  rw [hfold]
  exact Nat.ofDigitChars_ten_toDigits

/-- The digits of a number begin with a zero only for zero itself. -/
theorem head?_natDigits {n : Nat} (hn : 0 < n) : (natDigits n).head? ≠ some '0' := by
  induction n using Nat.strongRecOn with
  | ind n ih =>
      rw [natDigits, Nat.toDigits_eq_if (by omega)]
      split
      · next hlt =>
          have hall : ∀ k : Fin 10, 0 < k.val → [k.val.digitChar].head? ≠ some '0' := by decide
          exact hall ⟨n, hlt⟩ hn
      · next hlt =>
          have hrec := ih (n / 10) (by omega) (by omega)
          rwa [List.head?_append_of_ne_nil _ Nat.toDigits_ne_nil]

theorem scanWhole_natDigits {n : Nat} {t : List Char} (ht : ∀ c ∈ t.head?, isDigit c = false) :
    scanWhole (natDigits n ++ t) = some (natDigits n, t) := by
  rw [scanWhole, scanDigits_append (fun c => isDigit_of_mem_natDigits) (natDigits_ne_nil n) ht]
  refine if_neg ?_
  rcases Nat.eq_zero_or_pos n with rfl | hn
  · decide
  · simp [head?_natDigits hn]

theorem scanUnsigned_natDigits {negative : Bool} {n : Nat} {t : List Char} (ht : Terminated t) :
    scanUnsigned negative (natDigits n ++ t) = some (⟨negative, natDigits n, none, none⟩, t) := by
  have hfraction : scanFraction t = some (none, t) := by
    rw [scanFraction]
    rintro rest rfl
    exact (ht '.' rfl).2.1 rfl
  have hexponent : scanExponent t = some (none, t) := scanExponent_none fun c hc => (ht c hc).2.2
  simp [scanUnsigned, scanWhole_natDigits fun c hc => (ht c hc).1, hfraction, hexponent]

/-- **A whole number is read back as its sign and its digits.** -/
theorem scanNumeral_render {n : Int} {t : List Char} (ht : Terminated t) :
    scanNumeral ((Number.whole n).render ++ t) =
      some (⟨decide (n < 0), natDigits n.natAbs, none, none⟩, t) := by
  rw [Number.render]
  by_cases hn : n < 0
  · rw [if_pos hn, List.append_assoc, List.singleton_append, scanNumeral, scanUnsigned_natDigits ht]
    simp [hn]
  · rw [if_neg hn, List.nil_append, scanNumeral, scanUnsigned_natDigits ht]
    · simp [hn]
    · intro rest heq
      obtain ⟨c, ds, hds⟩ := List.exists_cons_of_ne_nil (natDigits_ne_nil n.natAbs)
      rw [hds] at heq
      obtain ⟨rfl, -⟩ := List.cons.inj heq
      have hdigit : isDigit '-' = true := isDigit_of_mem_natDigits (n := n.natAbs) (by simp [hds])
      cases hdigit

/-- The numeral of a whole number of 64 bits is that number. -/
theorem toNumber?_natDigits {n : Int} (hn : (Number.whole n).IsWhole) :
    Numeral.toNumber? ⟨decide (n < 0), natDigits n.natAbs, none, none⟩ = some (.whole n) := by
  obtain ⟨hlow, hhigh⟩ := hn
  simp only [maxWord] at hhigh
  simp only [Numeral.toNumber?, digitsValue_natDigits]
  by_cases hneg : n < 0
  · rw [if_neg (by simp only [maxWord]; omega), if_neg (by simp [hneg]), if_neg (by omega),
      if_pos (by omega)]
    congr 2
    omega
  · rw [if_neg (by simp only [maxWord]; omega), if_pos (by simp [hneg])]
    congr 2
    omega

/-- A number begins with a digit or a sign. -/
theorem exists_render_cons {n : Number} (hn : n.IsWhole) :
    ∃ c cs, n.render = c :: cs ∧ (isDigit c = true ∨ c = '-') := by
  cases n with
  | whole n =>
      obtain ⟨c, ds, hds⟩ := List.exists_cons_of_ne_nil (natDigits_ne_nil n.natAbs)
      rw [Number.render, hds]
      by_cases hneg : n < 0
      · exact ⟨'-', c :: ds, by rw [if_pos hneg]; rfl, Or.inr rfl⟩
      · exact ⟨c, ds, by rw [if_neg hneg]; rfl,
          Or.inl (isDigit_of_mem_natDigits (n := n.natAbs) (by simp [hds]))⟩
  | double bits => exact hn.elim

end Numbers

/-! ### Strings -/

section Strings

variable {acc rest : List Char}

theorem digit?_digit {n : Nat} (hn : n < 16) : Hex.digit? (Hex.digit n) = some n := by
  have hall : ∀ k : Fin 16, Hex.digit? (Hex.digit k.val) = some k.val := by decide
  exact hall ⟨n, hn⟩

/-- Four digits give back a control character. -/
theorem hex4?_digits {n : Nat} (hn : n < 0x20) :
    hex4? '0' '0' (Hex.digit (n / 16)) (Hex.digit (n % 16)) = some n := by
  have hzero : Hex.digit? '0' = some 0 := by decide
  simp only [hex4?, hzero, digit?_digit (n := n / 16) (by omega),
    digit?_digit (n := n % 16) (by omega), Option.bind_eq_bind, Option.bind_some, Option.pure_def,
    Option.some.injEq]
  omega

/-- **A character is read back as it is written.** -/
theorem scanOnto_renderChar (c : Char) :
    scanOnto acc (renderChar c ++ rest) = scanOnto (c :: acc) rest := by
  rw [renderChar.eq_def]
  split
  any_goals exact scanOnto_escape rfl
  next hmark hback _ _ _ _ _ =>
    split
    · next hlow =>
        have hn := hex4?_digits hlow
        refine (scanOnto_unit hn ?_ ?_).trans (by rw [Char.ofNat_toNat]; rfl)
        · simp only [isTrailing, Bool.and_eq_false_iff, decide_eq_false_iff_not]
          omega
        · simp only [isLeading, Bool.and_eq_false_iff, decide_eq_false_iff_not]
          omega
    · next hlow => exact scanOnto_plain (by omega) hmark hback

theorem scanOnto_flatMap (cs : List Char) :
    scanOnto acc (cs.flatMap renderChar ++ '"' :: rest) = some (acc.reverse ++ cs, rest) := by
  induction cs generalizing acc with
  | nil => rw [List.append_nil]; exact scanOnto_mark
  | cons c cs ih =>
      rw [List.flatMap_cons, List.append_assoc, scanOnto_renderChar, ih]
      simp

/-- **A string is read back.** -/
theorem scanString_renderString (s : String) :
    ∃ cs, renderString s = '"' :: cs ∧ ∀ t, scanString (cs ++ t) = some (s, t) := by
  refine ⟨_, rfl, fun t => ?_⟩
  rw [List.append_assoc, List.singleton_append, scanString, scanOnto_flatMap]
  simp

end Strings

/-! ### Items -/

section Items

variable {α : Type} {item : Reader α} {shown : α → List Char} {good : α → Prop} [DecidablePred good]
  {close : Char}

/-- Items as they stand after the opening mark of an array or object, the closing mark included. -/
def listing (shown : α → List Char) (close : Char) : List α → List Char
  | [] => [close]
  | x :: xs => shown x ++ xs.flatMap (fun y => ',' :: shown y) ++ [close]

/-- An item begins with a character that is no space and does not close. -/
def BeginsItem (close : Char) (s : List Char) : Prop :=
  ∃ c cs, s = c :: cs ∧ isSpace c = false ∧ c ≠ close

theorem BeginsItem.isSolid {s t : List Char} (h : BeginsItem close s) : IsSolid (s ++ t) := by
  obtain ⟨c, cs, rfl, hc, -⟩ := h
  intro d hd
  cases hd
  exact hc

/-- Items are read back one after the other, up to the first that is not. -/
theorem readItems_listing {x : α} {xs acc : List α} {fuel : Nat} {t : List Char}
    (hclose : IsMark close) (hne : close ≠ ',')
    (hitem : ∀ y ∈ x :: xs, ∀ t, Terminated t →
      item (shown y ++ t) = if good y then some (y, t) else none)
    (hbegin : ∀ y ∈ xs, BeginsItem close (shown y)) (hfuel : xs.length < fuel) :
    readItems item close fuel acc
        (shown x ++ (xs.flatMap (fun y => ',' :: shown y) ++ close :: t)) =
      if ∀ y ∈ x :: xs, good y then some (acc.reverse ++ x :: xs, t) else none := by
  induction xs generalizing x acc fuel with
  | nil =>
      obtain ⟨n, rfl⟩ : ∃ n, fuel = n + 1 := ⟨fuel - 1, by omega⟩
      rw [List.flatMap_nil, List.nil_append, readItems, hitem x List.mem_cons_self _ (hclose.2 t)]
      by_cases hx : good x
      · simp [hx, hclose.isSolid.skipSpace]
      · simp [hx]
  | cons y xs ih =>
      obtain ⟨n, rfl⟩ : ∃ n, fuel = n + 1 := ⟨fuel - 1, by omega⟩
      have hcomma : IsMark ',' := isMark_of_mem (by simp)
      have hrest : readItems item close n (x :: acc)
          (shown y ++ (xs.flatMap (fun y => ',' :: shown y) ++ close :: t)) =
            if ∀ z ∈ y :: xs, good z then some ((x :: acc).reverse ++ y :: xs, t) else none :=
        ih (fun z hz => hitem z (List.mem_cons_of_mem _ hz))
          (fun z hz => hbegin z (List.mem_cons_of_mem _ hz)) (by simpa using hfuel)
      rw [List.flatMap_cons, List.append_assoc, List.cons_append, readItems,
        hitem x List.mem_cons_self _ (hcomma.2 _)]
      by_cases hx : good x
      · rw [if_pos hx, Option.bind_eq_bind, Option.bind_some]
        simp only [hcomma.isSolid.skipSpace, if_neg (Ne.symm hne), if_pos,
          (hbegin y List.mem_cons_self).isSolid.skipSpace, hrest]
        simp [hx]
      · simp [hx]

/-- **The items of an array or object are read back if each of them is.** -/
theorem readSequence_listing {xs : List α} {t : List Char} (hclose : IsMark close)
    (hne : close ≠ ',')
    (hitem : ∀ y ∈ xs, ∀ t, Terminated t →
      item (shown y ++ t) = if good y then some (y, t) else none)
    (hbegin : ∀ y ∈ xs, BeginsItem close (shown y)) :
    readSequence item close (listing shown close xs ++ t) =
      if ∀ y ∈ xs, good y then some (xs, t) else none := by
  cases xs with
  | nil =>
      rw [listing, List.singleton_append, readSequence, hclose.isSolid.skipSpace]
      simp
  | cons x xs =>
      have hbx := hbegin x List.mem_cons_self
      obtain ⟨c, cs, hc, -, hcc⟩ := hbegin x List.mem_cons_self
      have htext : listing shown close (x :: xs) ++ t =
          shown x ++ (xs.flatMap (fun y => ',' :: shown y) ++ close :: t) := by
        simp [listing]
      rw [htext, readSequence, hbx.isSolid.skipSpace]
      rw [hc, List.cons_append]
      simp only [if_neg hcc]
      rw [← List.cons_append, ← hc]
      refine (readItems_listing hclose hne hitem
        (fun y hy => hbegin y (List.mem_cons_of_mem _ hy)) ?_).trans rfl
      -- every item but the first stands after a comma
      have hlen : ∀ ys : List α, ys.length ≤ (ys.flatMap fun y => ',' :: shown y).length := by
        intro ys
        induction ys with
        | nil => simp
        | cons y ys ih => simp only [List.flatMap_cons, List.length_append, List.length_cons]; omega
      have hxs := hlen xs
      simp only [List.length_append, List.length_cons]
      omega

end Items

/-! ### Values -/

section Values

/-- A member of an object as it stands. -/
def renderMember (p : String × Json) : List Char := renderString p.1 ++ ':' :: p.2.renderChars

theorem renderItems_eq (items : List Json) :
    renderItems items = items.flatMap (fun v => ',' :: v.renderChars) ++ [']'] := by
  induction items with
  | nil => rfl
  | cons v rest ih => simp [renderItems, ih]

theorem renderMembers_eq (members : Members) :
    renderMembers members = members.flatMap (fun p => ',' :: renderMember p) ++ ['\x7d'] := by
  induction members with
  | nil => rfl
  | cons p rest ih =>
      obtain ⟨k, v⟩ := p
      simp [renderMembers, renderMember, ih]

theorem renderChars_array (items : List Json) :
    (Json.array items).renderChars = '[' :: listing renderChars ']' items := by
  cases items with
  | nil => rfl
  | cons v rest => simp [renderChars, listing, renderItems_eq]

theorem renderChars_object (members : Members) :
    (Json.object members).renderChars = '\x7b' :: listing renderMember '\x7d' members := by
  cases members with
  | nil => rfl
  | cons p rest =>
      obtain ⟨k, v⟩ := p
      simp [renderChars, listing, renderMember, renderMembers_eq]

theorem itemsNesting_le_iff {items : List Json} {d : Nat} :
    itemsNesting items ≤ d ↔ ∀ v ∈ items, v.nesting ≤ d := by
  induction items with
  | nil => simp [itemsNesting]
  | cons v rest ih => simp [itemsNesting, ih]

theorem membersNesting_le_iff {members : Members} {d : Nat} :
    membersNesting members ≤ d ↔ ∀ p ∈ members, p.2.nesting ≤ d := by
  induction members with
  | nil => simp [membersNesting]
  | cons p rest ih => simp [membersNesting, ih]

theorem isSpace_of_isDigit {c : Char} (hc : isDigit c = true) : isSpace c = false := by
  rw [Bool.eq_false_iff]
  intro hs
  simp only [isSpace, Bool.or_eq_true, beq_iff_eq] at hs
  rcases hs with ((rfl | rfl) | rfl) | rfl <;> cases hc

/-- A value begins with a character that is no space and does not close an array. -/
theorem beginsItem_renderChars {v : Json} (hv : v.IsExact) : BeginsItem ']' v.renderChars := by
  cases v with
  | number n =>
      obtain ⟨c, cs, hc, hdigit⟩ := exists_render_cons hv.of_number
      refine ⟨c, cs, by rw [renderChars, hc], ?_, ?_⟩
      · rcases hdigit with hdigit | rfl
        · exact isSpace_of_isDigit hdigit
        · decide
      · rintro rfl
        rcases hdigit with hdigit | hdigit <;> cases hdigit
  | array items => exact ⟨_, _, renderChars_array items, by decide, by decide⟩
  | object members => exact ⟨_, _, renderChars_object members, by decide, by decide⟩
  | null => exact ⟨_, _, rfl, by decide, by decide⟩
  | bool b => cases b <;> exact ⟨_, _, rfl, by decide, by decide⟩
  | string s => exact ⟨_, _, rfl, by decide, by decide⟩

/-! ### Reading the text of a value -/

theorem readValue_array (d : Nat) (s : List Char) :
    readValue (d + 1) ('[' :: s) =
      (readSequence (readValue d) ']' s).map fun r => (.array r.1, r.2) := rfl

theorem readValue_object (d : Nat) (s : List Char) :
    readValue (d + 1) ('\x7b' :: s) =
      (readSequence (readMember (readValue d)) '\x7d' s).map fun r => (.ofPairs r.1, r.2) := rfl

/-- A member is read back if its value is. -/
theorem readMember_renderMember {value : Reader Json} {p : String × Json} {t : List Char}
    {x : Option (Json × List Char)} (hp : BeginsItem ']' p.2.renderChars)
    (hx : value (p.2.renderChars ++ t) = x) :
    readMember value (renderMember p ++ t) = x.map fun r => ((p.1, r.1), r.2) := by
  obtain ⟨cs, hcs, hscan⟩ := scanString_renderString p.1
  have hcolon : IsSolid (':' :: (p.2.renderChars ++ t)) := by
    intro c hc
    cases hc
    decide
  rw [renderMember, hcs, List.append_assoc, List.cons_append, List.cons_append, readMember, hscan,
    Option.bind_eq_bind, Option.bind_some]
  simp only [hcolon.skipSpace, hp.isSolid.skipSpace, hx]
  cases x <;> rfl

/-- What is not an array or object is read back whatever the depth. -/
theorem readValue_render_of_nesting_eq_zero {v : Json} {t : List Char} (hv : v.IsExact)
    (hn : v.nesting = 0) (d : Nat) (ht : Terminated t) :
    readValue d (v.renderChars ++ t) = some (v, t) := by
  rw [readValue_eq_some_iff]
  cases v with
  | null => exact .null
  | bool b =>
      cases b with
      | true => exact .true
      | false => exact .false
  | number n =>
      obtain ⟨c, cs, hc, hdigit⟩ := exists_render_cons hv.of_number
      have hmark : c ∉ ['"', '[', '\x7b', 'n', 't', 'f'] := by
        intro hmem
        simp only [List.mem_cons, List.not_mem_nil, or_false] at hmem
        rcases hdigit with hdigit | rfl
        · rcases hmem with rfl | rfl | rfl | rfl | rfl | rfl <;> cases hdigit
        · simp at hmem
      cases n with
      | whole n =>
          have hscan := scanNumeral_render (n := n) ht
          rw [renderChars, hc, List.cons_append]
          rw [hc, List.cons_append] at hscan
          exact .number hmark hscan (toNumber?_natDigits hv.of_number)
      | double bits => exact hv.of_number.elim
  | string s =>
      obtain ⟨cs, hcs, hscan⟩ := scanString_renderString s
      rw [renderChars, hcs]
      exact .string (hscan t)
  | array items => cases hn
  | object members => cases hn

/-- **The text of a value reads as the value exactly if it nests no deeper than may be read.** -/
theorem readValue_renderChars {v : Json} {t : List Char} (hv : v.IsExact) (d : Nat)
    (ht : Terminated t) :
    readValue d (v.renderChars ++ t) = if v.nesting ≤ d then some (v, t) else none := by
  -- arrays and objects hand one depth less to what stands in them
  induction d generalizing v t with
  | zero =>
      by_cases hn : v.nesting = 0
      · rw [readValue_render_of_nesting_eq_zero hv hn 0 ht, if_pos (by omega)]
      · rw [if_neg (by omega)]
        cases v with
        | array items => rw [renderChars_array]; rfl
        | object members => rw [renderChars_object]; rfl
        | _ => exact absurd rfl hn
  | succ d ih =>
      by_cases hn : v.nesting = 0
      · rw [readValue_render_of_nesting_eq_zero hv hn (d + 1) ht, if_pos (by omega)]
      · cases v with
        | array items =>
            have hitems := IsExact.array_iff.1 hv
            have hread : readSequence (readValue d) ']' (listing renderChars ']' items ++ t) =
                if ∀ v ∈ items, v.nesting ≤ d then some (items, t) else none :=
              readSequence_listing (isMark_of_mem (by simp)) (by decide)
                (fun v hv' t ht => ih (hitems v hv') ht)
                fun v hv' => beginsItem_renderChars (hitems v hv')
            rw [renderChars_array, List.cons_append, readValue_array, hread]
            simp only [nesting, Nat.add_le_add_iff_right, itemsNesting_le_iff]
            split <;> rfl
        | object members =>
            obtain ⟨hasc, hmembers⟩ := IsExact.object_iff.1 hv
            have hmember : ∀ p ∈ members, ∀ t, Terminated t →
                readMember (readValue d) (renderMember p ++ t) =
                  if p.2.nesting ≤ d then some (p, t) else none := by
              intro p hp t ht
              rw [readMember_renderMember (beginsItem_renderChars (hmembers p hp))
                (ih (hmembers p hp) ht)]
              split <;> rfl
            have hbegin : ∀ p ∈ members, BeginsItem '\x7d' (renderMember p) := fun p hp =>
              ⟨'"', _, rfl, by decide, by decide⟩
            have hread : readSequence (readMember (readValue d)) '\x7d'
                (listing renderMember '\x7d' members ++ t) =
                if ∀ p ∈ members, p.2.nesting ≤ d then some (members, t) else none :=
              readSequence_listing (isMark_of_mem (by simp)) (by decide) hmember hbegin
            rw [renderChars_object, List.cons_append, readValue_object, hread]
            simp only [nesting, Nat.add_le_add_iff_right, membersNesting_le_iff]
            split
            · simp [ofPairs, Members.ofList_eq_self hasc]
            · rfl
        | _ => exact absurd rfl hn

end Values

/-! ### The characters of a text -/

/-- A character that is no control character. -/
def IsPrinted (c : Char) : Prop := 0x20 ≤ c.toNat

instance (c : Char) : Decidable (IsPrinted c) := inferInstanceAs (Decidable (0x20 ≤ c.toNat))

theorem isPrinted_of_all {s : List Char} (hs : (s.all fun c => decide (IsPrinted c)) = true)
    {c : Char} (hc : c ∈ s) : IsPrinted c :=
  of_decide_eq_true (List.all_eq_true.1 hs c hc)

theorem isPrinted_of_isDigit {c : Char} (hc : isDigit c = true) : IsPrinted c := by
  simp only [isDigit, Bool.and_eq_true, decide_eq_true_eq, Char.le_def,
    UInt32.le_iff_toNat_le] at hc
  have hlow : 48 ≤ c.val.toNat := hc.1
  exact Nat.le_trans (by omega) hlow

theorem isPrinted_digit {n : Nat} (hn : n < 16) : IsPrinted (Hex.digit n) := by
  have hall : ∀ k : Fin 16, 0x20 ≤ (Hex.digit k.val).toNat := by decide
  exact hall ⟨n, hn⟩

theorem isPrinted_renderChar {c c' : Char} (hc : c' ∈ renderChar c) : IsPrinted c' := by
  rw [renderChar.eq_def] at hc
  split at hc
  any_goals
    simp only [List.mem_cons, List.not_mem_nil, or_false] at hc
    rcases hc with rfl | rfl <;> decide
  split at hc
  · next hlow =>
      simp only [List.mem_cons, List.not_mem_nil, or_false] at hc
      rcases hc with rfl | rfl | rfl | rfl | rfl | rfl
      any_goals decide
      · exact isPrinted_digit (by omega)
      · exact isPrinted_digit (by omega)
  · next hlow =>
      obtain rfl := List.mem_singleton.1 hc
      exact Nat.le_of_not_lt hlow

theorem isPrinted_renderString {s : String} {c : Char} (hc : c ∈ renderString s) : IsPrinted c := by
  rw [renderString] at hc
  simp only [List.mem_cons, List.mem_append, List.mem_flatMap, List.not_mem_nil, or_false] at hc
  rcases hc with rfl | ⟨c', -, hc⟩ | rfl
  · decide
  · exact isPrinted_renderChar hc
  · decide

theorem isPrinted_listing {α : Type} {shown : α → List Char} {close : Char} {xs : List α} {c : Char}
    (hclose : IsPrinted close) (hshown : ∀ x ∈ xs, ∀ c ∈ shown x, IsPrinted c)
    (hc : c ∈ listing shown close xs) : IsPrinted c := by
  cases xs with
  | nil =>
      obtain rfl := List.mem_singleton.1 hc
      exact hclose
  | cons x xs =>
      simp only [listing, List.mem_append, List.mem_flatMap, List.mem_cons, List.not_mem_nil,
        or_false] at hc
      rcases hc with (hc | ⟨y, hy, rfl | hc⟩) | rfl
      · exact hshown x List.mem_cons_self c hc
      · decide
      · exact hshown y (List.mem_cons_of_mem _ hy) c hc
      · exact hclose

/-- **The text of a value has no control characters**, whatever characters stand in its strings. -/
theorem isPrinted_renderChars {v : Json} (hv : v.IsExact) {c : Char} (hc : c ∈ v.renderChars) :
    IsPrinted c := by
  induction hn : v.nesting using Nat.strongRecOn generalizing v c with
  | ind n ih =>
      cases v with
      | null => exact isPrinted_of_all (s := "null".toList) (by decide) hc
      | bool b =>
          cases b with
          | true => exact isPrinted_of_all (s := "true".toList) (by decide) hc
          | false => exact isPrinted_of_all (s := "false".toList) (by decide) hc
      | number n =>
          cases n with
          | whole n =>
              rw [renderChars, Number.render] at hc
              rcases List.mem_append.1 hc with hc | hc
              · split at hc
                · obtain rfl := List.mem_singleton.1 hc
                  decide
                · cases hc
              · exact isPrinted_of_isDigit (isDigit_of_mem_natDigits hc)
          | double bits => exact hv.of_number.elim
      | string s => exact isPrinted_renderString hc
      | array items =>
          rw [renderChars_array] at hc
          rcases List.mem_cons.1 hc with rfl | hc
          · decide
          · refine isPrinted_listing (by decide) (fun v hv' c hc => ?_) hc
            have hle := itemsNesting_le_iff.1 (Nat.le_refl (itemsNesting items)) v hv'
            rw [nesting] at hn
            exact ih v.nesting (by omega) (IsExact.array_iff.1 hv v hv') hc rfl
      | object members =>
          rw [renderChars_object] at hc
          rcases List.mem_cons.1 hc with rfl | hc
          · decide
          · refine isPrinted_listing (by decide) (fun p hp c hc => ?_) hc
            have hle := membersNesting_le_iff.1 (Nat.le_refl (membersNesting members)) p hp
            rw [nesting] at hn
            rcases List.mem_append.1 hc with hc | hc
            · exact isPrinted_renderString hc
            · rcases List.mem_cons.1 hc with rfl | hc
              · decide
              · exact ih p.2.nesting (by omega) ((IsExact.object_iff.1 hv).2 p hp) hc rfl

theorem isPrinted_render {v : Json} (hv : v.IsExact) : ∀ c ∈ v.render.toList, IsPrinted c := by
  rw [render, String.toList_ofList]
  exact fun c hc => isPrinted_renderChars hv hc

/-- A zero character is a control character. -/
theorem IsPrinted.ne_zero {c : Char} (hc : IsPrinted c) : c ≠ '\x00' := by
  rintro rfl
  exact absurd hc (by decide)

end LateBinding.Json
