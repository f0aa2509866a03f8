import Mathlib.Data.List.Induction
import Mathlib.Data.String.Basic
import Mathlib.Logic.Function.Basic
import LateBinding.Json.Value

/-!
**An object is the map from its keys to its values.**

Where the members of an object stand in ascending order, setting and removing a key do what they do
to a map, keep the order, and give the same members whatever the order of the edits was. A value is
*ordered* if the members of all objects in it are, and *whole* if all its numbers are whole ones of
64 bits.

Main definitions:

* `LateBinding.Json.Members.IsAscending` — the keys stand in strictly ascending order;
* `LateBinding.Json.lastOf?` — of the pairs with a key the last one counts;
* `LateBinding.Json.Everywhere` — something holds of a value and of all values in it;
* `LateBinding.Json.IsOrdered`, `LateBinding.Json.IsWhole`, `LateBinding.Json.IsExact`.

Main results:

* `LateBinding.Json.Members.get?_put`, `LateBinding.Json.Members.get?_remove` — **what an edit does
  to the map**;
* `LateBinding.Json.Members.ofList_eq_self` — members in ascending order are collected as they are;
* `LateBinding.Json.Members.get?_ofList` — what is collected maps a key to the value of its last
  pair;
* `LateBinding.Json.Members.ext` — **members in ascending order are equal if they map alike**;
* `LateBinding.Json.Everywhere.ofPairs` — what holds of all values of a list of pairs holds
  everywhere in the object that they make.
-/

set_option autoImplicit false

namespace LateBinding.Json

namespace Members

variable {m rest : Members} {key k : String} {value v : Json}

/-- The keys stand in strictly ascending order. -/
def IsAscending (m : Members) : Prop := m.Pairwise fun a b => a.1 < b.1

theorem isAscending_cons :
    IsAscending ((k, v) :: rest) ↔ (∀ p ∈ rest, k < p.1) ∧ IsAscending rest :=
  List.pairwise_cons

/-! ### Where members come from -/

theorem mem_put {p : String × Json} (hp : p ∈ put key value m) : p = (key, value) ∨ p ∈ m := by
  induction m with
  | nil => exact Or.inl (List.mem_singleton.1 hp)
  | cons q rest ih =>
      obtain ⟨k, v⟩ := q
      rw [put] at hp
      split at hp
      · rcases List.mem_cons.1 hp with rfl | hp
        · exact Or.inl rfl
        · exact Or.inr (List.mem_cons_of_mem _ hp)
      · split at hp
        · exact List.mem_cons.1 hp
        · rcases List.mem_cons.1 hp with rfl | hp
          · exact Or.inr List.mem_cons_self
          · exact (ih hp).imp_right (List.mem_cons_of_mem _)

theorem mem_remove {p : String × Json} (hp : p ∈ remove key m) : p ∈ m := by
  induction m with
  | nil => cases hp
  | cons q rest ih =>
      rw [remove] at hp
      split at hp
      · exact List.mem_cons_of_mem _ hp
      · rcases List.mem_cons.1 hp with rfl | hp
        · exact List.mem_cons_self
        · exact List.mem_cons_of_mem _ (ih hp)

/-! ### Order -/

theorem IsAscending.put (hm : IsAscending m) : IsAscending (put key value m) := by
  induction m with
  | nil => exact List.pairwise_singleton _ _
  | cons q rest ih =>
      obtain ⟨k, v⟩ := q
      obtain ⟨hk, hrest⟩ := isAscending_cons.1 hm
      rw [Members.put]
      split
      · next he =>
          subst he
          exact isAscending_cons.2 ⟨hk, hrest⟩
      · next hne =>
          split
          · next hlt =>
              refine isAscending_cons.2 ⟨fun p hp => ?_, hm⟩
              rcases List.mem_cons.1 hp with rfl | hp
              · exact hlt
              · exact hlt.trans (hk p hp)
          · next hnlt =>
              refine isAscending_cons.2 ⟨fun p hp => ?_, ih hrest⟩
              rcases mem_put hp with rfl | hp
              · exact lt_of_le_of_ne (not_lt.1 hnlt) (Ne.symm hne)
              · exact hk p hp

theorem IsAscending.remove (hm : IsAscending m) : IsAscending (remove key m) := by
  induction m with
  | nil => exact hm
  | cons q rest ih =>
      obtain ⟨k, v⟩ := q
      obtain ⟨hk, hrest⟩ := isAscending_cons.1 hm
      rw [Members.remove]
      split
      · exact hrest
      · exact isAscending_cons.2 ⟨fun p hp => hk p (mem_remove hp), ih hrest⟩

/-! ### Lookups -/

/-- A key that stands before all others is not among them. -/
theorem get?_eq_none (hk : ∀ p ∈ m, key < p.1) : get? key m = none := by
  induction m with
  | nil => rfl
  | cons q rest ih =>
      have hlt : key < q.1 := hk q List.mem_cons_self
      rw [get?, if_neg hlt.ne', ih fun p hp => hk p (List.mem_cons_of_mem _ hp)]

/-- **A key that is set has its value, and the others keep theirs.** -/
theorem get?_put : get? k (put key value m) = if k = key then some value else get? k m := by
  induction m with
  | nil => simp [put, get?, eq_comm]
  | cons q rest ih =>
      obtain ⟨k', v⟩ := q
      rw [put]
      split
      · next he =>
          subst he
          by_cases hk : k = key
          · subst hk
            simp [get?]
          · have hne : ¬ key = k := fun h => hk h.symm
            simp [get?, hk, hne]
      · next hne =>
          split
          · rw [get?]
            by_cases hk : key = k
            · subst hk
              simp
            · have hne' : ¬ k = key := fun h => hk h.symm
              simp [hk, hne']
          · rw [get?, ih, get?]
            by_cases hk : k' = k
            · subst hk
              have hne' : ¬ k' = key := fun h => hne h.symm
              simp [hne']
            · simp [hk]

/-- **A key that is removed has no value, and the others keep theirs.** -/
theorem get?_remove (hm : IsAscending m) :
    get? k (remove key m) = if k = key then none else get? k m := by
  induction m with
  | nil => simp [remove, get?]
  | cons q rest ih =>
      obtain ⟨k', v⟩ := q
      obtain ⟨hk', hrest⟩ := isAscending_cons.1 hm
      rw [remove]
      split
      · next he =>
          subst he
          by_cases hk : k = k'
          · subst hk
            rw [if_pos rfl, get?_eq_none hk']
          · rw [if_neg hk, get?, if_neg (Ne.symm hk)]
      · next hne =>
          rw [get?, ih hrest, get?]
          by_cases hk : k' = k
          · subst hk
            simp [hne]
          · simp [hk]

/-! ### Members from pairs -/

/-- A member after all others is put at the end. -/
theorem put_eq_concat (hm : ∀ p ∈ m, p.1 < key) : put key value m = m ++ [(key, value)] := by
  induction m with
  | nil => rfl
  | cons q rest ih =>
      obtain ⟨k, v⟩ := q
      have hlt : k < key := hm (k, v) List.mem_cons_self
      rw [put, if_neg hlt.ne', if_neg hlt.not_gt, ih fun p hp => hm p (List.mem_cons_of_mem _ hp)]
      rfl

/-- Pairs are collected one after the other. -/
theorem ofList_concat (pairs : List (String × Json)) (p : String × Json) :
    ofList (pairs ++ [p]) = put p.1 p.2 (ofList pairs) := by
  simp [ofList]

theorem isAscending_ofList (pairs : List (String × Json)) : IsAscending (ofList pairs) := by
  induction pairs using List.reverseRecOn with
  | nil => exact List.Pairwise.nil
  | append_singleton pairs p ih =>
      rw [ofList_concat]
      exact ih.put

theorem mem_of_mem_ofList {pairs : List (String × Json)} {p : String × Json}
    (hp : p ∈ ofList pairs) : p ∈ pairs := by
  induction pairs using List.reverseRecOn with
  | nil => cases hp
  | append_singleton pairs q ih =>
      rw [ofList_concat] at hp
      rcases mem_put hp with rfl | hp
      · exact List.mem_append_right _ List.mem_cons_self
      · exact List.mem_append_left _ (ih hp)

/-- **Members in ascending order are collected as they are.** -/
theorem ofList_eq_self (hm : IsAscending m) : ofList m = m := by
  induction m using List.reverseRecOn with
  | nil => rfl
  | append_singleton m p ih =>
      obtain ⟨hm, -, hlt⟩ := List.pairwise_append.1 hm
      rw [ofList_concat, ih hm]
      exact put_eq_concat fun q hq => hlt q hq p List.mem_cons_self

end Members

/-! ### The last of equal keys -/

/-- What stands under a key in a list of pairs; of two pairs with one key the later one counts. -/
def lastOf? {α : Type} (key : String) : List (String × α) → Option α
  | [] => none
  | (k, x) :: rest => (lastOf? key rest).or (if k = key then some x else none)

theorem lastOf?_append {α : Type} {key : String} (xs ys : List (String × α)) :
    lastOf? key (xs ++ ys) = (lastOf? key ys).or (lastOf? key xs) := by
  induction xs with
  | nil => simp [lastOf?]
  | cons p xs ih =>
      obtain ⟨k, x⟩ := p
      rw [List.cons_append, lastOf?, lastOf?, ih, Option.or_assoc]

namespace Members

variable {m m' : Members} {key k : String}

/-- **What is collected maps a key to the value of its last pair.** -/
theorem get?_ofList (pairs : List (String × Json)) :
    get? key (ofList pairs) = lastOf? key pairs := by
  induction pairs using List.reverseRecOn with
  | nil => rfl
  | append_singleton pairs p ih =>
      obtain ⟨k, v⟩ := p
      rw [ofList_concat, get?_put, lastOf?_append, ih]
      by_cases hk : key = k
      · subst hk
        simp [lastOf?]
      · have hne : ¬k = key := fun h => hk h.symm
        simp [lastOf?, hk, hne]

/-- The first key of members in ascending order is their least one. -/
theorem IsAscending.le_of_get? {v v' : Json} {rest : Members}
    (hm : IsAscending ((k, v) :: rest)) (hv : get? key ((k, v) :: rest) = some v') : k ≤ key := by
  refine le_of_not_gt fun hlt => ?_
  have hnone : get? key ((k, v) :: rest) = none := by
    refine get?_eq_none fun p hp => ?_
    rcases List.mem_cons.1 hp with rfl | hp
    · exact hlt
    · exact hlt.trans ((isAscending_cons.1 hm).1 p hp)
  rw [hnone] at hv
  cases hv

/-- **Members in ascending order are equal if they map alike.** -/
theorem ext (hm : IsAscending m) (hm' : IsAscending m') (h : ∀ k, get? k m = get? k m') :
    m = m' := by
  induction m generalizing m' with
  | nil =>
      cases m' with
      | nil => rfl
      | cons p rest =>
          have hp := h p.1
          simp [get?] at hp
  | cons p rest ih =>
      obtain ⟨k, v⟩ := p
      cases m' with
      | nil =>
          have hp := h k
          simp [get?] at hp
      | cons p' rest' =>
          obtain ⟨k', v'⟩ := p'
          have hv : get? k ((k, v) :: rest) = some v := by simp [get?]
          have hv' : get? k' ((k', v') :: rest') = some v' := by simp [get?]
          have hk : k = k' :=
            le_antisymm (hm.le_of_get? ((h k').trans hv')) (hm'.le_of_get? ((h k).symm.trans hv))
          subst hk
          obtain rfl : v = v' := Option.some.inj (hv.symm.trans ((h k).trans hv'))
          obtain ⟨hlt, hrest⟩ := isAscending_cons.1 hm
          obtain ⟨hlt', hrest'⟩ := isAscending_cons.1 hm'
          -- behind the first key the maps agree as well, as none of them goes on with it
          have hall : ∀ key, get? key rest = get? key rest' := by
            intro key
            by_cases he : k = key
            · subst he
              rw [get?_eq_none hlt, get?_eq_none hlt']
            · have hkey := h key
              rwa [get?, get?, if_neg he, if_neg he] at hkey
          rw [ih hrest hrest' hall]

end Members

/-! ### What holds everywhere in a value -/

mutual

/-- Something holds of a value and of all values in it. -/
def Everywhere (P : Json → Prop) : Json → Prop
  | .array items => P (.array items) ∧ itemsEverywhere P items
  | .object members => P (.object members) ∧ membersEverywhere P members
  | v => P v

/-- Something holds everywhere in some items. -/
def itemsEverywhere (P : Json → Prop) : List Json → Prop
  | [] => True
  | v :: rest => v.Everywhere P ∧ itemsEverywhere P rest

/-- Something holds everywhere in the values of some members. -/
def membersEverywhere (P : Json → Prop) : List (String × Json) → Prop
  | [] => True
  | (_, v) :: rest => v.Everywhere P ∧ membersEverywhere P rest

end

section Everywhere

variable {P : Json → Prop}

theorem itemsEverywhere_iff {items : List Json} :
    itemsEverywhere P items ↔ ∀ v ∈ items, v.Everywhere P := by
  induction items with
  | nil => simp [itemsEverywhere]
  | cons v rest ih => simp [itemsEverywhere, ih]

theorem membersEverywhere_iff {members : Members} :
    membersEverywhere P members ↔ ∀ p ∈ members, p.2.Everywhere P := by
  induction members with
  | nil => simp [membersEverywhere]
  | cons p rest ih => simp [membersEverywhere, ih]

theorem everywhere_array {items : List Json} :
    (Json.array items).Everywhere P ↔ P (.array items) ∧ ∀ v ∈ items, v.Everywhere P := by
  rw [Everywhere, itemsEverywhere_iff]

theorem everywhere_object {members : Members} :
    (Json.object members).Everywhere P ↔ P (.object members) ∧ ∀ p ∈ members, p.2.Everywhere P := by
  rw [Everywhere, membersEverywhere_iff]

/-- What holds of all values of a list of pairs holds everywhere in the object that they make. -/
theorem Everywhere.ofPairs {pairs : List (String × Json)}
    (hP : P (.object (Members.ofList pairs))) (hp : ∀ p ∈ pairs, p.2.Everywhere P) :
    (Json.ofPairs pairs).Everywhere P :=
  everywhere_object.2 ⟨hP, fun p h => hp p (Members.mem_of_mem_ofList h)⟩

end Everywhere

/-- A number is whole and has 64 bits, with a sign or without. -/
def Number.IsWhole : Number → Prop
  | .whole n => -0x8000000000000000 ≤ n ∧ n ≤ maxWord
  | .double _ => False

/-- The members of all objects in a value stand in ascending order. -/
def IsOrdered : Json → Prop :=
  Everywhere fun
    | .object members => Members.IsAscending members
    | _ => True

/-- All numbers in a value are whole. -/
def IsWhole : Json → Prop :=
  Everywhere fun
    | .number n => n.IsWhole
    | _ => True

/-- A value that is ordered and whole. -/
def IsExact (v : Json) : Prop := v.IsOrdered ∧ v.IsWhole

namespace IsExact

variable {items : List Json} {members : Members}

theorem of_number {n : Number} (hv : (Json.number n).IsExact) : n.IsWhole := hv.2

theorem array_iff : (Json.array items).IsExact ↔ ∀ v ∈ items, v.IsExact := by
  rw [IsExact, IsOrdered, IsWhole, everywhere_array, everywhere_array]
  constructor
  · rintro ⟨⟨-, ho⟩, -, hw⟩
    exact fun v hv => ⟨ho v hv, hw v hv⟩
  · exact fun he => ⟨⟨trivial, fun v hv => (he v hv).1⟩, trivial, fun v hv => (he v hv).2⟩

/-- An exact object has its members in ascending order, and their values are exact. -/
theorem object_iff :
    (Json.object members).IsExact ↔ Members.IsAscending members ∧ ∀ p ∈ members, p.2.IsExact := by
  rw [IsExact, IsOrdered, IsWhole, everywhere_object, everywhere_object]
  constructor
  · rintro ⟨⟨ha, ho⟩, -, hw⟩
    exact ⟨ha, fun p hp => ⟨ho p hp, hw p hp⟩⟩
  · rintro ⟨ha, he⟩
    exact ⟨⟨ha, fun p hp => (he p hp).1⟩, trivial, fun p hp => (he p hp).2⟩

/-- The empty object is exact. -/
theorem empty : (Json.object []).IsExact := object_iff.2 ⟨List.Pairwise.nil, nofun⟩

theorem put {key : String} {value : Json} (hm : (Json.object members).IsExact)
    (hv : value.IsExact) : (Json.object (members.put key value)).IsExact := by
  obtain ⟨ha, he⟩ := object_iff.1 hm
  refine object_iff.2 ⟨ha.put, fun p hp => ?_⟩
  rcases Members.mem_put hp with rfl | hp
  · exact hv
  · exact he p hp

theorem remove {key : String} (hm : (Json.object members).IsExact) :
    (Json.object (members.remove key)).IsExact := by
  obtain ⟨ha, he⟩ := object_iff.1 hm
  exact object_iff.2 ⟨ha.remove, fun p hp => he p (Members.mem_remove hp)⟩

end IsExact

end LateBinding.Json
