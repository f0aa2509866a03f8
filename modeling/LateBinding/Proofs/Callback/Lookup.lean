import LateBinding.Callback.Registry

/-!
**What each operation on a registry does to its lookups.**

A registry is seen through three questions: which entry is registered for an object, whether an
entry is marked, and for which object an entry was inserted. Inserting, marking and retiring change
one answer each.

Main definitions:

* `LateBinding.Callback.Registry.key?` — the object that an entry was inserted for.

Main results:

* `LateBinding.Callback.Registry.find?_insert`, `LateBinding.Callback.Registry.find?_mark`,
  `LateBinding.Callback.Registry.find?_retire` — what is registered afterwards;
* `LateBinding.Callback.Registry.isMarked_mark` — a mark is set on one entry only.
-/

set_option autoImplicit false

namespace LateBinding.Callback.Registry

variable {H : Type}

/-- The object that an entry was inserted for. -/
def key? (r : Registry H) (id : Nat) : Option Key := r.entries[id]?.map Entry.key

/-! ### What is registered -/

/-- Taking out what is registered for one object leaves the others. -/
theorem find?_filter_ne (current : List (Key × Nat)) (key k : Key) :
    ((current.filter fun c => c.1 ≠ key).find? fun c => c.1 = k) =
      if k = key then none else current.find? fun c => c.1 = k := by
  rw [List.find?_filter]
  split
  · next hk =>
      subst hk
      simp
  · next hk =>
      congr 1
      funext c
      by_cases hc : c.1 = k
      · simp [hc, hk]
      · simp [hc]

@[simp] theorem find?_insert (r : Registry H) (key : Key) (x : H) (k : Key) :
    (r.insert key x).find? k = if k = key then some r.entries.length else r.find? k := by
  simp only [find?, insert, List.find?_cons, find?_filter_ne]
  by_cases hk : k = key
  · subst hk
    simp
  · have hne : ¬ key = k := fun h => hk h.symm
    simp [hk, hne]

@[simp] theorem find?_mark (r : Registry H) (id : Nat) (k : Key) :
    (r.mark id).find? k = r.find? k := rfl

/-- **Only the entry that is registered can be taken out.** -/
theorem find?_retire (r : Registry H) (key : Key) (id : Nat) (k : Key) :
    (r.retire key id).find? k =
      if k = key ∧ r.find? key = some id then none else r.find? k := by
  by_cases hr : r.find? key = some id
  · have hretire : (r.retire key id).find? k = if k = key then none else r.find? k := by
      rw [retire, if_pos hr]
      simp only [find?, find?_filter_ne]
      split <;> rfl
    simp [hretire, hr]
  · rw [retire, if_neg hr, if_neg fun h => hr h.2]

/-! ### Marks -/

@[simp] theorem isMarked_insert (r : Registry H) (key : Key) (x : H) (id : Nat) :
    (r.insert key x).isMarked id = r.isMarked id := by
  simp only [isMarked, insert]
  rcases Nat.lt_trichotomy id r.entries.length with h | h | h
  · rw [List.getElem?_append_left h]
  · subst h
    simp
  · rw [List.getElem?_eq_none (by simp; omega), List.getElem?_eq_none (by omega)]

@[simp] theorem isMarked_retire (r : Registry H) (key : Key) (k id : Nat) :
    (r.retire key k).isMarked id = r.isMarked id := by
  unfold retire
  split <;> rfl

theorem isMarked_mark (r : Registry H) (k id : Nat) :
    (r.mark k).isMarked id = true ↔ r.isMarked id = true ∨ (id = k ∧ (r.key? id).isSome) := by
  simp only [isMarked, mark, key?, List.getElem?_modify]
  cases r.entries[id]? with
  | none => simp
  | some e =>
      by_cases hk : k = id
      · subst hk
        simp
      · have hne : ¬ id = k := fun h => hk h.symm
        simp [hk, hne]

/-! ### Objects of entries -/

@[simp] theorem key?_insert (r : Registry H) (key : Key) (x : H) (id : Nat) :
    (r.insert key x).key? id = if id = r.entries.length then some key else r.key? id := by
  simp only [key?, insert]
  rcases Nat.lt_trichotomy id r.entries.length with h | h | h
  · rw [List.getElem?_append_left h, if_neg (by omega)]
  · subst h
    simp
  · rw [List.getElem?_eq_none (by simp; omega), List.getElem?_eq_none (by omega),
      if_neg (by omega)]

@[simp] theorem key?_mark (r : Registry H) (k id : Nat) : (r.mark k).key? id = r.key? id := by
  simp only [key?, mark, List.getElem?_modify]
  cases r.entries[id]? with
  | none => rfl
  | some e =>
      simp only [Option.map_some]
      split <;> rfl

@[simp] theorem key?_retire (r : Registry H) (key : Key) (k id : Nat) :
    (r.retire key k).key? id = r.key? id := by
  unfold retire
  split <;> rfl

/-- The entry that the next insertion makes is not there yet. -/
theorem key?_length (r : Registry H) : r.key? r.entries.length = none := by
  simp [key?]

end LateBinding.Callback.Registry
