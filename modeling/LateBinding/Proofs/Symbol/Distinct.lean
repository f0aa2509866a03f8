import Mathlib.Data.List.Nodup
import LateBinding.Symbol.Table

/-!
**No operation has two functions, and no symbol is bound twice.**

The table has more than two hundred rows, and each operation finds its own by its name: no two rows
have the same name. To compare all names with each other would take long. Instead each name is read
as a number, of which the remainder is taken, and the remainders that were met are remembered as the
bits of one number.

Main definitions:

* `LateBinding.Symbol.byteNumber`, `LateBinding.Symbol.remainder` — a name as a number;
* `LateBinding.Symbol.areDistinct` — whether no number comes twice, found in one pass.

Main results:

* `LateBinding.Symbol.nodup_of_remainders` — names are distinct if their remainders are;
* `LateBinding.Symbol.operations_nodup`, `LateBinding.Symbol.symbols_nodup` — no two rows have the
  same name;
* `LateBinding.Symbol.find?_of_mem` — a row is found by what it alone has;
* `LateBinding.Symbol.slot?_of_mem` — **each operation of the table finds its own function**.
-/

set_option autoImplicit false

namespace LateBinding.Symbol

/-! ### Names as numbers -/

/-- The bytes of a name, read as the digits of one number. -/
def byteNumber (name : String) : Nat :=
  name.toByteArray.data.toList.foldl (fun n b => n * 256 + b.toNat) 0

/-- What is left of it. The divisor is the least one that tells apart all operations, and all
symbols. -/
def remainder (name : String) : Nat := byteNumber name % 9191

/-- Whether numbers are distinct, and none of them is among the bits that are set in another one. -/
def areDistinct : Nat → List Nat → Bool
  | _, [] => true
  | seen, n :: ns => !seen.testBit n && areDistinct (seen ||| 1 <<< n) ns

theorem nodup_of_areDistinct {ns : List Nat} {seen : Nat} (h : areDistinct seen ns = true) :
    ns.Nodup ∧ ∀ n ∈ ns, seen.testBit n = false := by
  induction ns generalizing seen with
  | nil => exact ⟨List.nodup_nil, nofun⟩
  | cons n ns ih =>
      obtain ⟨hn, hns⟩ : seen.testBit n = false ∧ areDistinct (seen ||| 1 <<< n) ns = true := by
        simpa [areDistinct] using h
      obtain ⟨hnodup, hbits⟩ := ih hns
      have hnew : ∀ m ∈ ns, seen.testBit m = false ∧ m ≠ n := by
        intro m hm
        have hbit := hbits m hm
        rw [Nat.testBit_or, Bool.or_eq_false_iff] at hbit
        refine ⟨hbit.1, fun hmn => ?_⟩
        rw [hmn] at hbit
        simp at hbit
      exact ⟨List.nodup_cons.2 ⟨fun hmem => (hnew n hmem).2 rfl, hnodup⟩,
        List.forall_mem_cons.2 ⟨hn, fun m hm => (hnew m hm).1⟩⟩

/-- Names are distinct if their remainders are. -/
theorem nodup_of_remainders {names : List String} (h : areDistinct 0 (names.map remainder) = true) :
    names.Nodup :=
  (nodup_of_areDistinct h).1.of_map

/-! ### Rows found by their names -/

/-- A row is found by what it alone has. -/
theorem find?_of_mem {key : Slot → String} (hkeys : (allSlots.map key).Nodup) {slot : Slot}
    (h : slot ∈ allSlots) : allSlots.find? (fun s => key s == key slot) = some slot := by
  obtain ⟨found, hfound⟩ : ∃ found, allSlots.find? (fun s => key s == key slot) = some found :=
    Option.isSome_iff_exists.1 (List.find?_isSome.2 ⟨slot, h, beq_self_eq_true _⟩)
  have hkey : key found = key slot := by simpa using List.find?_some hfound
  rw [hfound, List.inj_on_of_nodup_map hkeys (List.mem_of_find?_eq_some hfound) h hkey]

/-- No two rows have the same operation, and no two have the same symbol. -/
theorem names_nodup : (allSlots.map Slot.operation).Nodup ∧ (allSlots.map Slot.symbol).Nodup :=
  -- one proof of both, so that the second evaluation runs in the memory of the first
  ⟨nodup_of_remainders (by decide +kernel), nodup_of_remainders (by decide +kernel)⟩

theorem operations_nodup : (allSlots.map Slot.operation).Nodup := names_nodup.1

theorem symbols_nodup : (allSlots.map Slot.symbol).Nodup := names_nodup.2

/-- Some groups of the table. -/
theorem groups_subset :
    urlResponseInfoSlots ⊆ allSlots ∧ httpHeaderSlots ⊆ allSlots ∧ dateTimeSlots ⊆ allSlots ∧
      metricsSlots ⊆ allSlots := by
  refine ⟨?_, ?_, ?_, ?_⟩
  all_goals
    intro slot h
    delta allSlots mainTable
    simp only [List.mem_append, h, or_true, true_or]

/-- **Each operation of the table finds its own function.** -/
theorem slot?_of_mem {slot : Slot} (h : slot ∈ allSlots) : slot? slot.operation = some slot :=
  find?_of_mem operations_nodup h

end LateBinding.Symbol
