import LateBinding.Path

/-!
**Bytes cut at a separator.**

A search variable holds parts between colons, whatever their bytes; every part that is not empty is
a directory. The bytes of a path are cut at slashes in the same way.

Main definitions:

* `LateBinding.Path.Lists` — the directories that a search variable lists.

Main results:

* `LateBinding.Path.lists_iff` — splitting a value gives the directories that it lists;
* `LateBinding.Path.splitList_append` — **two values with a colon between them list what each of
  them lists**.
-/

set_option autoImplicit false

namespace LateBinding.Path

theorem notMem_of_mem_splitOn {separator : UInt8} {bs part : List UInt8}
    (h : part ∈ bs.splitOn separator) : separator ∉ part := by
  induction bs generalizing part with
  | nil =>
      rw [List.splitOn_nil, List.mem_singleton] at h
      rw [h]
      exact List.not_mem_nil
  | cons b bs ih =>
      rw [List.splitOn_cons_eq_if_modifyHead] at h
      split at h
      · rcases List.mem_cons.1 h with rfl | h
        · exact List.not_mem_nil
        · exact ih h
      · next hb =>
          obtain ⟨first, rest, hsplit⟩ :=
            List.exists_cons_of_ne_nil (List.splitOn_ne_nil separator bs)
          rw [hsplit, List.modifyHead_cons] at h
          rcases List.mem_cons.1 h with rfl | h
          · rw [List.mem_cons, not_or]
            refine ⟨fun he => hb (by rw [he]; exact BEq.rfl), ih ?_⟩
            rw [hsplit]
            exact List.mem_cons_self
          · exact ih (hsplit ▸ List.mem_cons_of_mem _ h)

/-- The byte between the parts of a search variable. -/
def colon : UInt8 := 58

/-- `Lists value dirs`: the value of a search variable lists these directories. It is made of parts
that hold no colon, with one between any two of them, and the parts that are not empty are the
directories; a variable that is not set lists none. -/
inductive Lists : Option (List UInt8) → List Path → Prop
  | unset : Lists none []
  | parts {parts : List (List UInt8)} (hne : parts ≠ []) (hparts : ∀ part ∈ parts, colon ∉ part) :
      Lists (some ([colon].intercalate parts)) ((parts.filter fun part => part ≠ []).map Path.mk)

theorem splitList_eq (v : List UInt8) :
    splitList v = ((v.splitOn colon).filter fun part => part ≠ []).map Path.mk := by
  rw [splitList, ← colon]
  congr 2
  funext part
  cases part <;> rfl

theorem lists_splitList (v : List UInt8) : Lists (some v) (splitList v) := by
  have hparts := Lists.parts (List.splitOn_ne_nil colon v) fun part => notMem_of_mem_splitOn
  rwa [List.intercalate_splitOn, ← splitList_eq] at hparts

/-- **Splitting a value gives the directories that it lists.** -/
theorem lists_iff {v : List UInt8} {dirs : List Path} :
    Lists (some v) dirs ↔ splitList v = dirs := by
  constructor
  · intro h
    cases h with
    | parts hne hparts => rw [splitList_eq, List.splitOn_intercalate colon hparts hne]
  · rintro rfl
    exact lists_splitList v

/-- **Two values with a colon between them list what each of them lists.** -/
theorem splitList_append (v w : List UInt8) :
    splitList (v ++ colon :: w) = splitList v ++ splitList w := by
  rw [splitList_eq, List.splitOn_append_cons_self, List.filter_append, List.map_append,
    splitList_eq, splitList_eq]

end LateBinding.Path
