import LateBinding.Proofs.Options.Meaning

/-!
**Edits of different keys commute, as texts.**

Each of several edits reads the text that the one before it gave, and writes a new one. What comes
out depends on the last edit of each key only: **two rows of edits that touch the same keys and end
each of them alike give the same text**, byte by byte. An object is written in one way, as its
members stand in the order of their keys, and a text that an edit gave reads as the object that was
written.

Main definitions:

* `LateBinding.Options.editAll` — edits of a text made one after the other.

Main results:

* `LateBinding.Options.get?_applyAll_eq`, `LateBinding.Options.applyAll_congr` — only the last edit
  of each key counts for an object;
* `LateBinding.Options.editAll_of_read` — the text after some edits is that of the object after
  them;
* `LateBinding.Options.edits_agree` — **the same for texts**.
-/

set_option autoImplicit false

namespace LateBinding.Options

open Json (Members lastOf?)

/-- Edits of a text made one after the other, each of the text that the one before gave. -/
def editAll (es : List (String × Option Json)) (current : String) : Except Error String :=
  es.foldlM (fun x e => edit x e.1 e.2) current

/-- All values of some edits may be set. -/
def AllSettable (es : List (String × Option Json)) : Prop := ∀ e ∈ es, IsSettable e.2

theorem allSettable_cons {e : String × Option Json} {es : List (String × Option Json)} :
    AllSettable (e :: es) ↔ IsSettable e.2 ∧ AllSettable es := List.forall_mem_cons

variable {current : String} {m : Members} {es es' before after : List (String × Option Json)}
  {j k : String} {v w : Option Json}

/-! ### Edits of an object -/

/-- An edit keeps the order of the keys. -/
theorem isAscending_apply (hm : m.IsAscending) : (apply k v m).IsAscending := by
  cases v with
  | none => exact hm.remove
  | some x => exact hm.put

theorem isAscending_applyAll (hm : m.IsAscending) : (applyAll es m).IsAscending := by
  induction es generalizing m with
  | nil => exact hm
  | cons e es ih => exact ih (isAscending_apply hm)

/-- **The last edit of a key says what stands under it.** -/
theorem get?_applyAll_eq (hm : m.IsAscending) :
    (applyAll es m).get? k = (lastOf? k es).getD (m.get? k) := by
  induction es generalizing m with
  | nil => rfl
  | cons e es ih =>
      rw [applyAll_cons, ih (isAscending_apply hm), get?_apply hm, lastOf?]
      cases lastOf? k es with
      | some value => rfl
      | none =>
          by_cases hk : k = e.1
          · subst hk
            simp
          · have hne : ¬e.1 = k := fun h => hk h.symm
            simp [hk, hne]

/-- **Edits with the same last edit of each key make the same object.** -/
theorem applyAll_congr (hm : m.IsAscending) (h : ∀ k, lastOf? k es = lastOf? k es') :
    applyAll es m = applyAll es' m := by
  refine Members.ext (isAscending_applyAll hm) (isAscending_applyAll hm) fun k => ?_
  rw [get?_applyAll_eq hm, get?_applyAll_eq hm, h k]

/-! ### Edits of a text -/

theorem editAll_cons (e : String × Option Json) (es : List (String × Option Json))
    (current : String) :
    editAll (e :: es) current = edit current e.1 e.2 >>= editAll es := rfl

theorem editAll_concat (e : String × Option Json) :
    editAll (es ++ [e]) current = editAll es current >>= fun x => edit x e.1 e.2 := by
  rw [editAll, List.foldlM_append]
  exact congrArg _ (funext fun x => bind_pure _)

/-- Edits of the text of an object give the text of the edited object. -/
theorem editAll_render (hm : IsReadable m) (hes : AllSettable es) :
    editAll es (Json.object m).render = .ok (Json.object (applyAll es m)).render := by
  induction es generalizing m with
  | nil => rfl
  | cons e es ih =>
      obtain ⟨he, hes⟩ := allSettable_cons.1 hes
      rw [editAll_cons, edit_of_read hm.read_render]
      exact ih (hm.apply he) hes

/-- **The text after some edits is that of the object after them.** No edit at all leaves the text
as it is, which need not be the text of its object. -/
theorem editAll_of_read (h : read current = .ok m) (hm : IsReadable m) (hne : es ≠ [])
    (hes : AllSettable es) :
    editAll es current = .ok (Json.object (applyAll es m)).render := by
  obtain ⟨e, es, rfl⟩ := List.exists_cons_of_ne_nil hne
  obtain ⟨he, hes⟩ := allSettable_cons.1 hes
  rw [editAll_cons, edit_of_read h]
  exact editAll_render (hm.apply he) hes

/-! ### The last edits -/

/-- An edit that another one of its key follows does not count. -/
theorem lastOf?_overwritten (key : String) :
    lastOf? key (before ++ (k, v) :: (k, w) :: after) =
      lastOf? key (before ++ (k, w) :: after) := by
  rw [Json.lastOf?_append, Json.lastOf?_append, lastOf?, lastOf?]
  by_cases hk : k = key
  · simp [hk]
  · simp [hk]

/-- Edits of two keys may change places. -/
theorem lastOf?_swapped (hjk : j ≠ k) (key : String) :
    lastOf? key (before ++ (j, v) :: (k, w) :: after) =
      lastOf? key (before ++ (k, w) :: (j, v) :: after) := by
  rw [Json.lastOf?_append, Json.lastOf?_append, lastOf?, lastOf?, lastOf?, lastOf?]
  by_cases hj : j = key
  · subst hj
    simp [hjk.symm]
  · simp [hj]

/-- **Only the last edit of each key counts for the text.** Rows of edits that touch the same keys
and end each of them alike give the same text, which is that of the edited object; so do a row and
the one without an edit that is overwritten, be it by a value or by a removal, and two rows in which
edits of different keys change places. The last edit made once more changes nothing. -/
theorem edits_agree {pairs : List (String × Json)} (h : OptionsText current pairs)
    (hw : ∀ p ∈ pairs, p.2.IsWhole) :
    (∀ es es', es ≠ [] → es' ≠ [] → AllSettable es → AllSettable es' →
      (∀ k, lastOf? k es = lastOf? k es') →
      editAll es current = .ok (Json.object (applyAll es (Members.ofList pairs))).render ∧
      editAll es' current = .ok (Json.object (applyAll es (Members.ofList pairs))).render) ∧
    (∀ before after k v w, AllSettable (before ++ (k, v) :: (k, w) :: after) →
      editAll (before ++ (k, v) :: (k, w) :: after) current =
        editAll (before ++ (k, w) :: after) current) ∧
    (∀ before after j k v w, j ≠ k → AllSettable (before ++ (j, v) :: (k, w) :: after) →
      editAll (before ++ (j, v) :: (k, w) :: after) current =
        editAll (before ++ (k, w) :: (j, v) :: after) current) ∧
    ∀ es k v x, AllSettable (es ++ [(k, v)]) → editAll (es ++ [(k, v)]) current = .ok x →
      edit x k v = .ok x := by
  have hm : IsReadable (Members.ofList pairs) := h.isReadable hw
  have hagree : ∀ es es', es ≠ [] → es' ≠ [] → AllSettable es → AllSettable es' →
      (∀ k, lastOf? k es = lastOf? k es') →
      editAll es current = .ok (Json.object (applyAll es (Members.ofList pairs))).render ∧
      editAll es' current = .ok (Json.object (applyAll es (Members.ofList pairs))).render := by
    intro es es' hne hne' hes hes' hlast
    refine ⟨editAll_of_read h.read_eq hm hne hes, ?_⟩
    rw [editAll_of_read h.read_eq hm hne' hes',
      applyAll_congr (Members.isAscending_ofList pairs) hlast]
  refine ⟨hagree, ?_, ?_, ?_⟩
  · intro before after k v w hes
    have hes' : AllSettable (before ++ (k, w) :: after) := fun e he => hes e (by grind)
    obtain ⟨hx, hx'⟩ := hagree _ _ (by simp) (by simp) hes hes' lastOf?_overwritten
    rw [hx, hx']
  · intro before after j k v w hjk hes
    have hes' : AllSettable (before ++ (k, w) :: (j, v) :: after) := fun e he => hes e (by grind)
    obtain ⟨hx, hx'⟩ := hagree _ _ (by simp) (by simp) hes hes' (lastOf?_swapped hjk)
    rw [hx, hx']
  · intro es k v x hes hx
    have hes' : AllSettable (es ++ (k, v) :: [(k, v)]) := fun e he => hes e (by grind)
    obtain ⟨hy, hy'⟩ := hagree _ _ (by simp) (by simp) hes' hes lastOf?_overwritten
    rw [← hy', hx, List.append_cons, editAll_concat, hx] at hy
    exact hy

/-- A key is set and removed again while another is set twice; or each is edited once. -/
theorem edits_in_another_order :
    editAll [("b", some .null), ("a", some (.bool true)), ("b", none), ("a", some .null)] repeated =
        .ok "\x7b\"a\":null\x7d" ∧
      editAll [("a", some .null), ("b", none)] repeated = .ok "\x7b\"a\":null\x7d" := by
  have hfour :
      AllSettable [("b", some .null), ("a", some (.bool true)), ("b", none),
        ("a", some .null)] := by
    simp [AllSettable, IsSettable, Json.IsExact, Json.IsOrdered, Json.IsWhole, Json.Everywhere,
      Json.nesting, Json.maxDepth]
  have htwo : AllSettable [("a", some .null), ("b", none)] := fun e he => hfour e (by grind)
  obtain ⟨hagree, -⟩ := edits_agree optionsText_repeated isWhole_repeated
  refine hagree _ _ (List.cons_ne_nil _ _) (List.cons_ne_nil _ _) hfour htwo fun k => ?_
  simp only [lastOf?]
  grind

end LateBinding.Options
