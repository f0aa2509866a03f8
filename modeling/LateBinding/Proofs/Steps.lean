import Mathlib.Data.List.Induction

/-!
**Steps one after the other.**

A system goes from state to state by steps that have labels. What holds at first, and stays with
every step for the labels up to it, holds at the end for all labels.

Main definitions:

* `LateBinding.Steps` — steps one after the other, and their labels.

Main results:

* `LateBinding.Steps.append`, `LateBinding.Steps.split` — steps may be put together and taken apart;
* `LateBinding.Steps.invariant` — **what every step keeps for the labels up to it**.
-/

set_option autoImplicit false

namespace LateBinding

variable {State Label : Type} {step : State → Label → State → Prop} {s s' s'' : State}
  {ls ls' : List Label}

/-- Steps one after the other, and their labels. -/
inductive Steps (step : State → Label → State → Prop) : State → List Label → State → Prop
  | refl (s : State) : Steps step s [] s
  | cons {s s' s'' : State} {l : Label} {ls : List Label} (h : step s l s')
      (hs : Steps step s' ls s'') : Steps step s (l :: ls) s''

theorem Steps.one {l : Label} (h : step s l s') : Steps step s [l] s' := .cons h (.refl s')

theorem Steps.append (h : Steps step s ls s') (h' : Steps step s' ls' s'') :
    Steps step s (ls ++ ls') s'' := by
  induction h with
  | refl s => exact h'
  | cons hstep _ ih => exact .cons hstep (ih h')

/-- Steps with the labels of two lists come by a state in between. -/
theorem Steps.split : ∀ {ls : List Label} {s : State}, Steps step s (ls ++ ls') s'' →
    ∃ s', Steps step s ls s' ∧ Steps step s' ls' s'' := by
  intro ls
  induction ls with
  | nil => exact fun h => ⟨_, .refl _, h⟩
  | cons l ls ih =>
      intro s h
      cases h with
      | cons hstep hrest =>
          obtain ⟨s', hs, hs'⟩ := ih hrest
          exact ⟨s', .cons hstep hs, hs'⟩

/-- **What every step keeps for the labels up to it** holds at the end for all labels. -/
theorem Steps.invariant (holds : List Label → State → Prop) (hstart : holds [] s)
    (hstep : ∀ ls s' l s'', holds ls s' → step s' l s'' → holds (ls ++ [l]) s'')
    (h : Steps step s ls s') : holds ls s' := by
  -- on the labels from the end, so that the hypothesis is about the state before the last step
  induction ls using List.reverseRecOn generalizing s' with
  | nil =>
      cases h
      exact hstart
  | append_singleton ls l ih =>
      obtain ⟨s'', hs, hlast⟩ := h.split
      cases hlast with
      | cons hl hrest =>
          cases hrest
          exact hstep ls s'' l _ (ih hs) hl

end LateBinding
