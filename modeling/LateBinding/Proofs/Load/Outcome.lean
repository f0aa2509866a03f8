import LateBinding.Proofs.Load.Standing
import Mathlib.Logic.Relation

/-!
**One load, one outcome.**

However many callers there are and however their steps interleave, at most one opener is run, and
what it did is the outcome that all calls answer. A panic goes on in the call whose opener panicked
and in no other; the others answer the failure as which it was settled.

Main results:

* `LateBinding.Library.Crowd.Run.openers_le_one` — at most one opener is run;
* `LateBinding.Library.Crowd.outcome_of_reaches` — an outcome never changes;
* `LateBinding.Library.Crowd.Run.outcome_eq` — **the outcome is that of the opener that was run**;
* `LateBinding.Library.Guard.load_of_outcome` — a later call answers the outcome and changes
  nothing;
* `LateBinding.Library.one_load_one_outcome` — all of it together.
-/

set_option autoImplicit false

namespace LateBinding.Library

variable {l : Locator} {attempts : List Attempt} {openers : List Nat} {s t : Crowd}

/-! ### What the leader's place says about the guard -/

/-- The guard counts what was done: one opening and one attempt at most, in this order of phases. -/
theorem Leads.counts {g : Guard} {c : Call} (h : Leads l g c) (k : Nat) :
    g.openings.length = (g.openers k).length ∧ (g.openers k).length ≤ 1 ∧ g.attempts ≤ 1 ∧
      (g.phase = .unstarted → g.outcome = none ∧ g.attempts = 0) := by
  cases h <;> simp [Guard.openers, Guard.finished]

/-- An outcome is that of the leader's own attempt, and the leader has run its opener. -/
theorem Leads.outcome_eq {g : Guard} {c : Call} {o : Outcome} (h : Leads l g c)
    (ho : g.outcome = some o) (k : Nat) : o = c.own.settled l ∧ g.openers k = [k] := by
  cases h <;> cases ho <;> exact ⟨rfl, rfl⟩

/-- A leader that reads finds an outcome. -/
theorem Leads.outcome_of_reading {g : Guard} {own : Attempt} (h : Leads l g ⟨own, .reading⟩) :
    g.outcome.isSome := by
  cases h
  rfl

/-- What a leader answers is the outcome. -/
theorem Leads.outcome_of_returned {g : Guard} {own : Attempt} {o : Outcome}
    (h : Leads l g ⟨own, .returned o⟩) : g.outcome = some o := by
  cases h
  rfl

/-- A leader unwinds with the panic of its own opener, which was run. -/
theorem Leads.own_of_unwound {g : Guard} {own : Attempt} {p : Payload}
    (h : Leads l g ⟨own, .unwound p⟩) (k : Nat) : own = .panicked p ∧ g.openers k = [k] := by
  cases h
  exact ⟨rfl, rfl⟩

/-- A leader whose opener panicked ends by unwinding. -/
theorem Leads.unwound_of_over {g : Guard} {c : Caller} {p : Payload}
    (h : Leads l g ⟨.panicked p, c⟩) (hc : c.isOver = true) : c = .unwound p := by
  cases h <;> first | rfl | cases hc

/-! ### The whole crowd -/

namespace Crowd

/-- A step changes no caller's opener. -/
theorem stepAt_own {i : Nat} (h : s.stepAt i = some t) (j : Nat) :
    t.calls[j]?.map Call.own = s.calls[j]?.map Call.own := by
  obtain ⟨c, g, caller, wakes, hc, -, rfl⟩ := stepAt_eq_some h
  by_cases hji : j = i
  · subst hji
    rw [getElem?_mover wakes hc, hc]
    rfl
  · rw [getElem?_others hji, Option.map_map]
    rfl

/-- Waking changes no caller's opener. -/
theorem wakeAt_own {i : Nat} (h : s.wakeAt i = some t) (j : Nat) :
    t.calls[j]?.map Call.own = s.calls[j]?.map Call.own := by
  obtain ⟨own, hc, rfl⟩ := wakeAt_eq_some h
  by_cases hji : j = i
  · subst hji
    have hself : (s.calls.set j ⟨own, .entering⟩)[j]? = some ⟨own, .entering⟩ :=
      getElem?_mover false hc
    rw [hself, hc]
    rfl
  · rw [List.getElem?_set_ne (Ne.symm hji)]

/-- Every caller keeps the opener with which it arrived. -/
theorem Run.own_eq (h : Crowd.Run l attempts openers s) {i : Nat} {c : Call}
    (hc : s.calls[i]? = some c) : attempts[i]? = some c.own := by
  -- along the run the callers move, and only their openers stay
  have hown : s.calls[i]?.map Call.own = attempts[i]? := by
    clear hc
    induction h with
    | arrive =>
        rw [Crowd.arrive, List.getElem?_map, Option.map_map]
        exact Option.map_id'
    | move j _ ht ih => rw [stepAt_own ht, ih]
    | spurious j _ ht ih => rw [wakeAt_own ht, ih]
  rw [← hown, hc]
  rfl

/-- In one step an outcome stays as it is, whoever moves. -/
theorem outcome_of_step (h : s.Step t) {o : Outcome} (ho : s.guard.outcome = some o) :
    t.guard.outcome = some o := by
  rcases h with ⟨i, ht⟩ | ⟨i, ht⟩
  · obtain ⟨c, g, caller, wakes, -, hs, rfl⟩ := stepAt_eq_some ht
    obtain ⟨own, c⟩ := c
    revert hs
    cases c <;> simp only [Library.step, ho] <;> grind
  · obtain ⟨own, -, rfl⟩ := wakeAt_eq_some ht
    exact ho

/-- **An outcome never changes.** -/
theorem outcome_of_reaches (h : Relation.ReflTransGen Crowd.Step s t) {o : Outcome}
    (ho : s.guard.outcome = some o) : t.guard.outcome = some o := by
  induction h with
  | refl => exact ho
  | tail _ ht ih => exact outcome_of_step ht ih

namespace Run

/-- In every step the phase stays or moves forward. -/
theorem next (h : Crowd.Run l attempts openers s) (ht : s.Step t) :
    Phase.Next s.guard.phase t.guard.phase := by
  rcases ht with ⟨i, ht⟩ | ⟨i, ht⟩
  · exact (h.standing.move ht).2
  · obtain ⟨own, -, rfl⟩ := wakeAt_eq_some ht
    exact .stay _

/-- At most one opener is run, and one attempt is counted. -/
theorem counts (h : Crowd.Run l attempts openers s) :
    s.guard.openings.length = openers.length ∧ openers.length ≤ 1 ∧ s.guard.attempts ≤ 1 ∧
      (s.guard.phase = .unstarted → s.guard.outcome = none ∧ s.guard.attempts = 0) := by
  cases h.standing with
  | untouched hg ho follow =>
      rw [hg, ho]
      simp
  | led k c hk lead ho follow =>
      rw [ho]
      exact lead.counts k

/-- An attempt that is done has an outcome. -/
theorem outcome_of_done (h : Crowd.Run l attempts openers s) (hp : s.guard.phase = .done) :
    s.guard.outcome.isSome := by
  cases h.standing with
  | untouched hg ho follow =>
      rw [hg] at hp
      cases hp
  | led k c hk lead ho follow => exact lead.outcome_of_done hp

/-- **The outcome is that of the one opener that was run.** -/
theorem outcome_eq (h : Crowd.Run l attempts openers s) {o : Outcome}
    (ho : s.guard.outcome = some o) :
    ∃ (k : Nat) (own : Attempt), openers = [k] ∧ attempts[k]? = some own ∧ o = own.settled l := by
  cases h.standing with
  | untouched hg _ follow =>
      rw [hg] at ho
      cases ho
  | led k c hk lead hopen follow =>
      obtain ⟨heq, hrun⟩ := lead.outcome_eq ho k
      exact ⟨k, c.own, by rw [hopen, hrun], h.own_eq hk, heq⟩

/-- Every caller leads the attempt or follows. -/
theorem leads_or_follows (h : Crowd.Run l attempts openers s) {i : Nat} {c : Call}
    (hc : s.calls[i]? = some c) :
    (Leads l s.guard c ∧ openers = s.guard.openers i) ∨ Follows s.guard c.caller := by
  cases h.standing with
  | untouched hg ho follow => exact Or.inr (follow i c hc)
  | led k d hk lead ho follow =>
      by_cases hik : i = k
      · subst hik
        obtain rfl : d = c := Option.some.inj (hk.symm.trans hc)
        exact Or.inl ⟨lead, ho⟩
      · exact Or.inr (follow i c hc hik)

/-- A caller that has run its opener leads the attempt. -/
theorem leads_of_opener {i : Nat} (h : Crowd.Run l attempts [i] s) {c : Call}
    (hc : s.calls[i]? = some c) : Leads l s.guard c := by
  cases h.standing with
  | untouched hg ho follow => cases ho
  | led k d hk lead ho follow =>
      have hik : i = k := by
        rw [Guard.openers] at ho
        split at ho
        · cases ho
        · exact List.head_eq_of_cons_eq ho
      subst hik
      obtain rfl : d = c := Option.some.inj (hk.symm.trans hc)
      exact lead

/-- A caller that is about to read finds an outcome. -/
theorem outcome_of_reading (h : Crowd.Run l attempts openers s) {i : Nat} {own : Attempt}
    (hc : s.calls[i]? = some ⟨own, .reading⟩) : s.guard.outcome.isSome := by
  rcases h.leads_or_follows hc with ⟨lead, -⟩ | follow
  · exact lead.outcome_of_reading
  · cases follow with
    | reading ho => exact ho

/-- What a caller answers is the outcome. -/
theorem outcome_of_returned (h : Crowd.Run l attempts openers s) {i : Nat} {own : Attempt}
    {o : Outcome} (hc : s.calls[i]? = some ⟨own, .returned o⟩) : s.guard.outcome = some o := by
  rcases h.leads_or_follows hc with ⟨lead, -⟩ | follow
  · exact lead.outcome_of_returned
  · cases follow with
    | returned ho => exact ho

/-- A caller unwinds only with the panic of its own opener, which was run. -/
theorem own_of_unwound (h : Crowd.Run l attempts openers s) {i : Nat} {own : Attempt}
    {p : Payload} (hc : s.calls[i]? = some ⟨own, .unwound p⟩) :
    openers = [i] ∧ own = .panicked p := by
  rcases h.leads_or_follows hc with ⟨lead, ho⟩ | follow
  · obtain ⟨hown, hrun⟩ := lead.own_of_unwound i
    exact ⟨by rw [ho, hrun], hown⟩
  · cases follow

end Run

end Crowd

/-! ### Later calls -/

/-- A call at a guard with an outcome answers that outcome and changes nothing, whatever path it
asks for. -/
theorem Guard.load_of_outcome {g : Guard} {o : Outcome} (ho : g.outcome = some o)
    (fs : FileSystem) (env : Environment) (request : Option Path) :
    g.load fs env request = (g, .returned o) := by
  simp only [Guard.load, Guard.loadWith, enoughRounds, runAlone, step, ho, Option.getD_some]

/-! ### The main result -/

/-- **One load, one outcome.** Of any number of callers with any openers, whatever the order of
their steps, at most one runs its opener. The phase only moves forward, an outcome never changes,
and there is one exactly from the end of the one attempt on. Whoever returns answers it, so that
nobody is told that it is missing: it is what the opener ended with. Only the caller whose own
opener panicked unwinds, and the others are told of the panic. -/
theorem one_load_one_outcome (h : Crowd.Run l attempts openers s) :
    (openers.length ≤ 1 ∧ s.guard.openings.length = openers.length ∧ s.guard.attempts ≤ 1) ∧
    (s.guard.phase = .unstarted → s.guard.outcome = none ∧ s.guard.attempts = 0) ∧
    (s.guard.phase = .done → s.guard.outcome.isSome) ∧
    (∀ t, s.Step t → Phase.Next s.guard.phase t.guard.phase) ∧
    (∀ t o, Relation.ReflTransGen Crowd.Step s t → s.guard.outcome = some o →
      t.guard.outcome = some o) ∧
    (∀ o, s.guard.outcome = some o → ∃ (k : Nat) (own : Attempt),
      openers = [k] ∧ attempts[k]? = some own ∧ o = own.settled l) ∧
    (∀ (i : Nat) (own : Attempt), s.calls[i]? = some ⟨own, .reading⟩ → s.guard.outcome.isSome) ∧
    (∀ (i : Nat) (own : Attempt) (o : Outcome), s.calls[i]? = some ⟨own, .returned o⟩ →
      s.guard.outcome = some o) ∧
    (∀ (i : Nat) (own : Attempt) (p : Payload), s.calls[i]? = some ⟨own, .unwound p⟩ →
      openers = [i] ∧ attempts[i]? = some (.panicked p)) ∧
    (∀ (k : Nat) (o : Outcome), openers = [k] → attempts[k]? = some (.ended o) →
      (∀ o', s.guard.outcome = some o' → o' = o) ∧
      ∀ (i : Nat) (own : Attempt) (o' : Outcome), s.calls[i]? = some ⟨own, .returned o'⟩ →
        o' = o) ∧
    (∀ (k : Nat) (p : Payload), openers = [k] → attempts[k]? = some (.panicked p) →
      (∀ c, s.calls[k]? = some c → c.caller.isOver → c.caller = .unwound p) ∧
      ∀ (i : Nat) (own : Attempt) (o : Outcome), s.calls[i]? = some ⟨own, .returned o⟩ → i ≠ k ∧
        o = .error (.openFailed (l.explicit.getD ⟨[]⟩) ("load attempt panicked: " ++ p.reason))) ∧
    (∀ o fs env request, s.guard.outcome = some o →
      s.guard.load fs env request = (s.guard, .returned o)) := by
  obtain ⟨hopen, hle, hatt, hfresh⟩ := h.counts
  refine ⟨⟨hle, hopen, hatt⟩, hfresh, h.outcome_of_done, fun t ht => h.next ht,
    fun t o hst ho => Crowd.outcome_of_reaches hst ho, fun o ho => h.outcome_eq ho,
    fun i own hc => h.outcome_of_reading hc, fun i own o hc => h.outcome_of_returned hc, ?_, ?_, ?_,
    fun o fs env request ho => Guard.load_of_outcome ho fs env request⟩
  · intro i own p hc
    obtain ⟨hi, hown⟩ := h.own_of_unwound hc
    exact ⟨hi, by rw [h.own_eq hc, hown]⟩
  · intro k o hk hp
    have hended : ∀ o', s.guard.outcome = some o' → o' = o := by
      intro o' ho
      obtain ⟨j, own, hj, hown, rfl⟩ := h.outcome_eq ho
      obtain rfl : k = j := List.head_eq_of_cons_eq (hk.symm.trans hj)
      obtain rfl : own = .ended o := Option.some.inj (hown.symm.trans hp)
      rfl
    exact ⟨hended, fun i own o' hc => hended o' (h.outcome_of_returned hc)⟩
  · intro k p hk hp
    subst hk
    -- the leader can end only by unwinding
    have hlead : ∀ c, s.calls[k]? = some c → c.caller.isOver → c.caller = .unwound p := by
      rintro ⟨own, c⟩ hc hover
      obtain rfl : own = .panicked p := Option.some.inj ((h.own_eq hc).symm.trans hp)
      exact (h.leads_of_opener hc).unwound_of_over hover
    refine ⟨hlead, fun i own o hc => ⟨?_, ?_⟩⟩
    · rintro rfl
      cases hlead _ hc rfl
    · obtain ⟨j, own', hj, hown', rfl⟩ := h.outcome_eq (h.outcome_of_returned hc)
      obtain rfl : k = j := List.head_eq_of_cons_eq hj
      obtain rfl : own' = .panicked p := Option.some.inj (hown'.symm.trans hp)
      rfl

/-- A caller that fell asleep while the first one's opener panicked is told of the panic. Where the
first one's opener opens a library, a later caller gets that library, and its own opener, which
would panic, is not run. -/
theorem sleeper_told_of_panic :
    (∃ s : Crowd,
      Crowd.Run {} [.panicked (.text "boom"), .ended (.error (.notFound []))] [0] s ∧
      s.calls.map Call.caller = [.unwound (.text "boom"),
        .returned (.error (.openFailed ⟨[]⟩ "load attempt panicked: boom"))] ∧
      s.guard.outcome = some (.error (.openFailed ⟨[]⟩ "load attempt panicked: boom"))) ∧
    let library : Bound := ⟨Path.ofString "/usr/lib/libcronet.so", true, true⟩
    ∃ s : Crowd, Crowd.Run {} [.ended (.ok library), .panicked (.text "boom")] [0] s ∧
      s.calls.map (fun c => c.caller.isOver) = [true, true] ∧
      ∀ (i : Nat) (own : Attempt) (o : Outcome), s.calls[i]? = some ⟨own, .returned o⟩ →
        o = .ok library := by
  constructor
  · have start : Crowd.Run {} [.panicked (.text "boom"), .ended (.error (.notFound []))] [] _ :=
      .arrive
    -- both miss the outcome, the first one takes the attempt, and the second one falls asleep
    have asleep := start.move 0 rfl |>.move 0 rfl |>.move 1 rfl |>.move 0 rfl |>.move 1 rfl
    have again := asleep.spurious 1 rfl |>.move 1 rfl
    have settled := again.move 0 rfl |>.move 0 rfl |>.move 0 rfl |>.move 0 rfl
    have ended := settled.move 1 rfl |>.move 1 rfl
    obtain ⟨-, -, -, -, -, -, -, hreturned, -⟩ := one_load_one_outcome ended
    exact ⟨_, ended, rfl, hreturned 1 _ _ rfl⟩
  · intro library
    have start : Crowd.Run {} [.ended (.ok library), .panicked (.text "boom")] [] _ := .arrive
    have opened := start.move 0 rfl |>.move 0 rfl |>.move 0 rfl |>.move 0 rfl |>.move 0 rfl
    have ended := opened.move 0 rfl |>.move 0 rfl |>.move 0 rfl |>.move 1 rfl |>.move 1 rfl
    obtain ⟨-, -, -, -, -, -, -, -, -, hended, -⟩ := one_load_one_outcome ended
    exact ⟨_, ended, rfl, (hended 0 (.ok library) rfl rfl).2⟩

end LateBinding.Library
