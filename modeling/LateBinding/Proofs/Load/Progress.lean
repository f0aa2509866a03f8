import LateBinding.Proofs.Load.Section
import Mathlib.Algebra.GroupWithZero.Nat
import Mathlib.Algebra.Order.BigOperators.Group.List
import Mathlib.Algebra.Order.Group.Nat

/-!
**Nobody waits for ever.**

A caller that sleeps was told that an attempt is in progress, and whoever leads that attempt has
still to wake the sleepers: it cannot have done so before, for the sleeper looked at the phase and
fell asleep without giving the lock away in between. So there is always somebody who can go on, a
panic of the opener notwithstanding, and who cannot go on any more has its answer.

The number of steps that are left is bounded as well, so that only wake-ups without cause can keep
the callers busy.

Main definitions:

* `LateBinding.Library.Caller.isAhead`, `LateBinding.Library.Place.isAhead` — whether a caller has
  put the attempt in progress and has still to wake the sleepers;
* `LateBinding.Library.Threads.stepsLeft` — a bound for the steps that threads have still to make.

Main results:

* `LateBinding.Library.Crowd.Run.ahead_of_asleep` — **whoever sleeps will be woken**;
* `LateBinding.Library.Crowd.Run.moves`, `LateBinding.Library.Threads.Run.moves` — while a call is
  not over somebody can move;
* `LateBinding.Library.Threads.Run.stepsLeft_lt` — every step brings the end nearer;
* `LateBinding.Library.no_caller_left_hanging` — all of it together.
-/

set_option autoImplicit false

namespace LateBinding.Library

variable {l : Locator} {attempts : List Attempt} {openers : List Nat}

/-! ### Crowds -/

/-- Whether a caller has put the attempt in progress and has still to wake the sleepers. -/
def Caller.isAhead : Caller → Bool
  | .counting => true
  | .opening => true
  | .settling => true
  | .announcing => true
  | _ => false

/-- The attempt is in progress exactly while its leader has the wake-up ahead. -/
theorem Leads.inProgress_iff {g : Guard} {c : Call} (h : Leads l g c) :
    g.phase = .inProgress ↔ c.caller.isAhead = true := by
  cases h <;> simp [Caller.isAhead, Guard.finished]

theorem Follows.not_ahead {g : Guard} {c : Caller} (h : Follows g c) : c.isAhead = false := by
  cases h <;> rfl

/-- A leader that is over leaves a guard whose attempt is done and whose lock is free. -/
theorem Leads.finished_of_over {g : Guard} {c : Call} (h : Leads l g c)
    (hc : c.caller.isOver = true) : g = Guard.finished l c.own := by
  cases h <;> first | rfl | cases hc

/-- The leader can always move, unless it is over. -/
theorem Leads.moves {g : Guard} {c : Call} (h : Leads l g c) (hc : c.caller.isOver = false) :
    ∃ r, Library.step c.own g c.caller = some r := by
  cases h <;> first | exact ⟨_, rfl⟩ | cases hc

/-- A follower that does not sleep and is not over can move while the lock is free. -/
theorem Follows.moves {g : Guard} {own : Attempt} {c : Caller} (h : Follows g c)
    (hl : g.locked = false) (hc : c.isOver = false) (hp : g.phase ≠ .inProgress) :
    ∃ r, Library.step own g c = some r := by
  cases h with
  | arriving =>
      simp only [Library.step]
      cases g.outcome <;> exact ⟨_, rfl⟩
  | entering =>
      simp only [Library.step, hl]
      cases g.phase <;> exact ⟨_, rfl⟩
  | asleep h => exact absurd h hp
  | reading h => exact ⟨_, rfl⟩
  | returned h => cases hc

namespace Crowd

variable {s : Crowd}

/-- **Whoever sleeps will be woken**: the attempt is in progress, and exactly one caller, another
one, has the wake-up ahead. -/
theorem Run.ahead_of_asleep (h : Crowd.Run l attempts openers s) {i : Nat} {own : Attempt}
    (hi : s.calls[i]? = some ⟨own, .asleep⟩) :
    s.guard.phase = .inProgress ∧
      ∃ (k : Nat) (c : Call), k ≠ i ∧ s.calls[k]? = some c ∧ c.caller.isAhead = true ∧
        ∀ (j : Nat) (d : Call), s.calls[j]? = some d → d.caller.isAhead = true → j = k := by
  cases h.standing with
  | untouched hg ho follow =>
      cases follow i _ hi with
      | asleep hp =>
          rw [hg] at hp
          cases hp
  | led k c hk lead ho follow =>
      have hik : i ≠ k := by
        rintro rfl
        obtain rfl : c = ⟨own, .asleep⟩ := Option.some.inj (hk.symm.trans hi)
        exact lead.not_asleep
      cases follow i _ hi hik with
      | asleep hp =>
          refine ⟨hp, k, c, hik.symm, hk, lead.inProgress_iff.1 hp, fun j d hj hd => ?_⟩
          by_cases hjk : j = k
          · exact hjk
          · rw [(follow j d hj hjk).not_ahead] at hd
            cases hd

/-- **While a call is not over, somebody can move.** -/
theorem Run.moves (h : Crowd.Run l attempts openers s) {i : Nat} {c : Call}
    (hi : s.calls[i]? = some c) (hc : c.caller.isOver = false) :
    ∃ (j : Nat) (t : Crowd), s.stepAt j = some t := by
  have moves : ∀ (j : Nat) (d : Call), s.calls[j]? = some d →
      (∃ r, Library.step d.own s.guard d.caller = some r) →
        ∃ (j : Nat) (t : Crowd), s.stepAt j = some t := by
    rintro j d hj ⟨⟨g, caller, wakes⟩, hr⟩
    exact ⟨j, _, stepAt_of_step hj hr⟩
  cases h.standing with
  | untouched hg ho follow =>
      exact moves i c hi ((follow i c hi).moves (by rw [hg]) hc (by rw [hg]; nofun))
  | led k d hk lead ho follow =>
      -- the leader moves, or it is over and has left a guard that lets everybody pass
      cases hd : d.caller.isOver with
      | false => exact moves k d hk (lead.moves hd)
      | true =>
          by_cases hik : i = k
          · subst hik
            obtain rfl : d = c := Option.some.inj (hk.symm.trans hi)
            rw [hc] at hd
            cases hd
          · have hg := lead.finished_of_over hd
            exact moves i c hi ((follow i c hi hik).moves (by rw [hg]; rfl) hc (by rw [hg]; nofun))

/-- When all calls are over, each has an answer or goes on with the panic of its own opener, and the
attempt is done if anybody called. -/
theorem Run.done_of_over (h : Crowd.Run l attempts openers s)
    (hover : ∀ (i : Nat) (c : Call), s.calls[i]? = some c → c.caller.isOver = true) :
    (∀ (i : Nat) (c : Call), s.calls[i]? = some c →
      (∃ o, c.caller = .returned o) ∨ ∃ p, c = ⟨.panicked p, .unwound p⟩) ∧
      (s.calls ≠ [] → s.guard.phase = .done) := by
  refine ⟨fun i c hi => ?_, fun hne => ?_⟩
  · obtain ⟨own, c⟩ := c
    have hc := hover i _ hi
    cases c with
    | returned o => exact .inl ⟨o, rfl⟩
    | unwound p =>
        obtain ⟨-, rfl⟩ := h.own_of_unwound hi
        exact .inr ⟨p, rfl⟩
    | _ => cases hc
  · cases h.standing with
    | untouched hg ho follow =>
        -- nobody is over before the attempt was taken
        obtain ⟨c, rest, hcalls⟩ := List.exists_cons_of_ne_nil hne
        have hi : s.calls[0]? = some c := by rw [hcalls]; rfl
        have hc := hover 0 c hi
        have hf := follow 0 c hi
        rw [hg] at hf
        obtain ⟨own, c⟩ := c
        cases hf with
        | returned ho => cases ho
        | _ => cases hc
    | led k c hk lead ho follow =>
        rw [lead.finished_of_over (hover k c hk)]
        rfl

/-- When nobody can move, all calls are over. -/
theorem Run.done_of_still (h : Crowd.Run l attempts openers s) (hstill : ∀ i, s.stepAt i = none) :
    (∀ (i : Nat) (c : Call), s.calls[i]? = some c →
      (∃ o, c.caller = .returned o) ∨ ∃ p, c = ⟨.panicked p, .unwound p⟩) ∧
      (s.calls ≠ [] → s.guard.phase = .done) := by
  refine h.done_of_over fun i c hi => ?_
  cases hc : c.caller.isOver with
  | true => rfl
  | false =>
      obtain ⟨j, t, ht⟩ := h.moves hi hc
      rw [hstill j] at ht
      cases ht

end Crowd

/-! ### Threads -/

namespace Place

/-- Whether a call has put the attempt in progress and has still to wake the sleepers. -/
def isAhead : Place → Bool
  | .starting => true
  | .counting => true
  | .opening => true
  | .settling => true
  | .announcing => true
  | .declaring => true
  | .waking => true
  | _ => false

theorem isAhead_caller (own : Attempt) (p : Place) : (p.caller own).isAhead = p.isAhead := by
  cases p <;> first | rfl | (cases own <;> rfl)

theorem not_over_of_ahead {p : Place} (hp : p.isAhead = true) : p.isOver = false := by
  cases p <;> first | rfl | cases hp

theorem not_over_of_holds {p : Place} (hp : p.holds = true) : p.isOver = false := by
  cases p <;> first | rfl | cases hp

theorem isOver_caller (own : Attempt) {p : Place} (hp : p.isOver = true) :
    (p.caller own).isOver = true := by
  cases p <;> first | rfl | cases hp

/-- Whoever holds the lock can move. -/
theorem moves_of_holds {own : Attempt} {g : Guard} {p : Place} (hp : p.holds = true) :
    ∃ r, p.step own g = some r := by
  cases p with
  | looking => cases h : g.phase <;> exact ⟨_, by simp only [step, h]; rfl⟩
  | closing => cases own <;> exact ⟨_, rfl⟩
  | _ => first | exact ⟨_, rfl⟩ | cases hp

/-- While the lock is free, everybody can move that does not sleep and is not over. -/
theorem moves_of_unlocked {own : Attempt} {g : Guard} {p : Place} (hl : g.locked = false)
    (hover : p.isOver = false) (hasleep : p ≠ .asleep) : ∃ r, p.step own g = some r := by
  cases hp : p.holds with
  | true => exact moves_of_holds hp
  | false =>
      cases p with
      | arriving =>
          simp only [step]
          cases g.outcome <;> exact ⟨_, rfl⟩
      | entering => exact ⟨_, if_neg (by rw [hl]; exact Bool.false_ne_true)⟩
      | announcing => exact ⟨_, if_neg (by rw [hl]; exact Bool.false_ne_true)⟩
      | asleep => exact absurd rfl hasleep
      | looking => cases hp
      | closing => cases hp
      | _ => first | exact ⟨_, rfl⟩ | cases hover

end Place

namespace Threads

variable {s t : Threads}

theorem stepAt_of_step {i : Nat} {u : Thread} (hu : s.calls[i]? = some u)
    (hs : ∃ r, u.place.step u.own s.guard = some r) : ∃ t, s.stepAt i = some t := by
  obtain ⟨⟨g, p, wakes⟩, hr⟩ := hs
  exact ⟨_, by simp only [stepAt, hu, hr]; rfl⟩

/-- The calls of the crowd that threads show. -/
theorem Shows.getElem?_calls {c : Crowd} (h : s.Shows c) (i : Nat) :
    c.calls[i]? = s.calls[i]?.map Thread.call := by
  have hcalls : c.calls = s.calls.map Thread.call := by
    cases h with
    | free hl hc nobody => rw [hc]
    | held k u hk hu hl knows hc others => rw [hc]
  rw [hcalls, List.getElem?_map]

theorem Shows.knows {c : Crowd} (h : s.Shows c) {i : Nat} {u : Thread}
    (hi : s.calls[i]? = some u) : u.place.Knows s.guard.phase := by
  rcases h.mover hi with ⟨-, knows, -⟩ | ⟨hfree, -⟩
  · exact knows
  · exact Place.knows_of_not_holds hfree

/-- **Whoever sleeps will be woken**: exactly one call, another one, has put the attempt in progress
and has still to wake the sleepers. -/
theorem Run.ahead_of_asleep (h : Threads.Run l attempts s) {i : Nat} {own : Attempt}
    (hi : s.calls[i]? = some ⟨own, .asleep⟩) :
    ∃ (k : Nat) (u : Thread), k ≠ i ∧ s.calls[k]? = some u ∧ u.place.isAhead = true ∧
      ∀ (j : Nat) (v : Thread), s.calls[j]? = some v → v.place.isAhead = true → j = k := by
  obtain ⟨openers, c, hc, hs⟩ := h.shows
  have hcall : c.calls[i]? = some ⟨own, .asleep⟩ := by
    rw [hs.getElem?_calls, hi]
    rfl
  obtain ⟨-, k, d, hki, hk, hd, honly⟩ := hc.ahead_of_asleep hcall
  rw [hs.getElem?_calls, Option.map_eq_some_iff] at hk
  obtain ⟨u, hu, rfl⟩ := hk
  refine ⟨k, u, hki, hu, by rwa [← Place.isAhead_caller u.own], fun j v hv hahead => ?_⟩
  refine honly j v.call (by rw [hs.getElem?_calls, hv]; rfl) ?_
  rwa [Thread.call, Place.isAhead_caller]

/-- **While a call is not over, somebody can move.** -/
theorem Run.moves (h : Threads.Run l attempts s) {i : Nat} {u : Thread}
    (hi : s.calls[i]? = some u) (hu : u.place.isOver = false) :
    ∃ (j : Nat) (t : Threads), s.stepAt j = some t := by
  obtain ⟨openers, c, -, hs⟩ := h.shows
  cases hs with
  | held k v hk hv hl knows hc others =>
      exact ⟨k, stepAt_of_step hk (Place.moves_of_holds hv)⟩
  | free hl hc nobody =>
      obtain ⟨own, p⟩ := u
      by_cases hp : p = .asleep
      · -- who has still to wake the sleeper is neither asleep nor over
        subst hp
        obtain ⟨k, v, -, hk, hv, -⟩ := h.ahead_of_asleep hi
        refine ⟨k, stepAt_of_step hk (Place.moves_of_unlocked hl (Place.not_over_of_ahead hv) ?_)⟩
        intro hp
        rw [hp] at hv
        cases hv
      · exact ⟨i, stepAt_of_step hi (Place.moves_of_unlocked hl hu hp)⟩

/-- When nobody can move, each call has an answer or goes on with the panic of its own opener, and
the attempt is done if anybody called. -/
theorem Run.done_of_still (h : Threads.Run l attempts s) (hstill : ∀ i, s.stepAt i = none) :
    (∀ (i : Nat) (u : Thread), s.calls[i]? = some u →
      (∃ o, u.place = .returned o) ∨ ∃ p, u = ⟨.panicked p, .unwound p⟩) ∧
      (s.calls ≠ [] → s.guard.phase = .done) := by
  have hover : ∀ (i : Nat) (u : Thread), s.calls[i]? = some u → u.place.isOver = true := by
    intro i u hi
    cases hu : u.place.isOver with
    | true => rfl
    | false =>
        obtain ⟨j, t, ht⟩ := h.moves hi hu
        rw [hstill j] at ht
        cases ht
  obtain ⟨openers, c, hc, hs⟩ := h.shows
  have hcover : ∀ (i : Nat) (d : Call), c.calls[i]? = some d → d.caller.isOver = true := by
    intro i d hi
    rw [hs.getElem?_calls, Option.map_eq_some_iff] at hi
    obtain ⟨u, hu, rfl⟩ := hi
    exact Place.isOver_caller u.own (hover i u hu)
  obtain ⟨hanswers, hdone⟩ := hc.done_of_over hcover
  refine ⟨fun i u hi => ?_, fun hne => ?_⟩
  · have hcall : c.calls[i]? = some u.call := by
      rw [hs.getElem?_calls, hi]
      rfl
    have hu := hover i u hi
    have hanswer := hanswers i _ hcall
    obtain ⟨own, p⟩ := u
    cases p with
    | returned o => exact .inl ⟨o, rfl⟩
    | unwound p =>
        obtain ⟨o, ho⟩ | ⟨p', hp'⟩ := hanswer
        · cases ho
        · cases hp'
          exact .inr ⟨p, rfl⟩
    | _ => cases hu
  · cases hs with
    | free hl hc nobody =>
        subst hc
        exact hdone fun hnil => hne (List.map_eq_nil_iff.1 hnil)
    | held k v hk hv hl knows hc others =>
        have hv' := hover k v hk
        rw [Place.not_over_of_holds hv] at hv'
        cases hv'

end Threads

/-! ### How long it can take -/

/-- A bound for the steps that a call has still to make, unless it is woken without cause. Before
the attempt is done the call may have to lead it, or to sleep. -/
def Place.stepsLeft (phase : Phase) : Place → Nat
  | .arriving => if phase = .done then 5 else 13
  | .entering => if phase = .done then 4 else 12
  | .looking => if phase = .done then 3 else 11
  | .pausing => 6
  | .asleep => 5
  | .finding => 2
  | .leaving _ => 1
  | .taking => 10
  | .starting => 9
  | .counting => 8
  | .opening => 7
  | .settling => 6
  | .announcing => 5
  | .declaring => 4
  | .waking => 3
  | .closing => 2
  | .reading => 1
  | .returned _ => 0
  | .unwound _ => 0

/-- A bound for the steps that threads have still to make. -/
def Threads.stepsLeft (s : Threads) : Nat :=
  (s.calls.map fun t => t.place.stepsLeft s.guard.phase).sum

namespace Place

/-- An attempt that is done leaves no more steps than one that is not. -/
theorem stepsLeft_done_le (p : Place) (phase : Phase) : p.stepsLeft .done ≤ p.stepsLeft phase := by
  cases p <;> cases phase <;> simp [stepsLeft]

theorem stepsLeft_inProgress (p : Place) : p.stepsLeft .inProgress = p.stepsLeft .unstarted := by
  cases p <;> rfl

/-- A sleeper that is woken after the attempt is done has only to find the outcome. -/
theorem stepsLeft_wake_le (u : Thread) :
    u.wake.place.stepsLeft .done ≤ u.place.stepsLeft .done := by
  obtain ⟨own, p⟩ := u
  cases p with
  | asleep => exact Nat.le_succ 4
  | _ => exact Nat.le_refl _

/-- **A step brings the end of its own call nearer**, and nobody's end farther away. -/
theorem stepsLeft_step {own : Attempt} {g g' : Guard} {p p' : Place} {wakes : Bool}
    (hs : p.step own g = some (g', p', wakes)) (knows : p.Knows g.phase) :
    p'.stepsLeft g'.phase < p.stepsLeft g.phase ∧
      ∀ u : Thread, (if wakes then u.wake else u).place.stepsLeft g'.phase ≤
        u.place.stepsLeft g.phase := by
  obtain ⟨l, phase, locked, outcome, attempts, openings⟩ := g
  cases p with
  | arriving =>
      cases outcome <;> cases hs <;> refine ⟨?_, fun u => Nat.le_refl _⟩ <;>
        simp only [stepsLeft] <;> split <;> omega
  | entering =>
      cases locked <;> cases hs
      refine ⟨?_, fun u => Nat.le_refl _⟩
      simp only [stepsLeft]
      split <;> omega
  | looking =>
      cases phase <;> cases hs <;> refine ⟨?_, fun u => Nat.le_refl _⟩ <;> simp [stepsLeft]
  | taking =>
      obtain rfl : phase = .unstarted := knows
      cases hs
      exact ⟨Nat.lt_succ_self 9, fun u => Nat.le_of_eq (stepsLeft_inProgress _)⟩
  | declaring =>
      obtain rfl : phase = .inProgress := knows
      cases hs
      exact ⟨Nat.lt_succ_self 3, fun u => stepsLeft_done_le _ _⟩
  | waking =>
      -- the sleepers are woken only after the attempt is done
      obtain rfl : phase = .done := knows
      cases hs
      exact ⟨Nat.lt_succ_self 2, stepsLeft_wake_le⟩
  | announcing =>
      cases locked <;> cases hs
      exact ⟨Nat.lt_succ_self 4, fun u => Nat.le_refl _⟩
  | closing =>
      cases own <;> cases hs <;> refine ⟨?_, fun u => Nat.le_refl _⟩ <;> simp [stepsLeft]
  | asleep => cases hs
  | returned o => cases hs
  | unwound payload => cases hs
  | _ => cases hs; exact ⟨Nat.lt_succ_self _, fun u => Nat.le_refl _⟩

end Place

/-- A sum gets smaller when one of its terms does and none gets greater. -/
theorem sum_map_set_lt {f g : Thread → Nat} {h : Thread → Thread} {u : Thread}
    (hle : ∀ t, g (h t) ≤ f t) :
    ∀ {calls : List Thread} {i : Nat} {t : Thread}, calls[i]? = some t → g u < f t →
      (((calls.map h).set i u).map g).sum < (calls.map f).sum
  | t :: calls, 0, _, rfl, hlt => by
      have hrest : ((calls.map h).map g).sum ≤ (calls.map f).sum := by
        rw [List.map_map]
        exact List.sum_le_sum fun t _ => hle t
      simp only [List.map_cons, List.set_cons_zero, List.sum_cons]
      exact Nat.add_lt_add_of_lt_of_le hlt hrest
  | t :: calls, i + 1, v, hv, hlt => by
      simp only [List.map_cons, List.set_cons_succ, List.sum_cons]
      exact Nat.add_lt_add_of_le_of_lt (hle t) (sum_map_set_lt hle (i := i) hv hlt)

/-- **Every step of the threads brings the end nearer.** -/
theorem Threads.Run.stepsLeft_lt {s t : Threads} {i : Nat} (h : Threads.Run l attempts s)
    (ht : s.stepAt i = some t) : t.stepsLeft < s.stepsLeft := by
  obtain ⟨u, g', p', wakes, hu, hs, rfl⟩ := stepAt_eq_some ht
  obtain ⟨openers, c, -, hc⟩ := h.shows
  obtain ⟨hlt, hle⟩ := Place.stepsLeft_step hs (hc.knows hu)
  have hcalls : (if wakes then s.calls.map Thread.wake else s.calls) =
      s.calls.map fun u => if wakes then u.wake else u := by
    cases wakes with
    | false => exact (List.map_id _).symm
    | true => rfl
  simp only [stepsLeft, hcalls]
  exact sum_map_set_lt hle hu hlt

/-! ### The main result -/

/-- **No caller is left hanging.** Of any number of callers with any openers, whatever the order of
their steps: while one sleeps, exactly one other has put the attempt in progress and has still to
wake the sleepers; while one is not over, somebody can move; and when nobody can, all have an answer
or go on with the panic of their own opener, and the attempt is done if anybody called. This holds
of a crowd, and it holds of threads, whose steps under the lock are taken one by one; what these
reach shows what a crowd reaches, and each of their steps brings the end nearer. -/
theorem no_caller_left_hanging (l : Locator) (attempts : List Attempt) :
    (∀ (openers : List Nat) (s : Crowd), Crowd.Run l attempts openers s →
      (∀ (i : Nat) (own : Attempt), s.calls[i]? = some ⟨own, .asleep⟩ →
        ∃ (k : Nat) (c : Call), k ≠ i ∧ s.calls[k]? = some c ∧ c.caller.isAhead = true ∧
          ∀ (j : Nat) (d : Call), s.calls[j]? = some d → d.caller.isAhead = true → j = k) ∧
      (∀ (i : Nat) (c : Call), s.calls[i]? = some c → c.caller.isOver = false →
        ∃ (j : Nat) (t : Crowd), s.stepAt j = some t) ∧
      ((∀ i, s.stepAt i = none) →
        (∀ (i : Nat) (c : Call), s.calls[i]? = some c →
          (∃ o, c.caller = .returned o) ∨ ∃ p, c = ⟨.panicked p, .unwound p⟩) ∧
        (s.calls ≠ [] → s.guard.phase = .done))) ∧
    ∀ s : Threads, Threads.Run l attempts s →
      (∃ (openers : List Nat) (c : Crowd), Crowd.Run l attempts openers c ∧ s.Shows c) ∧
      (∀ (i : Nat) (own : Attempt), s.calls[i]? = some ⟨own, .asleep⟩ →
        ∃ (k : Nat) (u : Thread), k ≠ i ∧ s.calls[k]? = some u ∧ u.place.isAhead = true ∧
          ∀ (j : Nat) (v : Thread), s.calls[j]? = some v → v.place.isAhead = true → j = k) ∧
      (∀ (i : Nat) (u : Thread), s.calls[i]? = some u → u.place.isOver = false →
        ∃ (j : Nat) (t : Threads), s.stepAt j = some t) ∧
      ((∀ i, s.stepAt i = none) →
        (∀ (i : Nat) (u : Thread), s.calls[i]? = some u →
          (∃ o, u.place = .returned o) ∨ ∃ p, u = ⟨.panicked p, .unwound p⟩) ∧
        (s.calls ≠ [] → s.guard.phase = .done)) ∧
      ∀ (i : Nat) (t : Threads), s.stepAt i = some t → t.stepsLeft < s.stepsLeft := by
  constructor
  · intro openers s h
    exact ⟨fun i own hi => (h.ahead_of_asleep hi).2, fun i c hi hc => h.moves hi hc,
      h.done_of_still⟩
  · intro s h
    exact ⟨h.shows, fun i own hi => h.ahead_of_asleep hi, fun i u hi hu => h.moves hi hu,
      h.done_of_still, fun i t ht => h.stepsLeft_lt ht⟩

/-- The threads after the calls at some indices have moved in this order. -/
def Threads.afterMoves (s : Threads) : List Nat → Option Threads
  | [] => some s
  | i :: rest => (s.stepAt i).bind fun t => t.afterMoves rest

theorem Threads.Run.afterMoves {s t : Threads} (h : Threads.Run l attempts s) (order : List Nat)
    (ht : s.afterMoves order = some t) : Threads.Run l attempts t := by
  induction order generalizing s with
  | nil =>
      cases ht
      exact h
  | cons i rest ih =>
      obtain ⟨u, hu, hrest⟩ := Option.bind_eq_some_iff.1 ht
      exact ih (h.move i hu) hrest

/-- A caller sees an attempt in progress and is overtaken before it falls asleep: the opener panics,
and the outcome is stored meanwhile. When the attempt has been declared done the sleeper is still to
be woken, and in the end both calls are over. -/
theorem overtaken_sleeper_is_woken :
    let panic : Attempt := .panicked (.text "boom")
    let other : Attempt := .ended (.error (.notFound []))
    let told : Outcome := .error (.openFailed ⟨[]⟩ "load attempt panicked: boom")
    let settled : Guard :=
      { phase := .done, outcome := some told, attempts := 1, openings := [.inProgress] }
    let s : Threads := ⟨{ settled with locked := true }, [⟨panic, .waking⟩, ⟨other, .asleep⟩]⟩
    let t : Threads := ⟨settled, [⟨panic, .unwound (.text "boom")⟩, ⟨other, .returned told⟩]⟩
    Threads.Run {} [panic, other] s ∧ (∃ (j : Nat) (t : Threads), s.stepAt j = some t) ∧
      Threads.Run {} [panic, other] t ∧ (∀ i, t.stepAt i = none) ∧ t.guard.phase = .done := by
  intro panic other told settled s t
  -- the second caller looks at the phase before the opener is run, and falls asleep after that
  have hs : Threads.Run {} [panic, other] s :=
    Threads.Run.arrive.afterMoves [0, 1, 0, 0, 0, 0, 1, 1, 0, 0, 0, 1, 0, 0] (by cbv)
  have ht : Threads.Run {} [panic, other] t :=
    hs.afterMoves [0, 0, 1, 1, 1, 1] (by cbv)
  obtain ⟨-, hthreads⟩ := no_caller_left_hanging {} [panic, other]
  obtain ⟨-, -, hmoves, -⟩ := hthreads s hs
  obtain ⟨-, -, -, hdone, -⟩ := hthreads t ht
  have hstill : ∀ i, t.stepAt i = none := by
    rintro (_ | _ | i) <;> rfl
  exact ⟨hs, hmoves 1 _ rfl rfl, ht, hstill, (hdone hstill).2 (List.cons_ne_nil _ _)⟩

end LateBinding.Library
