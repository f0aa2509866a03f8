import LateBinding.Library.Guard

/-!
**One caller leads the attempt, the others follow.**

From the moment when a caller takes the attempt for itself, that caller alone changes the guard, and
where it stands determines the guard completely: whether the lock is held, the phase, the outcome,
how many attempts were counted and how many openers were run. All others only read. They may sleep
while the attempt is in progress, and read an outcome once there is one.

Main definitions:

* `LateBinding.Library.Crowd.Run` — the states that a crowd reaches, each with **the callers whose
  openers were run** on the way;
* `LateBinding.Library.Leads`, `LateBinding.Library.Follows` — the guard as seen from the leader and
  from the others;
* `LateBinding.Library.Standing` — the invariant.

Main results:

* `LateBinding.Library.Leads.step`, `LateBinding.Library.Follows.step` — what one step of the leader
  and of a follower does;
* `LateBinding.Library.Crowd.Run.standing` — **every reachable state has the invariant**.
-/

set_option autoImplicit false

namespace LateBinding.Library

/-! ### Runs of a crowd -/

/-- The place of a caller, if the caller's next step runs its opener. -/
def Caller.opener (i : Nat) : Caller → List Nat
  | .opening => [i]
  | _ => []

namespace Crowd

/-- The caller at a place, if its next step runs its opener. -/
def openerAt (s : Crowd) (i : Nat) : List Nat :=
  match s.calls[i]? with
  | some c => c.caller.opener i
  | none => []

/-- `Run l attempts openers s`: callers whose openers do `attempts`, all arriving at a fresh guard,
can get to `s`; the callers in `openers` have run their openers, the latest first. -/
inductive Run (l : Locator) (attempts : List Attempt) : List Nat → Crowd → Prop
  | arrive : Run l attempts [] (Crowd.arrive l attempts)
  | move {openers : List Nat} {s t : Crowd} (i : Nat) (h : Run l attempts openers s)
      (ht : s.stepAt i = some t) : Run l attempts (s.openerAt i ++ openers) t
  | spurious {openers : List Nat} {s t : Crowd} (i : Nat) (h : Run l attempts openers s)
      (ht : s.wakeAt i = some t) : Run l attempts openers t

/-- What a step of the caller at a place is made of. -/
theorem stepAt_eq_some {s t : Crowd} {i : Nat} (h : s.stepAt i = some t) :
    ∃ (c : Call) (g : Guard) (caller : Caller) (wakes : Bool), s.calls[i]? = some c ∧
      step c.own s.guard c.caller = some (g, caller, wakes) ∧
      t = ⟨g, (if wakes then s.calls.map Call.wake else s.calls).set i ⟨c.own, caller⟩⟩ := by
  unfold stepAt at h
  split at h
  · cases h
  · next c hc =>
      split at h
      · cases h
      · next g caller wakes hs =>
          exact ⟨c, g, caller, wakes, hc, hs, (Option.some.inj h).symm⟩

/-- What waking without cause is made of. -/
theorem wakeAt_eq_some {s t : Crowd} {i : Nat} (h : s.wakeAt i = some t) :
    ∃ own : Attempt, s.calls[i]? = some ⟨own, .asleep⟩ ∧
      t = ⟨s.guard, s.calls.set i ⟨own, .entering⟩⟩ := by
  unfold wakeAt at h
  split at h
  · next own hc => exact ⟨own, hc, (Option.some.inj h).symm⟩
  · cases h

end Crowd

/-- A caller after sleepers may have been woken. -/
def Caller.wokenIf (wakes : Bool) (c : Caller) : Caller :=
  match wakes, c with
  | true, .asleep => .entering
  | _, c => c

/-- The callers next to the one that moves stay where they are, or are woken. -/
theorem getElem?_others {calls : List Call} {c : Call} {wakes : Bool} {i j : Nat} (hj : j ≠ i) :
    ((if wakes then calls.map Call.wake else calls).set i c)[j]? =
      calls[j]?.map fun d => ⟨d.own, d.caller.wokenIf wakes⟩ := by
  rw [List.getElem?_set_ne hj.symm]
  cases wakes with
  | false =>
      have hid : (fun d : Call => (⟨d.own, d.caller.wokenIf false⟩ : Call)) = id := rfl
      rw [if_neg (by simp), hid, Option.map_id, id]
  | true =>
      have hwake : (fun d : Call => (⟨d.own, d.caller.wokenIf true⟩ : Call)) = Call.wake := by
        funext ⟨own, caller⟩
        cases caller <;> rfl
      rw [if_pos rfl, List.getElem?_map, hwake]

/-! ### The leader -/

/-- The guard after its attempt was settled and announced. -/
def Guard.finished (l : Locator) (own : Attempt) : Guard where
  locator := l
  phase := .done
  outcome := some (own.settled l)
  attempts := 1
  openings := [.inProgress]

/-- `Leads l g c`: the guard, whose locator is `l`, is as it must be while `c` leads the attempt. -/
inductive Leads (l : Locator) : Guard → Call → Prop
  | taking (own : Attempt) : Leads l { locator := l, locked := true } ⟨own, .taking⟩
  | counting (own : Attempt) : Leads l { locator := l, phase := .inProgress } ⟨own, .counting⟩
  | opening (own : Attempt) :
      Leads l { locator := l, phase := .inProgress, attempts := 1 } ⟨own, .opening⟩
  | settling (own : Attempt) :
      Leads l { locator := l, phase := .inProgress, attempts := 1, openings := [.inProgress] }
        ⟨own, .settling⟩
  | announcing (own : Attempt) :
      Leads l { Guard.finished l own with phase := .inProgress } ⟨own, .announcing⟩
  | reading (o : Outcome) : Leads l (Guard.finished l (.ended o)) ⟨.ended o, .reading⟩
  | returned (o : Outcome) : Leads l (Guard.finished l (.ended o)) ⟨.ended o, .returned o⟩
  | unwound (p : Payload) : Leads l (Guard.finished l (.panicked p)) ⟨.panicked p, .unwound p⟩

/-- `Follows g c`: where a caller may stand that does not lead the attempt. -/
inductive Follows (g : Guard) : Caller → Prop
  | arriving : Follows g .arriving
  | entering : Follows g .entering
  | asleep (h : g.phase = .inProgress) : Follows g .asleep
  | reading (h : g.outcome.isSome) : Follows g .reading
  | returned {o : Outcome} (h : g.outcome = some o) : Follows g (.returned o)

/-- The leader never sleeps. -/
theorem Leads.not_asleep {l : Locator} {g : Guard} {own : Attempt} :
    ¬ Leads l g ⟨own, .asleep⟩ := by
  intro h
  cases h

/-- While the attempt is led it cannot be taken. -/
theorem Leads.not_free {l : Locator} {g : Guard} {c : Call} (h : Leads l g c)
    (hp : g.phase = .unstarted) : g.locked = true := by
  cases h <;> first | rfl | cases hp

/-- The attempt is done only with an outcome. -/
theorem Leads.outcome_of_done {l : Locator} {g : Guard} {c : Call} (h : Leads l g c)
    (hp : g.phase = .done) : g.outcome.isSome := by
  cases h <;> first | rfl | cases hp

/-- A follower stays a follower when the guard changes, if sleepers are woken at the end of the
attempt and an outcome stays. -/
theorem Follows.mono {g g' : Guard} {c : Caller} {wakes : Bool} (h : Follows g c)
    (hp : g.phase = .inProgress → g'.phase = .inProgress ∨ wakes = true)
    (ho : ∀ o, g.outcome = some o → g'.outcome = some o) : Follows g' (c.wokenIf wakes) := by
  cases h with
  | arriving => cases wakes <;> exact .arriving
  | entering => cases wakes <;> exact .entering
  | asleep h =>
      cases wakes with
      | true => exact .entering
      | false => exact .asleep ((hp h).resolve_right (by simp))
  | reading h =>
      obtain ⟨o, hg⟩ := Option.isSome_iff_exists.1 h
      have hs : g'.outcome.isSome := by rw [ho o hg]; rfl
      cases wakes <;> exact .reading hs
  | returned h => cases wakes <;> exact .returned (ho _ h)

/-- How the phase may move in one step. -/
inductive Phase.Next : Phase → Phase → Prop
  | stay (p : Phase) : Next p p
  | start : Next .unstarted .inProgress
  | finish : Next .inProgress .done

/-- **A step of the leader**: it leads on, the others go on following, the phase moves forward, an
outcome stays, and an opener is run only in the step from `opening`. -/
theorem Leads.step {l : Locator} {g g' : Guard} {own : Attempt} {c c' : Caller} {wakes : Bool}
    (h : Leads l g ⟨own, c⟩) (hs : Library.step own g c = some (g', c', wakes)) :
    Leads l g' ⟨own, c'⟩ ∧ Phase.Next g.phase g'.phase ∧
      (∀ d, Follows g d → Follows g' (d.wokenIf wakes)) := by
  cases h with
  | taking =>
      cases hs
      refine ⟨.counting own, .start, fun d hd => hd.mono ?_ ?_⟩
      · intro hp; cases hp
      · intro o ho; cases ho
  | counting =>
      cases hs
      exact ⟨.opening own, .stay _, fun d hd => hd.mono Or.inl (fun _ ho => ho)⟩
  | opening =>
      cases hs
      exact ⟨.settling own, .stay _, fun d hd => hd.mono Or.inl (fun _ ho => ho)⟩
  | settling =>
      cases hs
      refine ⟨.announcing own, .stay _, fun d hd => hd.mono Or.inl ?_⟩
      intro o ho; cases ho
  | announcing =>
      -- the one step that ends the attempt wakes the sleepers
      cases own with
      | ended o =>
          cases hs
          exact ⟨.reading o, .finish, fun d hd => hd.mono (fun _ => Or.inr rfl) (fun _ ho => ho)⟩
      | panicked p =>
          cases hs
          exact ⟨.unwound p, .finish, fun d hd => hd.mono (fun _ => Or.inr rfl) (fun _ ho => ho)⟩
  | reading o =>
      cases hs
      exact ⟨.returned o, .stay _, fun d hd => hd.mono Or.inl (fun _ ho => ho)⟩
  | returned o => cases hs
  | unwound p => cases hs

/-- **A step of a follower**: it changes nothing and goes on following, or it takes the attempt. -/
theorem Follows.step {g g' : Guard} {own : Attempt} {c c' : Caller} {wakes : Bool}
    (h : Follows g c) (hd : g.phase = .done → g.outcome.isSome)
    (hs : Library.step own g c = some (g', c', wakes)) :
    (g' = g ∧ Follows g c' ∧ wakes = false) ∨
      (g.phase = .unstarted ∧ g.locked = false ∧ g' = { g with locked := true } ∧ c' = .taking ∧
        wakes = false) := by
  cases h with
  | arriving =>
      simp only [Library.step] at hs
      split at hs
      · next o ho =>
          cases hs
          exact Or.inl ⟨rfl, .reading (by rw [ho]; rfl), rfl⟩
      · cases hs
        exact Or.inl ⟨rfl, .entering, rfl⟩
  | entering =>
      simp only [Library.step] at hs
      split at hs
      · cases hs
      · next hl =>
          -- the lock is free, and the phase says whether to read, to sleep or to lead
          split at hs
          · next hp =>
              cases hs
              exact Or.inl ⟨rfl, .reading (hd hp), rfl⟩
          · next hp =>
              cases hs
              exact Or.inl ⟨rfl, .asleep hp, rfl⟩
          · next hp =>
              cases hs
              exact Or.inr ⟨hp, by simpa using hl, rfl, rfl, rfl⟩
  | asleep h => cases hs
  | reading h =>
      cases hs
      obtain ⟨o, ho⟩ := Option.isSome_iff_exists.1 h
      exact Or.inl ⟨rfl, .returned (by rw [ho]; rfl), rfl⟩
  | returned h => cases hs

/-! ### The invariant -/

/-- The callers that have run their openers while the one at `k` leads. -/
def Guard.openers (g : Guard) (k : Nat) : List Nat := if g.openings = [] then [] else [k]

/-- The opener of the leader is run in the step from `opening`. -/
theorem Leads.openers_step {l : Locator} {g g' : Guard} {own : Attempt} {c c' : Caller}
    {wakes : Bool} (h : Leads l g ⟨own, c⟩) (hs : Library.step own g c = some (g', c', wakes))
    (k : Nat) : c.opener k ++ g.openers k = g'.openers k := by
  cases h <;> cases hs <;> rfl

/-- A follower does not run its opener. -/
theorem Follows.opener_eq_nil {g : Guard} {c : Caller} (h : Follows g c) (i : Nat) :
    c.opener i = [] := by
  cases h <;> rfl

/-- `Standing l openers s`: the attempt was not taken yet, or one caller leads it; the others
follow. An opener that was run is the leader's. -/
inductive Standing (l : Locator) (openers : List Nat) (s : Crowd) : Prop
  | untouched (hg : s.guard = { locator := l }) (ho : openers = [])
      (follow : ∀ (j : Nat) (c : Call), s.calls[j]? = some c → Follows s.guard c.caller)
  | led (k : Nat) (c : Call) (hk : s.calls[k]? = some c) (lead : Leads l s.guard c)
      (ho : openers = s.guard.openers k)
      (follow : ∀ (j : Nat) (c : Call), s.calls[j]? = some c → j ≠ k → Follows s.guard c.caller)

theorem Standing.arrive (l : Locator) (attempts : List Attempt) :
    Standing l [] (Crowd.arrive l attempts) := by
  refine .untouched rfl rfl fun j c hc => ?_
  obtain ⟨own, -, rfl⟩ := List.mem_map.1 (List.mem_of_getElem? hc)
  exact .arriving

/-- The caller at the place that moves, afterwards. -/
theorem getElem?_mover {calls : List Call} {c d : Call} {i : Nat} (wakes : Bool)
    (hc : calls[i]? = some c) :
    ((if wakes then calls.map Call.wake else calls).set i d)[i]? = some d := by
  obtain ⟨hi, -⟩ := List.getElem?_eq_some_iff.1 hc
  refine List.getElem?_set_self ?_
  cases wakes <;> simpa using hi

/-- A follower that does not move goes on following. -/
theorem Follows.unmoved {g g' : Guard} {calls : List Call} {c d : Call} {wakes : Bool} {i j : Nat}
    (follow : ∀ e : Call, calls[j]? = some e → Follows g e.caller)
    (hg : ∀ d, Follows g d → Follows g' (d.wokenIf wakes)) (hji : j ≠ i)
    (hd : ((if wakes then calls.map Call.wake else calls).set i c)[j]? = some d) :
    Follows g' d.caller := by
  rw [getElem?_others hji, Option.map_eq_some_iff] at hd
  obtain ⟨e, he, rfl⟩ := hd
  exact hg _ (follow e he)

/-- A guard that stays as it is, or is only locked, lets a follower follow. -/
theorem Follows.of_same_guard {g : Guard} {c : Caller} (b : Bool) (h : Follows g c) :
    Follows { g with locked := b } (c.wokenIf false) :=
  h.mono Or.inl (fun _ ho => ho)

/-- **A step keeps the invariant, and the phase moves forward.** -/
theorem Standing.move {l : Locator} {openers : List Nat} {s t : Crowd} {i : Nat}
    (h : Standing l openers s) (ht : s.stepAt i = some t) :
    Standing l (s.openerAt i ++ openers) t ∧ Phase.Next s.guard.phase t.guard.phase := by
  obtain ⟨c, g', c', wakes, hc, hs, rfl⟩ := Crowd.stepAt_eq_some ht
  have hopener : s.openerAt i = c.caller.opener i := by simp only [Crowd.openerAt, hc]
  cases h with
  | untouched hg ho follow =>
      have hf : Follows s.guard c.caller := follow i c hc
      have hd : s.guard.phase = .done → s.guard.outcome.isSome := by
        intro hp; rw [hg] at hp; cases hp
      rw [hopener, hf.opener_eq_nil, ho]
      rcases hf.step hd hs with ⟨rfl, hf', rfl⟩ | ⟨-, -, rfl, rfl, rfl⟩
      · refine ⟨.untouched hg rfl fun j d hj => ?_, .stay _⟩
        by_cases hji : j = i
        · subst hji
          rw [getElem?_mover _ hc] at hj
          cases hj
          exact hf'
        · exact Follows.unmoved (follow j) (fun _ hf => hf.of_same_guard _) hji hj
      · -- the caller at `i` takes the attempt and leads it from now on
        refine ⟨.led i _ (getElem?_mover _ hc) ?_ ?_ ?_, ?_⟩
        · rw [hg]; exact .taking _
        · rw [hg]; rfl
        · intro j d hj hji
          exact Follows.unmoved (follow j) (fun _ hf => hf.of_same_guard true) hji hj
        · exact .stay _
  | led k e hk lead ho follow =>
      by_cases hik : i = k
      · subst hik
        obtain rfl : e = c := Option.some.inj (hk.symm.trans hc)
        -- the leader moves, and the others follow the guard that it leaves
        obtain ⟨lead', hnext, hfollow⟩ := lead.step hs
        refine ⟨.led i _ (getElem?_mover _ hc) lead' ?_ ?_, hnext⟩
        · rw [hopener, ho]
          exact lead.openers_step hs i
        · intro j d hj hji
          exact Follows.unmoved (fun e he => follow j e he hji) hfollow hji hj
      · have hf : Follows s.guard c.caller := follow i c hc hik
        rw [hopener, hf.opener_eq_nil]
        rcases hf.step lead.outcome_of_done hs with ⟨rfl, hf', rfl⟩ | ⟨hp, hl, -, -, -⟩
        · refine ⟨.led k e ?_ lead ho fun j d hj hjk => ?_, .stay _⟩
          · rw [getElem?_others (Ne.symm hik), hk]; rfl
          · by_cases hji : j = i
            · subst hji
              rw [getElem?_mover _ hc] at hj
              cases hj
              exact hf'
            · exact Follows.unmoved (fun e he => follow j e he hjk) (fun _ hf => hf.of_same_guard _)
                hji hj
        · -- a follower cannot take the attempt: while it is unstarted, the leader holds the lock
          rw [lead.not_free hp] at hl
          cases hl

/-- Waking without cause keeps the invariant. -/
theorem Standing.spurious {l : Locator} {openers : List Nat} {s t : Crowd} {i : Nat}
    (h : Standing l openers s) (ht : s.wakeAt i = some t) : Standing l openers t := by
  obtain ⟨own, hc, rfl⟩ := Crowd.wakeAt_eq_some ht
  have hself : (s.calls.set i ⟨own, .entering⟩)[i]? = some ⟨own, .entering⟩ :=
    getElem?_mover false hc
  cases h with
  | untouched hg ho follow =>
      refine .untouched hg ho fun j d hj => ?_
      by_cases hji : j = i
      · subst hji
        rw [hself] at hj
        cases hj
        exact .entering
      · rw [List.getElem?_set_ne (Ne.symm hji)] at hj
        exact follow j d hj
  | led k e hk lead ho follow =>
      -- who wakes was asleep, so it is not the leader
      have hik : i ≠ k := by
        rintro rfl
        rw [hc] at hk
        cases hk
        exact lead.not_asleep
      refine .led k e (by rw [List.getElem?_set_ne hik, hk]) lead ho fun j d hj hjk => ?_
      by_cases hji : j = i
      · subst hji
        rw [hself] at hj
        cases hj
        exact .entering
      · rw [List.getElem?_set_ne (Ne.symm hji)] at hj
        exact follow j d hj hjk

/-- **Every reachable state has the invariant.** -/
theorem Crowd.Run.standing {l : Locator} {attempts : List Attempt} {openers : List Nat} {s : Crowd}
    (h : Crowd.Run l attempts openers s) : Standing l openers s := by
  induction h with
  | arrive => exact Standing.arrive l attempts
  | move i _ ht ih => exact (ih.move ht).1
  | spurious i _ ht ih => exact ih.spurious ht

end LateBinding.Library
