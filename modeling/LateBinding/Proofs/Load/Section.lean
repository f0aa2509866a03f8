import LateBinding.Proofs.Load.Outcome

/-!
**What is done under the lock may be taken as one step.**

A crowd looks at the phase and falls asleep in one step, and it declares the attempt done and wakes
the sleepers in one step. In truth a caller takes the lock, does these things one after the other,
and gives the lock back; meanwhile the others go on, as far as they do not need the lock. Here every
one of these steps stands by itself: a caller that has seen an attempt in progress can be overtaken
before it falls asleep, and so can one that has declared the attempt done before it wakes anybody.

**Nothing new can happen that way.** Whatever the threads do, the crowd can do as well: the guard
that the crowd sees is the one that the holder of the lock found, until the holder has done what the
crowd does in one step.

Main definitions:

* `LateBinding.Library.Place`, `LateBinding.Library.Place.step` — where a call stands, and **one
  step of it, those under the lock included**;
* `LateBinding.Library.Threads`, `LateBinding.Library.Threads.Run` — several such calls at one
  guard, and the states that they reach;
* `LateBinding.Library.Place.behind` — the guard that the crowd sees behind the holder of the lock;
* `LateBinding.Library.Threads.Shows` — the crowd that threads show.

Main results:

* `LateBinding.Library.Place.step_shows`, `LateBinding.Library.Place.step_beside` — a step of who
  may hold the lock, and a step next to the holder;
* `LateBinding.Library.Threads.Run.shows` — **what threads reach shows what a crowd reaches**.
-/

set_option autoImplicit false

namespace LateBinding.Library

/-! ### Threads -/

/-- Where a call stands. At some of these places it holds the lock. -/
inductive Place where
  | arriving
  | entering
  | looking
  | pausing
  | asleep
  | finding
  | leaving (outcome : Outcome)
  | taking
  | starting
  | counting
  | opening
  | settling
  | announcing
  | declaring
  | waking
  | closing
  | reading
  | returned (outcome : Outcome)
  | unwound (payload : Payload)

namespace Place

/-- Whether a call holds the lock. -/
def holds : Place → Bool
  | .looking => true
  | .pausing => true
  | .finding => true
  | .leaving _ => true
  | .taking => true
  | .starting => true
  | .declaring => true
  | .waking => true
  | .closing => true
  | _ => false

/-- Whether a call is over. -/
def isOver : Place → Bool
  | .returned _ => true
  | .unwound _ => true
  | _ => false

/-- One step of a call whose opener does `own`: the guard and the place after it, and whether the
sleepers are woken. A call that needs the lock has none while somebody holds it. -/
def step (own : Attempt) (g : Guard) : Place → Option (Guard × Place × Bool)
  | .arriving =>
    match g.outcome with
    | some _ => some (g, .reading, false)
    | none => some (g, .entering, false)
  | .entering => if g.locked then none else some ({ g with locked := true }, .looking, false)
  | .looking =>
    match g.phase with
    | .done => some (g, .finding, false)
    | .inProgress => some (g, .pausing, false)
    | .unstarted => some (g, .taking, false)
  | .pausing => some ({ g with locked := false }, .asleep, false)
  | .finding => some (g, .leaving (g.outcome.getD missingOutcome), false)
  | .leaving outcome => some ({ g with locked := false }, .returned outcome, false)
  | .taking => some ({ g with phase := .inProgress }, .starting, false)
  | .starting => some ({ g with locked := false }, .counting, false)
  | .counting => some ({ g with attempts := g.attempts + 1 }, .opening, false)
  | .opening => some ({ g with openings := g.phase :: g.openings }, .settling, false)
  | .settling =>
    let outcome := g.outcome.getD (own.settled g.locator)
    some ({ g with outcome := some outcome }, .announcing, false)
  | .announcing => if g.locked then none else some ({ g with locked := true }, .declaring, false)
  | .declaring => some ({ g with phase := .done }, .waking, false)
  | .waking => some (g, .closing, true)
  | .closing =>
    match own with
    | .ended _ => some ({ g with locked := false }, .reading, false)
    | .panicked payload => some ({ g with locked := false }, .unwound payload, false)
  | .reading => some (g, .returned (g.outcome.getD missingOutcome), false)
  | .asleep => none
  | .returned _ => none
  | .unwound _ => none

end Place

/-- A call and what its opener does. -/
structure Thread where
  own : Attempt
  place : Place

/-- A call that sleeps is woken and waits for the lock. -/
def Thread.wake (t : Thread) : Thread :=
  match t.place with
  | .asleep => { t with place := .entering }
  | _ => t

/-- Several calls at one guard. -/
structure Threads where
  guard : Guard
  calls : List Thread

namespace Threads

/-- One step of the call at an index. -/
def stepAt (s : Threads) (i : Nat) : Option Threads :=
  match s.calls[i]? with
  | none => none
  | some t =>
    match t.place.step t.own s.guard with
    | none => none
    | some (guard, place, wakes) =>
      let calls := if wakes then s.calls.map Thread.wake else s.calls
      some ⟨guard, calls.set i { t with place := place }⟩

/-- The sleeper at an index wakes without having been woken. -/
def wakeAt (s : Threads) (i : Nat) : Option Threads :=
  match s.calls[i]? with
  | some ⟨own, .asleep⟩ => some { s with calls := s.calls.set i ⟨own, .entering⟩ }
  | _ => none

/-- The calls that all arrive at a fresh guard. -/
def arrive (l : Locator) (attempts : List Attempt) : Threads :=
  ⟨{ locator := l }, attempts.map fun a => ⟨a, .arriving⟩⟩

/-- `Run l attempts s`: calls whose openers do `attempts`, all arriving at a fresh guard, can get to
`s`. -/
inductive Run (l : Locator) (attempts : List Attempt) : Threads → Prop
  | arrive : Run l attempts (Threads.arrive l attempts)
  | move {s t : Threads} (i : Nat) (h : Run l attempts s) (ht : s.stepAt i = some t) :
      Run l attempts t
  | spurious {s t : Threads} (i : Nat) (h : Run l attempts s) (ht : s.wakeAt i = some t) :
      Run l attempts t

/-- What a step of the call at an index is made of. -/
theorem stepAt_eq_some {s t : Threads} {i : Nat} (h : s.stepAt i = some t) :
    ∃ (u : Thread) (g : Guard) (p : Place) (wakes : Bool), s.calls[i]? = some u ∧
      u.place.step u.own s.guard = some (g, p, wakes) ∧
      t = ⟨g, (if wakes then s.calls.map Thread.wake else s.calls).set i ⟨u.own, p⟩⟩ := by
  unfold stepAt at h
  split at h
  · cases h
  · next u hu =>
      split at h
      · cases h
      · next g p wakes hs => exact ⟨u, g, p, wakes, hu, hs, (Option.some.inj h).symm⟩

/-- What waking without cause is made of. -/
theorem wakeAt_eq_some {s t : Threads} {i : Nat} (h : s.wakeAt i = some t) :
    ∃ own : Attempt, s.calls[i]? = some ⟨own, .asleep⟩ ∧
      t = ⟨s.guard, s.calls.set i ⟨own, .entering⟩⟩ := by
  unfold wakeAt at h
  split at h
  · next own hc => exact ⟨own, hc, (Option.some.inj h).symm⟩
  · cases h

end Threads

/-! ### What the crowd sees -/

namespace Place

/-- The caller that a place shows. Under the lock it has moved as soon as it has done what the crowd
does in one step. -/
def caller (own : Attempt) : Place → Caller
  | .arriving => .arriving
  | .entering => .entering
  | .looking => .entering
  | .pausing => .entering
  | .asleep => .asleep
  | .finding => .reading
  | .leaving outcome => .returned outcome
  | .taking => .taking
  | .starting => .counting
  | .counting => .counting
  | .opening => .opening
  | .settling => .settling
  | .announcing => .announcing
  | .declaring => .announcing
  | .waking => .announcing
  | .closing =>
    match own with
    | .ended _ => .reading
    | .panicked payload => .unwound payload
  | .reading => .reading
  | .returned outcome => .returned outcome
  | .unwound payload => .unwound payload

/-- The guard that the crowd sees behind a call that holds the lock. -/
def behind (p : Place) (g : Guard) : Guard :=
  match p with
  | .taking => { g with locked := true }
  | .waking => { g with locked := false, phase := .inProgress }
  | _ => { g with locked := false }

/-- What the holder of the lock may still count on. -/
def Knows (p : Place) (phase : Phase) : Prop :=
  match p with
  | .pausing => phase = .inProgress
  | .taking => phase = .unstarted
  | .declaring => phase = .inProgress
  | .waking => phase = .done
  | _ => True

end Place

/-- The call of a crowd that a thread shows. -/
def Thread.call (t : Thread) : Call := ⟨t.own, t.place.caller t.own⟩

theorem Thread.call_wake (t : Thread) : t.wake.call = t.call.wake := by
  obtain ⟨own, place⟩ := t
  cases place <;> first | rfl | (cases own <;> rfl)

theorem Thread.holds_wake (t : Thread) : t.wake.place.holds = t.place.holds := by
  obtain ⟨own, place⟩ := t
  cases place <;> rfl

namespace Place

theorem knows_of_not_holds {p : Place} (hp : p.holds = false) {phase : Phase} : p.Knows phase := by
  cases p <;> trivial

/-- While nobody holds the lock the crowd sees the guard as it is. -/
theorem behind_of_not_holds {p : Place} {g : Guard} (hp : p.holds = false)
    (hl : g.locked = false) : p.behind g = g := by
  obtain ⟨l, phase, locked, outcome, attempts, openings⟩ := g
  obtain rfl : locked = false := hl
  cases p <;> first | rfl | cases hp

end Place

/-- **A step of a call that holds the lock, or that may take it.** The crowd sees nothing of it, or
one step of its own. -/
theorem Place.step_shows {own : Attempt} {g g' : Guard} {p p' : Place} {wakes : Bool}
    (hs : p.step own g = some (g', p', wakes)) (hheld : p.holds = g.locked)
    (knows : p.Knows g.phase) (hphase : p = .announcing → g.phase = .inProgress) :
    p'.holds = g'.locked ∧ p'.Knows g'.phase ∧
      ((wakes = false ∧ p'.behind g' = p.behind g ∧ p'.caller own = p.caller own) ∨
        Library.step own (p.behind g) (p.caller own) =
          some (p'.behind g', p'.caller own, wakes)) := by
  obtain ⟨l, phase, locked, outcome, attempts, openings⟩ := g
  obtain rfl : p.holds = locked := hheld
  cases p with
  | arriving => cases outcome <;> cases hs <;> exact ⟨rfl, trivial, .inr rfl⟩
  | entering => cases hs; exact ⟨rfl, trivial, .inl ⟨rfl, rfl, rfl⟩⟩
  | looking =>
      cases phase with
      | unstarted => cases hs; exact ⟨rfl, rfl, .inr rfl⟩
      | inProgress => cases hs; exact ⟨rfl, rfl, .inl ⟨rfl, rfl, rfl⟩⟩
      | done => cases hs; exact ⟨rfl, trivial, .inr rfl⟩
  | pausing =>
      obtain rfl : phase = .inProgress := knows
      cases hs
      exact ⟨rfl, trivial, .inr rfl⟩
  | finding => cases hs; exact ⟨rfl, trivial, .inr rfl⟩
  | leaving o => cases hs; exact ⟨rfl, trivial, .inl ⟨rfl, rfl, rfl⟩⟩
  | taking => cases hs; exact ⟨rfl, trivial, .inr rfl⟩
  | starting => cases hs; exact ⟨rfl, trivial, .inl ⟨rfl, rfl, rfl⟩⟩
  | counting => cases hs; exact ⟨rfl, trivial, .inr rfl⟩
  | opening => cases hs; exact ⟨rfl, trivial, .inr rfl⟩
  | settling => cases outcome <;> cases hs <;> exact ⟨rfl, trivial, .inr rfl⟩
  | announcing =>
      obtain rfl : phase = .inProgress := hphase rfl
      cases hs
      exact ⟨rfl, rfl, .inl ⟨rfl, rfl, rfl⟩⟩
  | declaring =>
      -- the crowd goes on seeing the attempt in progress until the sleepers are woken
      obtain rfl : phase = .inProgress := knows
      cases hs
      exact ⟨rfl, rfl, .inl ⟨rfl, rfl, rfl⟩⟩
  | waking =>
      obtain rfl : phase = .done := knows
      cases own <;> cases hs <;> exact ⟨rfl, trivial, .inr rfl⟩
  | closing => cases own <;> cases hs <;> exact ⟨rfl, trivial, .inl ⟨rfl, rfl, rfl⟩⟩
  | reading => cases hs; exact ⟨rfl, trivial, .inr rfl⟩
  | asleep => cases hs
  | returned o => cases hs
  | unwound payload => cases hs

/-- **A step next to the holder of the lock.** It needs no lock, and the crowd makes it as well. -/
theorem Place.step_beside {own : Attempt} {g g' : Guard} {p q q' : Place} {wakes : Bool}
    (hs : q.step own g = some (g', q', wakes)) (hq : q.holds = false) (hlocked : g.locked = true)
    (hopening : q = .opening → p ≠ .waking) :
    q'.holds = false ∧ g'.locked = true ∧ g'.phase = g.phase ∧ wakes = false ∧
      Library.step own (p.behind g) (q.caller own) =
        some (p.behind g', q'.caller own, false) := by
  obtain ⟨l, phase, locked, outcome, attempts, openings⟩ := g
  obtain rfl : locked = true := hlocked
  cases q with
  | arriving =>
      cases outcome <;> cases hs <;> refine ⟨rfl, rfl, rfl, rfl, ?_⟩ <;> cases p <;> rfl
  | counting =>
      cases hs
      refine ⟨rfl, rfl, rfl, rfl, ?_⟩
      cases p <;> rfl
  | opening =>
      cases hs
      refine ⟨rfl, rfl, rfl, rfl, ?_⟩
      cases p with
      | waking => exact absurd rfl (hopening rfl)
      | _ => rfl
  | settling =>
      cases outcome <;> cases hs <;> refine ⟨rfl, rfl, rfl, rfl, ?_⟩ <;> cases p <;> rfl
  | reading =>
      cases hs
      refine ⟨rfl, rfl, rfl, rfl, ?_⟩
      cases p <;> rfl
  | entering => cases hs
  | announcing => cases hs
  | asleep => cases hs
  | returned o => cases hs
  | unwound payload => cases hs
  | _ => cases hq

/-! ### Facts about crowds -/

section Crowds

variable {l : Locator} {attempts : List Attempt} {openers : List Nat} {s : Crowd}

/-- A caller that does not follow leads, and all others follow. -/
theorem Crowd.Run.leads_of_not_follows (h : Crowd.Run l attempts openers s) {i : Nat} {c : Call}
    (hc : s.calls[i]? = some c) (hf : ¬ Follows s.guard c.caller) :
    Leads l s.guard c ∧
      ∀ (j : Nat) (d : Call), s.calls[j]? = some d → j ≠ i → Follows s.guard d.caller := by
  cases h.standing with
  | untouched hg ho follow => exact absurd (follow i c hc) hf
  | led k e hk lead ho follow =>
      by_cases hik : i = k
      · subst hik
        obtain rfl : e = c := Option.some.inj (hk.symm.trans hc)
        exact ⟨lead, follow⟩
      · exact absurd (follow i c hc hik) hf

theorem Leads.inProgress_of_announcing {g : Guard} {own : Attempt}
    (h : Leads l g ⟨own, .announcing⟩) : g.phase = .inProgress := by
  cases h
  rfl

/-- While a caller is about to announce the end of the attempt, the attempt is in progress. -/
theorem Crowd.Run.inProgress_of_announcing (h : Crowd.Run l attempts openers s) {i : Nat}
    {own : Attempt} (hc : s.calls[i]? = some ⟨own, .announcing⟩) :
    s.guard.phase = .inProgress := by
  obtain ⟨lead, -⟩ := h.leads_of_not_follows hc nofun
  exact lead.inProgress_of_announcing

/-- What a step of a crowd is made of. -/
theorem Crowd.stepAt_of_step {i : Nat} {own : Attempt} {caller caller' : Caller} {g : Guard}
    {wakes : Bool} (hc : s.calls[i]? = some ⟨own, caller⟩)
    (hs : Library.step own s.guard caller = some (g, caller', wakes)) :
    s.stepAt i =
      some ⟨g, (if wakes then s.calls.map Call.wake else s.calls).set i ⟨own, caller'⟩⟩ := by
  simp only [Crowd.stepAt, hc, hs]

end Crowds

theorem set_eq_self {α : Type} {xs : List α} {i : Nat} {a : α} (h : xs[i]? = some a) :
    xs.set i a = xs := by
  obtain ⟨hi, rfl⟩ := List.getElem?_eq_some_iff.1 h
  exact List.set_getElem_self hi

/-! ### The crowd that threads show -/

/-- The calls of a crowd after a step of one thread. -/
theorem map_call_set (wakes : Bool) (calls : List Thread) (i : Nat) (t : Thread) :
    ((if wakes then calls.map Thread.wake else calls).set i t).map Thread.call =
      (if wakes then (calls.map Thread.call).map Call.wake else calls.map Thread.call).set i
        t.call := by
  rw [List.map_set]
  cases wakes with
  | false => rfl
  | true =>
      have hwake : Thread.call ∘ Thread.wake = Call.wake ∘ Thread.call :=
        funext Thread.call_wake
      rw [if_pos rfl, if_pos rfl, List.map_map, List.map_map, hwake]

namespace Threads

variable {l : Locator} {attempts : List Attempt} {openers : List Nat}

/-- `Shows s c`: the threads show the crowd `c`. The calls are those of the threads; the guard is
the one behind the holder of the lock, of whom there is at most one. -/
inductive Shows (s : Threads) (c : Crowd) : Prop
  | free (hl : s.guard.locked = false) (hc : c = ⟨s.guard, s.calls.map Thread.call⟩)
      (nobody : ∀ (j : Nat) (t : Thread), s.calls[j]? = some t → t.place.holds = false)
  | held (k : Nat) (t : Thread) (hk : s.calls[k]? = some t) (ht : t.place.holds = true)
      (hl : s.guard.locked = true) (knows : t.place.Knows s.guard.phase)
      (hc : c = ⟨t.place.behind s.guard, s.calls.map Thread.call⟩)
      (others : ∀ (j : Nat) (u : Thread), s.calls[j]? = some u → j ≠ k → u.place.holds = false)

/-- A thread next to the one that moves holds the lock only if it did before. -/
theorem not_holds_others {calls : List Thread} {t v : Thread} {wakes : Bool} {i j : Nat}
    (hv : ((if wakes then calls.map Thread.wake else calls).set i t)[j]? = some v) (hj : j ≠ i)
    (hbefore : ∀ u : Thread, calls[j]? = some u → u.place.holds = false) :
    v.place.holds = false := by
  rw [List.getElem?_set_ne hj.symm] at hv
  cases wakes with
  | false => exact hbefore v hv
  | true =>
      rw [if_pos rfl, List.getElem?_map, Option.map_eq_some_iff] at hv
      obtain ⟨u, hu, rfl⟩ := hv
      rw [Thread.holds_wake]
      exact hbefore u hu

/-- The thread that moves, afterwards. -/
theorem getElem?_moved {calls : List Thread} {t u : Thread} {i : Nat} (wakes : Bool)
    (hu : calls[i]? = some u) :
    ((if wakes then calls.map Thread.wake else calls).set i t)[i]? = some t := by
  obtain ⟨hi, -⟩ := List.getElem?_eq_some_iff.1 hu
  refine List.getElem?_set_self ?_
  cases wakes <;> simpa using hi

namespace Shows

variable {s t : Threads} {c : Crowd} {i : Nat} {u : Thread}

/-- Threads of which one at most holds the lock show the guard behind that one. -/
theorem of_only (hi : s.calls[i]? = some u) (hheld : u.place.holds = s.guard.locked)
    (knows : u.place.Knows s.guard.phase)
    (others : ∀ (j : Nat) (v : Thread), s.calls[j]? = some v → j ≠ i → v.place.holds = false) :
    s.Shows ⟨u.place.behind s.guard, s.calls.map Thread.call⟩ := by
  cases hl : s.guard.locked with
  | true => exact .held i u hi (by rw [hheld, hl]) hl knows rfl others
  | false =>
      rw [hl] at hheld
      refine .free hl (by rw [Place.behind_of_not_holds hheld hl]) fun j v hv => ?_
      by_cases hji : j = i
      · subst hji
        rw [hi] at hv
        cases hv
        exact hheld
      · exact others j v hv hji

/-- Whoever moves has the lock for itself if anybody has it, or it moves next to the holder. -/
theorem mover (h : s.Shows c) (hi : s.calls[i]? = some u) :
    (u.place.holds = s.guard.locked ∧ u.place.Knows s.guard.phase ∧
      c = ⟨u.place.behind s.guard, s.calls.map Thread.call⟩ ∧
      ∀ (j : Nat) (v : Thread), s.calls[j]? = some v → j ≠ i → v.place.holds = false) ∨
    (u.place.holds = false ∧ ∃ (k : Nat) (v : Thread), k ≠ i ∧ s.calls[k]? = some v ∧
      v.place.holds = true ∧ s.guard.locked = true ∧ v.place.Knows s.guard.phase ∧
      c = ⟨v.place.behind s.guard, s.calls.map Thread.call⟩ ∧
      ∀ (j : Nat) (w : Thread), s.calls[j]? = some w → j ≠ k → w.place.holds = false) := by
  cases h with
  | free hl hc nobody =>
      have hu := nobody i u hi
      refine .inl ⟨by rw [hu, hl], Place.knows_of_not_holds hu, ?_, fun j v hv _ => nobody j v hv⟩
      rw [Place.behind_of_not_holds hu hl, hc]
  | held k v hk hv hl knows hc others =>
      by_cases hik : i = k
      · subst hik
        obtain rfl : v = u := Option.some.inj (hk.symm.trans hi)
        exact .inl ⟨by rw [hv, hl], knows, hc, others⟩
      · exact .inr ⟨others i u hi hik, k, v, Ne.symm hik, hk, hv, hl, knows, hc, others⟩

end Shows

/-- **A step of one thread is a step of the crowd, or the crowd sees nothing of it.** -/
theorem Shows.move {s t : Threads} {c : Crowd} {i : Nat} (h : s.Shows c)
    (hc : Crowd.Run l attempts openers c) (ht : s.stepAt i = some t) :
    ∃ d, t.Shows d ∧ (d = c ∨ c.stepAt i = some d) := by
  obtain ⟨⟨own, p⟩, g', p', wakes, hu, hs, rfl⟩ := stepAt_eq_some ht
  simp only at hs
  have hmoved := getElem?_moved (t := ⟨own, p'⟩) wakes hu
  have hcall : (s.calls.map Thread.call)[i]? = some ⟨own, p.caller own⟩ := by
    rw [List.getElem?_map, hu]
    rfl
  rcases h.mover hu with ⟨hheld, knows, rfl, others⟩ |
    ⟨hfree, k, v, hki, hk, hv, hl, knows, rfl, others⟩
  · have hphase : p = .announcing → s.guard.phase = .inProgress := by
      rintro rfl
      exact hc.inProgress_of_announcing hcall
    obtain ⟨hheld', knows', hshown⟩ := Place.step_shows hs hheld knows hphase
    refine ⟨_, of_only hmoved hheld' knows' fun j w hw hji =>
      not_holds_others hw hji fun u hu => others j u hu hji, ?_⟩
    rw [map_call_set]
    rcases hshown with ⟨rfl, hguard, hcaller⟩ | hstep
    · -- the crowd sees the same guard and the same calls
      have hsame : Thread.call ⟨own, p'⟩ = ⟨own, p.caller own⟩ := by rw [← hcaller]; rfl
      refine .inl (congrArg₂ Crowd.mk hguard ?_)
      rw [if_neg Bool.false_ne_true, hsame, set_eq_self hcall]
    · exact .inr (Crowd.stepAt_of_step hcall hstep)
  · have hcallk : (s.calls.map Thread.call)[k]? = some v.call := by
      rw [List.getElem?_map, hk]
      rfl
    -- the opener is the leader's, and so is the announcement
    have hopening : p = .opening → v.place ≠ .waking := by
      rintro rfl hwaking
      obtain ⟨-, follow⟩ := hc.leads_of_not_follows hcall nofun
      have hk := follow k v.call hcallk hki
      rw [Thread.call, hwaking] at hk
      cases hk
    obtain ⟨hfree', hl', hphase', rfl, hstep⟩ :=
      Place.step_beside (p := v.place) hs hfree hl hopening
    refine ⟨_, .held k v ?_ hv hl' (hphase' ▸ knows) rfl fun j w hw hjk => ?_, ?_⟩
    · rw [if_neg Bool.false_ne_true, List.getElem?_set_ne hki.symm, hk]
    · by_cases hji : j = i
      · subst hji
        rw [hmoved] at hw
        cases hw
        exact hfree'
      · exact not_holds_others hw hji fun u hu => others j u hu hjk
    · rw [map_call_set]
      exact .inr (Crowd.stepAt_of_step hcall hstep)

/-- A thread that wakes without having been woken is a sleeper of the crowd that does. -/
theorem Shows.spurious {s t : Threads} {c : Crowd} {i : Nat} (h : s.Shows c)
    (ht : s.wakeAt i = some t) : ∃ d, t.Shows d ∧ c.wakeAt i = some d := by
  obtain ⟨own, hi, rfl⟩ := wakeAt_eq_some ht
  have hcall : (s.calls.map Thread.call)[i]? = some ⟨own, .asleep⟩ := by
    rw [List.getElem?_map, hi]
    rfl
  have hmap : (s.calls.set i ⟨own, .entering⟩).map Thread.call =
      (s.calls.map Thread.call).set i ⟨own, .entering⟩ := List.map_set
  -- neither a sleeper nor a call that waits for the lock has it
  have hfree : ∀ (j : Nat) (v : Thread), (s.calls.set i ⟨own, .entering⟩)[j]? = some v →
      (∀ u : Thread, s.calls[j]? = some u → u.place.holds = false) → v.place.holds = false := by
    intro j v hv hbefore
    by_cases hji : j = i
    · subst hji
      obtain rfl : ⟨own, .entering⟩ = v := Option.some.inj ((getElem?_moved false hi).symm.trans hv)
      rfl
    · rw [List.getElem?_set_ne (Ne.symm hji)] at hv
      exact hbefore v hv
  cases h with
  | free hl hc nobody =>
      subst hc
      refine ⟨_, .free hl rfl fun j v hv => hfree j v hv fun u hu => nobody j u hu, ?_⟩
      simp only [Crowd.wakeAt, hcall, hmap]
  | held k v hk hv hl knows hc others =>
      subst hc
      have hik : i ≠ k := by
        rintro rfl
        rw [hi] at hk
        cases hk
        cases hv
      refine ⟨_, .held k v (by rw [List.getElem?_set_ne hik, hk]) hv hl knows rfl
        fun j w hw hjk => hfree j w hw fun u hu => others j u hu hjk, ?_⟩
      simp only [Crowd.wakeAt, hcall, hmap]

theorem shows_arrive (l : Locator) (attempts : List Attempt) :
    (Threads.arrive l attempts).Shows (Crowd.arrive l attempts) := by
  refine .free rfl ?_ fun j t ht => ?_
  · rw [Crowd.arrive, Threads.arrive, List.map_map]
    rfl
  · obtain ⟨own, -, rfl⟩ := List.mem_map.1 (List.mem_of_getElem? ht)
    rfl

/-- **What threads reach shows what a crowd reaches**: all that is done under the lock may be taken
as one step. -/
theorem Run.shows {s : Threads} (h : Threads.Run l attempts s) :
    ∃ (openers : List Nat) (c : Crowd), Crowd.Run l attempts openers c ∧ s.Shows c := by
  induction h with
  | arrive => exact ⟨[], _, .arrive, shows_arrive l attempts⟩
  | move i _ ht ih =>
      obtain ⟨openers, c, hc, hs⟩ := ih
      obtain ⟨d, hd, rfl | hcd⟩ := hs.move hc ht
      · exact ⟨openers, d, hc, hd⟩
      · exact ⟨_, d, hc.move i hcd, hd⟩
  | spurious i _ ht ih =>
      obtain ⟨openers, c, hc, hs⟩ := ih
      obtain ⟨d, hd, hcd⟩ := hs.spurious ht
      exact ⟨openers, d, hc.spurious i hcd, hd⟩

end Threads

end LateBinding.Library
