import LateBinding.Proofs.Callback.OneShot

/-!
**What a returned destruction still lets through.**

The destruction of an object marks its entry, lets the library destroy the object, and retires the
entry; a callback looks the entry up, checks the mark, and calls the handler. No lock is held from
the check to the call. So a callback that has passed its check before the mark was set calls the
handler whenever it takes its next step, and the destruction may have returned long before. **These
callbacks are the only ones**: every other one begins its lookup or its check too late. On one
thread there are none.

Main definitions:

* `LateBinding.Callback.Scene.IsArmed` — a callback that nothing keeps from calling a handler any
  more.

Main results:

* `LateBinding.Callback.Run.dead_of_destroyed` — **every entry of the object is dead** when the
  destruction has returned, whichever one it found;
* `LateBinding.Callback.Run.armed_of_called` — who calls the handler of a dead entry had it in hand;
* `LateBinding.Callback.Run.call_of_armed` — and whoever has it in hand can call it;
* `LateBinding.Callback.Run.not_armed_of_rested` — on one thread nobody has;
* `LateBinding.Callback.calls_after_destruction` — all of it together;
* `LateBinding.Callback.called_after_destruction` — a run in which it happens.
-/

set_option autoImplicit false

namespace LateBinding.Callback

variable {H M : Type} {h later earlier more : History H M} {s t : Scene H M} {i k id : Nat}
  {d : Delivery M} {key : Key} {found : Option Nat}

/-! ### Callbacks with a handler in hand -/

/-- The callback at a place has found an entry and seen that it was not marked, or is about to see
it: nothing is left but to call the handler. -/
def Scene.IsArmed (s : Scene H M) (i : Nat) (d : Delivery M) (id : Nat) : Prop :=
  s.jobs[i]? = some (.calling d id) ∨
    s.jobs[i]? = some (.checking d id) ∧ s.registry.isMarked id = false

/-- The last thing such a callback did was to look or to check, and there it does not rest. -/
theorem Run.did_of_armed (hr : Run h s) (ha : s.IsArmed i d id) :
    ∃ m ms, did i h = m :: ms ∧ m.rests = false := by
  rcases ha with hj | ⟨hj, -⟩
  · exact ⟨_, _, (hr.life hj).of_calling, rfl⟩
  · exact ⟨_, _, (hr.life hj).of_checking, rfl⟩

/-- A callback that checks an entry without a mark calls its handler next. -/
theorem Scene.exists_passed (hj : s.jobs[i]? = some (.checking d id))
    (hmark : s.registry.isMarked id = false) :
    ∃ t, s.Step i (.checked d id false) t ∧ t.jobs[i]? = some (.calling d id) := by
  have hi : i < s.jobs.length := (List.getElem?_eq_some_iff.1 hj).1
  refine ⟨_, .move hj (by rw [Job.moment?, hmark]), ?_⟩
  have hstep : (Job.step s.registry (.checking d id)).2 = .calling d id := by
    simp [Job.step, hmark]
  rw [hstep]
  exact List.getElem?_set_self hi

/-- **Whoever has a handler in hand can call it**, whatever has happened meanwhile. -/
theorem Run.call_of_armed (hr : Run h s) (ha : s.IsArmed i d id) :
    ∃ more t, Run (more ++ h) t ∧ (i, .called d id) ∈ more := by
  rcases ha with hj | ⟨hj, hmark⟩
  · exact ⟨[(i, .called d id)], _, hr.step (.move hj rfl), List.mem_cons_self⟩
  · obtain ⟨t, hcheck, hcalling⟩ := Scene.exists_passed hj hmark
    exact ⟨[(i, .called d id), (i, .checked d id false)], _,
      (hr.step hcheck).step (.move hcalling rfl), List.mem_cons_self⟩

/-- **Where everyone rests on one thread, no callback has a handler in hand.** -/
theorem Run.not_armed_of_rested (hr : Run h s) (hs : SingleThreaded h) (hrest : Rested h) :
    ¬ s.IsArmed i d id := by
  intro ha
  obtain ⟨m, ms, hd, hm⟩ := hr.did_of_armed ha
  -- a job that does not rest has done the last moment of all
  obtain ⟨h', rfl, -⟩ := hs.eq_cons hd hm
  exact Bool.false_ne_true (hm.symm.trans hrest)

/-! ### Calls of the dead -/

/-- Who calls the handler of an entry that was dead at some time had looked before that time. -/
theorem Run.looked_of_called (hdead : Dead h id) (hr : Run (more ++ h) t)
    (hc : (i, .called d id) ∈ more) : (i, .looked d (some id)) ∈ h := by
  have hcall : (i, .called d id) ∈ more ++ h := List.mem_append_left _ hc
  obtain ⟨later, earlier, he⟩ := List.append_of_mem hcall
  have hlook : (i, .looked d (some id)) ∈ more ++ h := by
    obtain ⟨l₁, l₂, l₃, rfl, -⟩ := Run.call_origin (he ▸ hr)
    rw [he]
    simp
  rcases List.mem_append.1 hlook with hlook | hlook
  · -- a lookup after the entry's death would find another entry, a mark, or nothing
    obtain ⟨a, b, rfl⟩ := List.append_of_mem hlook
    have hh :
        a ++ (i, .looked d (some id)) :: b ++ h = a ++ (i, .looked d (some id)) :: (b ++ h) := by
      simp
    obtain ⟨u, hu⟩ := Run.of_append (hh ▸ hr)
    obtain ⟨v, hv, -⟩ := hu.of_cons
    exact absurd hcall (hr.not_called_of_dead hh (hv.dead_append hdead) d)
  · exact hlook

/-- Who checks an entry later finds no mark only if there is none now. -/
theorem Run.not_marked_of_checked (hr : Run (more ++ h) t)
    (hc : (i, .checked d id false) ∈ more) : ¬ Marked h id := by
  intro hmark
  obtain ⟨a, b, rfl⟩ := List.append_of_mem hc
  rw [List.append_assoc, List.cons_append] at hr
  obtain ⟨u, hu⟩ := hr.of_append
  obtain ⟨j, key, hj⟩ := hmark
  exact Bool.false_ne_true (hu.checked_iff.2 ⟨j, key, List.mem_append_right _ hj⟩)

/-- **Who calls the handler of a dead entry had it in hand** when the entry was dead already. -/
theorem Run.armed_of_called (hr : Run h s) (hdead : Dead h id) (hm : Run (more ++ h) t)
    (hc : (i, .called d id) ∈ more) : s.IsArmed i d id := by
  have hlook : (i, .looked d (some id)) ∈ h := Run.looked_of_called hdead hm hc
  obtain ⟨j, hj⟩ := hr.job_of_mem hlook
  have hl : Life (did i h) j := hr.life hj
  obtain ⟨later, between, rfl⟩ := List.append_of_mem hc
  rw [List.append_assoc, List.cons_append] at hm
  obtain ⟨u, hu⟩ := hm.of_append
  have hdid : did i between ++ did i h =
      [.checked d id false, .looked d (some id), .begun (.finding d)] := by
    rw [← did_append]
    exact hu.did_of_called
  -- what the callback has done before tells where it stands, and its lookup is among it
  cases hb : did i between with
  | nil =>
      rw [hb, List.nil_append] at hdid
      rw [hdid] at hl
      cases hl with
      | passed hl => exact Or.inl hj
  | cons m ms =>
      rw [hb, List.cons_append, List.cons.injEq] at hdid
      obtain ⟨rfl, hdid⟩ := hdid
      cases ms with
      | nil =>
          rw [List.nil_append] at hdid
          rw [hdid] at hl
          have hcheck : (i, .checked d id false) ∈ between := mem_did.1 (by simp [hb])
          obtain ⟨v, hv, -⟩ := hu.of_cons
          have hmark : ¬ Marked h id := hv.not_marked_of_checked hcheck
          cases hl with
          | found id hl =>
              exact Or.inr ⟨hj, by rwa [← Bool.not_eq_true, hr.told.marks]⟩
      | cons m ms =>
          rw [List.cons_append, List.cons.injEq] at hdid
          have hmem : Moment.looked d (some id) ∈ ms ++ did i h :=
            List.mem_append_right _ (mem_did.2 hlook)
          rw [hdid.2] at hmem
          simp at hmem

/-! ### Destruction -/

/-- Who has looked for the entry of an object to destroy and is over has marked what it found. -/
theorem Life.marked_of_sought {ms : List (Moment H M)} (hl : Life ms .over)
    (hm : .sought key (some id) ∈ ms) : .marked key id ∈ ms := by
  rcases hl.of_over with ⟨k, x, n, rfl⟩ | ⟨e, rfl⟩ | ⟨e, n, rfl⟩ | ⟨e, n, he, rfl⟩ |
    ⟨e, n, he, rfl⟩ | ⟨k, rfl⟩ | ⟨k, n, rfl⟩ <;> simp at hm
  simp [hm]

/-- **When a destruction has returned, every entry that was inserted for its object before it looked
is dead**: the one that it found is marked, and the others were retired or replaced. -/
theorem Run.dead_of_destroyed (hr : Run h s) (hh : h = later ++ (k, .sought key found) :: earlier)
    (hover : s.jobs[k]? = some .over) (hins : Inserted earlier key id) : Dead h id := by
  by_cases hf : found = some id
  · subst hf
    have hmem : (k, .sought key (some id)) ∈ h := by simp [hh]
    have hmark := (hr.life hover).marked_of_sought (mem_did.2 hmem)
    exact Or.inl ⟨k, key, mem_did.1 hmark⟩
  · obtain ⟨u, hu⟩ := Run.of_append (hh ▸ hr)
    rw [hu.sought_iff, not_and, not_not] at hf
    have hdead : Dead earlier id := by
      by_cases hlast : lastInserted key earlier = some id
      · exact Or.inr (Or.inl (hf hlast))
      · exact Or.inr (Or.inr ⟨key, hins, hlast⟩)
    subst hh
    rw [List.append_cons] at hr ⊢
    exact hr.dead_append hdead

/-- **A returned destruction lets through what had passed the check.** In every run, once the
destruction of an object has returned: whoever calls a handler that was inserted for the object
before the destruction looked is a callback that has it in hand already, and every such callback can
still call it; if the handler is that of the entry that the destruction found, such a callback has
checked before the mark was set; and if all this goes on on one thread, nobody calls the handler any
more. -/
theorem calls_after_destruction (hr : Run h s)
    (hh : h = later ++ (k, .sought key found) :: earlier) (hover : s.jobs[k]? = some .over)
    (hins : Inserted earlier key id) :
    (∀ (more : History H M) (t : Scene H M) (i : Nat) (d : Delivery M), Run (more ++ h) t →
      (i, .called d id) ∈ more → s.IsArmed i d id) ∧
    (∀ (i : Nat) (d : Delivery M), s.IsArmed i d id →
      ∃ more t, Run (more ++ h) t ∧ (i, .called d id) ∈ more) ∧
    (found = some id → ∀ (i : Nat) (d : Delivery M), s.IsArmed i d id →
      s.jobs[i]? = some (.calling d id) ∧
        ∃ l₁ l₂, h = l₁ ++ (i, .checked d id false) :: l₂ ∧ ¬ Marked l₂ id) ∧
    (SingleThreaded h → Rested h →
      ∀ (more : History H M) (t : Scene H M) (i : Nat) (d : Delivery M), Run (more ++ h) t →
        (i, .called d id) ∉ more) := by
  have hdead : Dead h id := hr.dead_of_destroyed hh hover hins
  refine ⟨fun more t i d hm hc => hr.armed_of_called hdead hm hc,
    fun i d ha => hr.call_of_armed ha, fun hf i d ha => ?_,
    fun hs hrest more t i d hm hc =>
      hr.not_armed_of_rested hs hrest (hr.armed_of_called hdead hm hc)⟩
  subst hf
  have hmem : (k, .sought key (some id)) ∈ h := by simp [hh]
  have hmark := (hr.life hover).marked_of_sought (mem_did.2 hmem)
  rcases ha with hj | ⟨hj, hnot⟩
  · have hcheck : (i, .checked d id false) ∈ h := mem_did.1 (by simp [(hr.life hj).of_calling])
    obtain ⟨l₁, l₂, rfl⟩ := List.append_of_mem hcheck
    obtain ⟨u, hu⟩ := hr.of_append
    exact ⟨hj, l₁, l₂, rfl, fun hm => Bool.false_ne_true (hu.checked_iff.2 hm)⟩
  · rw [← Bool.not_eq_true, hr.told.marks] at hnot
    exact absurd ⟨k, key, mem_did.1 hmark⟩ hnot

/-- A stream gets a handler; a callback for it looks and checks; then the stream is destroyed, from
the lookup to the end. -/
def destroyedAfterCheck : History String Unit :=
  let stream : Key := ⟨.stream, 16⟩
  let ready : Delivery Unit := ⟨stream, false, ()⟩
  [(2, .retired stream 0), (2, .freed stream (some 0)), (2, .marked stream 0),
    (2, .sought stream (some 0)), (2, .begun (.seeking stream)),
    (1, .checked ready 0 false), (1, .looked ready (some 0)), (1, .begun (.finding ready)),
    (0, .inserted stream 0), (0, .begun (.inserting stream "handler"))]

theorem run_destroyedAfterCheck : Run destroyedAfterCheck
    ⟨⟨[⟨⟨.stream, 16⟩, "handler", true⟩], []⟩,
      [.over, .calling ⟨⟨.stream, 16⟩, false, ()⟩ 0, .over]⟩ :=
  Run.empty.replay
    [.begin (.inserting ⟨.stream, 16⟩ "handler"), .move 0,
      .begin (.finding ⟨⟨.stream, 16⟩, false, ()⟩), .move 1, .move 1,
      .begin (.seeking ⟨.stream, 16⟩), .move 2, .move 2, .move 2, .move 2] rfl

/-- One call of the handler can still follow, and it is that callback's. -/
theorem one_call_left :
    (∃ more t, Run (more ++ destroyedAfterCheck) t ∧
      (1, .called ⟨⟨.stream, 16⟩, false, ()⟩ 0) ∈ more) ∧
    ∀ more t i d, Run (more ++ destroyedAfterCheck) t → (i, .called d 0) ∈ more → i = 1 := by
  have hsplit : destroyedAfterCheck = destroyedAfterCheck.take 3 ++
      (2, .sought ⟨.stream, 16⟩ (some 0)) :: destroyedAfterCheck.drop 4 := rfl
  have hins : Inserted (destroyedAfterCheck.drop 4) ⟨.stream, 16⟩ 0 :=
    ⟨0, by simp [destroyedAfterCheck]⟩
  obtain ⟨honly, hcan, -, -⟩ := calls_after_destruction run_destroyedAfterCheck hsplit rfl hins
  refine ⟨hcan 1 _ (Or.inl rfl), fun more t i d hm hc => ?_⟩
  -- the others are over
  have harmed := honly more t i d hm hc
  rcases i with _ | _ | _ | i
  · simp [Scene.IsArmed] at harmed
  · rfl
  · simp [Scene.IsArmed] at harmed
  · simp [Scene.IsArmed] at harmed

/-- **A handler is called after the destruction of its object has returned.** -/
theorem called_after_destruction :
    ∃ t, Run ((1, .called ⟨⟨.stream, 16⟩, false, ()⟩ 0) :: destroyedAfterCheck) t :=
  ⟨_, run_destroyedAfterCheck.replay [.move 1] rfl⟩

end LateBinding.Callback
