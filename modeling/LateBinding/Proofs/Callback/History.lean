import LateBinding.Callback.Registry

/-!
**Jobs at a registry, and the history of what they did.**

Any number of jobs work at one registry. A new job may begin at any time, also while a handler runs
or the library destroys an object, and any job may take its next step; so the runs here cover every
nesting and every interleaving, and an address may come back as soon as someone inserts it again.
What every step did is written down as a *moment*, and a run leaves a **history**: the moments of
all jobs, newest first. The moments of one job are the ones that its place says, in that order.

Main definitions:

* `LateBinding.Callback.Moment`, `LateBinding.Callback.Job.moment?` — what a step of a job does;
* `LateBinding.Callback.Scene`, `LateBinding.Callback.Scene.Step`, `LateBinding.Callback.Run` — the
  jobs at a registry, their steps and their runs;
* `LateBinding.Callback.Choice`, `LateBinding.Callback.replay` — runs from the choices that led
  there;
* `LateBinding.Callback.lastInserted`, `LateBinding.Callback.Inserted`,
  `LateBinding.Callback.Marked`, `LateBinding.Callback.Retired` — what a history says about entries;
* `LateBinding.Callback.Life` — **the moments of one job**, as far as it got.

Main results:

* `LateBinding.Callback.Life.step` — a job lives on as its step says;
* `LateBinding.Callback.Run.life` — **every job of a run lives as its place says**;
* `LateBinding.Callback.Life.of_retiring` — what a job has done when it is about to retire an entry.
-/

set_option autoImplicit false

namespace LateBinding.Callback

variable {H M : Type}

/-! ### Moments -/

/-- What a job does in one step: it begins; it inserts an entry; it looks the entry of a callback
up, checks its mark, calls its handler, gets back from the handler; it looks up the entry of an
object to destroy, marks it, gets back from the library; it retires an entry. -/
inductive Moment (H M : Type) where
  | begun (j : Job H M)
  | inserted (key : Key) (id : Nat)
  | looked (d : Delivery M) (found : Option Nat)
  | checked (d : Delivery M) (id : Nat) (marked : Bool)
  | called (d : Delivery M) (id : Nat)
  | returned (d : Delivery M) (id : Nat)
  | sought (key : Key) (found : Option Nat)
  | marked (key : Key) (id : Nat)
  | freed (key : Key) (found : Option Nat)
  | retired (key : Key) (id : Nat)

namespace Job

/-- Whether a job has not taken a step yet. -/
def isFresh : Job H M → Bool
  | .inserting _ _ => true
  | .finding _ => true
  | .seeking _ => true
  | _ => false

/-- What the next step of a job does at a registry; nothing once the job is over. -/
def moment? (r : Registry H) : Job H M → Option (Moment H M)
  | .inserting key _ => some (.inserted key r.entries.length)
  | .finding d => some (.looked d (r.find? d.key))
  | .checking d id => some (.checked d id (r.isMarked id))
  | .calling d id => some (.called d id)
  | .running d id => some (.returned d id)
  | .seeking key => some (.sought key (r.find? key))
  | .marking key id => some (.marked key id)
  | .freeing key found => some (.freed key found)
  | .retiring key id => some (.retired key id)
  | .over => none

end Job

/-! ### Runs -/

/-- A registry and the jobs that were begun at it. -/
structure Scene (H M : Type) where
  registry : Registry H := {}
  jobs : List (Job H M) := []

/-- `s.Step i m t`: in one step the job at place `i` does `m`, which leads from `s` to `t`. -/
inductive Scene.Step (s : Scene H M) : Nat → Moment H M → Scene H M → Prop
  | begin (j : Job H M) (hj : j.isFresh = true) :
      Step s s.jobs.length (.begun j) ⟨s.registry, s.jobs ++ [j]⟩
  | move {i : Nat} {j : Job H M} {m : Moment H M} (hj : s.jobs[i]? = some j)
      (hm : j.moment? s.registry = some m) :
      Step s i m ⟨(j.step s.registry).1, s.jobs.set i (j.step s.registry).2⟩

/-- What the jobs did, newest first: the place of the job, and the moment. -/
abbrev History (H M : Type) := List (Nat × Moment H M)

/-- `Run h s`: from an empty registry, jobs did what `h` says and got to `s`. -/
inductive Run : History H M → Scene H M → Prop
  | empty : Run [] {}
  | step {h : History H M} {s t : Scene H M} {i : Nat} {m : Moment H M} (hs : Run h s)
      (ht : s.Step i m t) : Run ((i, m) :: h) t

/-- What the one who schedules the jobs decides: a job begins, or the job at a place takes its next
step. -/
inductive Choice (H M : Type) where
  | begin (j : Job H M)
  | move (i : Nat)

/-- What follows from a choice, if it can be made. -/
def Scene.next (s : Scene H M) : Choice H M → Option ((Nat × Moment H M) × Scene H M)
  | .begin j =>
    if j.isFresh then some ((s.jobs.length, .begun j), ⟨s.registry, s.jobs ++ [j]⟩) else none
  | .move i => do
    let j ← s.jobs[i]?
    let m ← j.moment? s.registry
    return ((i, m), ⟨(j.step s.registry).1, s.jobs.set i (j.step s.registry).2⟩)

/-- What follows from choices, made one after the other. -/
def replay : List (Choice H M) → History H M → Scene H M → Option (History H M × Scene H M)
  | [], h, s => some (h, s)
  | c :: cs, h, s => do
    let (x, t) ← s.next c
    replay cs (x :: h) t

theorem Scene.step_of_next {s t : Scene H M} {c : Choice H M} {x : Nat × Moment H M}
    (h : s.next c = some (x, t)) : s.Step x.1 x.2 t := by
  cases c with
  | begin j =>
      by_cases hj : j.isFresh = true
      · simp only [Scene.next, if_pos hj, Option.some.injEq, Prod.mk.injEq] at h
        obtain ⟨rfl, rfl⟩ := h
        exact .begin j hj
      · simp [Scene.next, hj] at h
  | move i =>
      simp only [Scene.next, Option.bind_eq_bind, Option.bind_eq_some_iff, Option.pure_def,
        Option.some.injEq, Prod.mk.injEq] at h
      obtain ⟨j, hj, m, hm, rfl, rfl⟩ := h
      exact .move hj hm

/-- A run may go on with any choices that can be made. -/
theorem Run.replay {h h' : History H M} {s s' : Scene H M} (hr : Run h s) (cs : List (Choice H M))
    (hc : LateBinding.Callback.replay cs h s = some (h', s')) : Run h' s' := by
  induction cs generalizing h s with
  | nil =>
      cases hc
      exact hr
  | cons c cs ih =>
      simp only [LateBinding.Callback.replay, Option.bind_eq_bind, Option.bind_eq_some_iff] at hc
      obtain ⟨⟨x, t⟩, hx, hc⟩ := hc
      exact ih (hr.step (Scene.step_of_next hx)) hc

/-- A run got to where its latest moment began. -/
theorem Run.of_cons {h : History H M} {s : Scene H M} {i : Nat} {m : Moment H M}
    (hr : Run ((i, m) :: h) s) : ∃ r, Run h r ∧ r.Step i m s := by
  cases hr with
  | step hr hs => exact ⟨_, hr, hs⟩

/-- A run got to where any of its moments began. -/
theorem Run.of_append {later earlier : History H M} {s : Scene H M}
    (hr : Run (later ++ earlier) s) : ∃ r, Run earlier r := by
  induction later generalizing s with
  | nil => exact ⟨s, hr⟩
  | cons x later ih =>
      obtain ⟨r, hr, -⟩ := hr.of_cons
      exact ih hr

/-! ### What a history says about entries -/

/-- The entry that was inserted last for an object. -/
def lastInserted (key : Key) : History H M → Option Nat
  | [] => none
  | (_, .inserted k id) :: h => if k = key then some id else lastInserted key h
  | _ :: h => lastInserted key h

/-- An entry was inserted for an object. -/
def Inserted (h : History H M) (key : Key) (id : Nat) : Prop := ∃ i, (i, .inserted key id) ∈ h

/-- An entry was marked as destroyed. -/
def Marked (h : History H M) (id : Nat) : Prop := ∃ i key, (i, .marked key id) ∈ h

/-- An entry was retired. -/
def Retired (h : History H M) (id : Nat) : Prop := ∃ i key, (i, .retired key id) ∈ h

@[simp] theorem inserted_cons {h : History H M} {i : Nat} {m : Moment H M} {key : Key} {id : Nat} :
    Inserted ((i, m) :: h) key id ↔ m = .inserted key id ∨ Inserted h key id := by
  simp [Inserted, exists_or, eq_comm]

@[simp] theorem marked_cons {h : History H M} {i : Nat} {m : Moment H M} {id : Nat} :
    Marked ((i, m) :: h) id ↔ (∃ key, m = .marked key id) ∨ Marked h id := by
  simp [Marked, exists_or, eq_comm]

@[simp] theorem retired_cons {h : History H M} {i : Nat} {m : Moment H M} {id : Nat} :
    Retired ((i, m) :: h) id ↔ (∃ key, m = .retired key id) ∨ Retired h id := by
  simp [Retired, exists_or, eq_comm]

theorem lastInserted_cons_of_ne {h : History H M} {i : Nat} {m : Moment H M} {key : Key}
    (hm : ∀ id, m ≠ .inserted key id) : lastInserted key ((i, m) :: h) = lastInserted key h := by
  cases m with
  | inserted k id =>
      have hk : k ≠ key := by
        rintro rfl
        exact hm id rfl
      simp [lastInserted, hk]
  | _ => rfl

/-- What was inserted last was inserted. -/
theorem Inserted.of_last {h : History H M} {key : Key} {id : Nat}
    (hl : lastInserted key h = some id) : Inserted h key id := by
  induction h with
  | nil => cases hl
  | cons x h ih =>
      obtain ⟨i, m⟩ := x
      by_cases hm : ∃ k, m = .inserted key k
      · obtain ⟨k, rfl⟩ := hm
        simp only [lastInserted, if_pos, Option.some.injEq] at hl
        exact inserted_cons.2 (Or.inl (by rw [hl]))
      · rw [lastInserted_cons_of_ne fun k hk => hm ⟨k, hk⟩] at hl
        exact inserted_cons.2 (Or.inr (ih hl))

/-! ### The moments of one job -/

/-- What the job at a place did, newest first. -/
def did (i : Nat) : History H M → List (Moment H M)
  | [] => []
  | (k, m) :: h => if k = i then m :: did i h else did i h

theorem mem_did {i : Nat} {m : Moment H M} {h : History H M} : m ∈ did i h ↔ (i, m) ∈ h := by
  induction h with
  | nil => simp [did]
  | cons x h ih =>
      obtain ⟨k, n⟩ := x
      by_cases hk : k = i
      · simp [did, hk, ih]
      · have hne : ¬ i = k := fun e => hk e.symm
        simp [did, hk, hne, ih]

/-- The latest moment of a job in a history. -/
theorem exists_of_did_eq_cons {h : History H M} {i : Nat} {m : Moment H M} {ms : List (Moment H M)}
    (hd : did i h = m :: ms) :
    ∃ later earlier, h = later ++ (i, m) :: earlier ∧ did i earlier = ms := by
  induction h with
  | nil => cases hd
  | cons x h ih =>
      obtain ⟨k, n⟩ := x
      by_cases hk : k = i
      · subst hk
        simp only [did, if_pos, List.cons.injEq] at hd
        exact ⟨[], h, by rw [hd.1]; rfl, hd.2⟩
      · rw [did, if_neg hk] at hd
        obtain ⟨later, earlier, rfl, hms⟩ := ih hd
        exact ⟨(k, n) :: later, earlier, rfl, hms⟩

theorem did_append (later earlier : History H M) (i : Nat) :
    did i (later ++ earlier) = did i later ++ did i earlier := by
  induction later with
  | nil => rfl
  | cons x later ih =>
      obtain ⟨k, m⟩ := x
      by_cases hk : k = i <;> simp [did, hk, ih]

/-- `Life ms j`: a job that did `ms`, newest first, stands at `j`. -/
inductive Life : List (Moment H M) → Job H M → Prop
  | begun {j : Job H M} (hj : j.isFresh = true) : Life [.begun j] j
  | inserted {ms : List (Moment H M)} {key : Key} {x : H} (id : Nat)
      (h : Life ms (.inserting key x)) : Life (.inserted key id :: ms) .over
  | missed {ms : List (Moment H M)} {d : Delivery M} (h : Life ms (.finding d)) :
      Life (.looked d none :: ms) .over
  | found {ms : List (Moment H M)} {d : Delivery M} (id : Nat) (h : Life ms (.finding d)) :
      Life (.looked d (some id) :: ms) (.checking d id)
  | refused {ms : List (Moment H M)} {d : Delivery M} {id : Nat} (h : Life ms (.checking d id)) :
      Life (.checked d id true :: ms) .over
  | passed {ms : List (Moment H M)} {d : Delivery M} {id : Nat} (h : Life ms (.checking d id)) :
      Life (.checked d id false :: ms) (.calling d id)
  | called {ms : List (Moment H M)} {d : Delivery M} {id : Nat} (h : Life ms (.calling d id)) :
      Life (.called d id :: ms) (.running d id)
  | returned {ms : List (Moment H M)} {d : Delivery M} {id : Nat} (h : Life ms (.running d id))
      (hd : d.final = false) : Life (.returned d id :: ms) .over
  | ended {ms : List (Moment H M)} {d : Delivery M} {id : Nat} (h : Life ms (.running d id))
      (hd : d.final = true) : Life (.returned d id :: ms) (.retiring d.key id)
  | absent {ms : List (Moment H M)} {key : Key} (h : Life ms (.seeking key)) :
      Life (.sought key none :: ms) (.freeing key none)
  | present {ms : List (Moment H M)} {key : Key} (id : Nat) (h : Life ms (.seeking key)) :
      Life (.sought key (some id) :: ms) (.marking key id)
  | marked {ms : List (Moment H M)} {key : Key} {id : Nat} (h : Life ms (.marking key id)) :
      Life (.marked key id :: ms) (.freeing key (some id))
  | gone {ms : List (Moment H M)} {key : Key} (h : Life ms (.freeing key none)) :
      Life (.freed key none :: ms) .over
  | freed {ms : List (Moment H M)} {key : Key} {id : Nat} (h : Life ms (.freeing key (some id))) :
      Life (.freed key (some id) :: ms) (.retiring key id)
  | retired {ms : List (Moment H M)} {key : Key} {id : Nat} (h : Life ms (.retiring key id)) :
      Life (.retired key id :: ms) .over

/-- A job lives on as its step says. -/
theorem Life.step {ms : List (Moment H M)} {j : Job H M} {m : Moment H M} {r : Registry H}
    (h : Life ms j) (hm : j.moment? r = some m) : Life (m :: ms) (j.step r).2 := by
  cases j with
  | inserting key x => cases hm; exact .inserted _ h
  | finding d =>
      cases hm
      simp only [Job.step]
      cases r.find? d.key with
      | none => exact .missed h
      | some id => exact .found id h
  | checking d id =>
      cases hm
      simp only [Job.step]
      cases r.isMarked id with
      | true => exact .refused h
      | false => exact .passed h
  | calling d id => cases hm; exact .called h
  | running d id =>
      cases hm
      simp only [Job.step]
      by_cases hd : d.final = true
      · rw [if_pos hd]; exact .ended h hd
      · rw [if_neg hd]; exact .returned h (by simpa using hd)
  | seeking key =>
      cases hm
      simp only [Job.step]
      cases r.find? key with
      | none => exact .absent h
      | some id => exact .present id h
  | marking key id => cases hm; exact .marked h
  | freeing key found =>
      cases hm
      cases found with
      | none => exact .gone h
      | some id => exact .freed h
  | retiring key id => cases hm; exact .retired h
  | _ => cases hm

namespace Life

variable {ms : List (Moment H M)} {d : Delivery M} {key : Key} {id : Nat}

theorem of_finding (h : Life ms (.finding d)) : ms = [.begun (.finding d)] := by
  cases h
  rfl

theorem of_checking (h : Life ms (.checking d id)) :
    ms = [.looked d (some id), .begun (.finding d)] := by
  cases h with
  | begun hj => cases hj
  | found _ h => rw [h.of_finding]

theorem of_calling (h : Life ms (.calling d id)) :
    ms = [.checked d id false, .looked d (some id), .begun (.finding d)] := by
  cases h with
  | begun hj => cases hj
  | passed h => rw [h.of_checking]

theorem of_running (h : Life ms (.running d id)) :
    ms = [.called d id, .checked d id false, .looked d (some id), .begun (.finding d)] := by
  cases h with
  | begun hj => cases hj
  | called h => rw [h.of_calling]

theorem of_seeking (h : Life ms (.seeking key)) : ms = [.begun (.seeking key)] := by
  cases h
  rfl

theorem of_marking (h : Life ms (.marking key id)) :
    ms = [.sought key (some id), .begun (.seeking key)] := by
  cases h with
  | begun hj => cases hj
  | present _ h => rw [h.of_seeking]

theorem of_freeing (h : Life ms (.freeing key (some id))) :
    ms = [.marked key id, .sought key (some id), .begun (.seeking key)] := by
  cases h with
  | begun hj => cases hj
  | marked h => rw [h.of_marking]

/-- **A job that retires an entry has either returned from the last callback of the entry's handler,
or has marked the entry and seen the library destroy the object.** -/
theorem of_retiring (h : Life ms (.retiring key id)) :
    (∃ d : Delivery M, d.final = true ∧ d.key = key ∧
      ms = [.returned d id, .called d id, .checked d id false, .looked d (some id),
        .begun (.finding d)]) ∨
      ms = [.freed key (some id), .marked key id, .sought key (some id),
        .begun (.seeking key)] := by
  cases h with
  | begun hj => cases hj
  | ended h hd => exact Or.inl ⟨_, hd, rfl, by rw [h.of_running]⟩
  | freed h => exact Or.inr (by rw [h.of_freeing])

theorem of_inserting {x : H} (h : Life ms (.inserting key x)) :
    ms = [.begun (.inserting key x)] := by
  cases h
  rfl

/-- **The whole lives**: an insertion; a callback that finds no entry, finds a marked one, is not
the last one or is the last one; the destruction of an object without an entry or with one. -/
theorem of_over (h : Life ms .over) :
    (∃ key x id, ms = [.inserted key id, .begun (.inserting key x)]) ∨
    (∃ d, ms = [.looked d none, .begun (.finding d)]) ∨
    (∃ d id, ms = [.checked d id true, .looked d (some id), .begun (.finding d)]) ∨
    (∃ d id, d.final = false ∧ ms = [.returned d id, .called d id, .checked d id false,
      .looked d (some id), .begun (.finding d)]) ∨
    (∃ d id, d.final = true ∧ ms = [.retired d.key id, .returned d id, .called d id,
      .checked d id false, .looked d (some id), .begun (.finding d)]) ∨
    (∃ key, ms = [.freed key none, .sought key none, .begun (.seeking key)]) ∨
    ∃ key id, ms = [.retired key id, .freed key (some id), .marked key id, .sought key (some id),
      .begun (.seeking key)] := by
  cases h with
  | begun hj => cases hj
  | inserted id h => exact Or.inl ⟨_, _, id, by rw [h.of_inserting]⟩
  | missed h => exact Or.inr (Or.inl ⟨_, by rw [h.of_finding]⟩)
  | refused h => exact Or.inr (Or.inr (Or.inl ⟨_, _, by rw [h.of_checking]⟩))
  | returned h hd => exact Or.inr (Or.inr (Or.inr (Or.inl ⟨_, _, hd, by rw [h.of_running]⟩)))
  | gone h =>
      cases h with
      | begun hj => cases hj
      | absent h =>
        exact Or.inr (Or.inr (Or.inr (Or.inr (Or.inr (Or.inl ⟨_, by rw [h.of_seeking]⟩)))))
  | retired h =>
      rcases h.of_retiring with ⟨d, hd, rfl, rfl⟩ | rfl
      · exact Or.inr (Or.inr (Or.inr (Or.inr (Or.inl ⟨d, _, hd, rfl⟩))))
      · exact Or.inr (Or.inr (Or.inr (Or.inr (Or.inr (Or.inr ⟨_, _, rfl⟩)))))

end Life

/-- **Every job lives as its place says**, and what has not begun has done nothing. -/
theorem Run.lives {h : History H M} {s : Scene H M} (hr : Run h s) :
    (∀ i j, s.jobs[i]? = some j → Life (did i h) j) ∧ ∀ i, s.jobs.length ≤ i → did i h = [] := by
  induction hr with
  | empty => exact ⟨fun i j hj => by simp at hj, fun i _ => rfl⟩
  | @step h s t i m hs ht ih =>
      obtain ⟨hlife, hnone⟩ := ih
      cases ht with
      | begin j hj =>
          refine ⟨fun k e he => ?_, fun k hk => ?_⟩
          · by_cases hk : k = s.jobs.length
            · -- nobody was at the new place before, so the new job did nothing else
              subst hk
              simp only [List.getElem?_concat_length, Option.some.injEq] at he
              subst he
              simpa [did, hnone _ (Nat.le_refl _)] using Life.begun hj
            · have hlt : k < s.jobs.length := by
                have := (List.getElem?_eq_some_iff.1 he).1
                simp at this
                omega
              rw [List.getElem?_append_left hlt] at he
              simpa [did, Ne.symm hk] using hlife k e he
          · have hlt : s.jobs.length < k := by simp at hk; omega
            simpa [did, Nat.ne_of_lt hlt] using hnone k (Nat.le_of_lt hlt)
      | @move i j m hj hm =>
          have hi : i < s.jobs.length := (List.getElem?_eq_some_iff.1 hj).1
          refine ⟨fun k e he => ?_, fun k hk => ?_⟩
          · by_cases hk : i = k
            · subst hk
              rw [List.getElem?_set_self hi] at he
              cases he
              simpa [did] using (hlife i j hj).step hm
            · rw [List.getElem?_set_ne hk] at he
              simpa [did, hk] using hlife k e he
          · have hlt : s.jobs.length ≤ k := by simpa using hk
            have hne : i ≠ k := by omega
            simpa [did, hne] using hnone k hlt

theorem Run.life {h : History H M} {s : Scene H M} (hr : Run h s) {i : Nat} {j : Job H M}
    (hj : s.jobs[i]? = some j) : Life (did i h) j :=
  hr.lives.1 i j hj

/-- Who did something is a job of the scene. -/
theorem Run.job_of_mem {h : History H M} {s : Scene H M} (hr : Run h s) {i : Nat} {m : Moment H M}
    (hm : (i, m) ∈ h) : ∃ j, s.jobs[i]? = some j := by
  by_cases hi : i < s.jobs.length
  · exact ⟨_, List.getElem?_eq_getElem hi⟩
  · have hd : did i h = [] := hr.lives.2 i (by omega)
    rw [← mem_did, hd] at hm
    cases hm

/-- Who did something last lives on from what it did before. -/
theorem Run.life_cons {h : History H M} {s : Scene H M} {i : Nat} {m : Moment H M}
    (hr : Run ((i, m) :: h) s) : ∃ ms j, did i h = ms ∧ Life (m :: ms) j := by
  have hmem : (i, m) ∈ (i, m) :: h := List.mem_cons_self
  obtain ⟨j, hj⟩ := hr.job_of_mem hmem
  have hl := hr.life hj
  rw [did, if_pos rfl] at hl
  exact ⟨_, j, rfl, hl⟩

end LateBinding.Callback
