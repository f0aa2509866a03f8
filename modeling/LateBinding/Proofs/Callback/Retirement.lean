import LateBinding.Proofs.Callback.Told
import LateBinding.Proofs.Client.Registrations

/-!
**No handler is lost and none is kept, also where addresses come back.**

A job that is about to retire an entry has found that very entry when it began. So an entry that was
inserted since, for another object at the same address, stays. And a job that is over has retired
every entry that it had to retire: when no job is under way, what is registered has no mark, and
nobody has finished with it.

Main definitions:

* `LateBinding.Callback.Scene.IsQuiet` — no job is under way;
* `LateBinding.Callback.Finished` — the last callback of an entry's handler has returned, or the
  library has destroyed its object.

Main results:

* `LateBinding.Callback.Run.unregistered` — **why an entry is not registered any more**;
* `LateBinding.Callback.Run.retired_iff_finished` — when no job is under way, the retired entries
  are the finished ones;
* `LateBinding.Callback.none_lost_none_kept` — all of it together.
-/

set_option autoImplicit false

namespace LateBinding.Callback

variable {H M : Type} {h : History H M} {s t : Scene H M} {i id : Nat} {key : Key}

/-! ### Why an entry goes -/

/-- Only two moments change what is registered: a newer entry is inserted, or the entry is
retired. -/
theorem Effect.unregistered {r r' : Registry H} {m : Moment H M} (he : Effect r m r')
    (hf : r.find? key = some id) (hg : r'.find? key ≠ some id) :
    m = .inserted key r.entries.length ∨ m = .retired key id := by
  cases he with
  | inserted k x =>
      rw [Registry.find?_insert] at hg
      by_cases hk : key = k
      · exact Or.inl (by rw [hk])
      · rw [if_neg hk] at hg
        exact absurd hf hg
  | marked k id' => exact absurd hf hg
  | retired k id' =>
      rw [Registry.find?_retire] at hg
      by_cases hk : key = k ∧ r.find? k = some id'
      · obtain ⟨rfl, hid⟩ := hk
        obtain rfl : id = id' := Option.some.inj (hf.symm.trans hid)
        exact Or.inr rfl
      · rw [if_neg hk] at hg
        exact absurd hf hg
  | quiet hq => exact absurd hf hg

/-- Who retires an entry has found it, and has either returned from the last callback of its handler
or seen the library destroy the object. -/
theorem Run.did_of_retired (hr : Run h s) (hs : s.Step i (.retired key id) t) :
    (∃ d : Delivery M, d.final = true ∧ d.key = key ∧
      did i h = [.returned d id, .called d id, .checked d id false, .looked d (some id),
        .begun (.finding d)]) ∨
      did i h = [.freed key (some id), .marked key id, .sought key (some id),
        .begun (.seeking key)] := by
  obtain ⟨ms, j, rfl, hl⟩ := (hr.step hs).life_cons
  cases hl with
  | retired hl => exact hl.of_retiring

/-- **Why an entry is not registered any more**: a newer one was inserted for the same object, or a
job that had found this very entry has finished with it. -/
theorem Run.unregistered {m : Moment H M} (hr : Run h s) (hs : s.Step i m t)
    (hf : s.registry.find? key = some id) (hg : t.registry.find? key ≠ some id) :
    (∃ id', m = .inserted key id' ∧ ∀ k, ¬ Inserted h k id') ∨
      m = .retired key id ∧
        ((∃ d : Delivery M, d.final = true ∧ d.key = key ∧
          did i h = [.returned d id, .called d id, .checked d id false, .looked d (some id),
            .begun (.finding d)]) ∨
          did i h = [.freed key (some id), .marked key id, .sought key (some id),
            .begun (.seeking key)]) := by
  rcases hs.effect.unregistered hf hg with rfl | rfl
  · exact Or.inl ⟨_, rfl, fun k => hr.told.not_inserted_length k⟩
  · exact Or.inr ⟨rfl, hr.did_of_retired hs⟩

/-- **Retiring an entry leaves every other one.** -/
theorem Scene.Step.registered_of_retired {key' : Key} {id' : Nat}
    (hs : s.Step i (.retired key id) t) (hf : s.registry.find? key' = some id') (hne : id' ≠ id) :
    t.registry.find? key' = some id' := by
  by_cases hg : t.registry.find? key' = some id'
  · exact hg
  · -- to go, the other entry would have to be the one that is retired
    rcases hs.effect.unregistered hf hg with hm | hm
    · cases hm
    · cases hm
      exact absurd rfl hne

/-! ### When no job is under way -/

/-- No job is under way. -/
def Scene.IsQuiet (s : Scene H M) : Prop := ∀ j ∈ s.jobs, j = .over

/-- The last callback of an entry's handler has returned, or the library has destroyed the object of
the entry that its destruction had found. -/
def Finished (h : History H M) (id : Nat) : Prop :=
  (∃ i d, d.final = true ∧ (i, .returned d id) ∈ h) ∨ ∃ i key, (i, .freed key (some id)) ∈ h

namespace Life

variable {ms : List (Moment H M)} {d : Delivery M}

/-- A job that is over and got back from the last callback of a handler has retired the entry. -/
theorem retired_of_returned (hl : Life ms .over) (hd : d.final = true)
    (hm : .returned d id ∈ ms) : .retired d.key id ∈ ms := by
  rcases hl.of_over with ⟨k, x, n, rfl⟩ | ⟨e, rfl⟩ | ⟨e, n, rfl⟩ | ⟨e, n, he, rfl⟩ |
    ⟨e, n, he, rfl⟩ | ⟨k, rfl⟩ | ⟨k, n, rfl⟩
  · simp at hm
  · simp at hm
  · simp at hm
  · simp only [List.mem_cons, Moment.returned.injEq, reduceCtorEq, List.not_mem_nil, or_false] at hm
    rw [hm.1, he] at hd
    cases hd
  · simp at hm
    simp [hm]
  · simp at hm
  · simp at hm

/-- A job that is over and marked an entry has seen the library destroy the object. -/
theorem freed_of_marked (hl : Life ms .over) (hm : .marked key id ∈ ms) :
    .freed key (some id) ∈ ms := by
  rcases hl.of_over with ⟨k, x, n, rfl⟩ | ⟨e, rfl⟩ | ⟨e, n, rfl⟩ | ⟨e, n, he, rfl⟩ |
    ⟨e, n, he, rfl⟩ | ⟨k, rfl⟩ | ⟨k, n, rfl⟩ <;> simp at hm
  simp [hm]

/-- A job that is over and saw the library destroy the object of an entry has retired the entry. -/
theorem retired_of_freed (hl : Life ms .over) (hm : .freed key (some id) ∈ ms) :
    .retired key id ∈ ms := by
  rcases hl.of_over with ⟨k, x, n, rfl⟩ | ⟨e, rfl⟩ | ⟨e, n, rfl⟩ | ⟨e, n, he, rfl⟩ |
    ⟨e, n, he, rfl⟩ | ⟨k, rfl⟩ | ⟨k, n, rfl⟩ <;> simp at hm
  simp [hm]

/-- Who has retired an entry has finished with it. -/
theorem finished_of_retired (hl : Life ms .over) (hm : .retired key id ∈ ms) :
    (∃ d, d.final = true ∧ .returned d id ∈ ms) ∨ .freed key (some id) ∈ ms := by
  rcases hl.of_over with ⟨k, x, n, rfl⟩ | ⟨e, rfl⟩ | ⟨e, n, rfl⟩ | ⟨e, n, he, rfl⟩ |
    ⟨e, n, he, rfl⟩ | ⟨k, rfl⟩ | ⟨k, n, rfl⟩ <;> simp at hm
  · exact Or.inl ⟨e, he, by simp [hm]⟩
  · exact Or.inr (by simp [hm])

end Life

/-- When no job is under way, what anyone did is part of a whole life. -/
theorem Run.life_of_isQuiet {m : Moment H M} (hr : Run h s) (hq : s.IsQuiet) (hm : (i, m) ∈ h) :
    Life (did i h) .over ∧ m ∈ did i h := by
  obtain ⟨j, hj⟩ := hr.job_of_mem hm
  obtain rfl : j = .over := hq j (List.mem_of_getElem? hj)
  exact ⟨hr.life hj, mem_did.2 hm⟩

/-- **When no job is under way, the retired entries are the finished ones.** -/
theorem Run.retired_iff_finished (hr : Run h s) (hq : s.IsQuiet) :
    Retired h id ↔ Finished h id := by
  constructor
  · rintro ⟨i, key, hm⟩
    obtain ⟨hl, hmem⟩ := hr.life_of_isQuiet hq hm
    rcases hl.finished_of_retired hmem with ⟨d, hd, hret⟩ | hfreed
    · exact Or.inl ⟨i, d, hd, mem_did.1 hret⟩
    · exact Or.inr ⟨i, key, mem_did.1 hfreed⟩
  · rintro (⟨i, d, hd, hm⟩ | ⟨i, key, hm⟩)
    · obtain ⟨hl, hmem⟩ := hr.life_of_isQuiet hq hm
      exact ⟨i, d.key, mem_did.1 (hl.retired_of_returned hd hmem)⟩
    · obtain ⟨hl, hmem⟩ := hr.life_of_isQuiet hq hm
      exact ⟨i, key, mem_did.1 (hl.retired_of_freed hmem)⟩

/-- **What is registered when no job is under way**: the entry inserted last, unless it is
finished. -/
theorem Run.registered_iff (hr : Run h s) (hq : s.IsQuiet) :
    s.registry.find? key = some id ↔ lastInserted key h = some id ∧ ¬ Finished h id := by
  rw [hr.told.current, hr.retired_iff_finished hq]

/-- Nothing that is registered when no job is under way is marked. -/
theorem Run.not_marked_of_registered (hr : Run h s) (hq : s.IsQuiet)
    (hf : s.registry.find? key = some id) : s.registry.isMarked id = false := by
  rw [Bool.eq_false_iff]
  intro hmark
  obtain ⟨i, k, hm⟩ := (hr.told.marks id).1 hmark
  -- who marked the entry is over, so it has also seen the library destroy the object
  obtain ⟨hl, hmem⟩ := hr.life_of_isQuiet hq hm
  have hfreed : (i, .freed k (some id)) ∈ h := mem_did.1 (hl.freed_of_marked hmem)
  exact ((hr.registered_iff hq).1 hf).2 (Or.inr ⟨i, k, hfreed⟩)

/-! ### Retirement -/

/-- **No lost and no kept handler.** In every run: an entry is not registered any more only because
a newer one was inserted for the same object, because the last callback of its own handler has
returned, or because its destruction, which had found and marked it, has come back from the library;
whoever retires an entry leaves every other one. When no job is under way, registered for an object
is the entry that was inserted last for it unless that one is finished, and nothing else; and no
registered entry is marked. What an operation registers, whatever the library answers, has not the
null address. -/
theorem none_lost_none_kept (hr : Run h s) :
    (∀ (i : Nat) (m : Moment H M) (t : Scene H M) (key : Key) (id : Nat), s.Step i m t →
      s.registry.find? key = some id → t.registry.find? key ≠ some id →
      (∃ id', m = .inserted key id' ∧ ∀ k, ¬ Inserted h k id') ∨
        m = .retired key id ∧
          ((∃ d : Delivery M, d.final = true ∧ d.key = key ∧
            did i h = [.returned d id, .called d id, .checked d id false, .looked d (some id),
              .begun (.finding d)]) ∨
            did i h = [.freed key (some id), .marked key id, .sought key (some id),
              .begun (.seeking key)])) ∧
    (∀ (i : Nat) (t : Scene H M) (key key' : Key) (id id' : Nat), s.Step i (.retired key id) t →
      s.registry.find? key' = some id' → id' ≠ id → t.registry.find? key' = some id') ∧
    (s.IsQuiet → ∀ key id,
      (s.registry.find? key = some id ↔ lastInserted key h = some id ∧ ¬ Finished h id) ∧
      (s.registry.find? key = some id → s.registry.isMarked id = false)) ∧
    (∀ (op : Client.Operation) (key : Key), op.program.Registers key →
      key.address ≠ Client.nullHandle) := by
  refine ⟨fun i m t key id hs hf hg => hr.unregistered hs hf hg,
    fun i t key key' id id' hs hf hne => hs.registered_of_retired hf hne,
    fun hq key id => ⟨hr.registered_iff hq, hr.not_marked_of_registered hq⟩,
    fun op key hreg => (op.asks.of_registers hreg).2⟩

/-- The library gives the address of a stream to a new one while it destroys the old one: the new
handler is registered afterwards. -/
theorem new_handler_kept :
    ∃ (h : History String Unit) (s : Scene String Unit), Run h s ∧ s.IsQuiet ∧
      s.registry.entries.map Entry.handler = ["old", "new"] ∧
      s.registry.find? ⟨.stream, 16⟩ = some 1 ∧ s.registry.isMarked 1 = false := by
  have ended : Run (_ : History String Unit) ⟨⟨[⟨⟨.stream, 16⟩, "old", true⟩,
      ⟨⟨.stream, 16⟩, "new", false⟩], [(⟨.stream, 16⟩, 1)]⟩, [.over, .over, .over]⟩ :=
    Run.empty.replay [.begin (.inserting ⟨.stream, 16⟩ "old"), .move 0,
      .begin (.seeking ⟨.stream, 16⟩), .move 1, .move 1,
      .begin (.inserting ⟨.stream, 16⟩ "new"), .move 2, .move 1, .move 1] rfl
  obtain ⟨-, -, hquiet, -⟩ := none_lost_none_kept ended
  obtain ⟨-, hmark⟩ := hquiet (by simp [Scene.IsQuiet]) ⟨.stream, 16⟩ 1
  exact ⟨_, _, ended, by simp [Scene.IsQuiet], rfl, rfl, hmark rfl⟩

end LateBinding.Callback
