import LateBinding.Proofs.Callback.Told

/-!
**Runs on one thread, turn by turn.**

On one thread a job is left only where it rests: while the handler that it called runs, while the
library destroys the object, or when it is over. Until then other jobs may have their turns: a
handler may make and destroy objects and cause callbacks, and so may the library while it destroys.
So the history of such a run is made of whole *turns*, of which there are ten kinds, and what holds
of the history when a turn begins is known from its kind.

Main definitions:

* `LateBinding.Callback.Moment.rests`, `LateBinding.Callback.SingleThreaded` — **no job is left
  between two rests**;
* `LateBinding.Callback.Turn` — the turns, with what holds when they begin.

Main results:

* `LateBinding.Callback.Run.last_turn` — the history of a run on one thread ends with a turn;
* `LateBinding.Callback.Run.turns` — so what every turn keeps holds of every such history.
-/

set_option autoImplicit false

namespace LateBinding.Callback

variable {H M : Type} {h : History H M} {s : Scene H M} {i : Nat}

/-! ### Rests -/

/-- Whether a job rests after a moment. -/
def Moment.rests : Moment H M → Bool
  | .begun _ => false
  | .inserted _ _ => true
  | .looked _ found => found.isNone
  | .checked _ _ b => b
  | .called _ _ => true
  | .returned d _ => !d.final
  | .sought _ found => found.isNone
  | .marked _ _ => true
  | .freed _ found => found.isNone
  | .retired _ _ => true

/-- No job is left between two rests. -/
def SingleThreaded : History H M → Prop
  | (i, _) :: (k, n) :: h => (n.rests = true ∨ i = k) ∧ SingleThreaded ((k, n) :: h)
  | _ => True

/-- The job that did something last rests. -/
def Rested : History H M → Prop
  | [] => True
  | (_, m) :: _ => m.rests = true

theorem SingleThreaded.tail {x : Nat × Moment H M} (hs : SingleThreaded (x :: h)) :
    SingleThreaded h := by
  cases h with
  | nil => trivial
  | cons y h => exact hs.2

/-- Who does not rest is the one who did something last. -/
theorem SingleThreaded.eq_cons {m : Moment H M} {ms : List (Moment H M)} (hs : SingleThreaded h)
    (hd : did i h = m :: ms) (hm : m.rests = false) :
    ∃ h', h = (i, m) :: h' ∧ did i h' = ms := by
  induction h with
  | nil => cases hd
  | cons x h ih =>
      obtain ⟨k, n⟩ := x
      by_cases hk : k = i
      · subst hk
        rw [did, if_pos rfl] at hd
        obtain ⟨rfl, rfl⟩ := List.cons.inj hd
        exact ⟨h, rfl, rfl⟩
      · rw [did, if_neg hk] at hd
        obtain ⟨h', rfl, -⟩ := ih hs.tail hd
        -- another job had the next moment, so this one would have to rest
        rcases hs.1 with hrest | he
        · rw [hm] at hrest
          cases hrest
        · exact absurd he hk

/-- Before a job goes on from a rest, or begins, everyone rests. -/
theorem SingleThreaded.rested {m : Moment H M} (hs : SingleThreaded ((i, m) :: h))
    (hd : ∀ n ns, did i h = n :: ns → n.rests = true) : Rested h := by
  cases h with
  | nil => trivial
  | cons y h =>
      obtain ⟨k, n⟩ := y
      rcases hs.1 with hrest | rfl
      · exact hrest
      · exact hd n (did i h) (by rw [did, if_pos rfl])

/-! ### Turns -/

/-- `Turn h i ms`: after the history `h`, the job at place `i` does `ms` in one turn, newest first.
An object is made; a callback finds no entry, finds a marked one, or calls a handler; a handler
returns from a callback that is not the last one, or is; the destruction of an object finds no
entry, or marks one; the library has destroyed an object without an entry, or with one. -/
inductive Turn (h : History H M) (i : Nat) : List (Moment H M) → Prop
  | made (key : Key) (x : H) (id : Nat) (hnew : ∀ k, ¬ Inserted h k id) :
      Turn h i [.inserted key id, .begun (.inserting key x)]
  | missed (d : Delivery M) (hnone : ∀ id, lastInserted d.key h = some id → Retired h id) :
      Turn h i [.looked d none, .begun (.finding d)]
  | refused (d : Delivery M) (id : Nat) (hlast : lastInserted d.key h = some id)
      (hmark : Marked h id) :
      Turn h i [.checked d id true, .looked d (some id), .begun (.finding d)]
  | called (d : Delivery M) (id : Nat) (hlast : lastInserted d.key h = some id)
      (hret : ¬ Retired h id) (hmark : ¬ Marked h id) :
      Turn h i [.called d id, .checked d id false, .looked d (some id), .begun (.finding d)]
  | returned (d : Delivery M) (id : Nat) (hd : d.final = false) : Turn h i [.returned d id]
  | ended (d : Delivery M) (id : Nat) (hd : d.final = true) (hcall : (i, .called d id) ∈ h)
      (hins : Inserted h d.key id) : Turn h i [.retired d.key id, .returned d id]
  | absent (key : Key) (hnone : ∀ id, lastInserted key h = some id → Retired h id) :
      Turn h i [.sought key none, .begun (.seeking key)]
  | doomed (key : Key) (id : Nat) (hlast : lastInserted key h = some id) :
      Turn h i [.marked key id, .sought key (some id), .begun (.seeking key)]
  | gone (key : Key) : Turn h i [.freed key none]
  | freed (key : Key) (id : Nat) (hmark : Marked h id) :
      Turn h i [.retired key id, .freed key (some id)]

/-- Who has just begun finds nothing only where nothing is registered. -/
theorem Run.retired_of_looked_none {d : Delivery M} {j : Job H M} {k id : Nat}
    (hr : Run ((i, .looked d none) :: (k, .begun j) :: h) s) (hl : lastInserted d.key h = some id) :
    Retired h id := by
  by_cases hret : Retired h id
  · exact hret
  · cases hr.looked_iff.2 ⟨hl, by simpa using hret⟩

theorem Run.retired_of_sought_none {key : Key} {j : Job H M} {k id : Nat}
    (hr : Run ((i, .sought key none) :: (k, .begun j) :: h) s)
    (hl : lastInserted key h = some id) : Retired h id := by
  by_cases hret : Retired h id
  · exact hret
  · cases hr.sought_iff.2 ⟨hl, by simpa using hret⟩

/-- **The history of a run on one thread ends with a turn.** -/
theorem Run.last_turn (hr : Run h s) (hs : SingleThreaded h) (hrest : Rested h) (hne : h ≠ []) :
    ∃ i ms h', Turn h' i ms ∧ h = ms.map (Prod.mk i) ++ h' ∧ SingleThreaded h' ∧ Rested h' := by
  cases h with
  | nil => exact absurd rfl hne
  | cons x h =>
      obtain ⟨i, m⟩ := x
      obtain ⟨ms, j, hms, hl⟩ := hr.life_cons
      obtain ⟨t, ht, -⟩ := hr.of_cons
      -- The last moment says which turn it is, and what the job did before says how the turn began:
      -- as none of these moments rests, they are the last ones of the history.
      cases hl with
      | begun hj => cases hrest
      | @inserted _ key x id hl =>
          obtain ⟨h', rfl, hd⟩ := hs.tail.eq_cons (hms.trans hl.of_inserting) rfl
          have hnew : ∀ k, ¬ Inserted h' k id := fun k hk =>
            hr.not_inserted_before (inserted_cons.2 (Or.inr hk))
          exact ⟨i, _, h', .made key x id hnew, rfl, hs.tail.tail, hs.tail.rested (by simp [hd])⟩
      | @missed _ d hl =>
          obtain ⟨h', rfl, hd⟩ := hs.tail.eq_cons (hms.trans hl.of_finding) rfl
          exact ⟨i, _, h', .missed d fun id => hr.retired_of_looked_none, rfl, hs.tail.tail,
            hs.tail.rested (by simp [hd])⟩
      | found id hl => cases hrest
      | @refused _ d id hl =>
          obtain ⟨h₁, rfl, hd₁⟩ := hs.tail.eq_cons (hms.trans hl.of_checking) rfl
          obtain ⟨h', rfl, hd⟩ := hs.tail.tail.eq_cons hd₁ rfl
          have hmark : Marked h' id := by simpa using hr.checked_iff.1 rfl
          obtain ⟨hlast, -⟩ := ht.looked_iff.1 rfl
          exact ⟨i, _, h', .refused d id hlast hmark, rfl, hs.tail.tail.tail,
            hs.tail.tail.rested (by simp [hd])⟩
      | passed hl => cases hrest
      | @called _ d id hl =>
          obtain ⟨h₁, rfl, hd₁⟩ := hs.tail.eq_cons (hms.trans hl.of_calling) rfl
          obtain ⟨h₂, rfl, hd₂⟩ := hs.tail.tail.eq_cons hd₁ rfl
          obtain ⟨h', rfl, hd⟩ := hs.tail.tail.tail.eq_cons hd₂ rfl
          have hmark : ¬ Marked h' id := fun hm =>
            Bool.false_ne_true (ht.checked_iff.2 (by simpa using hm))
          obtain ⟨t', ht', -⟩ := ht.of_cons
          obtain ⟨hlast, hret⟩ := ht'.looked_iff.1 rfl
          exact ⟨i, _, h', .called d id hlast (by simpa using hret) hmark, rfl,
            hs.tail.tail.tail.tail, hs.tail.tail.tail.rested (by simp [hd])⟩
      | @returned _ d id hl hd =>
          exact ⟨i, _, h, .returned d id hd, rfl, hs.tail,
            hs.rested (by simp [hms.trans hl.of_running, Moment.rests])⟩
      | ended hl hd => simp [Rested, Moment.rests, hd] at hrest
      | @absent _ key hl =>
          obtain ⟨h', rfl, hd⟩ := hs.tail.eq_cons (hms.trans hl.of_seeking) rfl
          exact ⟨i, _, h', .absent key fun id => hr.retired_of_sought_none, rfl, hs.tail.tail,
            hs.tail.rested (by simp [hd])⟩
      | present id hl => cases hrest
      | @marked _ key id hl =>
          obtain ⟨h₁, rfl, hd₁⟩ := hs.tail.eq_cons (hms.trans hl.of_marking) rfl
          obtain ⟨h', rfl, hd⟩ := hs.tail.tail.eq_cons hd₁ rfl
          obtain ⟨hlast, -⟩ := ht.sought_iff.1 rfl
          exact ⟨i, _, h', .doomed key id hlast, rfl, hs.tail.tail.tail,
            hs.tail.tail.rested (by simp [hd])⟩
      | @gone _ key hl =>
          have hd : did i h = [.sought key none, .begun (.seeking key)] := by
            cases hl with
            | begun hj => cases hj
            | absent hl => rw [hms, hl.of_seeking]
          exact ⟨i, _, h, .gone key, rfl, hs.tail, hs.rested (by simp [hd, Moment.rests])⟩
      | freed hl => cases hrest
      | @retired _ key id hl =>
          rcases hl.of_retiring with ⟨d, hfin, rfl, hd₁⟩ | hd₁
          · obtain ⟨h', rfl, hd⟩ := hs.tail.eq_cons (hms.trans hd₁) (by simp [Moment.rests, hfin])
            have hcall : (i, .called d id) ∈ h' := mem_did.1 (by simp [hd])
            have hlook : (i, .looked d (some id)) ∈ h' := mem_did.1 (by simp [hd])
            have hins : Inserted h' d.key id := by
              obtain ⟨t', ht', -⟩ := ht.of_cons
              exact ht'.named i _ hlook
            exact ⟨i, _, h', .ended d id hfin hcall hins, rfl, hs.tail.tail,
              hs.tail.rested (by simp [hd, Moment.rests])⟩
          · obtain ⟨h', rfl, hd⟩ := hs.tail.eq_cons (hms.trans hd₁) rfl
            have hmark : (i, .marked key id) ∈ h' := mem_did.1 (by simp [hd])
            exact ⟨i, _, h', .freed key id ⟨i, key, hmark⟩, rfl, hs.tail.tail,
              hs.tail.rested (by simp [hd, Moment.rests])⟩

/-- What holds of the empty history and is kept by every turn holds of every run on one thread. -/
theorem Run.turns {P : History H M → Prop} (hr : Run h s) (hs : SingleThreaded h) (hrest : Rested h)
    (nil : P [])
    (turn : ∀ i ms h, (∃ t, Run (ms.map (Prod.mk i) ++ h) t) → Turn h i ms → P h →
      P (ms.map (Prod.mk i) ++ h)) : P h := by
  -- a turn is several moments long, so the induction is on the length of the history
  induction hn : h.length using Nat.strongRecOn generalizing h s with
  | ind n ih =>
      by_cases hne : h = []
      · subst hne
        exact nil
      · obtain ⟨i, ms, h', hturn, rfl, hs', hrest'⟩ := hr.last_turn hs hrest hne
        obtain ⟨t, ht⟩ := hr.of_append
        have hlt : h'.length < n := by
          rw [← hn]
          cases hturn <;> simp <;> omega
        exact turn i ms h' ⟨s, hr⟩ hturn (ih _ hlt ht hs' hrest' rfl)

end LateBinding.Callback
