import LateBinding.Proofs.Callback.History
import LateBinding.Proofs.Callback.Lookup

/-!
**The history tells what the registry answers.**

Registered for an object is the entry that was inserted last for it, unless that entry was retired;
an entry is marked if someone marked it; and nobody does anything with an entry for another object
than the one it was inserted for. Each kind of step keeps this, so every run does.

Main definitions:

* `LateBinding.Callback.Effect` — what a moment does to a registry;
* `LateBinding.Callback.Told` — the history tells the answers of a registry.

Main results:

* `LateBinding.Callback.Scene.Step.effect` — every step has the effect of its moment;
* `LateBinding.Callback.Told.step` — **one step of any job** keeps what is told;
* `LateBinding.Callback.Run.told`, `LateBinding.Callback.Run.named` — so does a whole run;
* `LateBinding.Callback.Run.looked_iff`, `LateBinding.Callback.Run.checked_iff` — what a callback
  finds.
-/

set_option autoImplicit false

namespace LateBinding.Callback

variable {H M : Type}

/-! ### What the history tells about the registry -/

/-- Whether a moment leaves the registry as it is. -/
def Moment.isQuiet : Moment H M → Bool
  | .inserted _ _ => false
  | .marked _ _ => false
  | .retired _ _ => false
  | _ => true

/-- What a moment does to a registry. -/
inductive Effect (r : Registry H) : Moment H M → Registry H → Prop
  | inserted (key : Key) (x : H) : Effect r (.inserted key r.entries.length) (r.insert key x)
  | marked (key : Key) (id : Nat) : Effect r (.marked key id) (r.mark id)
  | retired (key : Key) (id : Nat) : Effect r (.retired key id) (r.retire key id)
  | quiet {m : Moment H M} (hm : m.isQuiet = true) : Effect r m r

theorem Scene.Step.effect {s t : Scene H M} {i : Nat} {m : Moment H M} (h : s.Step i m t) :
    Effect s.registry m t.registry := by
  cases h with
  | begin j hj => exact .quiet rfl
  | @move i j m hj hm =>
      cases j with
      | inserting key x => cases hm; exact .inserted key x
      | finding d =>
          cases hm
          simp only [Job.step]
          cases s.registry.find? d.key <;> exact .quiet rfl
      | checking d id =>
          cases hm
          simp only [Job.step]
          cases s.registry.isMarked id <;> exact .quiet rfl
      | calling d id => cases hm; exact .quiet rfl
      | running d id => cases hm; exact .quiet rfl
      | seeking key =>
          cases hm
          simp only [Job.step]
          cases s.registry.find? key <;> exact .quiet rfl
      | marking key id => cases hm; exact .marked key id
      | freeing key found => cases hm; cases found <;> exact .quiet rfl
      | retiring key id => cases hm; exact .retired key id
      | _ => cases hm

/-- `Told h r`: the history tells what the registry answers. -/
structure Told (h : History H M) (r : Registry H) : Prop where
  keys : ∀ key id, r.key? id = some key ↔ Inserted h key id
  marks : ∀ id, r.isMarked id = true ↔ Marked h id
  current : ∀ key id, r.find? key = some id ↔ lastInserted key h = some id ∧ ¬ Retired h id

/-- The entry that a moment names was inserted for the object that it names. -/
def Moment.Names (h : History H M) : Moment H M → Prop
  | .looked d (some id) => Inserted h d.key id
  | .sought key (some id) => Inserted h key id
  | .marked key id => Inserted h key id
  | .retired key id => Inserted h key id
  | _ => True

theorem Moment.Names.mono {h : History H M} {m : Moment H M} (hm : m.Names h)
    (x : Nat × Moment H M) : m.Names (x :: h) := by
  cases m with
  | looked d found => cases found <;> first | trivial | exact inserted_cons.2 (Or.inr hm)
  | sought key found => cases found <;> first | trivial | exact inserted_cons.2 (Or.inr hm)
  | marked key id => exact inserted_cons.2 (Or.inr hm)
  | retired key id => exact inserted_cons.2 (Or.inr hm)
  | _ => trivial

/-- Nothing is said about an entry that was not inserted. -/
def Named (h : History H M) : Prop := ∀ i m, (i, m) ∈ h → Moment.Names h m

theorem Named.cons {h : History H M} {i : Nat} {m : Moment H M} (hn : Named h) (hm : m.Names h) :
    Named ((i, m) :: h) := by
  intro k n hk
  rcases List.mem_cons.1 hk with he | hk
  · cases he
    exact hm.mono _
  · exact (hn k n hk).mono _

namespace Told

variable {h : History H M} {r : Registry H}

/-- The next entry is one that nothing was said about. -/
theorem not_inserted_length (ht : Told h r) (key : Key) : ¬ Inserted h key r.entries.length := by
  intro hi
  have hk := (ht.keys key r.entries.length).2 hi
  rw [Registry.key?_length] at hk
  cases hk

/-- An entry was inserted for one object only. -/
theorem key_unique (ht : Told h r) {key key' : Key} {id : Nat} (hi : Inserted h key id)
    (hi' : Inserted h key' id) : key = key' :=
  Option.some.inj (((ht.keys key id).2 hi).symm.trans ((ht.keys key' id).2 hi'))

theorem insert (ht : Told h r) (hn : Named h) (i : Nat) (key : Key) (x : H) :
    Told ((i, .inserted key r.entries.length) :: h) (r.insert key x) := by
  refine ⟨fun k id => ?_, fun id => by simp [ht.marks], fun k id => ?_⟩
  · rw [Registry.key?_insert, inserted_cons]
    by_cases hid : id = r.entries.length
    · subst hid
      simp [ht.not_inserted_length k]
    · simp [hid, Ne.symm hid, ht.keys]
  · rw [Registry.find?_insert]
    by_cases hk : k = key
    · subst hk
      have hret : ¬ Retired h r.entries.length := by
        rintro ⟨j, key', hj⟩
        exact ht.not_inserted_length key' (hn j _ hj)
      -- the new entry is registered, and nobody can have retired it before it was there
      simp only [if_pos, lastInserted, retired_cons, Option.some.injEq, reduceCtorEq, exists_false,
        false_or]
      constructor
      · rintro rfl
        exact ⟨rfl, hret⟩
      · exact fun hl => hl.1
    · simp [hk, lastInserted, Ne.symm hk, ht.current]

theorem mark (ht : Told h r) (i : Nat) {key : Key} {k : Nat} (hi : Inserted h key k) :
    Told ((i, .marked key k) :: h) (r.mark k) := by
  refine ⟨by simp [ht.keys], fun id => ?_, by simp [ht.current, lastInserted]⟩
  rw [Registry.isMarked_mark, marked_cons, ht.marks]
  constructor
  · rintro (hid | ⟨rfl, -⟩)
    · exact Or.inr hid
    · exact Or.inl ⟨key, rfl⟩
  · rintro (⟨key', he⟩ | hid)
    · cases he
      exact Or.inr ⟨rfl, by rw [(ht.keys key k).2 hi]; rfl⟩
    · exact Or.inl hid

theorem retire (ht : Told h r) (i : Nat) {key : Key} {k : Nat} (hi : Inserted h key k) :
    Told ((i, .retired key k) :: h) (r.retire key k) := by
  refine ⟨by simp [ht.keys], by simp [ht.marks], fun k' id => ?_⟩
  have hlast : lastInserted k' ((i, Moment.retired key k) :: h) = lastInserted k' h := rfl
  rw [Registry.find?_retire, hlast, retired_cons]
  by_cases hk : k' = key ∧ r.find? key = some k
  · rw [if_pos hk]
    obtain ⟨rfl, hk⟩ := hk
    have hl := ((ht.current k' k).1 hk).1
    refine ⟨fun hc => (by cases hc), fun ⟨hid, hnot⟩ => ?_⟩
    obtain rfl : k = id := Option.some.inj (hl.symm.trans hid)
    exact absurd (Or.inl ⟨k', rfl⟩) hnot
  · rw [if_neg hk, ht.current]
    refine and_congr_right fun hl => not_congr ⟨Or.inr, ?_⟩
    rintro (⟨key', he⟩ | hret)
    · -- an entry that was not retired before is registered for its own object or for none
      cases he
      by_cases hret : Retired h k
      · exact hret
      · obtain rfl : k' = key := ht.key_unique (Inserted.of_last hl) hi
        exact absurd ⟨rfl, (ht.current k' k).2 ⟨hl, hret⟩⟩ hk
    · exact hret

theorem quiet (ht : Told h r) (i : Nat) {m : Moment H M} (hq : m.isQuiet = true) :
    Told ((i, m) :: h) r := by
  have hins : ∀ key id, m ≠ .inserted key id := by
    rintro key id rfl
    cases hq
  have hmark : ∀ key id, m ≠ .marked key id := by
    rintro key id rfl
    cases hq
  have hret : ∀ key id, m ≠ .retired key id := by
    rintro key id rfl
    cases hq
  refine ⟨fun key id => ?_, fun id => ?_, fun key id => ?_⟩
  · simp [ht.keys, hins]
  · simp [ht.marks, hmark]
  · simp [ht.current, lastInserted_cons_of_ne (hins key), hret]

/-- **One step of any job**: what the history tells, it tells again. -/
theorem step {r' : Registry H} {i : Nat} {m : Moment H M} (ht : Told h r) (hn : Named h)
    (hm : m.Names h) (he : Effect r m r') : Told ((i, m) :: h) r' := by
  cases he with
  | inserted key x => exact ht.insert hn i key x
  | marked key id => exact ht.mark i hm
  | retired key id => exact ht.retire i hm
  | quiet hq => exact ht.quiet i hq

end Told

/-- What a job does next names an entry of the object that it works for. -/
theorem Run.names {h : History H M} {s t : Scene H M} {i : Nat} {m : Moment H M} (hr : Run h s)
    (ht : Told h s.registry) (hn : Named h) (hs : s.Step i m t) : m.Names h := by
  cases hs with
  | begin j hj => trivial
  | @move i j m hj hm =>
      cases j with
      | finding d =>
          cases hm
          cases hf : s.registry.find? d.key with
          | none => trivial
          | some id => exact Inserted.of_last ((ht.current d.key id).1 hf).1
      | seeking key =>
          cases hm
          cases hf : s.registry.find? key with
          | none => trivial
          | some id => exact Inserted.of_last ((ht.current key id).1 hf).1
      | marking key id =>
          -- who marks or retires an entry has found it, and it is then that the registry told of it
          cases hm
          have hmem : (i, Moment.sought key (some id)) ∈ h := by
            simp [← mem_did, (hr.life hj).of_marking]
          exact (hn i _ hmem : Inserted h key id)
      | retiring key id =>
          cases hm
          rcases (hr.life hj).of_retiring with ⟨d, -, rfl, hd⟩ | hd
          · have hmem : (i, Moment.looked d (some id)) ∈ h := by simp [← mem_did, hd]
            exact (hn i _ hmem : Inserted h d.key id)
          · have hmem : (i, Moment.sought key (some id)) ∈ h := by simp [← mem_did, hd]
            exact (hn i _ hmem : Inserted h key id)
      | inserting key x => cases hm; trivial
      | checking d id => cases hm; trivial
      | calling d id => cases hm; trivial
      | running d id => cases hm; trivial
      | freeing key found => cases hm; trivial
      | _ => cases hm

theorem Run.told_and_named {h : History H M} {s : Scene H M} (hr : Run h s) :
    Told h s.registry ∧ Named h := by
  induction hr with
  | empty =>
      refine ⟨⟨fun key id => ?_, fun id => ?_, fun key id => ?_⟩, fun i m hm => by cases hm⟩
      · simp [Registry.key?, Inserted]
      · simp [Registry.isMarked, Marked]
      · simp [Registry.find?, lastInserted]
  | step hr hs ih =>
      obtain ⟨ht, hn⟩ := ih
      have hm := hr.names ht hn hs
      exact ⟨ht.step hn hm hs.effect, hn.cons hm⟩

/-- **The history tells what the registry answers.** -/
theorem Run.told {h : History H M} {s : Scene H M} (hr : Run h s) : Told h s.registry :=
  hr.told_and_named.1

theorem Run.named {h : History H M} {s : Scene H M} (hr : Run h s) : Named h :=
  hr.told_and_named.2

/-! ### What a job finds -/

section Finds

variable {h : History H M} {s : Scene H M} {i id : Nat} {d : Delivery M} {key : Key}

/-- An entry is new when it is inserted. -/
theorem Run.not_inserted_before {key' : Key} (hr : Run ((i, .inserted key id) :: h) s) :
    ¬ Inserted h key' id := by
  obtain ⟨t, ht, hstep⟩ := hr.of_cons
  intro hins
  have he := hstep.effect
  generalize s.registry = r at he
  cases he with
  | inserted _ x => exact ht.told.not_inserted_length key' hins
  | quiet hq => cases hq

/-- A callback finds the entry that was inserted last for its object, unless it was retired. -/
theorem Run.looked_iff {found : Option Nat} (hr : Run ((i, .looked d found) :: h) s) :
    found = some id ↔ lastInserted d.key h = some id ∧ ¬ Retired h id := by
  obtain ⟨t, ht, hstep⟩ := hr.of_cons
  cases hstep with
  | @move i j m hj hm =>
      cases j with
      | finding d =>
          cases hm
          exact ht.told.current d.key id
      | _ => cases hm

/-- So does who destroys an object. -/
theorem Run.sought_iff {found : Option Nat} (hr : Run ((i, .sought key found) :: h) s) :
    found = some id ↔ lastInserted key h = some id ∧ ¬ Retired h id := by
  obtain ⟨t, ht, hstep⟩ := hr.of_cons
  cases hstep with
  | @move i j m hj hm =>
      cases j with
      | seeking key =>
          cases hm
          exact ht.told.current key id
      | _ => cases hm

/-- A callback finds the mark that someone has set. -/
theorem Run.checked_iff {b : Bool} (hr : Run ((i, .checked d id b) :: h) s) :
    b = true ↔ Marked h id := by
  obtain ⟨t, ht, hstep⟩ := hr.of_cons
  cases hstep with
  | @move i j m hj hm =>
      cases j with
      | checking d id =>
          cases hm
          exact ht.told.marks id
      | _ => cases hm

end Finds

end LateBinding.Callback
