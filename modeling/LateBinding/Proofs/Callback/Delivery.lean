import LateBinding.Proofs.Callback.Told

/-!
**No callback reaches the handler of a dead object.**

A callback looks an entry up, checks its mark and calls its handler, in three steps between which
anything may happen. What it calls is always the entry that was inserted last when it looked, and
that was not marked yet when it checked. So an entry that is marked, retired or replaced is out of
reach for every callback that looks afterwards.

Main definitions:

* `LateBinding.Callback.Dead` — an entry that was marked, retired or replaced.

Main results:

* `LateBinding.Callback.Run.call_origin` — **where a call comes from**: the moments before it, and
  what the history said then;
* `LateBinding.Callback.Run.not_called_of_dead` — whoever looks after an entry's death does not call
  it;
* `LateBinding.Callback.calls_reach_only_the_living` — all of it together.
-/

set_option autoImplicit false

namespace LateBinding.Callback

variable {H M : Type} {h later earlier : History H M} {s : Scene H M} {i id : Nat} {d : Delivery M}

/-! ### The moments before a call -/

/-- Who looks an entry up has just begun. -/
theorem Run.did_of_looked {found : Option Nat} (hr : Run ((i, .looked d found) :: h) s) :
    did i h = [.begun (.finding d)] := by
  obtain ⟨ms, j, rfl, hl⟩ := hr.life_cons
  cases hl with
  | missed hl => exact hl.of_finding
  | found id hl => exact hl.of_finding

/-- Who calls a handler has looked its entry up and found it not marked. -/
theorem Run.did_of_called (hr : Run ((i, .called d id) :: h) s) :
    did i h = [.checked d id false, .looked d (some id), .begun (.finding d)] := by
  obtain ⟨ms, j, rfl, hl⟩ := hr.life_cons
  cases hl with
  | called hl => exact hl.of_calling

/-- **Where a call comes from.** The callback looked when the entry was the last one inserted for
its object and not retired, and checked when the entry was not marked. -/
theorem Run.call_origin (hr : Run (later ++ (i, .called d id) :: earlier) s) :
    ∃ l₁ l₂ l₃, earlier =
        l₁ ++ (i, .checked d id false) :: (l₂ ++ (i, .looked d (some id)) :: l₃) ∧
      lastInserted d.key l₃ = some id ∧ ¬ Retired l₃ id ∧
      ¬ Marked (l₂ ++ (i, .looked d (some id)) :: l₃) id := by
  obtain ⟨t, ht⟩ := hr.of_append
  -- walk back along what the callback did: its check, then its lookup
  obtain ⟨l₁, rest, rfl, hdid⟩ := exists_of_did_eq_cons ht.did_of_called
  obtain ⟨l₂, l₃, rfl, -⟩ := exists_of_did_eq_cons hdid
  obtain ⟨t₁, ht₁, -⟩ := ht.of_cons
  obtain ⟨t₂, ht₂⟩ := ht₁.of_append
  obtain ⟨t₃, ht₃, -⟩ := ht₂.of_cons
  obtain ⟨t₄, ht₄⟩ := ht₃.of_append
  obtain ⟨hlast, hret⟩ := ht₄.looked_iff.1 rfl
  exact ⟨l₁, l₂, l₃, rfl, hlast, hret, fun hm => Bool.false_ne_true (ht₂.checked_iff.2 hm)⟩

/-! ### Death -/

/-- An entry is dead: it was marked, or retired, or another one was inserted for its object
since. -/
def Dead (h : History H M) (id : Nat) : Prop :=
  Marked h id ∨ Retired h id ∨ ∃ key, Inserted h key id ∧ lastInserted key h ≠ some id

/-- The lookup of a job stands at one place of the history. -/
theorem Run.looked_once {later' earlier' : History H M} {d' : Delivery M} {f f' : Option Nat}
    (hr : Run (later ++ (i, .looked d f) :: earlier) s)
    (he : later ++ (i, .looked d f) :: earlier = later' ++ (i, .looked d' f') :: earlier') :
    earlier = earlier' := by
  obtain ⟨t, ht⟩ := hr.of_append
  obtain ⟨t', ht'⟩ := Run.of_append (he ▸ hr)
  have h₁ : did i earlier = [.begun (.finding d)] := ht.did_of_looked
  have h₂ : did i earlier' = [.begun (.finding d')] := ht'.did_of_looked
  -- if the two lookups stood at different places, one of them would come before the job had begun
  rcases List.append_eq_append_iff.1 he with ⟨a, -, ha⟩ | ⟨a, -, ha⟩
  · cases a with
    | nil => exact (List.cons.inj ha).2
    | cons x a =>
        have ha' : earlier = a ++ (i, .looked d' f') :: earlier' := (List.cons.inj ha).2
        have hlen := congrArg List.length h₁
        rw [ha', did_append, did, if_pos rfl, h₂] at hlen
        simp at hlen
  · cases a with
    | nil => exact (List.cons.inj ha).2.symm
    | cons x a =>
        have ha' : earlier' = a ++ (i, .looked d f) :: earlier := (List.cons.inj ha).2
        have hlen := congrArg List.length h₂
        rw [ha', did_append, did, if_pos rfl, h₁] at hlen
        simp at hlen

/-- The last entry that was inserted for an object is dead only by a mark or by having been
retired. -/
theorem Run.dead_of_last {key : Key} (hr : Run h s) (hlast : lastInserted key h = some id)
    (hdead : Dead h id) : Marked h id ∨ Retired h id := by
  rcases hdead with hmark | hret | ⟨k, hins, hne⟩
  · exact Or.inl hmark
  · exact Or.inr hret
  · obtain rfl : k = key := hr.told.key_unique hins (Inserted.of_last hlast)
    exact absurd hlast hne

/-- **The dead stay dead.** -/
theorem Run.dead_cons {x : Nat × Moment H M} (hr : Run (x :: h) s) (hdead : Dead h id) :
    Dead (x :: h) id := by
  obtain ⟨i, m⟩ := x
  rcases hdead with hmark | hret | ⟨key, hins, hne⟩
  · exact Or.inl (marked_cons.2 (Or.inr hmark))
  · exact Or.inr (Or.inl (retired_cons.2 (Or.inr hret)))
  · refine Or.inr (Or.inr ⟨key, inserted_cons.2 (Or.inr hins), ?_⟩)
    by_cases hm : ∃ k, m = .inserted key k
    · -- yet another entry takes the place, and not the old one again
      obtain ⟨k, rfl⟩ := hm
      have hk : k ≠ id := by
        rintro rfl
        exact hr.not_inserted_before hins
      simpa [lastInserted] using hk
    · rw [lastInserted_cons_of_ne fun k hk => hm ⟨k, hk⟩]
      exact hne

theorem Run.dead_append (hr : Run (later ++ earlier) s) (hdead : Dead earlier id) :
    Dead (later ++ earlier) id := by
  induction later generalizing s with
  | nil => exact hdead
  | cons x later ih =>
      obtain ⟨t, ht, -⟩ := hr.of_cons
      exact hr.dead_cons (ih ht)

/-- **Whoever looks after an entry's death does not call it.** -/
theorem Run.not_called_of_dead {found : Option Nat} (hr : Run h s)
    (hh : h = later ++ (i, .looked d found) :: earlier) (hdead : Dead earlier id)
    (d' : Delivery M) : (i, .called d' id) ∉ h := by
  intro hc
  obtain ⟨a, b, hab⟩ := List.append_of_mem hc
  obtain ⟨l₁, l₂, l₃, rfl, hlast, hret, hmark⟩ := Run.call_origin (hab ▸ hr)
  have he : later ++ (i, .looked d found) :: earlier =
      (a ++ (i, .called d' id) :: l₁ ++ (i, .checked d' id false) :: l₂) ++
        (i, .looked d' (some id)) :: l₃ := by
    rw [← hh, hab]
    simp
  -- the call's own lookup is the given one, so the entry was dead already when it was found
  obtain rfl : earlier = l₃ := Run.looked_once (hh ▸ hr) he
  obtain ⟨t, ht⟩ := Run.of_append (hh ▸ hr)
  obtain ⟨t', ht', -⟩ := ht.of_cons
  rcases ht'.dead_of_last hlast hdead with ⟨k, key, hk⟩ | hr'
  · exact hmark ⟨k, key, List.mem_append_right _ (List.mem_cons_of_mem _ hk)⟩
  · exact hret hr'

/-- A callback calls an entry that was inserted for its object. -/
theorem Run.inserted_of_called (hr : Run h s) (hc : (i, .called d id) ∈ h) :
    Inserted h d.key id := by
  obtain ⟨later, earlier, rfl⟩ := List.append_of_mem hc
  obtain ⟨l₁, l₂, l₃, rfl, hlast, -, -⟩ := hr.call_origin
  have hins : Inserted l₃ d.key id := Inserted.of_last hlast
  obtain ⟨k, hk⟩ := hins
  exact ⟨k, by simp [hk]⟩

theorem Run.entry_of_called (hr : Run h s) (hc : (i, .called d id) ∈ h) :
    ∃ e, s.registry.entries[id]? = some e ∧ e.key = d.key := by
  have hkey : s.registry.key? id = some d.key :=
    (hr.told.keys d.key id).2 (hr.inserted_of_called hc)
  rw [Registry.key?, Option.map_eq_some_iff] at hkey
  exact hkey

/-! ### Delivery -/

/-- **No delivery to a dead handler.** In every run: a handler is called through the entry that was
inserted last for the object of the callback when the callback looked, and that was not marked when
the callback checked; a callback that looks when an entry has been dead for any while does not call
it; and the entry that a callback calls was inserted for its object, so for its kind. -/
theorem calls_reach_only_the_living (hr : Run h s) :
    (∀ (later earlier : History H M) (i id : Nat) (d : Delivery M),
      h = later ++ (i, .called d id) :: earlier →
      ∃ l₁ l₂ l₃, earlier =
          l₁ ++ (i, .checked d id false) :: (l₂ ++ (i, .looked d (some id)) :: l₃) ∧
        lastInserted d.key l₃ = some id ∧ ¬ Marked (l₂ ++ (i, .looked d (some id)) :: l₃) id) ∧
    (∀ (later between earlier : History H M) (i id : Nat) (d d' : Delivery M) (found : Option Nat),
      h = later ++ (i, .looked d found) :: (between ++ earlier) → Dead earlier id →
      (i, .called d' id) ∉ h) ∧
    (∀ (i id : Nat) (d : Delivery M), (i, .called d id) ∈ h →
      ∃ e, s.registry.entries[id]? = some e ∧ e.key.kind = d.key.kind ∧
        e.key.address = d.key.address) := by
  refine ⟨fun later earlier i id d hh => ?_,
    fun later between earlier i id d d' found hh hdead => ?_, fun i id d hc => ?_⟩
  · obtain ⟨l₁, l₂, l₃, he, hlast, -, hmark⟩ := Run.call_origin (hh ▸ hr)
    exact ⟨l₁, l₂, l₃, he, hlast, hmark⟩
  · obtain ⟨t, ht⟩ := Run.of_append (hh ▸ hr)
    obtain ⟨t', ht', -⟩ := ht.of_cons
    exact hr.not_called_of_dead hh (ht'.dead_append hdead) d'
  · obtain ⟨e, he, hkey⟩ := hr.entry_of_called hc
    exact ⟨e, he, by rw [hkey], by rw [hkey]⟩

/-- A stream is being destroyed, and its address already belongs to a new one: a callback for the
address does not call the old handler. -/
theorem old_handler_not_called :
    ∃ (h : History String Unit) (s : Scene String Unit), Run h s ∧
      s.registry.entries.map Entry.handler = ["old", "new"] ∧
      (3, .called ⟨⟨.stream, 16⟩, false, ()⟩ 1) ∈ h ∧
      ∀ d, (3, .called d 0) ∉ h := by
  have called : Run (_ : History String Unit) _ := Run.empty.replay
    [.begin (.inserting ⟨.stream, 16⟩ "old"), .move 0, .begin (.seeking ⟨.stream, 16⟩), .move 1,
      .move 1, .begin (.inserting ⟨.stream, 16⟩ "new"), .move 2,
      .begin (.finding ⟨⟨.stream, 16⟩, false, ()⟩), .move 3, .move 3, .move 3] rfl
  refine ⟨_, _, called, rfl, List.mem_cons_self, fun d => ?_⟩
  obtain ⟨-, hdead, -⟩ := calls_reach_only_the_living called
  exact hdead [_, _] [_, _, _] _ 3 0 _ d _ rfl (Or.inl ⟨1, ⟨.stream, 16⟩, List.mem_cons_self⟩)

end LateBinding.Callback
