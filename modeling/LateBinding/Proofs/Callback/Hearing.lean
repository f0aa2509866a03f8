import LateBinding.Proofs.Callback.Delivery
import LateBinding.Proofs.Callback.Lifetime
import LateBinding.Proofs.Callback.Turn

/-!
**On one thread every handler hears what it is due.**

The library gives no address to two standing objects of a kind, and makes no callback for an object
while the handler of that object runs its last one. Then an open object is the one that is
registered and alive, and an object that is not open any more is out of reach; so a callback is
heard exactly if its object is open, and the handler hears its callbacks in order, none left out and
none twice.

Main definitions:

* `LateBinding.Callback.Orderly` — what the library and the handlers promise;
* `LateBinding.Callback.Faithful` — **the invariant**: how the lifetime of an object and the state
  of its entry go together.

Main results:

* `LateBinding.Callback.Faithful.turn` — every turn keeps it;
* `LateBinding.Callback.Run.heard_eq_due` — **every handler heard what it was due**.
-/

set_option autoImplicit false

namespace LateBinding.Callback

variable {H M : Type} {h : History H M} {s : Scene H M} {i id : Nat} {d : Delivery M} {key : Key}
  {m : Moment H M}

/-! ### What is promised -/

/-- What the library and the handlers promise about the next moment: the address of a new object is
not the one of a standing object of its kind, and no callback is made for an object while its
handler runs the last one. -/
def Moment.IsOrderly (h : History H M) : Moment H M → Prop
  | .inserted key _ => ∀ id, ¬ Stands key id h
  | .begun (.finding d) => ∀ id k e, Stands d.key id h → e.final = true → (k, .called e id) ∈ h →
      (k, .returned e id) ∈ h
  | _ => True

/-- Every moment of a history was as promised. -/
def Orderly : History H M → Prop
  | [] => True
  | (_, m) :: h => m.IsOrderly h ∧ Orderly h

theorem Orderly.of_append {later earlier : History H M} (ho : Orderly (later ++ earlier)) :
    Orderly earlier := by
  induction later with
  | nil => exact ho
  | cons x later ih => exact ih ho.2

/-! ### The invariant -/

/-- How the lifetime of an object and the state of its entry go together. -/
structure Faithful (h : History H M) : Prop where
  /-- The entry of an open object is registered and not marked. -/
  opened : ∀ key id, IsOpen key id h → lastInserted key h = some id ∧ ¬ Retired h id ∧ ¬ Marked h id
  /-- The entry of an object that does not stand any more is dead. -/
  fallen : ∀ key id, Inserted h key id → ¬ Stands key id h → Dead h id
  /-- The entry of an object that had its last callback is dead, or the handler still runs. -/
  closing : ∀ key id, Stands key id h → ¬ IsOpen key id h → Dead h id ∨
    ∃ k e, e.final = true ∧ (k, .called e id) ∈ h ∧ (k, .returned e id) ∉ h
  /-- An object whose handler was called for the last time is not open. -/
  ended : ∀ k e id, e.final = true → (k, .called e id) ∈ h → ¬ IsOpen e.key id h
  heard : ∀ key id, Inserted h key id → heard id h = due key id h

namespace Faithful

/-- An entry that nobody called has heard nothing. -/
theorem heard_eq_nil (hc : ∀ i d, (i, .called d id) ∉ h) : Callback.heard id h = [] := by
  induction h with
  | nil => rfl
  | cons x h ih =>
      obtain ⟨i, m⟩ := x
      have hm : m.heard? id = none := by
        cases m with
        | called d n =>
            have hn : n ≠ id := by
              rintro rfl
              exact hc i d List.mem_cons_self
            simp [Moment.heard?, hn]
        | _ => rfl
      rw [heard_cons, hm, ih fun k d hk => hc k d (List.mem_cons_of_mem _ hk)]
      rfl

theorem empty : Faithful ([] : History H M) := by
  refine ⟨fun key id ho => ?_, fun key id hi => ?_, fun key id hs => ?_, fun k e id _ hc => ?_,
    fun key id hi => ?_⟩
  · obtain ⟨k, hk⟩ := ho.stands.inserted
    cases hk
  · obtain ⟨k, hk⟩ := hi
    cases hk
  · obtain ⟨k, hk⟩ := hs.inserted
    cases hk
  · cases hc
  · obtain ⟨k, hk⟩ := hi
    cases hk

/-- As long as no handler returns, an object that had its last callback keeps a dead entry or a
running handler. -/
theorem closing_append (later : History H M) (hf : Faithful h) (hr : Run (later ++ h) s)
    (hs : Stands key id h) (ho : ¬ IsOpen key id h) (hback : ∀ k e, (k, .returned e id) ∉ later) :
    Dead (later ++ h) id ∨
      ∃ k e, e.final = true ∧ (k, .called e id) ∈ later ++ h ∧
        (k, .returned e id) ∉ later ++ h := by
  rcases hf.closing key id hs ho with hdead | ⟨k, e, he, hc, hnot⟩
  · exact Or.inl (hr.dead_append hdead)
  · refine Or.inr ⟨k, e, he, List.mem_append_right _ hc, fun hm => ?_⟩
    rcases List.mem_append.1 hm with hm | hm
    · exact hback k e hm
    · exact hnot hm

/-- A plain moment keeps the invariant unless it calls a handler, gets back from the last callback,
or marks or retires the entry of an open object. -/
theorem plain (hf : Faithful h) (hr : Run ((i, m) :: h) s) (hm : m.isPlain = true)
    (hcall : ∀ d id, m ≠ .called d id) (hret : ∀ d id, m = .returned d id → d.final = false)
    (hopen : ∀ key id, IsOpen key id h → ∀ k, m ≠ .retired k id ∧ m ≠ .marked k id) :
    Faithful ((i, m) :: h) := by
  have hmem : ∀ {k e n}, (k, .called e n) ∈ (i, m) :: h ↔ (k, .called e n) ∈ h := by
    intro k e n
    rw [List.mem_cons, or_iff_right]
    intro he
    cases he
    exact hcall e n rfl
  refine ⟨fun key id ho => ?_, fun key id hi hs => ?_, fun key id hs ho => ?_,
    fun k e id he hc => ?_, fun key id hi => ?_⟩
  · rw [isOpen_cons_of_isPlain hm] at ho
    obtain ⟨hlast, hret, hmark⟩ := hf.opened key id ho
    rw [lastInserted_cons_of_isPlain hm, retired_cons, marked_cons]
    refine ⟨hlast, ?_, ?_⟩
    · rintro (⟨k, hk⟩ | hret')
      · exact (hopen key id ho k).1 hk
      · exact hret hret'
    · rintro (⟨k, hk⟩ | hmark')
      · exact (hopen key id ho k).2 hk
      · exact hmark hmark'
  · rw [inserted_cons_of_isPlain hm] at hi
    rw [stands_cons_of_isPlain hm] at hs
    exact hr.dead_cons (hf.fallen key id hi hs)
  · rw [stands_cons_of_isPlain hm] at hs
    rw [isOpen_cons_of_isPlain hm] at ho
    rcases hf.closing key id hs ho with hdead | ⟨k, e, he, hc, hnot⟩
    · exact Or.inl (hr.dead_cons hdead)
    · -- a handler may return here, but not from its last callback
      refine Or.inr ⟨k, e, he, hmem.2 hc, fun hback => ?_⟩
      rcases List.mem_cons.1 hback with heq | hback
      · cases heq
        rw [hret e id rfl] at he
        cases he
      · exact hnot hback
  · rw [isOpen_cons_of_isPlain hm]
    exact hf.ended k e id he (hmem.1 hc)
  · rw [inserted_cons_of_isPlain hm] at hi
    have hnone : m.heard? id = none := by
      cases m with
      | called d n => exact absurd rfl (hcall d n)
      | _ => rfl
    rw [heard_cons, hnone, due_cons_of_isPlain hi hm, hf.heard key id hi]
    simp

/-- So does a lookup, a check, or the way back from the library. -/
theorem idle (hf : Faithful h) (hr : Run ((i, m) :: h) s) (hm : m.isIdle = true) :
    Faithful ((i, m) :: h) := by
  refine hf.plain hr ?_ ?_ ?_ fun key id _ k => ⟨?_, ?_⟩
  · cases m <;> first | rfl | cases hm
  · rintro d id rfl
    cases hm
  · rintro d id rfl
    cases hm
  · rintro rfl
    cases hm
  · rintro rfl
    cases hm

/-- So does the begin of a job, unless it is a callback for an open object or the destruction of a
standing object whose entry is not dead yet. -/
theorem begun {j : Job H M} (hf : Faithful h) (hr : Run ((i, .begun j) :: h) s)
    (hopen : ∀ key id d, IsOpen key id h → (Moment.begun j).callback? key ≠ some d)
    (hstand : ∀ key id, Stands key id h → (Moment.begun j).destroys key = true → Dead h id) :
    Faithful ((i, .begun j) :: h) := by
  have hmk : ∀ id, (Moment.begun j).makes id = false := fun id => rfl
  refine ⟨fun key id ho => ?_, fun key id hi hs => ?_, fun key id hs ho => ?_,
    fun k e id he hc => ?_, fun key id hi => ?_⟩
  · obtain ⟨hlast, hret, hmark⟩ := hf.opened key id ((isOpen_cons (hmk id)).1 ho).1
    exact ⟨hlast, by simpa using hret, by simpa using hmark⟩
  · rw [inserted_cons_of_not_makes (hmk id)] at hi
    by_cases hs' : Stands key id h
    · have hd : (Moment.begun j).destroys key = true := by
        by_cases hd : (Moment.begun j).destroys key = true
        · exact hd
        · exact absurd ((stands_cons (hmk id)).2 ⟨hs', by simpa using hd⟩) hs
      exact hr.dead_cons (hstand key id hs' hd)
    · exact hr.dead_cons (hf.fallen key id hi hs')
  · obtain ⟨hs', hd⟩ := (stands_cons (hmk id)).1 hs
    by_cases ho' : IsOpen key id h
    · exact absurd ((isOpen_cons (hmk id)).2 ⟨ho', hd, fun d hc => absurd hc (hopen key id d ho')⟩)
        ho
    · exact hf.closing_append [_] hr hs' ho' (by simp)
  · have hc' : (k, .called e id) ∈ h := by simpa using hc
    intro ho
    exact hf.ended k e id he hc' ((isOpen_cons (hmk _)).1 ho).1
  · rw [inserted_cons_of_not_makes (hmk id)] at hi
    have hdue : due key id ((i, .begun j) :: h) = due key id h := by
      by_cases ho : IsOpen key id h
      · refine due_cons_of_callback?_eq_none hi (hmk id) (Option.eq_none_iff_forall_ne_some.2 ?_)
        exact fun d => hopen key id d ho
      · exact due_cons_of_not_isOpen hi ho (hmk id)
    rw [heard_cons, hdue, hf.heard key id hi]
    simp [Moment.heard?]

/-- An object is made at an address where none stands. -/
theorem made (hf : Faithful h) (hr : Run ((i, .inserted key id) :: h) s)
    (hfree : ∀ n, ¬ Stands key n h) : Faithful ((i, .inserted key id) :: h) := by
  obtain ⟨t, ht, -⟩ := hr.of_cons
  have hnew : ∀ k, ¬ Inserted h k id := fun k => hr.not_inserted_before
  have hkey : ∀ {k}, Inserted ((i, .inserted key id) :: h) k id → k = key := by
    intro k hk
    rcases inserted_cons.1 hk with heq | hk
    · cases heq
      rfl
    · exact absurd hk (hnew k)
  have hcalled : ∀ k e, (k, .called e id) ∉ h := fun k e hc => hnew _ (ht.inserted_of_called hc)
  -- of the new entry nothing was said yet; to the others nothing happens
  have hother : ∀ {n}, n ≠ id → (Moment.inserted key id : Moment H M).makes n = false := by
    intro n hn
    simp [Moment.makes, Ne.symm hn]
  refine ⟨fun k n ho => ?_, fun k n hi hs => ?_, fun k n hs ho => ?_, fun k e n he hc => ?_,
    fun k n hi => ?_⟩
  · by_cases hn : n = id
    · subst hn
      obtain rfl := hkey ho.stands.inserted
      refine ⟨by simp [lastInserted], ?_, ?_⟩
      · rw [retired_cons]
        rintro (⟨k', hk'⟩ | ⟨j, k', hk'⟩)
        · cases hk'
        · exact hnew k' (ht.named j _ hk')
      · rw [marked_cons]
        rintro (⟨k', hk'⟩ | ⟨j, k', hk'⟩)
        · cases hk'
        · exact hnew k' (ht.named j _ hk')
    · have ho' : IsOpen k n h := ((isOpen_cons (hother hn)).1 ho).1
      obtain ⟨hlast, hret, hmark⟩ := hf.opened k n ho'
      have hk : key ≠ k := by
        rintro rfl
        exact hfree n ho'.stands
      exact ⟨by simpa [lastInserted, hk] using hlast, by simpa using hret, by simpa using hmark⟩
  · by_cases hn : n = id
    · subst hn
      obtain rfl := hkey hi
      exact absurd isOpen_cons_inserted.stands hs
    · rw [inserted_cons_of_not_makes (hother hn)] at hi
      exact hr.dead_cons (hf.fallen k n hi fun hs' => hs ((stands_cons (hother hn)).2 ⟨hs', rfl⟩))
  · by_cases hn : n = id
    · subst hn
      obtain rfl := hkey hs.inserted
      exact absurd isOpen_cons_inserted ho
    · have hs' : Stands k n h := ((stands_cons (hother hn)).1 hs).1
      have ho' : ¬ IsOpen k n h := fun ho' =>
        ho ((isOpen_cons (hother hn)).2 ⟨ho', rfl, fun d hd => by cases hd⟩)
      exact hf.closing_append [_] hr hs' ho' (by simp)
  · have hc' : (k, .called e n) ∈ h := by simpa using hc
    have hn : n ≠ id := by
      rintro rfl
      exact hcalled k e hc'
    intro ho
    exact hf.ended k e n he hc' ((isOpen_cons (hother hn)).1 ho).1
  · by_cases hn : n = id
    · subst hn
      rw [heard_cons, heard_eq_nil hcalled, due_cons_of_makes (by simp [Moment.makes])]
      rfl
    · rw [inserted_cons_of_not_makes (hother hn)] at hi
      rw [heard_cons, due_cons_of_callback?_eq_none hi (hother hn) rfl, hf.heard k n hi]
      simp [Moment.heard?]

/-- The entry that is registered, alive and not closing is the one of an open object. -/
theorem isOpen_of_last (hf : Faithful h) (hr : Run h s)
    (horder : (Moment.begun (.finding d)).IsOrderly h)
    (hlast : lastInserted d.key h = some id) (hret : ¬ Retired h id) (hmark : ¬ Marked h id) :
    IsOpen d.key id h := by
  have halive : ¬ Dead h id := fun hdead => by
    rcases hr.dead_of_last hlast hdead with hm | hr
    · exact hmark hm
    · exact hret hr
  have hstands : Stands d.key id h := by
    by_cases hs : Stands d.key id h
    · exact hs
    · exact absurd (hf.fallen d.key id (Inserted.of_last hlast) hs) halive
  by_cases ho : IsOpen d.key id h
  · exact ho
  · rcases hf.closing d.key id hstands ho with hdead | ⟨k, e, he, hc, hnot⟩
    · exact absurd hdead halive
    · exact absurd (horder id k e hstands he hc) hnot

/-- What a callback does that calls a handler, newest first. -/
abbrev call (d : Delivery M) (id : Nat) : List (Moment H M) :=
  [.called d id, .checked d id false, .looked d (some id), .begun (.finding d)]

/-- A call closes the object if it is the last one. -/
theorem isOpen_call {n : Nat} :
    IsOpen key n ((call d id).map (Prod.mk i) ++ h) ↔
      IsOpen key n h ∧ (d.key = key → d.final = false) := by
  have hmk : (Moment.begun (.finding d) : Moment H M).makes n = false := rfl
  simp only [List.map_cons, List.map_nil, List.cons_append, List.nil_append]
  rw [isOpen_cons_of_isPlain rfl, isOpen_cons_of_isPlain rfl, isOpen_cons_of_isPlain rfl,
    isOpen_cons hmk]
  simp [Moment.destroys, Moment.callback?]

theorem stands_call {n : Nat} :
    Stands key n ((call d id).map (Prod.mk i) ++ h) ↔ Stands key n h := by
  have hmk : (Moment.begun (.finding d) : Moment H M).makes n = false := rfl
  simp only [List.map_cons, List.map_nil, List.cons_append, List.nil_append]
  rw [stands_cons_of_isPlain rfl, stands_cons_of_isPlain rfl, stands_cons_of_isPlain rfl,
    stands_cons hmk]
  simp [Moment.destroys]

theorem heard_call {n : Nat} :
    Callback.heard n ((call d id).map (Prod.mk i) ++ h) =
      Callback.heard n h ++ if id = n then [d.message] else [] := by
  simp only [List.map_cons, List.map_nil, List.cons_append, List.nil_append, heard_cons,
    Moment.heard?]
  by_cases hn : id = n <;> simp [hn]

theorem due_call {n : Nat} (hi : Inserted h key n) :
    due key n ((call d id).map (Prod.mk i) ++ h) = due key n ((i, .begun (.finding d)) :: h) := by
  simp only [List.map_cons, List.map_nil, List.cons_append, List.nil_append]
  rw [due_cons_of_isPlain (by simpa using hi) rfl, due_cons_of_isPlain (by simpa using hi) rfl,
    due_cons_of_isPlain (by simpa using hi) rfl]

/-- A callback calls the handler of an open object. -/
theorem called (hf : Faithful h) (hr : Run ((call d id).map (Prod.mk i) ++ h) s)
    (horder : (Moment.begun (.finding d)).IsOrderly h) (hlast : lastInserted d.key h = some id)
    (hret : ¬ Retired h id) (hmark : ¬ Marked h id) :
    Faithful ((call d id).map (Prod.mk i) ++ h) := by
  obtain ⟨t, ht⟩ := hr.of_append
  have hmk : ∀ n, (Moment.begun (.finding d) : Moment H M).makes n = false := fun n => rfl
  have hopen : IsOpen d.key id h := hf.isOpen_of_last ht horder hlast hret hmark
  -- no other object of the key is open, and the entry belongs to no other key
  have hone : ∀ n, IsOpen d.key n h → n = id := fun n hn =>
    Option.some.inj ((hf.opened d.key n hn).1.symm.trans hlast)
  have hkey : ∀ k, Inserted h k id → k = d.key := fun k hk =>
    ht.told.key_unique hk (Inserted.of_last hlast)
  -- this call has not returned: the job has only begun
  have hnotback : (i, .returned d id) ∉ h := by
    intro hback
    have hdid : did i ((i, .checked d id false) :: (i, .looked d (some id)) ::
        (i, .begun (.finding d)) :: h) = _ := Run.did_of_called hr
    simp only [did, if_pos, List.cons.injEq, true_and] at hdid
    rw [← mem_did, hdid] at hback
    cases hback
  refine ⟨fun k n ho => ?_, fun k n hi hs => ?_, fun k n hs ho => ?_, fun k e n he hc => ?_,
    fun k n hi => ?_⟩
  · obtain ⟨hl, hr', hm'⟩ := hf.opened k n (isOpen_call.1 ho).1
    exact ⟨hl, by simpa using hr', by simpa using hm'⟩
  · rw [stands_call] at hs
    exact hr.dead_append (hf.fallen k n (by simpa using hi) hs)
  · rw [stands_call] at hs
    by_cases ho' : IsOpen k n h
    · have hlastcall : d.key = k ∧ d.final = true := by
        by_cases hd : d.key = k ∧ d.final = true
        · exact hd
        · refine absurd (isOpen_call.2 ⟨ho', fun hk => ?_⟩) ho
          simpa using fun hfin => hd ⟨hk, hfin⟩
      obtain ⟨rfl, hfin⟩ := hlastcall
      obtain rfl := hone n ho'
      exact Or.inr ⟨i, d, hfin, List.mem_cons_self, by simpa using hnotback⟩
    · exact hf.closing_append _ hr hs ho' (by simp)
  · intro ho
    obtain ⟨ho', hnot⟩ := isOpen_call.1 ho
    rcases List.mem_cons.1 hc with heq | hc
    · cases heq
      rw [hnot rfl] at he
      cases he
    · have hc' : (k, .called e n) ∈ h := by simpa using hc
      exact hf.ended k e n he hc' ho'
  · have hi' : Inserted h k n := by simpa using hi
    rw [due_call hi', heard_call, hf.heard k n hi']
    by_cases hn : id = n
    · subst hn
      obtain rfl := hkey k hi'
      rw [hopen.due_cons (hmk id)]
      simp [Moment.callback?]
    · rw [if_neg hn, List.append_nil]
      by_cases ho : IsOpen k n h
      · have hk : d.key ≠ k := by
          rintro rfl
          exact hn (hone n ho).symm
        rw [due_cons_of_callback?_eq_none hi' (hmk n) (by simp [Moment.callback?, hk])]
      · rw [due_cons_of_not_isOpen hi' ho (hmk n)]

/-- A handler returns from the last callback, and its entry is retired. -/
theorem returned (hf : Faithful h)
    (hr : Run ((i, .retired d.key id) :: (i, .returned d id) :: h) s) (hd : d.final = true)
    (hcall : (i, .called d id) ∈ h) (hins : Inserted h d.key id) :
    Faithful ((i, .retired d.key id) :: (i, .returned d id) :: h) := by
  obtain ⟨t, ht, -⟩ := hr.of_cons
  obtain ⟨t', ht', -⟩ := ht.of_cons
  refine ⟨fun k n ho => ?_, fun k n hi hs => ?_, fun k n hs ho => ?_, fun k e n he hc => ?_,
    fun k n hi => ?_⟩
  · rw [isOpen_cons_of_isPlain rfl, isOpen_cons_of_isPlain rfl] at ho
    obtain ⟨hlast, hret, hmark⟩ := hf.opened k n ho
    -- the object of the retired entry had its last callback, so it is not the open one
    have hn : id ≠ n := by
      rintro rfl
      obtain rfl := ht'.told.key_unique hins ho.stands.inserted
      exact hf.ended i d id hd hcall ho
    exact ⟨hlast, by simpa [hn] using hret, by simpa using hmark⟩
  · rw [stands_cons_of_isPlain rfl, stands_cons_of_isPlain rfl] at hs
    exact hr.dead_cons (ht.dead_cons (hf.fallen k n (by simpa using hi) hs))
  · rw [stands_cons_of_isPlain rfl, stands_cons_of_isPlain rfl] at hs
    rw [isOpen_cons_of_isPlain rfl, isOpen_cons_of_isPlain rfl] at ho
    rcases hf.closing k n hs ho with hdead | ⟨j, e, he, hc, hnot⟩
    · exact Or.inl (hr.dead_cons (ht.dead_cons hdead))
    · by_cases hn : n = id
      · -- the handler that still ran may be the one that returns, and then its entry is dead
        subst hn
        exact Or.inl (Or.inr (Or.inl ⟨i, d.key, List.mem_cons_self⟩))
      · exact Or.inr ⟨j, e, he, by simp [hc], by simpa [hn] using hnot⟩
  · rw [isOpen_cons_of_isPlain rfl, isOpen_cons_of_isPlain rfl]
    exact hf.ended k e n he (by simpa using hc)
  · have hi' : Inserted h k n := by simpa using hi
    rw [heard_cons, heard_cons, due_cons_of_isPlain (by simpa using hi') rfl,
      due_cons_of_isPlain hi' rfl, hf.heard k n hi']
    simp [Moment.heard?]

/-- The destruction of an object begins, and the entry that it finds is marked. -/
theorem doomed (hf : Faithful h)
    (hr : Run ((i, .marked key id) :: (i, .sought key (some id)) ::
      (i, .begun (.seeking key)) :: h) s)
    (hlast : lastInserted key h = some id) :
    Faithful ((i, .marked key id) :: (i, .sought key (some id)) ::
      (i, .begun (.seeking key)) :: h) := by
  have hr' : Run ([(i, .marked key id), (i, .sought key (some id)),
      (i, .begun (.seeking key))] ++ h) s := hr
  obtain ⟨t, ht⟩ := hr'.of_append
  have hmk : ∀ n, (Moment.begun (.seeking key) : Moment H M).makes n = false := fun n => rfl
  have hopen : ∀ {k n}, IsOpen k n ((i, .marked key id) :: (i, .sought key (some id)) ::
      (i, .begun (.seeking key)) :: h) → IsOpen k n h ∧ key ≠ k := by
    intro k n ho
    rw [isOpen_cons_of_isPlain rfl, isOpen_cons_of_isPlain rfl, isOpen_cons (hmk n)] at ho
    exact ⟨ho.1, by simpa [Moment.destroys] using ho.2.1⟩
  have hstands : ∀ {k n}, Stands k n ((i, .marked key id) :: (i, .sought key (some id)) ::
      (i, .begun (.seeking key)) :: h) ↔ Stands k n h ∧ key ≠ k := by
    intro k n
    rw [stands_cons_of_isPlain rfl, stands_cons_of_isPlain rfl, stands_cons (hmk n)]
    simp [Moment.destroys]
  refine ⟨fun k n ho => ?_, fun k n hi hs => ?_, fun k n hs ho => ?_, fun k e n he hc => ?_,
    fun k n hi => ?_⟩
  · obtain ⟨ho', hk⟩ := hopen ho
    obtain ⟨hl, hret, hmark⟩ := hf.opened k n ho'
    have hn : id ≠ n := by
      rintro rfl
      exact hk (ht.told.key_unique (Inserted.of_last hlast) ho'.stands.inserted)
    exact ⟨hl, by simpa using hret, by simpa [hn] using hmark⟩
  · have hi' : Inserted h k n := by simpa using hi
    by_cases hs' : Stands k n h
    · have hk : key = k := by
        by_cases hk : key = k
        · exact hk
        · exact absurd (hstands.2 ⟨hs', hk⟩) hs
      subst hk
      by_cases hn : n = id
      · subst hn
        exact Or.inl ⟨i, key, List.mem_cons_self⟩
      · -- the destruction found another entry, which is a newer one
        refine hr'.dead_append (Or.inr (Or.inr ⟨key, hi', ?_⟩))
        rw [hlast]
        exact fun heq => hn (Option.some.inj heq).symm
    · exact hr'.dead_append (hf.fallen k n hi' hs')
  · obtain ⟨hs', hk⟩ := hstands.1 hs
    have ho' : ¬ IsOpen k n h := by
      intro ho'
      rw [isOpen_cons_of_isPlain rfl, isOpen_cons_of_isPlain rfl, isOpen_cons (hmk n)] at ho
      exact ho ⟨ho', by simpa [Moment.destroys] using hk, fun d hd => by cases hd⟩
    exact hf.closing_append _ hr' hs' ho' (by simp)
  · exact fun ho => hf.ended k e n he (by simpa using hc) (hopen ho).1
  · have hi' : Inserted h k n := by simpa using hi
    rw [heard_cons, heard_cons, heard_cons, due_cons_of_isPlain (by simpa using hi') rfl,
      due_cons_of_isPlain (by simpa using hi') rfl, due_cons_of_callback?_eq_none hi' (hmk n) rfl,
      hf.heard k n hi']
    simp [Moment.heard?]

/-! ### Every turn -/

/-- Nothing is open where nothing is registered. -/
theorem callback?_ne_some (hf : Faithful h)
    (hnone : ∀ id, lastInserted d.key h = some id → Retired h id ∨ Marked h id) (k : Key) (n : Nat)
    (e : Delivery M) (ho : IsOpen k n h) :
    (Moment.begun (.finding d) : Moment H M).callback? k ≠ some e := by
  obtain ⟨hlast, hret, hmark⟩ := hf.opened k n ho
  intro hc
  have hk : d.key = k := by
    by_cases hk : d.key = k
    · exact hk
    · simp [Moment.callback?, hk] at hc
  subst hk
  rcases hnone n hlast with hr | hm
  · exact hret hr
  · exact hmark hm

/-- **Every turn keeps the invariant.** -/
theorem turn {ms : List (Moment H M)} (hf : Faithful h) (hr : Run (ms.map (Prod.mk i) ++ h) s)
    (ht : Turn h i ms) (ho : Orderly (ms.map (Prod.mk i) ++ h)) :
    Faithful (ms.map (Prod.mk i) ++ h) := by
  cases ht with
  | made key x id hnew =>
      obtain ⟨t, ht, -⟩ := hr.of_cons
      have hb := hf.begun ht (fun _ _ _ _ hc => by cases hc) fun _ _ _ hd => by cases hd
      exact hb.made hr ho.1
  | missed d hnone =>
      obtain ⟨t, ht, -⟩ := hr.of_cons
      have hb := hf.begun ht (hf.callback?_ne_some fun n hn => Or.inl (hnone n hn))
        fun _ _ _ hd => by cases hd
      exact hb.idle hr rfl
  | refused d id hlast hmark =>
      obtain ⟨t₁, ht₁, -⟩ := hr.of_cons
      obtain ⟨t₂, ht₂, -⟩ := ht₁.of_cons
      have hnone : ∀ n, lastInserted d.key h = some n → Retired h n ∨ Marked h n := by
        intro n hn
        obtain rfl : id = n := Option.some.inj (hlast.symm.trans hn)
        exact Or.inr hmark
      have hb := hf.begun ht₂ (hf.callback?_ne_some hnone) fun _ _ _ hd => by cases hd
      exact (hb.idle ht₁ rfl).idle hr rfl
  | called d id hlast hret hmark => exact hf.called hr ho.2.2.2.1 hlast hret hmark
  | returned d id hd =>
      refine hf.plain hr rfl (fun _ _ hm => by cases hm) (fun e n hm => ?_) fun _ _ _ k => ?_
      · cases hm
        exact hd
      · exact ⟨fun hm => (by cases hm), fun hm => (by cases hm)⟩
  | ended d id hd hcall hins => exact hf.returned hr hd hcall hins
  | absent key hnone =>
      -- an object whose destruction finds no entry has a dead one
      obtain ⟨t, ht, -⟩ := hr.of_cons
      refine (hf.begun ht (fun _ _ _ _ hc => by cases hc) fun k n hs hd => ?_).idle hr rfl
      obtain rfl : key = k := by simpa [Moment.destroys] using hd
      by_cases hlast : lastInserted key h = some n
      · exact Or.inr (Or.inl (hnone n hlast))
      · exact Or.inr (Or.inr ⟨key, hs.inserted, hlast⟩)
  | doomed key id hlast => exact hf.doomed hr hlast
  | gone key => exact hf.idle hr rfl
  | freed key id hmark =>
      -- the entry was marked when the destruction began, so its object is not open
      obtain ⟨t, ht, -⟩ := hr.of_cons
      refine (hf.idle ht rfl).plain hr rfl (fun _ _ hm => by cases hm)
        (fun _ _ hm => by cases hm) ?_
      intro k n hopen k'
      refine ⟨fun hm => ?_, fun hm => by cases hm⟩
      cases hm
      exact (hf.opened k id ((isOpen_cons_of_isPlain rfl).1 hopen)).2.2 hmark

end Faithful

/-- Every run on one thread that is as promised is faithful wherever its jobs rest. -/
theorem Run.faithful (hr : Run h s) (hs : SingleThreaded h) (hrest : Rested h) (ho : Orderly h) :
    Faithful h := by
  refine hr.turns (P := fun h => Orderly h → Faithful h) hs hrest (fun _ => Faithful.empty) ?_ ho
  intro i ms h ⟨t, ht⟩ hturn ih ho
  exact (ih ho.of_append).turn ht hturn ho

/-- **Every handler heard what it was due**: the callbacks for its object since it was made, until
its destruction begins, through the last one, in order. -/
theorem Run.heard_eq_due (hr : Run h s) (hs : SingleThreaded h) (hrest : Rested h) (ho : Orderly h)
    (hi : Inserted h key id) : heard id h = due key id h :=
  (hr.faithful hs hrest ho).heard key id hi

end LateBinding.Callback
