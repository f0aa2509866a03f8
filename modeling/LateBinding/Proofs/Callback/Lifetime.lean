import LateBinding.Proofs.Callback.History

/-!
**The lifetime of an object, and the callbacks that its handler is due.**

An object has come into being when its handler was inserted. It *stands* until its destruction
begins, and it is *open* until then or until its last callback, whatever comes first. Its handler is
due the callbacks that were made for it while it was open, the last one included. All this is said
without the registry, from what was asked for alone; what the handler *heard* is the calls of its
entry.

Main definitions:

* `LateBinding.Callback.since` — what happened since an entry was made;
* `LateBinding.Callback.Stands`, `LateBinding.Callback.IsOpen` — how long an object lives;
* `LateBinding.Callback.due`, `LateBinding.Callback.heard` — **what its handler should hear, and
  what it heard**, oldest first.

Main results:

* `LateBinding.Callback.IsOpen.due_cons`, `LateBinding.Callback.due_cons_of_not_isOpen` — a callback
  is due if its object is open when it is made, and only then.
-/

set_option autoImplicit false

namespace LateBinding.Callback

variable {H M : Type}

/-! ### Moments of an object -/

namespace Moment

/-- Whether an entry is made in a moment. -/
def makes (id : Nat) : Moment H M → Bool
  | .inserted _ n => n = id
  | _ => false

/-- Whether the destruction of an object begins in a moment. -/
def destroys (key : Key) : Moment H M → Bool
  | .begun (.seeking k) => k = key
  | _ => false

/-- The callback for an object that the library makes in a moment. -/
def callback? (key : Key) : Moment H M → Option (Delivery M)
  | .begun (.finding d) => if d.key = key then some d else none
  | _ => none

theorem of_callback? {key : Key} {m : Moment H M} {d : Delivery M} (hc : m.callback? key = some d) :
    m = .begun (.finding d) ∧ d.key = key := by
  cases m with
  | begun j =>
      cases j with
      | finding e =>
          by_cases hk : e.key = key
          · simp only [callback?, if_pos hk, Option.some.injEq] at hc
            subst hc
            exact ⟨rfl, hk⟩
          · simp [callback?, hk] at hc
      | _ => cases hc
  | _ => cases hc

/-- To begin a destruction is not to make a callback. -/
theorem callback?_eq_none_of_destroys {key : Key} {m : Moment H M} (hd : m.destroys key = true) :
    m.callback? key = none := by
  cases m with
  | begun j =>
      cases j with
      | seeking k => rfl
      | _ => cases hd
  | _ => cases hd

/-- What the handler of an entry hears in a moment. -/
def heard? (id : Nat) : Moment H M → Option M
  | .called d n => if n = id then some d.message else none
  | _ => none

/-- Whether the lifetimes of objects are the same after a moment: no object is made, no callback is
made and no destruction begins. -/
def isPlain : Moment H M → Bool
  | .inserted _ _ => false
  | .begun (.finding _) => false
  | .begun (.seeking _) => false
  | _ => true

/-- Whether a moment only looks, or comes back from the library. -/
def isIdle : Moment H M → Bool
  | .looked _ _ => true
  | .checked _ _ _ => true
  | .sought _ _ => true
  | .freed _ _ => true
  | _ => false

/-- A plain moment makes nothing, destroys nothing and is no callback. -/
theorem of_isPlain {m : Moment H M} (hm : m.isPlain = true) (key : Key) (id : Nat) :
    m.makes id = false ∧ m.destroys key = false ∧ m.callback? key = none := by
  cases m with
  | begun j => cases j <;> first | exact ⟨rfl, rfl, rfl⟩ | cases hm
  | inserted k n => cases hm
  | _ => exact ⟨rfl, rfl, rfl⟩

end Moment

/-- What happened since an entry was made, newest first. -/
def since (id : Nat) (h : History H M) : List (Moment H M) :=
  (h.map Prod.snd).takeWhile fun m => !m.makes id

/-- The object of an entry was made, and its destruction has not begun since. -/
def Stands (key : Key) (id : Nat) (h : History H M) : Prop :=
  Inserted h key id ∧ ∀ m ∈ since id h, m.destroys key = false

/-- The object of an entry stands, and the library has not made the last callback for it yet. -/
def IsOpen (key : Key) (id : Nat) (h : History H M) : Prop :=
  Stands key id h ∧ ∀ m ∈ since id h, ∀ d, m.callback? key = some d → d.final = false

/-- Callbacks up to the first that is the last one for its object, that one included. -/
def throughFinal : List (Delivery M) → List (Delivery M)
  | [] => []
  | d :: ds => d :: if d.final then [] else throughFinal ds

/-- The callbacks for an object since it was made until its destruction begins, oldest first. -/
def asked (key : Key) (id : Nat) (h : History H M) : List (Delivery M) :=
  ((since id h).reverse.takeWhile fun m => !m.destroys key).filterMap (Moment.callback? key)

/-- What the handler of an entry should hear, oldest first: the callbacks for its object since it
was made, until its destruction begins, through the last one. -/
def due (key : Key) (id : Nat) (h : History H M) : List M :=
  (throughFinal (asked key id h)).map Delivery.message

/-- What the handler of an entry heard, oldest first. -/
def heard (id : Nat) (h : History H M) : List M :=
  (h.reverse.map Prod.snd).filterMap (Moment.heard? id)

variable {h : History H M} {i id : Nat} {key : Key} {m : Moment H M}

/-! ### One more moment -/

theorem since_cons_of_makes (hm : m.makes id = true) : since id ((i, m) :: h) = [] := by
  simp [since, hm]

theorem since_cons (hm : m.makes id = false) : since id ((i, m) :: h) = m :: since id h := by
  simp [since, hm]

theorem inserted_cons_of_not_makes (hm : m.makes id = false) :
    Inserted ((i, m) :: h) key id ↔ Inserted h key id := by
  rw [inserted_cons, or_iff_right]
  rintro rfl
  simp [Moment.makes] at hm

theorem stands_cons (hm : m.makes id = false) :
    Stands key id ((i, m) :: h) ↔ Stands key id h ∧ m.destroys key = false := by
  rw [Stands, Stands, since_cons hm, inserted_cons_of_not_makes hm, List.forall_mem_cons]
  constructor
  · rintro ⟨hins, hd, hs⟩
    exact ⟨⟨hins, hs⟩, hd⟩
  · rintro ⟨⟨hins, hs⟩, hd⟩
    exact ⟨hins, hd, hs⟩

theorem isOpen_cons (hm : m.makes id = false) :
    IsOpen key id ((i, m) :: h) ↔ IsOpen key id h ∧ m.destroys key = false ∧
      ∀ d, m.callback? key = some d → d.final = false := by
  rw [IsOpen, IsOpen, stands_cons hm, since_cons hm, List.forall_mem_cons]
  constructor
  · rintro ⟨⟨hs, hd⟩, hc, ho⟩
    exact ⟨⟨hs, ho⟩, hd, hc⟩
  · rintro ⟨⟨hs, ho⟩, hd, hc⟩
    exact ⟨⟨hs, hd⟩, hc, ho⟩

theorem stands_cons_of_isPlain (hm : m.isPlain = true) :
    Stands key id ((i, m) :: h) ↔ Stands key id h := by
  obtain ⟨hmk, hd, -⟩ := Moment.of_isPlain hm key id
  rw [stands_cons hmk, hd]
  exact and_iff_left rfl

theorem isOpen_cons_of_isPlain (hm : m.isPlain = true) :
    IsOpen key id ((i, m) :: h) ↔ IsOpen key id h := by
  obtain ⟨hmk, hd, hc⟩ := Moment.of_isPlain hm key id
  rw [isOpen_cons hmk, hd, hc]
  exact and_iff_left ⟨rfl, fun d hd => by cases hd⟩

theorem lastInserted_cons_of_isPlain (hm : m.isPlain = true) :
    lastInserted key ((i, m) :: h) = lastInserted key h :=
  lastInserted_cons_of_ne fun k hk => by rw [hk] at hm; cases hm

theorem inserted_cons_of_isPlain (hm : m.isPlain = true) :
    Inserted ((i, m) :: h) key id ↔ Inserted h key id :=
  inserted_cons_of_not_makes (Moment.of_isPlain hm key id).1

/-- An object is open when it has just been made. -/
theorem isOpen_cons_inserted : IsOpen key id ((i, .inserted key id) :: h) := by
  have hs : since id ((i, Moment.inserted key id) :: h) = [] :=
    since_cons_of_makes (by simp [Moment.makes])
  exact ⟨⟨inserted_cons.2 (Or.inl rfl), by simp [hs]⟩, by simp [hs]⟩

theorem IsOpen.stands (ho : IsOpen key id h) : Stands key id h := ho.1

theorem Stands.inserted (hs : Stands key id h) : Inserted h key id := hs.1

theorem heard_cons : heard id ((i, m) :: h) = heard id h ++ (m.heard? id).toList := by
  simp [heard, List.filterMap_cons]
  cases m.heard? id <;> rfl

/-! ### What is due -/

/-- As long as no callback was the last one, all are due. -/
theorem throughFinal_append_of_open {ds : List (Delivery M)} (hd : ∀ d ∈ ds, d.final = false)
    (es : List (Delivery M)) : throughFinal (ds ++ es) = ds ++ throughFinal es := by
  induction ds with
  | nil => rfl
  | cons d ds ih =>
      rw [List.cons_append, throughFinal, hd d List.mem_cons_self, if_neg Bool.false_ne_true,
        ih fun e he => hd e (List.mem_cons_of_mem _ he), List.cons_append]

/-- After the last callback nothing more is due. -/
theorem throughFinal_append_of_final {ds : List (Delivery M)} {d : Delivery M} (hd : d ∈ ds)
    (hf : d.final = true) (es : List (Delivery M)) :
    throughFinal (ds ++ es) = throughFinal ds := by
  induction ds with
  | nil => cases hd
  | cons e ds ih =>
      rw [List.cons_append, throughFinal, throughFinal]
      by_cases he : e.final = true
      · rw [if_pos he, if_pos he]
      · have hmem : d ∈ ds := by
          rcases List.mem_cons.1 hd with rfl | hmem
          · exact absurd hf he
          · exact hmem
        rw [if_neg he, if_neg he, ih hmem]

theorem mem_of_mem_throughFinal {ds : List (Delivery M)} {d : Delivery M}
    (hd : d ∈ throughFinal ds) : d ∈ ds := by
  induction ds with
  | nil => cases hd
  | cons e ds ih =>
      rw [throughFinal] at hd
      rcases List.mem_cons.1 hd with rfl | hd
      · exact List.mem_cons_self
      · by_cases he : e.final = true
        · rw [if_pos he] at hd
          cases hd
        · rw [if_neg he] at hd
          exact List.mem_cons_of_mem _ (ih hd)

/-- What comes after one that does not pass is not taken. -/
theorem takeWhile_append_of_mem {α : Type} {p : α → Bool} {as : List α} {a : α} (ha : a ∈ as)
    (hp : p a = false) (bs : List α) : (as ++ bs).takeWhile p = as.takeWhile p := by
  rw [List.takeWhile_append, if_neg]
  intro hlen
  have he : as.takeWhile p = as := (List.takeWhile_prefix p).eq_of_length hlen
  have hall : (as.takeWhile p).all p = true := List.all_takeWhile
  rw [he, List.all_eq_true] at hall
  rw [hall a ha] at hp
  cases hp

/-- All callbacks for a standing object count. -/
theorem Stands.asked_append (hs : Stands key id h) (ms : List (Moment H M)) :
    ((since id h).reverse ++ ms).takeWhile (fun m => !m.destroys key) =
      (since id h).reverse ++ ms.takeWhile fun m => !m.destroys key := by
  refine List.takeWhile_append_of_pos fun m hm => ?_
  rw [hs.2 m (List.mem_reverse.1 hm)]
  rfl

theorem Stands.asked_eq (hs : Stands key id h) :
    asked key id h = (since id h).reverse.filterMap (Moment.callback? key) := by
  have hall := hs.asked_append []
  rw [List.append_nil, List.takeWhile_nil, List.append_nil] at hall
  rw [asked, hall]

theorem Stands.asked_cons (hs : Stands key id h) (hm : m.makes id = false) :
    asked key id ((i, m) :: h) = asked key id h ++ (m.callback? key).toList := by
  have hone : ([m].takeWhile fun n => !n.destroys key).filterMap (Moment.callback? key) =
      (m.callback? key).toList := by
    by_cases hd : m.destroys key = true
    · simp [hd, Moment.callback?_eq_none_of_destroys hd]
    · cases hc : m.callback? key <;> simp [hd, hc]
  rw [asked, since_cons hm, List.reverse_cons, hs.asked_append, List.filterMap_append, hone,
    hs.asked_eq]

/-- Once its destruction has begun, nobody asks for an object. -/
theorem asked_cons_of_not_stands (hins : Inserted h key id) (hs : ¬ Stands key id h)
    (hm : m.makes id = false) : asked key id ((i, m) :: h) = asked key id h := by
  -- nothing that comes after the begin of the destruction is counted
  have hex : ∃ n ∈ since id h, n.destroys key = true := by
    by_cases hex : ∃ n ∈ since id h, n.destroys key = true
    · exact hex
    · refine absurd ⟨hins, fun n hn => ?_⟩ hs
      rw [Bool.eq_false_iff]
      exact fun hd => hex ⟨n, hn, hd⟩
  obtain ⟨n, hn, hd⟩ := hex
  rw [asked, since_cons hm, List.reverse_cons,
    takeWhile_append_of_mem (List.mem_reverse.2 hn) (by simp [hd]), asked]

theorem isOpen_iff : IsOpen key id h ↔
    Stands key id h ∧ ∀ d ∈ asked key id h, d.final = false := by
  refine and_congr_right fun hs => ?_
  rw [hs.asked_eq]
  constructor
  · intro ho d hd
    obtain ⟨m, hm, hc⟩ := List.mem_filterMap.1 hd
    exact ho m (List.mem_reverse.1 hm) d hc
  · intro ho m hm d hc
    exact ho d (List.mem_filterMap.2 ⟨m, List.mem_reverse.2 hm, hc⟩)

/-- **A callback that is made while its object is open is due.** -/
theorem IsOpen.due_cons (ho : IsOpen key id h) (hm : m.makes id = false) :
    due key id ((i, m) :: h) =
      due key id h ++ (m.callback? key).toList.map Delivery.message := by
  have hnot : ∀ d ∈ asked key id h, d.final = false := (isOpen_iff.1 ho).2
  have hall : throughFinal (asked key id h) = asked key id h := by
    simpa [throughFinal] using throughFinal_append_of_open hnot []
  rw [due, due, ho.stands.asked_cons hm, throughFinal_append_of_open hnot, hall, List.map_append]
  cases m.callback? key <;> simp [throughFinal]

/-- **No other callback is.** -/
theorem due_cons_of_not_isOpen (hins : Inserted h key id) (ho : ¬ IsOpen key id h)
    (hm : m.makes id = false) : due key id ((i, m) :: h) = due key id h := by
  by_cases hs : Stands key id h
  · have hex : ∃ d ∈ asked key id h, d.final = true := by
      by_cases hex : ∃ d ∈ asked key id h, d.final = true
      · exact hex
      · refine absurd (isOpen_iff.2 ⟨hs, fun d hd => ?_⟩) ho
        rw [Bool.eq_false_iff]
        exact fun hf => hex ⟨d, hd, hf⟩
    obtain ⟨d, hd, hf⟩ := hex
    rw [due, hs.asked_cons hm, throughFinal_append_of_final hd hf, due]
  · rw [due, asked_cons_of_not_stands hins hs hm, due]

/-- What is due was asked for. -/
theorem mem_due {x : M} (hx : x ∈ due key id h) :
    ∃ i d, (i, .begun (.finding d)) ∈ h ∧ d.key = key ∧ d.message = x := by
  obtain ⟨d, hd, rfl⟩ := List.mem_map.1 hx
  obtain ⟨m, hm, hc⟩ := List.mem_filterMap.1 (mem_of_mem_throughFinal hd)
  have hsince : m ∈ since id h := List.mem_reverse.1 ((List.takeWhile_subset _) hm)
  obtain ⟨⟨i, n⟩, hn, rfl⟩ := List.mem_map.1 ((List.takeWhile_subset _) hsince)
  obtain ⟨rfl, hk⟩ := Moment.of_callback? hc
  exact ⟨i, d, hn, hk, rfl⟩

/-- What is not said to an object makes nothing due. -/
theorem due_cons_of_callback?_eq_none (hins : Inserted h key id) (hm : m.makes id = false)
    (hc : m.callback? key = none) : due key id ((i, m) :: h) = due key id h := by
  by_cases ho : IsOpen key id h
  · rw [ho.due_cons hm, hc]
    simp
  · exact due_cons_of_not_isOpen hins ho hm

theorem due_cons_of_isPlain (hins : Inserted h key id) (hm : m.isPlain = true) :
    due key id ((i, m) :: h) = due key id h := by
  obtain ⟨hmk, -, hc⟩ := Moment.of_isPlain hm key id
  exact due_cons_of_callback?_eq_none hins hmk hc

/-- Nothing is due to the handler of an object that has just been made. -/
theorem due_cons_of_makes (hm : m.makes id = true) : due key id ((i, m) :: h) = [] := by
  rw [due, asked, since_cons_of_makes hm]
  rfl

end LateBinding.Callback
