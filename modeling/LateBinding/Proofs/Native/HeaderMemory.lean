import Mathlib.Data.Finmap
import Mathlib.Logic.Relation
import Mathlib.Order.Lattice.Nat
import LateBinding.Native.HeaderArray
import LateBinding.Proofs.Native.Returned

/-!
**Header arrays in memory.**

The client's array of headers is made of many pieces: a buffer for each text, a buffer for the
entries that point to them, and a small value that owns all of these. Here are the pieces as they
stand in memory, made one by one in the order in which the client makes them, and the reader that
follows the pointers. What is followed from the value is the array that holds copies of the texts,
in order and **none left out**; moving the value, and whatever else happens in memory, changes
nothing of that, because no pointer leads to the value itself.

Main definitions:

* `LateBinding.Native.Memory`, `LateBinding.Native.IsAllocator` — memory as blocks at places, and
  who finds new places;
* `LateBinding.Native.RawArray`, `LateBinding.Native.readHeadersAt?` — an array as it crosses the
  boundary, and the reader that follows its pointers;
* `LateBinding.Native.HeaderOwner`, `LateBinding.Native.HeaderOwner.ofList` — the value that owns an
  array, and how it is made;
* `LateBinding.Native.HeaderOwner.Later` — what may happen while the value is there: it is moved,
  and memory that it does not own changes.

Main results:

* `LateBinding.Native.HeaderOwner.Holds.push`, `LateBinding.Native.HeaderOwner.holds_foldl` — one
  header more, and all of them;
* `LateBinding.Native.HeaderOwner.resolve?_ofList` — **following the pointers gives copies of the
  texts**;
* `LateBinding.Native.HeaderOwner.Later.keeps` — what is there later;
* `LateBinding.Native.readHeadersAt?_eq_map` — **what is read of any array**;
* `LateBinding.Native.header_arrays_lose_nothing` — all of it together.
-/

set_option autoImplicit false

namespace LateBinding.Native

/-! ### Memory -/

/-- A place in memory; zero is the null pointer. -/
abbrev Place := Nat

/-- The value that owns an array of headers: the buffers of its texts, two for each header, the
place of its entries, and how many these are. -/
structure HeaderOwner where
  strings : List Place
  entriesAt : Place
  count : Nat
deriving DecidableEq, Repr

/-- What stands at a place: the bytes of a buffer, entries of headers as pointers to name and value,
or a value that owns such entries. -/
inductive Block where
  | bytes (memory : List UInt8)
  | entries (pointers : List (Place × Place))
  | owner (value : HeaderOwner)

/-- The blocks at the places that are in use. -/
abbrev Memory := Finmap fun _ : Place => Block

/-- What finds a place for a new block: never the null pointer, and never a place that is in use. -/
structure IsAllocator (fresh : Memory → Place) : Prop where
  ne_null : ∀ m : Memory, fresh m ≠ 0
  unused : ∀ m : Memory, m.lookup (fresh m) = none

/-! ### Reading an array -/

/-- An array of headers as it crosses the boundary: two numbers and a pointer. -/
structure RawArray where
  count : Nat
  capacity : Nat
  entriesAt : Place
deriving DecidableEq, Repr

/-- The memory behind a pointer to a text: none behind the null pointer. There is no result if the
pointer leads to something else. -/
def textBehind? (m : Memory) (p : Place) : Option (Option (List UInt8)) :=
  if p = 0 then some none
  else
    match m.lookup p with
    | some (.bytes memory) => some (some memory)
    | _ => none

/-- The memory behind the pointers of some entries. -/
def textsBehind? (m : Memory) :
    List (Place × Place) → Option (List (Option (List UInt8) × Option (List UInt8)))
  | [] => some []
  | e :: es => do
    let name ← textBehind? m e.1
    let value ← textBehind? m e.2
    let texts ← textsBehind? m es
    some ((name, value) :: texts)

/-- An array with the memory behind all its pointers. The entries of an array without headers are
not looked at. -/
def resolve? (m : Memory) (a : RawArray) : Option HeaderArray :=
  if a.entriesAt = 0 then some ⟨a.count, a.capacity, none⟩
  else if a.count = 0 then some ⟨a.count, a.capacity, some []⟩
  else
    match m.lookup a.entriesAt with
    | some (.entries es) =>
      if a.count ≤ es.length then
        (textsBehind? m (es.take a.count)).map fun texts => ⟨a.count, a.capacity, some texts⟩
      else none
    | _ => none

/-- The texts of an array that is given by a pointer. -/
def readHeadersAt? (m : Memory) : Option RawArray → Option (List (String × String))
  | none => some (readHeaders none)
  | some a => (resolve? m a).map fun array => readHeaders (some array)

/-! ### Making an array -/

/-- A new buffer with a copy of a text. -/
def place (fresh : Memory → Place) (s : String) (m : Memory) : Place × Memory :=
  (fresh m, m.insert (fresh m) (.bytes (CString.ofText s).withTerminator))

namespace HeaderOwner

/-- The entries that stand at a place. -/
def entriesOf (m : Memory) (p : Place) : List (Place × Place) :=
  match m.lookup p with
  | some (.entries es) => es
  | _ => []

/-- Adds a header: a buffer for a copy of its name, one for a copy of its value, and an entry with
pointers to both. The buffers are the owner's from now on. -/
def push (fresh : Memory → Place) (s : HeaderOwner × Memory) (header : String × String) :
    HeaderOwner × Memory :=
  let (name, m) := place fresh header.1 s.2
  let (value, m) := place fresh header.2 m
  ({ s.1 with strings := s.1.strings ++ [name, value], count := s.1.count + 1 },
    m.insert s.1.entriesAt (.entries (entriesOf m s.1.entriesAt ++ [(name, value)])))

/-- The pointer to the entries where there are none: not null, but nothing stands there. -/
def dangling : Place := 8

/-- Makes the owner of an array of some headers. The buffer of the entries comes first, with room
for all of them; without headers there is none. -/
def ofList (fresh : Memory → Place) (headers : List (String × String)) (m : Memory) :
    HeaderOwner × Memory :=
  match headers with
  | [] => (⟨[], dangling, 0⟩, m)
  | _ => headers.foldl (push fresh) (⟨[], fresh m, 0⟩, m.insert (fresh m) (.entries []))

/-- The array of an owner, as it crosses the boundary. -/
def asArray (h : HeaderOwner) : RawArray := ⟨h.count, h.count, h.entriesAt⟩

/-- The array of the owner that stands at a place. -/
def asArrayAt? (m : Memory) (p : Place) : Option RawArray :=
  match m.lookup p with
  | some (.owner h) => some h.asArray
  | _ => none

/-- The places of the buffers of an owner. -/
def owned (h : HeaderOwner) : List Place :=
  if h.count = 0 then [] else h.entriesAt :: h.strings

/-- What may happen while an owner is there, which stands at a place: it is moved to another place
that it does not own, or memory changes that is neither the owner nor owned by it. -/
inductive Step (h : HeaderOwner) : Place × Memory → Place × Memory → Prop
  | move {p q : Place} {m : Memory} {block : Block} (hblock : m.lookup p = some block) (hne : q ≠ p)
      (howned : q ∉ h.owned) : Step h (p, m) (q, (m.erase p).insert q block)
  | beside {p : Place} {m m' : Memory} (hself : m'.lookup p = m.lookup p)
      (howned : ∀ q ∈ h.owned, m'.lookup q = m.lookup q) : Step h (p, m) (p, m')

/-- Any number of steps. -/
def Later (h : HeaderOwner) : Place × Memory → Place × Memory → Prop := Relation.ReflTransGen h.Step

end HeaderOwner

/-! ### What an owner has -/

variable {m m' : Memory} {p q : Place} {b : Block} {s : String}

/-- A pointer to a copy of a text. -/
def PointsTo (m : Memory) (p : Place) (s : String) : Prop :=
  p ≠ 0 ∧ m.lookup p = some (.bytes (CString.ofText s).withTerminator)

theorem PointsTo.of_lookup_eq (h : PointsTo m p s) (hsame : m'.lookup p = m.lookup p) :
    PointsTo m' p s :=
  ⟨h.1, hsame.trans h.2⟩

theorem PointsTo.textBehind? (h : PointsTo m p s) :
    textBehind? m p = some (some (CString.ofText s).withTerminator) := by
  rw [Native.textBehind?, if_neg h.1, h.2]

/-- Writing entries where entries stand touches no copy of a text. -/
theorem PointsTo.insert_entries {es es' : List (Place × Place)} (h : PointsTo m p s)
    (hq : m.lookup q = some (.entries es)) : PointsTo (m.insert q (.entries es')) p s := by
  refine h.of_lookup_eq (Finmap.lookup_insert_of_ne m ?_)
  rintro rfl
  have hclash := h.2
  rw [hq] at hclash
  cases hclash

section Place

variable {fresh : Memory → Place} (hfresh : IsAllocator fresh)

include hfresh

theorem pointsTo_place (s : String) (m : Memory) :
    PointsTo (place fresh s m).2 (place fresh s m).1 s :=
  ⟨hfresh.ne_null m, Finmap.lookup_insert m⟩

/-- A new buffer leaves the other blocks as they are. -/
theorem lookup_place (s : String) (hp : m.lookup p = some b) :
    (place fresh s m).2.lookup p = some b := by
  have hne : p ≠ fresh m := by
    rintro rfl
    rw [hfresh.unused m] at hp
    cases hp
  exact (Finmap.lookup_insert_of_ne m hne).trans hp

theorem PointsTo.place (s' : String) (h : PointsTo m p s) : PointsTo (place fresh s' m).2 p s :=
  ⟨h.1, lookup_place hfresh s' h.2⟩

end Place

namespace HeaderOwner

variable {fresh : Memory → Place} {h : HeaderOwner} {headers : List (String × String)}

/-- An entry points to the texts of a header. -/
def EntryOf (m : Memory) (e : Place × Place) (header : String × String) : Prop :=
  PointsTo m e.1 header.1 ∧ PointsTo m e.2 header.2

/-- **An owner holds some headers**: entry for header the pointers lead to copies of the texts, and
they are the buffers that it owns, two and two. -/
structure Holds (m : Memory) (h : HeaderOwner) (headers : List (String × String)) : Prop where
  ne_null : h.entriesAt ≠ 0
  count : h.count = headers.length
  entries : ∃ es, m.lookup h.entriesAt = some (.entries es) ∧
    h.strings = es.flatMap (fun e => [e.1, e.2]) ∧ List.Forall₂ (EntryOf m) es headers

theorem entriesOf_eq {es : List (Place × Place)} (hp : m.lookup p = some (.entries es)) :
    entriesOf m p = es := by
  rw [entriesOf, hp]

/-- **One header more.** -/
theorem Holds.push (hfresh : IsAllocator fresh) (hm : Holds m h headers)
    (header : String × String) :
    Holds (push fresh (h, m) header).2 (push fresh (h, m) header).1 (headers ++ [header]) := by
  obtain ⟨hne, hcount, es, hes, hstrings, hall⟩ := hm
  -- the memory with the two new buffers, where the entries are still as they were
  let name := place fresh header.1 m
  let value := place fresh header.2 name.2
  have hes' : value.2.lookup h.entriesAt = some (.entries es) :=
    lookup_place hfresh _ (lookup_place hfresh _ hes)
  have hname : PointsTo value.2 name.1 header.1 := (pointsTo_place hfresh _ m).place hfresh _
  have hvalue : PointsTo value.2 value.1 header.2 := pointsTo_place hfresh _ _
  have hkept : ∀ {p s}, PointsTo m p s → PointsTo value.2 p s := fun hp =>
    (hp.place hfresh _).place hfresh _
  have hpush : HeaderOwner.push fresh (h, m) header =
      (⟨h.strings ++ [name.1, value.1], h.entriesAt, h.count + 1⟩,
        value.2.insert h.entriesAt (.entries (es ++ [(name.1, value.1)]))) := by
    rw [← entriesOf_eq hes']
    rfl
  rw [hpush]
  refine ⟨hne, ?_, es ++ [(name.1, value.1)], Finmap.lookup_insert value.2, ?_, ?_⟩
  · rw [List.length_append, hcount]
    rfl
  · rw [List.flatMap_append, hstrings]
    rfl
  · have hnew : EntryOf (value.2.insert h.entriesAt (.entries (es ++ [(name.1, value.1)])))
        (name.1, value.1) header := ⟨hname.insert_entries hes', hvalue.insert_entries hes'⟩
    refine List.rel_append (hall.imp ?_) (.cons hnew .nil)
    rintro e x ⟨hx, hy⟩
    exact ⟨(hkept hx).insert_entries hes', (hkept hy).insert_entries hes'⟩

/-- **And all of them.** -/
theorem holds_foldl (hfresh : IsAllocator fresh) (more : List (String × String))
    (hm : Holds m h headers) :
    Holds (more.foldl (HeaderOwner.push fresh) (h, m)).2
      (more.foldl (HeaderOwner.push fresh) (h, m)).1
      (headers ++ more) := by
  induction more generalizing h m headers with
  | nil => simpa using hm
  | cons header more ih =>
      have hrest := ih (hm.push hfresh header)
      rwa [List.append_assoc] at hrest

/-! ### Following the pointers -/

theorem textsBehind?_eq {es : List (Place × Place)} (hall : List.Forall₂ (EntryOf m) es headers) :
    textsBehind? m es = some (headers.map fun x =>
      (some (CString.ofText x.1).withTerminator, some (CString.ofText x.2).withTerminator)) := by
  induction hall with
  | nil => rfl
  | cons hentry _ ih =>
      rw [textsBehind?, hentry.1.textBehind?, hentry.2.textBehind?, ih]
      rfl

theorem Holds.resolve? (hm : Holds m h headers) :
    resolve? m h.asArray = some (HeaderArray.ofList headers) := by
  obtain ⟨hne, hcount, es, hes, -, hall⟩ := hm
  have hlength : h.count = es.length := hcount.trans hall.length_eq.symm
  change Native.resolve? m ⟨h.count, h.count, h.entriesAt⟩ = _
  rw [Native.resolve?, if_neg hne]
  by_cases hzero : h.count = 0
  · obtain rfl : headers = [] := List.length_eq_zero_iff.1 (hcount.symm.trans hzero)
    rw [if_pos hzero, hzero]
    rfl
  · rw [if_neg hzero, hes]
    simp [hlength, textsBehind?_eq hall, HeaderArray.ofList, ← hall.length_eq]

theorem forall₂_of_same {es : List (Place × Place)} (hall : List.Forall₂ (EntryOf m) es headers)
    (hsame : ∀ q ∈ es.flatMap fun e => [e.1, e.2], m'.lookup q = m.lookup q) :
    List.Forall₂ (EntryOf m') es headers := by
  induction hall with
  | nil => exact .nil
  | cons hentry _ ih =>
      rw [List.flatMap_cons] at hsame
      obtain ⟨hfirst, hrest⟩ := List.forall_mem_append.1 hsame
      obtain ⟨hname, hvalue, -⟩ := by simpa only [List.forall_mem_cons] using hfirst
      exact .cons ⟨hentry.1.of_lookup_eq hname, hentry.2.of_lookup_eq hvalue⟩ (ih hrest)

/-- What an owner holds, it holds wherever its blocks are the same. -/
theorem Holds.of_same (hm : Holds m h headers) (hheaders : headers ≠ [])
    (hsame : ∀ q ∈ h.owned, m'.lookup q = m.lookup q) : Holds m' h headers := by
  obtain ⟨hne, hcount, es, hes, hstrings, hall⟩ := hm
  have hzero : h.count ≠ 0 := by
    rw [hcount]
    exact fun hlength => hheaders (List.length_eq_zero_iff.1 hlength)
  rw [owned, if_neg hzero, hstrings] at hsame
  obtain ⟨hentries, htexts⟩ := List.forall_mem_cons.1 hsame
  exact ⟨hne, hcount, es, hentries.trans hes, hstrings, forall₂_of_same hall htexts⟩

/-- The owner that is made of some headers holds them. -/
theorem holds_ofList (hfresh : IsAllocator fresh) (hheaders : headers ≠ []) (m : Memory) :
    Holds (ofList fresh headers m).2 (ofList fresh headers m).1 headers := by
  have hstart : Holds (m.insert (fresh m) (.entries [])) ⟨[], fresh m, 0⟩ [] :=
    ⟨hfresh.ne_null m, rfl, [], Finmap.lookup_insert m, rfl, .nil⟩
  have hall := holds_foldl hfresh headers hstart
  cases headers with
  | nil => exact absurd rfl hheaders
  | cons header headers => exact hall

theorem count_ofList (hfresh : IsAllocator fresh) (headers : List (String × String)) (m : Memory) :
    (ofList fresh headers m).1.count = headers.length := by
  cases headers with
  | nil => rfl
  | cons header headers => exact (holds_ofList hfresh (List.cons_ne_nil _ _) m).count

/-- **Following the pointers gives copies of the texts**, wherever the blocks of the owner are the
same. -/
theorem resolve?_ofList (hfresh : IsAllocator fresh) (headers : List (String × String))
    (hsame : ∀ q ∈ (ofList fresh headers m).1.owned,
      m'.lookup q = (ofList fresh headers m).2.lookup q) :
    Native.resolve? m' (ofList fresh headers m).1.asArray = some (HeaderArray.ofList headers) := by
  cases headers with
  | nil => rfl
  | cons header headers =>
      have hne : header :: headers ≠ [] := List.cons_ne_nil _ _
      exact ((holds_ofList hfresh hne m).of_same hne hsame).resolve?

/-! ### Moving -/

variable {x y : Place × Memory}

/-- What is there of an owner: it stands at its place, beside what it owns. -/
structure Stands (h : HeaderOwner) (x : Place × Memory) : Prop where
  self : x.2.lookup x.1 = some (.owner h)
  beside : x.1 ∉ h.owned

/-- **A step keeps the owner and what it owns.** -/
theorem Step.keeps (hstep : h.Step x y) (hx : h.Stands x) :
    h.Stands y ∧ ∀ q ∈ h.owned, y.2.lookup q = x.2.lookup q := by
  cases hstep with
  | @move p q m block hblock hne howned =>
      obtain rfl : block = .owner h := Option.some.inj (hblock.symm.trans hx.self)
      refine ⟨⟨Finmap.lookup_insert _, howned⟩, fun r hr => ?_⟩
      have hrq : r ≠ q := fun he => howned (he ▸ hr)
      have hrp : r ≠ p := fun he => hx.beside (he ▸ hr)
      rw [Finmap.lookup_insert_of_ne _ hrq, Finmap.lookup_erase_ne hrp]
  | beside hself howned => exact ⟨⟨hself.trans hx.self, hx.beside⟩, howned⟩

/-- **What is there later.** -/
theorem Later.keeps (hlater : h.Later x y) (hx : h.Stands x) :
    h.Stands y ∧ ∀ q ∈ h.owned, y.2.lookup q = x.2.lookup q := by
  induction hlater with
  | refl => exact ⟨hx, fun _ _ => rfl⟩
  | tail _ hstep ih =>
      obtain ⟨hstands, hsame⟩ := ih
      obtain ⟨hstands', hsame'⟩ := hstep.keeps hstands
      exact ⟨hstands', fun q hq => (hsame' q hq).trans (hsame q hq)⟩

theorem Stands.asArrayAt? (hx : h.Stands x) : asArrayAt? x.2 x.1 = some h.asArray := by
  rw [HeaderOwner.asArrayAt?, hx.self]

end HeaderOwner

/-! ### What is read -/

theorem readHeaders_ofList (headers : List (String × String)) :
    readHeaders (some (HeaderArray.ofList headers)) =
      headers.map fun x => (returned x.1, returned x.2) := by
  rw [readHeaders, HeaderArray.ofList]
  simp only [List.take_of_length_le, List.length_map, Nat.le_refl, List.map_map]
  rfl

/-- An array without entries, or without a pointer to them, has no headers, whatever is in
memory. -/
theorem readHeadersAt?_eq_nil {a : RawArray} (m : Memory) (h : a.entriesAt = 0 ∨ a.count = 0) :
    readHeadersAt? m (some a) = some [] := by
  rw [readHeadersAt?, resolve?]
  by_cases hnull : a.entriesAt = 0
  · rw [if_pos hnull]
    rfl
  · rw [if_neg hnull, if_pos (h.resolve_left hnull), h.resolve_left hnull]
    rfl

/-- What is read at a pointer to a text. -/
def readTextAt (m : Memory) (p : Place) : String := readCString (textBehind? m p).join

/-- The texts behind pointers that lead to texts, or are null. -/
theorem textsBehind?_of_valid {es : List (Place × Place)}
    (hvalid : ∀ e ∈ es, (textBehind? m e.1).isSome ∧ (textBehind? m e.2).isSome) :
    textsBehind? m es =
      some (es.map fun e => ((textBehind? m e.1).join, (textBehind? m e.2).join)) := by
  induction es with
  | nil => rfl
  | cons e es ih =>
      obtain ⟨⟨hname, hvalue⟩, hrest⟩ := List.forall_mem_cons.1 hvalid
      obtain ⟨name, hname⟩ := Option.isSome_iff_exists.1 hname
      obtain ⟨value, hvalue⟩ := Option.isSome_iff_exists.1 hvalue
      rw [textsBehind?, ih hrest, List.map_cons, hname, hvalue]
      rfl

/-- **What is read of any array** whose pointers lead to texts, or are null: as many pairs as it
counts, in order. -/
theorem readHeadersAt?_eq_map {a : RawArray} {es : List (Place × Place)} (hne : a.entriesAt ≠ 0)
    (hes : m.lookup a.entriesAt = some (.entries es)) (hcount : a.count ≤ es.length)
    (hvalid : ∀ e ∈ es.take a.count, (textBehind? m e.1).isSome ∧ (textBehind? m e.2).isSome) :
    readHeadersAt? m (some a) =
      some ((es.take a.count).map fun e => (readTextAt m e.1, readTextAt m e.2)) := by
  by_cases hzero : a.count = 0
  · rw [readHeadersAt?_eq_nil m (Or.inr hzero), hzero]
    rfl
  · have hresolve : resolve? m a = some ⟨a.count, a.capacity, some ((es.take a.count).map
        fun e => ((textBehind? m e.1).join, (textBehind? m e.2).join))⟩ := by
      rw [resolve?, if_neg hne, if_neg hzero, hes]
      simp only [if_pos hcount, textsBehind?_of_valid hvalid, Option.map_some]
    rw [readHeadersAt?, hresolve, Option.map_some, readHeaders]
    simp only [List.map_map, ← List.map_take, List.take_take, Nat.min_self]
    rfl

/-- **Header arrays lose nothing.** The array that is made of some headers counts as many as there
are, with no room for more. What is read of it are the texts as they come back, pair for pair in the
same order, and so it is after its owner was moved, and whatever else happened beside it. Texts
without zero characters that fit come back as they were. Of any array nothing is read if the array
or its entries are null, or it counts none; otherwise as many pairs as it counts are read, in order,
and a null pointer is the empty text. -/
theorem header_arrays_lose_nothing {fresh : Memory → Place} (hfresh : IsAllocator fresh)
    (headers : List (String × String)) (m : Memory) :
    let made := HeaderOwner.ofList fresh headers m
    let texts := headers.map fun x => (returned x.1, returned x.2)
    (made.1.asArray.count = headers.length ∧ made.1.asArray.capacity = headers.length ∧
      readHeadersAt? made.2 (some made.1.asArray) = some texts) ∧
    (∀ p ∉ made.1.owned, ∀ q later, made.1.Later (p, made.2.insert p (.owner made.1)) (q, later) →
      HeaderOwner.asArrayAt? later q = some made.1.asArray ∧
        readHeadersAt? later (some made.1.asArray) = some texts) ∧
    (∀ s : String, (∀ c ∈ s.toList, c ≠ '\x00') → (Text.Utf8.bytes s).length ≤ maxTextLength →
      returned s = s) ∧
    (∀ m, readHeadersAt? m none = some [] ∧ readTextAt m 0 = "" ∧ ∀ a : RawArray,
      (a.entriesAt = 0 ∨ a.count = 0 → readHeadersAt? m (some a) = some []) ∧
      ∀ es, a.entriesAt ≠ 0 → m.lookup a.entriesAt = some (.entries es) → a.count ≤ es.length →
        (∀ e ∈ es.take a.count, (textBehind? m e.1).isSome ∧ (textBehind? m e.2).isSome) →
        ∃ hs, readHeadersAt? m (some a) = some hs ∧ hs.length = a.count ∧
          hs = (es.take a.count).map fun e => (readTextAt m e.1, readTextAt m e.2)) := by
  intro made texts
  have hread : ∀ m', (∀ q ∈ made.1.owned, m'.lookup q = made.2.lookup q) →
      readHeadersAt? m' (some made.1.asArray) = some texts := fun m' hsame => by
    rw [readHeadersAt?, HeaderOwner.resolve?_ofList hfresh headers hsame, Option.map_some,
      readHeaders_ofList]
  have hcount : made.1.count = headers.length := HeaderOwner.count_ofList hfresh headers m
  refine ⟨⟨hcount, hcount, hread made.2 fun _ _ => rfl⟩, fun p hp q later hlater => ?_,
    fun s => returned_eq_self, fun m => ⟨rfl, rfl, fun a => ⟨readHeadersAt?_eq_nil m, ?_⟩⟩⟩
  · have hstands : made.1.Stands (p, made.2.insert p (.owner made.1)) :=
      ⟨Finmap.lookup_insert made.2, hp⟩
    obtain ⟨hlater, hsame⟩ := hlater.keeps hstands
    refine ⟨hlater.asArrayAt?, hread later fun r hr => (hsame r hr).trans ?_⟩
    exact Finmap.lookup_insert_of_ne made.2 fun he => hp (he ▸ hr)
  · intro es hne hes hle hvalid
    exact ⟨_, readHeadersAt?_eq_map hne hes hle hvalid, by simpa using hle, rfl⟩

/-- The place behind all that are in use. -/
def nextPlace (m : Memory) : Place := m.keys.sup id + 1

theorem isAllocator_nextPlace : IsAllocator nextPlace := by
  refine ⟨fun m => Nat.succ_ne_zero _, fun m => Finmap.lookup_eq_none.2 fun hmem => ?_⟩
  have hle : id (nextPlace m) ≤ m.keys.sup id := Finset.le_sup (Finmap.mem_keys.2 hmem)
  exact Nat.not_succ_le_self _ hle

/-- Three headers, two of them the same, are read after their owner was moved. -/
theorem repeated_header_read_after_move :
    let headers := [(":authority", "example.com"), ("x", "7"), ("x", "7")]
    let made := HeaderOwner.ofList nextPlace headers ∅
    IsAllocator nextPlace ∧ readHeadersAt? made.2 (some made.1.asArray) = some headers ∧
      ∃ p q later, p ≠ q ∧ made.1.Later (p, made.2.insert p (.owner made.1)) (q, later) ∧
        HeaderOwner.asArrayAt? later q = some made.1.asArray ∧
        readHeadersAt? later (some made.1.asArray) = some headers := by
  intro headers made
  obtain ⟨⟨-, -, hread⟩, hmoved, hsame, -⟩ :=
    header_arrays_lose_nothing isAllocator_nextPlace headers ∅
  have htexts : headers.map (fun x => (returned x.1, returned x.2)) = headers := by
    have hshort : ∀ x ∈ headers, ∀ s ∈ [x.1, x.2], (∀ c ∈ s.toList, c ≠ '\x00') ∧
        (Text.Utf8.bytes s).length ≤ maxTextLength := by
      simp [headers, Text.Utf8.bytes, Text.Utf8.encode, maxTextLength, Char.utf8Size]
    refine (List.map_congr_left fun x hx => ?_).trans (List.map_id headers)
    simp only [List.forall_mem_cons] at hshort
    obtain ⟨hname, hvalue, -⟩ := hshort x hx
    rw [hsame _ hname.1 hname.2, hsame _ hvalue.1 hvalue.2]
    rfl
  rw [htexts] at hread hmoved
  have howned : made.1.owned = [1, 2, 3, 4, 5, 6, 7] := by decide +kernel
  have hlater : made.1.Later (8, made.2.insert 8 (.owner made.1))
      (9, ((made.2.insert 8 (.owner made.1)).erase 8).insert 9 (.owner made.1)) :=
    .single (.move (Finmap.lookup_insert _) (by decide) (by rw [howned]; decide))
  exact ⟨isAllocator_nextPlace, hread, 8, 9, _, by decide, hlater,
    hmoved 8 (by rw [howned]; decide) 9 _ hlater⟩

end LateBinding.Native
