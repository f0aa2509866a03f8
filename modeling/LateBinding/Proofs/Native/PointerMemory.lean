import Mathlib.Data.List.Forall2
import Mathlib.Logic.Function.Basic
import LateBinding.Native.PointerArray

/-!
**Arrays of pointers in memory.**

Byte strings that stand somewhere in memory are handed over as the place of an array and a number.
In the array there is one pointer for each of them, eight places apart and in order; the pointer of
an empty byte string is null, whatever its place is, and so is the place of the array if there are
none. Who follows the pointers finds the byte strings as they were: **making the array touches
nothing that is in use**. The array that is found in this way is the one that a word stands for.

Main definitions:

* `LateBinding.Native.Cells`, `LateBinding.Native.bytesAt?`, `LateBinding.Native.pointersAt?` —
  memory, byte by byte, and what is read from it;
* `LateBinding.Native.Slice`, `LateBinding.Native.Slice.consecutive` — a byte string in memory, and
  byte strings one behind the other;
* `LateBinding.Native.RawPointers`, `LateBinding.Native.RawPointers.ofSlices` — an array as it
  crosses the boundary, and how it is made;
* `LateBinding.Native.RawPointers.Stands` — **an array that leads to some byte strings**.

Main results:

* `LateBinding.Native.pointersAt?_writePointers`, `LateBinding.Native.bytesAt?_writePointers` — what
  is written, and what stays;
* `LateBinding.Native.RawPointers.stands_ofSlices` — **the array that is made leads to the byte
  strings**;
* `LateBinding.Native.RawPointers.Stands.arrayAt?`,
  `LateBinding.Native.RawPointers.Stands.exists_pointers` — what is found there, each byte string in
  its own length, or all of them in one.
-/

set_option autoImplicit false

namespace LateBinding.Native

/-! ### Memory, byte by byte -/

/-- What stands at a place of memory, which is a number: a byte, or a pointer, which takes eight
places from here. Zero is the null pointer. -/
inductive Cell where
  | byte (b : UInt8)
  | pointer (p : Nat)

/-- What stands at the places that are in use. -/
abbrev Cells := Nat → Option Cell

/-- Some bytes from a place on. There is no result if something else stands there. -/
def bytesAt? (m : Cells) : Nat → Nat → Option (List UInt8)
  | _, 0 => some []
  | p, n + 1 =>
    match m p with
    | some (.byte b) => (bytesAt? m (p + 1) n).map (b :: ·)
    | _ => none

/-- Some pointers from a place on. -/
def pointersAt? (m : Cells) : Nat → Nat → Option (List Nat)
  | _, 0 => some []
  | p, n + 1 =>
    match m p with
    | some (.pointer q) => (pointersAt? m (p + 8) n).map (q :: ·)
    | _ => none

/-- Pointers are written from a place on. -/
def writePointers : Cells → Nat → List Nat → Cells
  | m, _, [] => m
  | m, p, q :: qs => writePointers (Function.update m p (some (.pointer q))) (p + 8) qs

/-- Room for something new: nothing stands there, and it is not at the null pointer. -/
structure IsRoom (m : Cells) (p : Nat) (size : Nat) : Prop where
  ne_null : p ≠ 0
  unused : ∀ q, p ≤ q → q < p + size → m q = none

variable {m m' : Cells} {p q : Nat} {b : UInt8} {bs cs : List UInt8} {ps : List Nat}

theorem bytesAt?_cons :
    bytesAt? m p (b :: bs).length = some (b :: bs) ↔
      m p = some (.byte b) ∧ bytesAt? m (p + 1) bs.length = some bs := by
  rw [List.length_cons, bytesAt?]
  split
  · rename_i c hc
    rw [hc, Option.map_eq_some_iff]
    simp [and_comm]
  · rename_i hno
    simp only [reduceCtorEq, false_iff, not_and]
    intro hb
    exact absurd hb (hno b)

/-- Bytes behind others. -/
theorem bytesAt?_append :
    bytesAt? m p (bs ++ cs).length = some (bs ++ cs) ↔
      bytesAt? m p bs.length = some bs ∧ bytesAt? m (p + bs.length) cs.length = some cs := by
  induction bs generalizing p with
  | nil => exact (and_iff_right rfl).symm
  | cons b bs ih =>
      rw [List.cons_append, bytesAt?_cons, bytesAt?_cons, ih, and_assoc, List.length_cons,
        Nat.add_right_comm, Nat.add_assoc]

/-- What is read stays where the places in use stay as they are. -/
theorem bytesAt?_of_same (hsame : ∀ q, m q ≠ none → m' q = m q)
    (h : bytesAt? m p bs.length = some bs) : bytesAt? m' p bs.length = some bs := by
  induction bs generalizing p with
  | nil => rfl
  | cons b bs ih =>
      obtain ⟨hb, hbs⟩ := bytesAt?_cons.1 h
      refine bytesAt?_cons.2 ⟨?_, ih hbs⟩
      rw [hsame p (by rw [hb]; nofun), hb]

/-! ### Writing pointers -/

theorem writePointers_of_lt (hq : q < p) : writePointers m p ps q = m q := by
  induction ps generalizing m p with
  | nil => rfl
  | cons x ps ih =>
      rw [writePointers, ih (by omega)]
      exact Function.update_of_ne (Nat.ne_of_lt hq) _ _

/-- **What is written is read.** -/
theorem pointersAt?_writePointers (m : Cells) (p : Nat) (ps : List Nat) :
    pointersAt? (writePointers m p ps) p ps.length = some ps := by
  induction ps generalizing m p with
  | nil => rfl
  | cons x ps ih =>
      have hfirst : writePointers m p (x :: ps) p = some (.pointer x) := by
        rw [writePointers, writePointers_of_lt (by omega), Function.update_self]
      rw [List.length_cons, pointersAt?, hfirst]
      simp only [writePointers, ih, Option.map_some]

/-- Places in use stay as they are where there is room for what is written. -/
theorem writePointers_of_ne_none (hroom : IsRoom m p (8 * ps.length)) (hq : m q ≠ none) :
    writePointers m p ps q = m q := by
  induction ps generalizing m p with
  | nil => rfl
  | cons x ps ih =>
      have hne : q ≠ p := by
        rintro rfl
        exact hq (hroom.unused q (Nat.le_refl q) (by rw [List.length_cons]; omega))
      have hkept : Function.update m p (some (.pointer x)) q = m q := Function.update_of_ne hne _ _
      have hrest : IsRoom (Function.update m p (some (.pointer x))) (p + 8) (8 * ps.length) := by
        refine ⟨Nat.succ_ne_zero _, ?_⟩
        intro r hlow hhigh
        rw [Function.update_of_ne (by omega)]
        exact hroom.unused r (by omega) (by rw [List.length_cons]; omega)
      rw [writePointers, ih hrest (by rwa [hkept]), hkept]

/-- **What stays**: bytes that stand where there was no room. -/
theorem bytesAt?_writePointers (hroom : IsRoom m p (8 * ps.length))
    (h : bytesAt? m q bs.length = some bs) :
    bytesAt? (writePointers m p ps) q bs.length = some bs :=
  bytesAt?_of_same (fun _ => writePointers_of_ne_none hroom) h

/-! ### Byte strings in memory -/

/-- The place of a byte string, and its length. -/
structure Slice where
  start : Nat
  length : Nat

namespace Slice

/-- What stands at a slice. An empty byte string has a place too, where nothing needs to stand. -/
structure Holds (m : Cells) (s : Slice) (bs : List UInt8) : Prop where
  ne_null : s.start ≠ 0
  length : s.length = bs.length
  bytes : bytesAt? m s.start bs.length = some bs

/-- The pointer to a byte string: null if it is empty. -/
def pointer (s : Slice) : Nat := if s.length = 0 then 0 else s.start

/-- Byte strings one behind the other. -/
def consecutive : Nat → List (List UInt8) → List Slice
  | _, [] => []
  | p, bs :: items => ⟨p, bs.length⟩ :: consecutive (p + bs.length) items

/-- The parts of what stands in one piece. -/
theorem holds_consecutive {items : List (List UInt8)} (hp : p ≠ 0)
    (h : bytesAt? m p items.flatten.length = some items.flatten) :
    List.Forall₂ (Holds m) (consecutive p items) items := by
  induction items generalizing p with
  | nil => exact .nil
  | cons bs items ih =>
      rw [List.flatten_cons] at h
      obtain ⟨hbs, hitems⟩ := bytesAt?_append.1 h
      exact .cons ⟨hp, rfl, hbs⟩ (ih (by omega) hitems)

end Slice

/-! ### Arrays of pointers -/

/-- An array of pointers as it crosses the boundary: its place and the number of pointers. -/
structure RawPointers where
  items : Nat
  count : Nat

/-- What stands behind a pointer, in some length: nothing behind the null pointer. -/
def behind? (m : Cells) (q : Nat) (n : Nat) : Option (List UInt8) :=
  if q = 0 then none else bytesAt? m q n

/-- A pointer to a byte string: null exactly if it is empty. -/
def Leads (m : Cells) (q : Nat) (bs : List UInt8) : Prop :=
  (q = 0 ↔ bs = []) ∧ bytesAt? m q bs.length = some bs

theorem Leads.behind? (h : Leads m q bs) :
    behind? m q bs.length = if bs.isEmpty then none else some bs := by
  rw [Native.behind?]
  cases bs with
  | nil => exact if_pos (h.1.2 rfl)
  | cons b bs => exact (if_neg (mt h.1.1 (List.cons_ne_nil b bs))).trans h.2

namespace RawPointers

/-- The array that points to some slices, and memory with its pointers from a place on. -/
def ofSlices (p : Nat) (ss : List Slice) (m : Cells) : RawPointers × Cells :=
  (⟨if ss.isEmpty then 0 else p, ss.length⟩, writePointers m p (ss.map Slice.pointer))

/-- **An array that leads to some byte strings**: it is null if there are none, and it has a pointer
for each. -/
structure Stands (m : Cells) (a : RawPointers) (items : List (List UInt8)) : Prop where
  null_iff : a.items = 0 ↔ items = []
  count : a.count = items.length
  pointers : ∃ ps, pointersAt? m a.items a.count = some ps ∧ List.Forall₂ (Leads m) ps items

/-- The pointers of an array, with what stands behind each of them in its length. -/
def arrayAt? (m : Cells) (lengths : List Nat) (a : RawPointers) : Option PointerArray :=
  (pointersAt? m a.items a.count).map fun ps => ⟨List.zipWith (behind? m) ps lengths⟩

variable {ss : List Slice} {items : List (List UInt8)} {a : RawPointers} {size : Nat}

theorem leads_pointer {s : Slice} (hroom : IsRoom m p (8 * ps.length)) (hs : s.Holds m bs) :
    Leads (writePointers m p ps) s.pointer bs := by
  have hlength := hs.length
  refine ⟨?_, ?_⟩
  · rw [Slice.pointer, ite_eq_left_iff, ← List.length_eq_zero_iff, ← hlength]
    exact ⟨fun h => not_not.1 fun hno => hs.ne_null (h hno), fun h hno => absurd h hno⟩
  · cases bs with
    | nil => rfl
    | cons b bs =>
        rw [Slice.pointer, if_neg (by rw [hlength, List.length_cons]; omega)]
        exact bytesAt?_writePointers hroom hs.bytes

/-- **The array that is made leads to the byte strings.** -/
theorem stands_ofSlices (hroom : IsRoom m p (8 * ss.length))
    (hss : List.Forall₂ (Slice.Holds m) ss items) :
    Stands (ofSlices p ss m).2 (ofSlices p ss m).1 items := by
  have hpointers : (ss.map Slice.pointer).length = ss.length := List.length_map _
  have hleads : List.Forall₂ (Leads (ofSlices p ss m).2) (ss.map Slice.pointer) items :=
    List.forall₂_map_left_iff.2 (hss.imp fun s bs hs => leads_pointer (hpointers.symm ▸ hroom) hs)
  refine ⟨?_, hss.length_eq, ss.map Slice.pointer, ?_, hleads⟩
  · cases hss with
    | nil => exact iff_of_true rfl rfl
    | cons hs hss => exact iff_of_false hroom.ne_null (List.cons_ne_nil _ _)
  · cases ss with
    | nil => rfl
    | cons s ss =>
        have hread := pointersAt?_writePointers m p ((s :: ss).map Slice.pointer)
        rw [hpointers] at hread
        exact hread

/-- **What is found behind the pointers** is the array that a word stands for. -/
theorem Stands.arrayAt? (h : Stands m a items) :
    a.arrayAt? m (items.map List.length) = some (PointerArray.ofList items) := by
  obtain ⟨ps, hps, hleads⟩ := h.pointers
  have hslots : List.zipWith (behind? m) ps (items.map List.length) =
      items.map fun bs => if bs.isEmpty then none else some bs := by
    clear hps h
    induction hleads with
    | nil => rfl
    | cons hq _ ih => rw [List.map_cons, List.zipWith_cons_cons, List.map_cons, ih, hq.behind?]
  rw [RawPointers.arrayAt?, hps, Option.map_some, hslots]
  rfl

/-- **What is found where all byte strings have one length**: no pointer is null, and each of them
leads to that many bytes. -/
theorem Stands.exists_pointers (h : Stands m a items) (hsize : ∀ bs ∈ items, bs.length = size)
    (hpos : size ≠ 0) : ∃ ps, pointersAt? m a.items a.count = some ps ∧
      List.Forall₂ (fun q bs => q ≠ 0 ∧ bytesAt? m q size = some bs) ps items := by
  obtain ⟨ps, hps, hleads⟩ := h.pointers
  refine ⟨ps, hps, ?_⟩
  clear hps h
  induction hleads with
  | nil => exact .nil
  | @cons q bs ps items hq _ ih =>
      have hbs : bs.length = size := hsize bs List.mem_cons_self
      refine .cons ⟨?_, hbs ▸ hq.2⟩ (ih fun cs hcs => hsize cs (List.mem_cons_of_mem bs hcs))
      intro hnull
      rw [hq.1.1 hnull] at hbs
      exact hpos hbs.symm

end RawPointers

end LateBinding.Native
