import LateBinding.Pin
import LateBinding.Proofs.Client.TextField
import LateBinding.Proofs.Native.PointerMemory

/-!
**The hashes of keys reach the verifier as they are.**

A verifier is made from the hashes of keys in one call of the library, and from no hashes in none:
the answer is the null handle then. What the call passes is an array with a pointer for each hash,
and their number. In memory the hashes stand one behind the other; the array is made beside them,
and behind each of its pointers the library finds the hash with the same number, **also a hash of
zeros, and a hash that comes twice comes twice**.

A verifier is installed exactly if the library has made one. Nothing else happens at the engine
otherwise.

Main definitions:

* `LateBinding.Client.making`, `LateBinding.Client.installing` — the two calls;
* `LateBinding.Client.made` — the library after the first one, and the verifier that it answers.

Main results:

* `LateBinding.Client.runOn_makeKeyVerifier` — making a verifier;
* `LateBinding.Client.runOn_installKeyVerifier` — making a verifier and installing it;
* `LateBinding.Client.hashes_found_in_memory` — **what the library finds behind the pointers**;
* `LateBinding.Client.key_hashes_reach_verifier` — all of it together.
-/

set_option autoImplicit false

namespace LateBinding.Client

open Native (Address Word Value Cells Slice RawPointers PointerArray IsRoom bytesAt? pointersAt?)
open Program (Machine)

/-! ### The calls -/

/-- The call that makes a verifier from some hashes. -/
def making (hashes : List (List UInt8)) : String × List Word :=
  ("Cronet_CreateCertVerifierWithPublicKeySHA256",
    [.pointers (PointerArray.ofList hashes), .int hashes.length])

/-- The call that installs a verifier on an engine. -/
def installing (engine verifier : Address) : String × List Word :=
  ("Cronet_Engine_SetMockCertVerifierForTesting", [.handle engine, .handle verifier])

variable {σ : Type} {lib : Machine σ} {s : σ} {hashes : List (List UInt8)} {engine : Address}

/-- The library after it has been called to make a verifier, and the verifier that it answers. -/
def made (lib : Machine σ) (hashes : List (List UInt8)) (s : σ) : σ × Address :=
  ((lib (making hashes).1 (making hashes).2 s).1,
    (lib (making hashes).1 (making hashes).2 s).2.address)

/-- **Making a verifier**: one call, and none without hashes. -/
theorem runOn_makeKeyVerifier (lib : Machine σ) (s : σ) (hashes : List (List UInt8)) :
    (makeKeyVerifier hashes).runOn lib s =
      if hashes = [] then (nullHandle, [], s)
      else ((made lib hashes s).2, [making hashes], (made lib hashes s).1) := by
  cases hashes with
  | nil => rfl
  | cons hash hashes => rfl

/-- Installing a verifier that has been made: one call more, and none for the null handle. -/
theorem runOn_installKeyVerifier (lib : Machine σ) (s : σ) (engine : Address)
    (hashes : List (List UInt8)) : (installKeyVerifier engine hashes).runOn lib s =
      if hashes = [] then (false, [], s)
      else if (made lib hashes s).2 = nullHandle
        then (false, [making hashes], (made lib hashes s).1)
      else (true, [making hashes, installing engine (made lib hashes s).2],
        (lib (installing engine (made lib hashes s).2).1 (installing engine (made lib hashes s).2).2
          (made lib hashes s).1).1) := by
  rw [installKeyVerifier, Program.runOn_bind, runOn_makeKeyVerifier]
  by_cases hnone : hashes = []
  · simp only [if_pos hnone]
    rfl
  · simp only [if_neg hnone]
    by_cases hnull : (made lib hashes s).2 = nullHandle
    · simp only [if_pos hnull]
      rfl
    · simp only [if_neg hnull]
      rfl

/-! ### The memory -/

variable {m m' : Cells} {base p : Nat} {a : RawPointers}

/-- **What the library finds behind the pointers**: as many bytes as a hash has, and these are the
hash. -/
theorem hashes_found_in_memory (hsize : ∀ hash ∈ hashes, hash.length = Pin.digestSize)
    (hbase : base ≠ 0)
    (hbytes : bytesAt? m base hashes.flatten.length = some hashes.flatten)
    (hroom : IsRoom m p (8 * hashes.length))
    (hmade : RawPointers.ofSlices p (Slice.consecutive base hashes) m = (a, m')) :
    a.count = hashes.length ∧
      a.arrayAt? m' (hashes.map List.length) = some (PointerArray.ofList hashes) ∧
      ∃ ps, pointersAt? m' a.items a.count = some ps ∧ List.Forall₂
        (fun q hash => q ≠ 0 ∧ bytesAt? m' q Pin.digestSize = some hash) ps hashes := by
  have hslices := Slice.holds_consecutive hbase hbytes
  rw [← hslices.length_eq] at hroom
  have hstands := RawPointers.stands_ofSlices hroom hslices
  rw [hmade] at hstands
  exact ⟨hstands.count, hstands.arrayAt?, hstands.exists_pointers hsize (by decide)⟩

/-- **The hashes of keys reach the verifier as they are.** Making a verifier is one call, which
passes an array for the hashes and their number, and no call without hashes. It is installed if the
library made one, by one call more for this verifier and that engine; otherwise nothing more is
called.

Of any byte strings, wherever they stand, an array has a pointer for each, in order, which leads to
it and is null exactly if it is empty; the array is null exactly if there are none. Of hashes that
stand one behind the other, the array is the one that the call passes; no pointer is null, and the
bytes that the library reads behind each are the hash. -/
theorem key_hashes_reach_verifier :
    (∀ (σ : Type) (lib : Machine σ) s hashes,
      (hashes = [] →
        (Operation.makeKeyVerifier hashes).program.runOn lib s =
          (.value (.handle nullHandle), [], s)) ∧
      (hashes ≠ [] →
        (Operation.makeKeyVerifier hashes).program.runOn lib s =
          (.value (.handle (made lib hashes s).2), [making hashes], (made lib hashes s).1))) ∧
    (∀ (σ : Type) (lib : Machine σ) s engine hashes,
      (hashes = [] →
        (Operation.installKeyVerifier engine hashes).program.runOn lib s =
          (.value (.bool false), [], s)) ∧
      (hashes ≠ [] → (made lib hashes s).2 = nullHandle →
        (Operation.installKeyVerifier engine hashes).program.runOn lib s =
          (.value (.bool false), [making hashes], (made lib hashes s).1)) ∧
      (hashes ≠ [] → (made lib hashes s).2 ≠ nullHandle →
        (Operation.installKeyVerifier engine hashes).program.runOn lib s =
          (.value (.bool true), [making hashes, installing engine (made lib hashes s).2],
            (lib (installing engine (made lib hashes s).2).1
              (installing engine (made lib hashes s).2).2
              (made lib hashes s).1).1))) ∧
    (∀ m m' p ss items a, List.Forall₂ (Slice.Holds m) ss items → IsRoom m p (8 * ss.length) →
      RawPointers.ofSlices p ss m = (a, m') → a.Stands m' items) ∧
    ∀ m m' p base hashes a, (∀ hash ∈ hashes, hash.length = Pin.digestSize) → base ≠ 0 →
      bytesAt? m base hashes.flatten.length = some hashes.flatten → IsRoom m p (8 * hashes.length) →
      RawPointers.ofSlices p (Slice.consecutive base hashes) m = (a, m') →
      a.count = hashes.length ∧
        a.arrayAt? m' (hashes.map List.length) = some (PointerArray.ofList hashes) ∧
        ∃ ps, pointersAt? m' a.items a.count = some ps ∧ List.Forall₂
          (fun q hash => q ≠ 0 ∧ bytesAt? m' q Pin.digestSize = some hash) ps hashes := by
  refine ⟨?_, ?_, ?_, fun m m' p base hashes a => hashes_found_in_memory⟩
  · intro σ lib s hashes
    have hrun : (Operation.makeKeyVerifier hashes).program.runOn lib s =
        (.value (.handle ((makeKeyVerifier hashes).runOn lib s).1),
          ((makeKeyVerifier hashes).runOn lib s).2) := by
      rw [Operation.program, Program.runOn_bind]
      simp only [Program.runOn, List.append_nil]
    rw [hrun, runOn_makeKeyVerifier]
    exact ⟨fun h => by simp only [if_pos h], fun h => by simp only [if_neg h]⟩
  · intro σ lib s engine hashes
    have hrun : (Operation.installKeyVerifier engine hashes).program.runOn lib s =
        (.value (.bool ((installKeyVerifier engine hashes).runOn lib s).1),
          ((installKeyVerifier engine hashes).runOn lib s).2) := by
      rw [Operation.program, Program.runOn_bind]
      simp only [Program.runOn, List.append_nil]
    rw [hrun, runOn_installKeyVerifier]
    exact ⟨fun h => by simp only [if_pos h], fun h hnull => by simp only [if_neg h, if_pos hnull],
      fun h hnull => by simp only [if_neg h, if_neg hnull]⟩
  · intro m m' p ss items a hss hroom hmade
    have hstands := RawPointers.stands_ofSlices hroom hss
    rw [hmade] at hstands
    exact hstands

/-- A library that makes this verifier from any hashes. -/
def answering (verifier : Address) : Machine Unit := fun _ _ s => (s, .handle verifier)

/-- A hash of zeros. -/
def zeroHash : List UInt8 := List.replicate 32 0

/-- Memory with two hashes of zeros. -/
def zeros : Cells := fun q => if 64 ≤ q ∧ q < 128 then some (.byte 0) else none

/-- Two hashes of zeros are found as such, and the verifier made of them is installed; none is
installed without hashes, or where the library makes none. An empty byte string may stand beside one
of them. -/
theorem zero_hashes_found :
    (Operation.installKeyVerifier 1 [zeroHash, zeroHash]).program.runOn (answering 7) () =
      (.value (.bool true), [making [zeroHash, zeroHash], installing 1 7], ()) ∧
    (Operation.installKeyVerifier 1 [zeroHash]).program.runOn (answering 0) () =
      (.value (.bool false), [making [zeroHash]], ()) ∧
    (Operation.makeKeyVerifier []).program.runOn (answering 7) () = (.value (.handle 0), [], ()) ∧
    (∃ (m' : Cells) (a : RawPointers) (ps : List Nat),
      pointersAt? m' a.items a.count = some ps ∧ a.count = 2 ∧ List.Forall₂
        (fun q hash => q ≠ 0 ∧ bytesAt? m' q 32 = some hash) ps [zeroHash, zeroHash]) ∧
    ∃ m' a, RawPointers.Stands m' a [[], zeroHash] := by
  obtain ⟨hmake, hinstall, hany, hhashes⟩ := key_hashes_reach_verifier
  have hroom : IsRoom zeros 8 16 := ⟨by decide, fun q _ hq => if_neg (by omega)⟩
  have hbytes : bytesAt? zeros 64 64 = some (zeroHash ++ (zeroHash ++ [])) := by decide +kernel
  obtain ⟨hcount, -, ps, hps, hfound⟩ := hhashes zeros _ 8 64 [zeroHash, zeroHash] _
    (List.forall_mem_cons.2 ⟨rfl, List.forall_mem_singleton.2 rfl⟩) (by decide) hbytes hroom rfl
  have hslices : List.Forall₂ (Slice.Holds zeros) [⟨1, 0⟩, ⟨64, 32⟩] [[], zeroHash] :=
    .cons ⟨by decide, rfl, rfl⟩ (.cons ⟨by decide, rfl, by decide +kernel⟩ .nil)
  refine ⟨?_, ?_, ?_, ⟨_, _, ps, hps, hcount, hfound⟩,
    ⟨_, _, hany zeros _ 8 _ _ _ hslices hroom rfl⟩⟩
  · exact (hinstall Unit (answering 7) () 1 [zeroHash, zeroHash]).2.2 (List.cons_ne_nil _ _)
      (by decide)
  · exact (hinstall Unit (answering 0) () 1 [zeroHash]).2.1 (List.cons_ne_nil _ _) rfl
  · exact (hmake Unit (answering 7) () []).1 rfl

end LateBinding.Client
