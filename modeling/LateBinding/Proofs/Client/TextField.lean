import Mathlib.Logic.Function.Iterate
import LateBinding.Proofs.Client.Running
import LateBinding.Proofs.Native.Returned
import LateBinding.Proofs.Simulation.Undisturbed
import LateBinding.Proofs.Simulation.Wiring

/-!
**A text field that was written back once does not change again.**

A library keeps a text field of an object if it stores a copy of the C string that it is given and
answers it again. Whoever reads such a field gets what comes back of the text that was set. That may
be shorter than the text, so to write it back changes the memory of the library once. But what comes
back comes back again: **however often the field is written back, it reads the same**, and from the
first time on the memory is the same too.

Main definitions:

* `LateBinding.Client.KeepsText` — a library keeps a text field of an object;
* `LateBinding.Client.writeBack` — a field is set to what is read from it.

Main results:

* `LateBinding.Client.keepsText_simulated` — the simulated library keeps every text field;
* `LateBinding.Client.KeepsText.runOn_writeBack` — what it does to write a field back;
* `LateBinding.Client.KeepsText.text_iterate_writeBack` — **what it does to write it back again and
  again**;
* `LateBinding.Client.text_survives_writing_back` — that, with what comes back of every text.
-/

set_option autoImplicit false

/-! ### Fields of the simulated library -/

namespace LateBinding.Simulation

/-- A name with an ending, without it. -/
theorem dropEnding?_append (name ending : String) :
    dropEnding? ending (name ++ ending) = some name := by
  simp [dropEnding?, String.toList_append]

/-- What a function does that is named by a field and an ending, if its name has none of the endings
that are tried before. -/
theorem access?_append {ending : String} {f : String → Access}
    {before after : List (String × (String → Access))}
    (h : endings = before ++ (ending, f) :: after)
    (hne : ∀ e ∈ before, ∀ t, ¬ e.1.toList.reverse <+: ending.toList.reverse ++ t) (name : String) :
    access? (name ++ ending) = some (f name) := by
  have hbefore : before.findSome? (fun e => (dropEnding? e.1 (name ++ ending)).map e.2) = none := by
    refine List.findSome?_eq_none_iff.2 fun e he => ?_
    rw [dropEnding?]
    simp only [String.toList_append, List.reverse_append, List.isPrefixOf_iff_prefix]
    rw [if_neg (hne e he _)]
    rfl
  rw [access?, h, List.findSome?_append, hbefore, Option.none_or, List.findSome?_cons,
    dropEnding?_append]
  rfl

/-- A getter fetches the field that it is named for. -/
theorem access?_get (name : String) : access? (name ++ "_get") = some (.fetch name) := by
  have h : endings = [("_SetClientContext", .store), ("_GetClientContext", .fetch),
      ("_set", .store)] ++ ("_get", .fetch) ::
        [("_add", .append), ("_size", .count), ("_at", .item), ("_clear", .clear)] := rfl
  exact access?_append h (by simp) name

/-- A setter stores into the field that it is named for. -/
theorem access?_set (name : String) : access? (name ++ "_set") = some (.store name) := by
  have h : endings = [("_SetClientContext", .store), ("_GetClientContext", .fetch)] ++
      ("_set", .store) ::
        [("_get", .fetch), ("_add", .append), ("_size", .count), ("_at", .item),
          ("_clear", .clear)] := rfl
  exact access?_append h (by simp) name

end LateBinding.Simulation

namespace LateBinding.Client

open Native
  (Address Word Value CString readCString returned beforeZero maxTextLength IsLongestFitting
  IsCutInside)
open LateBinding.Symbol (Slot)
open Simulation (Objects find? put nothing)
open Text.Utf8 (bytes replacement)
open Program (Machine)

/-! ### Libraries that keep a text field -/

variable {σ : Type} {lib : Machine σ} {getter setter : Slot} {object : Address}
  {text : σ → Option (List UInt8)} {s : σ}

/-- A library keeps a text field of an object, where `text` is the memory of the field in a state:
it answers that memory, and of a C string that it is given it stores what comes before the
terminator. -/
structure KeepsText (lib : Machine σ) (getter setter : Slot) (object : Address)
    (text : σ → Option (List UInt8)) : Prop where
  isText : getter.result = .text
  answers : ∀ s, (lib getter.symbol [.handle object] s).2.memory = text s
  get : ∀ s, text (lib getter.symbol [.handle object] s).1 = text s
  set : ∀ s c, text (lib setter.symbol [.handle object, CString.toWord c] s).1 = some c.kept

/-- The memory that the simulated library has for a field. -/
def simulatedText (getter : Slot) (object : Address) (name : String) (o : Objects) :
    Option (List UInt8) :=
  ((find? (object, name) o.values).getD (nothing getter.symbol)).memory

/-- **The simulated library keeps every text field**: what a setter of a name stores, the getter of
that name answers. -/
theorem keepsText_simulated {name : String} (htext : getter.result = .text)
    (hgetter : getter.symbol = name ++ "_get") (hsetter : setter.symbol = name ++ "_set")
    (object : Address) :
    KeepsText Objects.machine getter setter object (simulatedText getter object name) := by
  have hfetch : Simulation.access? getter.symbol = some (.fetch name) := by
    rw [hgetter, Simulation.access?_get]
  have hstore : Simulation.access? setter.symbol = some (.store name) := by
    rw [hsetter, Simulation.access?_set]
  have hget := Objects.machine_of_access hfetch
  have hset := Objects.machine_of_access hstore
  refine ⟨htext, fun o => ?_, fun o => ?_, fun o c => ?_⟩
  · rw [hget]
    rfl
  · rw [hget]
    rfl
  · rw [hset]
    change Word.memory
      ((find? (object, name) (put (object, name) (Simulation.keep c.toWord) _)).getD _) = _
    rw [Simulation.find?_put]
    rfl

/-! ### Writing back -/

/-- Sets a field to what is read from it. -/
def writeBack (getter setter : Slot) (object : Address) : Program Result := do
  match ← (Operation.direct getter [.handle object]).program with
  | .value v => (Operation.direct setter [.handle object, v]).program
  | r => .done r

namespace KeepsText

/-- Whoever reads the field gets the text that the library keeps. -/
theorem runOn_get (hlib : KeepsText lib getter setter object text) (s : σ) :
    (Operation.direct getter [.handle object]).program.runOn lib s =
      (.value (.text (readCString (text s))), [(getter.symbol, [.handle object])],
        (lib getter.symbol [.handle object] s).1) := by
  rw [← hlib.answers s, Operation.program, Program.runOn_bind, hlib.isText]
  rfl

/-- The library keeps a copy of what it sees of a text that the field is set to. -/
theorem text_set (hlib : KeepsText lib getter setter object text) (x : String) (s : σ) :
    text ((Operation.direct setter [.handle object, .text x]).program.runOn lib s).2.2 =
      some (CString.ofText x).kept := by
  rw [Operation.program, Program.runOn_bind]
  exact hlib.set s (CString.ofText x)

/-- **A field that is written back** is set to what is read from it. -/
theorem runOn_writeBack (hlib : KeepsText lib getter setter object text) (s : σ) :
    text ((writeBack getter setter object).runOn lib s).2.2 =
      some (CString.ofText (readCString (text s))).kept := by
  rw [writeBack, Program.runOn_bind, hlib.runOn_get]
  exact hlib.text_set _ _

/-- **However often a field is written back that was set to a text**, it reads as what comes back of
that text, and the memory does not change after the first time. -/
theorem text_iterate_writeBack (hlib : KeepsText lib getter setter object text) {x : String}
    (hs : text s = some (CString.ofText x).kept) (n : Nat) :
    let t := Nat.iterate (fun s => ((writeBack getter setter object).runOn lib s).2.2) n s
    readCString (text t) = returned x ∧
      (0 < n → text t = some (CString.ofText (returned x)).kept) := by
  intro t
  induction n with
  | zero => exact ⟨by rw [show t = s from rfl, hs, Native.readCString_kept_eq], nofun⟩
  | succ n ih =>
      obtain ⟨hread, -⟩ := ih
      have htext : text t = some (CString.ofText (returned x)).kept := by
        rw [show t = _ from Function.iterate_succ_apply' _ n s, hlib.runOn_writeBack, hread]
      refine ⟨?_, fun _ => htext⟩
      rw [htext, Native.readCString_kept_eq, Native.returned_returned]

end KeepsText

/-- **What comes back of a text, and that it comes back for ever.** Of every text the longest part
comes back that stands before its first zero character and fits, followed by one U+FFFD if and only
if the cap falls inside a character. So a text without zero characters that fits comes back as it
was, what came back comes back again, and it has two bytes at most beyond the cap. A text field that
was set to a text therefore reads the same however often it is set to what is read from it, and its
memory is the same from the first time on. -/
theorem text_survives_writing_back (hlib : KeepsText lib getter setter object text) :
    (∀ s : String, ∃ p, IsLongestFitting p (beforeZero s.toList) ∧
      ((returned s).toList = p ++ [replacement] ↔ IsCutInside (beforeZero s.toList)) ∧
      ((returned s).toList = p ↔ ¬ IsCutInside (beforeZero s.toList))) ∧
    (∀ s : String, (∀ c ∈ s.toList, c ≠ '\x00') → (bytes s).length ≤ maxTextLength →
      returned s = s) ∧
    (∀ s, returned (returned s) = returned s) ∧
    (∀ s, (bytes (returned s)).length ≤ maxTextLength + 2) ∧
    (∃ s, (bytes (returned s)).length = maxTextLength + 2) ∧
    ∀ (x : String) (s : σ) (n : Nat),
      let t := Nat.iterate (fun s => ((writeBack getter setter object).runOn lib s).2.2) n
        ((Operation.direct setter [.handle object, .text x]).program.runOn lib s).2.2
      ((Operation.direct getter [.handle object]).program.runOn lib t).1 =
          .value (.text (returned x)) ∧
        (0 < n → text t = some (CString.ofText (returned x)).kept) := by
  refine ⟨fun s => ?_, fun s => Native.returned_eq_self, Native.returned_returned,
    Native.length_returned_le, Native.exists_length_returned_eq, fun x s n => ?_⟩
  · obtain ⟨p, hp, ⟨hcut, -, h⟩ | ⟨hcut, h⟩⟩ := Native.returned_cases s
    · exact ⟨p, hp, iff_of_true h hcut, iff_of_false (by simp [h]) (not_not_intro hcut)⟩
    · exact ⟨p, hp, iff_of_false (by simp [h]) hcut, iff_of_true h hcut⟩
  · obtain ⟨hread, htext⟩ := hlib.text_iterate_writeBack (hlib.text_set x s) n
    exact ⟨by rw [hlib.runOn_get, hread], htext⟩

/-- The function that gives the user agent of an engine's parameters. -/
def userAgentGetter : Slot :=
  ⟨"engine_params", "engine_params_user_agent_get", "Cronet_EngineParams_user_agent_get",
    [.handle .engineParams], .text⟩

/-- The function that stores it. -/
def userAgentSetter : Slot :=
  ⟨"engine_params", "engine_params_user_agent_set", "Cronet_EngineParams_user_agent_set",
    [.handle .engineParams, .text], .unit⟩

/-- A user agent of which more comes back than the cap allows, and it comes back for ever. -/
theorem long_user_agent_survives :
    Symbol.slot? userAgentGetter.operation = some userAgentGetter ∧
    Symbol.slot? userAgentSetter.operation = some userAgentSetter ∧
    KeepsText Objects.machine userAgentGetter userAgentSetter 1
      (simulatedText userAgentGetter 1 "Cronet_EngineParams_user_agent") ∧
    ∃ x, (bytes (returned x)).length = maxTextLength + 2 ∧ ∀ n,
      ((Operation.direct userAgentGetter [.handle 1]).program.runOn Objects.machine
        (Nat.iterate
          (fun s => ((writeBack userAgentGetter userAgentSetter 1).runOn Objects.machine s).2.2) n
          ((Operation.direct userAgentSetter [.handle 1, .text x]).program.runOn Objects.machine
            {}).2.2)).1 = .value (.text (returned x)) := by
  have hlib : KeepsText Objects.machine userAgentGetter userAgentSetter 1
      (simulatedText userAgentGetter 1 "Cronet_EngineParams_user_agent") :=
    keepsText_simulated rfl (by decide) (by decide) 1
  obtain ⟨-, -, -, -, ⟨x, hx⟩, hkept⟩ := text_survives_writing_back hlib
  exact ⟨by decide +kernel, by decide +kernel, hlib, x, hx, fun n => (hkept x {} n).1⟩

end LateBinding.Client
