import LateBinding.Proofs.Client.Durability
import LateBinding.Proofs.Json.Closing

/-!
**An edit that is refused changes nothing.**

An edit reads the options before it stores anything, so where they cannot be edited, the library is
asked for them and for nothing else. That is so in particular if they are the text of an object that
is longer than the cap: what is read of it is cut off, which is **never taken for a smaller
object**, and no option is dropped in silence.

Main definitions:

* `LateBinding.Client.Operation.SetsOption` — an operation sets or removes an option, to any value.

Main results:

* `LateBinding.Options.read_of_long` — **the text of an object that is too long is malformed**;
* `LateBinding.Client.Shows.runOn_of_refused` — all that an edit does that is refused;
* `LateBinding.Client.refused_edit_changes_nothing` — both together.
-/

set_option autoImplicit false

namespace LateBinding.Options

open Native (readCString maxTextLength)
open Text.Utf8 (encode)

/-- **The text of an object that is longer than the cap is malformed**, whatever stands behind it in
memory. -/
theorem read_of_long {x : List Char} (hx : Json.FormedObject x)
    (hlen : maxTextLength < (encode x).length) (rest : List UInt8) :
    read (readCString (some (encode x ++ 0 :: rest))) = .error .malformed := by
  have h0 := hx.ne_zero
  have hwhole : ∀ v rest, Json.readValue Json.maxDepth x = some (v, rest) → rest = [] :=
    fun _ _ => hx.rest_eq_nil
  obtain ⟨t, rfl, -⟩ := hx.afterClose_eq []
  exact read_cut hwhole (isCutOff_readCString h0 hlen rest)

end LateBinding.Options

namespace LateBinding.Client

open Native (Address Word CString readCString maxTextLength)
open Program (Machine)
open Simulation (Objects)
open Text.Utf8 (encode)

variable {σ : Type} {lib : Machine σ} {params : Address} {text : σ → Option (List UInt8)} {s : σ}
  {op : Operation} {key : String} {value : Option Json} {e : Options.Error}

/-- An operation sets an option to a value, removes it, or does so for a feature. -/
inductive Operation.SetsOption (params : Address) : Operation → String → Option Json → Prop
  | option (key : String) (value : Option Json) :
      SetsOption params (.setOption params key value) key value
  | feature (f : Options.Feature) : SetsOption params (.setFeature params f) f.key f.value

theorem Operation.SetsOption.program (h : op.SetsOption params key value) :
    op.program = (do let e ← Client.setOption params key value; .done (.edited e)) := by
  cases h <;> rfl

namespace Shows

theorem runOn_of_error (hlib : Shows lib params text) (hop : op.SetsOption params key value)
    (h : Options.edit (readCString (text s)) key value = .error e) :
    op.program.runOn lib s =
      (.edited (.error e), [(optionsGetter.symbol, [.handle params])],
        (lib optionsGetter.symbol [.handle params] s).1) := by
  rw [hop.program, Program.runOn_bind, hlib.runOn_setOption_of_error h]
  rfl

/-- **All that an edit does that is refused**: it asks for the options. -/
theorem runOn_of_refused (hlib : Shows lib params text) (hop : op.SetsOption params key value)
    (h : (op.program.runOn lib s).1 = .edited (.error e)) :
    op.program.runOn lib s =
      (.edited (.error e), [(optionsGetter.symbol, [.handle params])],
        (lib optionsGetter.symbol [.handle params] s).1) := by
  cases hedit : Options.edit (readCString (text s)) key value with
  | error e' =>
      have hrun := hlib.runOn_of_error hop hedit
      rw [hrun] at h
      cases h
      exact hrun
  | ok x =>
      rw [hop.program, Program.runOn_bind, hlib.runOn_setOption_of_ok hedit] at h
      cases h

end Shows

/-- **An edit that is refused changes nothing.** If the options are the text of an object that is
longer than the cap, then every edit, of whatever key to whatever value, is refused as malformed:
the library is asked for the options and for nothing else, and has the same text as before. And
whatever the options are, after an edit that was refused, direct or of a feature, the library was
asked for the options only; its text is the same, and so is everything else that does not change
when it is asked for them. -/
theorem refused_edit_changes_nothing (hlib : Shows lib params text) :
    (∀ (s : σ) (x : List Char) (rest : List UInt8), Json.FormedObject x →
      maxTextLength < (encode x).length → text s = some (encode x ++ 0 :: rest) →
      ∀ (op : Operation) (key : String) (value : Option Json), op.SetsOption params key value →
        (op.program.runOn lib s).1 = .edited (.error .malformed) ∧
          (op.program.runOn lib s).2.1 = [(optionsGetter.symbol, [.handle params])] ∧
          text (op.program.runOn lib s).2.2 = text s) ∧
    ∀ (s : σ) (op : Operation) (key : String) (value : Option Json) (e : Options.Error),
      op.SetsOption params key value → (op.program.runOn lib s).1 = .edited (.error e) →
        (op.program.runOn lib s).2.1 = [(optionsGetter.symbol, [.handle params])] ∧
          text (op.program.runOn lib s).2.2 = text s ∧
          ∀ {φ : Type} (field : σ → φ),
            (∀ s, field (lib optionsGetter.symbol [.handle params] s).1 = field s) →
            field (op.program.runOn lib s).2.2 = field s := by
  refine ⟨fun s x rest hx hlen htext op key value hop => ?_, fun s op key value e hop h => ?_⟩
  · have hedit : Options.edit (readCString (text s)) key value = .error .malformed := by
      rw [Options.edit, htext, Options.read_of_long hx hlen rest]
      rfl
    rw [hlib.runOn_of_error hop hedit]
    exact ⟨rfl, rfl, hlib.get s⟩
  · rw [hlib.runOn_of_refused hop h]
    exact ⟨rfl, hlib.get s, fun field hfield => hfield s⟩

/-- The text of an object with one member, a string of so many characters. -/
def longOptions (n : Nat) : List Char :=
  ['\x7b', '"', 'a', '"', ':', '"'] ++ (List.replicate n 'a' ++ ['"', '\x7d'])

theorem formedString_replicate (n : Nat) : Json.FormedString (List.replicate n 'a') := by
  induction n with
  | zero => exact .nil
  | succ n ih => exact .plain (by decide) (by decide) (by decide) ih

theorem formedObject_longOptions (n : Nat) : Json.FormedObject (longOptions n) := by
  have hvalue : Json.Formed 0 ('"' :: (List.replicate n 'a' ++ ['"'])) :=
    .string (formedString_replicate n)
  have hspace : Json.IsSpacing [] := nofun
  have hmember := Json.FormedMember.mk (formedString_replicate 1) hspace hspace hvalue
  refine ⟨0, _, [()], ?_, .listed hspace (.one hmember hspace)⟩
  simp [longOptions]

theorem length_longOptions (n : Nat) : (encode (longOptions n)).length = n + 8 := by
  have hletter : (String.utf8EncodeChar 'a').length = 1 := by decide
  have hopening : (encode ['\x7b', '"', 'a', '"', ':', '"']).length = 6 := by decide
  have hclosing : (encode ['"', '\x7d']).length = 2 := by decide
  simp only [longOptions, Text.Utf8.encode_append, List.length_append,
    Text.Utf8.length_encode_replicate, hletter, hopening, hclosing]
  omega

/-- To ask for the options changes nothing in the simulated library. -/
theorem machine_optionsGetter (params : Address) (o : Objects) :
    (Objects.machine optionsGetter.symbol [.handle params] o).1 = o := by
  have hfetch : Simulation.access? optionsGetter.symbol =
      some (.fetch "Cronet_EngineParams_experimental_options") :=
    Simulation.access?_get "Cronet_EngineParams_experimental_options"
  rw [Objects.machine_of_access hfetch]
  rfl

/-- Options that are eight bytes too long: an edit is refused, and all objects are as before. -/
theorem long_options_not_dropped :
    Shows Objects.machine 1 (simulatedOptions 1) ∧ ∃ s : Objects,
      simulatedOptions 1 s = some (encode (longOptions maxTextLength) ++ [0]) ∧
      ((Operation.setFeature 1 (.asyncDns false)).program.runOn Objects.machine s).1 =
        .edited (.error .malformed) ∧
      ((Operation.setFeature 1 (.asyncDns false)).program.runOn Objects.machine s).2.2 = s := by
  have hkeeps := keeps_simulatedOptions 1
  have hformed := formedObject_longOptions maxTextLength
  have hlength : maxTextLength < (encode (longOptions maxTextLength)).length := by
    rw [length_longOptions]
    exact Nat.lt_add_of_pos_right (by decide)
  obtain ⟨s, htext⟩ : ∃ s : Objects,
      simulatedOptions 1 s = some (encode (longOptions maxTextLength) ++ [0]) := by
    have h0 : ∀ c ∈ (String.ofList (longOptions maxTextLength)).toList, c ≠ '\x00' := by
      rw [String.toList_ofList]
      exact hformed.ne_zero
    have hset := hkeeps.set {} (CString.ofText (String.ofList (longOptions maxTextLength)))
    rw [Native.kept_ofText h0, String.toList_ofList] at hset
    exact ⟨_, hset⟩
  obtain ⟨hlong, hrefused⟩ := refused_edit_changes_nothing hkeeps.shows
  have hop : (Operation.setFeature 1 (.asyncDns false)).SetsOption 1 _ _ := .feature _
  obtain ⟨hanswer, -, -⟩ := hlong _ _ [] hformed hlength htext _ _ _ hop
  obtain ⟨-, -, hfields⟩ := hrefused _ _ _ _ _ hop hanswer
  exact ⟨hkeeps.shows, s, htext, hanswer, hfields id (machine_optionsGetter 1)⟩

end LateBinding.Client
