import LateBinding.Proofs.Options.Storage
import LateBinding.Proofs.Client.TextField

/-!
**Edits of options last as long as their text can be read.**

A library keeps the options of an engine's parameters if it stores a copy of the text that it is
given and answers it again. With such a library every edit that succeeds is seen by the next one and
by whoever reads the options, and the edits add up to what they do to the map of options. There is
one limit: an edit also succeeds where the text that it stores is too long or too deep to be read
again, and **from then on no edit succeeds**.

Main definitions:

* `LateBinding.Client.Keeps`, `LateBinding.Client.Shows` — a library keeps the options of an
  engine's parameters, or at least shows them;
* `LateBinding.Client.Operation.Edits`, `LateBinding.Client.Edited` — edits, and runs of edits that
  succeed.

Main results:

* `LateBinding.Client.keeps_simulatedOptions` — the simulated library keeps options;
* `LateBinding.Client.Operation.Edits.perform` — an edit in a session does what it does on that
  library;
* `LateBinding.Client.Keeps.runOn_setOption` — **what one edit does**;
* `LateBinding.Client.Keeps.exists_edited` — which edits succeed;
* `LateBinding.Client.Edited.text_eq` — what is stored after edits that succeed;
* `LateBinding.Client.edits_last_while_readable` — all of it together.
-/

set_option autoImplicit false

namespace LateBinding.Client

open Native (Address Word Value CString IsTextOf maxTextLength readCString)
open LateBinding.Symbol (Slot)
open Options (Fits stored apply applyAll)
open Simulation (Objects)
open Text.Utf8 (encode)

open Program (Machine)

/-! ### Libraries that keep options -/

/-- The function that gives the options of an engine's parameters. -/
def optionsGetter : Slot :=
  ⟨"engine_params", "engine_params_experimental_options_get",
    "Cronet_EngineParams_experimental_options_get", [.handle .engineParams], .text⟩

/-- The function that stores them. -/
def optionsSetter : Slot :=
  ⟨"engine_params", "engine_params_experimental_options_set",
    "Cronet_EngineParams_experimental_options_set", [.handle .engineParams, .text], .unit⟩

theorem slot?_options : Symbol.slot? optionsGetter.operation = some optionsGetter ∧
    Symbol.slot? optionsSetter.operation = some optionsSetter := by
  decide +kernel

variable {σ : Type} {lib : Machine σ} {params : Address} {text : σ → Option (List UInt8)} {s t : σ}

/-- A library keeps the options of an engine's parameters, where `text` is the memory of the text in
a state: it answers that memory, and of a text that it is given it stores what comes before the
terminator. -/
structure Keeps (lib : Machine σ) (params : Address) (text : σ → Option (List UInt8)) : Prop where
  answers : ∀ s, (lib optionsGetter.symbol [.handle params] s).2.memory = text s
  get : ∀ s, text (lib optionsGetter.symbol [.handle params] s).1 = text s
  set : ∀ s c, text (lib optionsSetter.symbol [.handle params, CString.toWord c] s).1 = some c.kept

/-- A library shows the options of an engine's parameters, where `text` is the memory of the text in
a state: it answers that memory, and to ask for it does not change it. -/
structure Shows (lib : Machine σ) (params : Address) (text : σ → Option (List UInt8)) : Prop where
  answers : ∀ s, (lib optionsGetter.symbol [.handle params] s).2.memory = text s
  get : ∀ s, text (lib optionsGetter.symbol [.handle params] s).1 = text s

theorem Keeps.shows (h : Keeps lib params text) : Shows lib params text := ⟨h.answers, h.get⟩

/-- A library keeps the options if it keeps the text field that they are. -/
theorem KeepsText.keeps (h : KeepsText lib optionsGetter optionsSetter params text) :
    Keeps lib params text :=
  ⟨h.answers, h.get, h.set⟩

theorem Keeps.keepsText (h : Keeps lib params text) :
    KeepsText lib optionsGetter optionsSetter params text :=
  ⟨rfl, h.answers, h.get, h.set⟩

/-- An operation sets an option to a value that is exact, removes it, or does so for a feature. -/
inductive Operation.Edits (params : Address) : Operation → String → Option Json → Prop
  | option (key : String) (value : Option Json) (hv : ∀ v ∈ value, v.IsExact) :
      Edits params (.setOption params key value) key value
  | feature (f : Options.Feature) : Edits params (.setFeature params f) f.key f.value

/-- `Edited lib params s es t`: operations that all succeeded edited `es`, in order, which led from
`s` to `t`. -/
inductive Edited (lib : Machine σ) (params : Address) :
    σ → List (String × Option Json) → σ → Prop
  | nil (s : σ) : Edited lib params s [] s
  | cons {s t : σ} {op : Operation} {key : String} {value : Option Json}
      {es : List (String × Option Json)} (hop : op.Edits params key value)
      (hok : (op.program.runOn lib s).1 = .edited (.ok ()))
      (hrest : Edited lib params (op.program.runOn lib s).2.2 es t) :
      Edited lib params s ((key, value) :: es) t

/-! ### The simulated library -/

section Simulated

open Simulation (find? put nothing)

/-- The memory of the options that the simulated library has. -/
def simulatedOptions (params : Address) (o : Objects) : Option (List UInt8) :=
  ((find? (params, "Cronet_EngineParams_experimental_options") o.values).getD
    (nothing optionsGetter.symbol)).memory

/-- At first it has none. -/
theorem simulatedOptions_empty (params : Address) : simulatedOptions params {} = none := by
  rw [simulatedOptions, show nothing optionsGetter.symbol = .text none by decide +kernel]
  rfl

/-- That is a text for the empty object. -/
theorem read_simulatedOptions_empty (params : Address) :
    Options.read (readCString (simulatedOptions params {})) = .ok [] := by
  rw [simulatedOptions_empty]
  rfl

/-- **The simulated library keeps options.** -/
theorem keeps_simulatedOptions (params : Address) :
    Keeps Objects.machine params (simulatedOptions params) :=
  (keepsText_simulated rfl (by decide) (by decide) params).keeps

end Simulated

/-! ### One edit -/

/-- The value of a feature is exact. -/
theorem isExact_value (f : Options.Feature) : ∀ v ∈ f.value, v.IsExact := by
  intro v hv
  cases f with
  | asyncDns enable =>
      cases enable with
      | true =>
          cases hv
          exact Json.IsExact.empty.put ⟨trivial, trivial⟩
      | false => cases hv
  | dnsServerOverride servers =>
      cases servers with
      | nil => cases hv
      | cons server servers =>
          cases hv
          refine Json.IsExact.empty.put (Json.IsExact.array_iff.2 fun v hv => ?_)
          obtain ⟨server, -, rfl⟩ := List.mem_map.1 hv
          exact ⟨trivial, trivial⟩
  | hostResolverRules rules =>
      rw [Options.Feature.value] at hv
      obtain ⟨-, he⟩ := Option.ite_none_left_eq_some.1 hv
      cases he
      exact Json.IsExact.empty.put ⟨trivial, trivial⟩
  | httpsRecords enable =>
      cases hv
      exact Json.IsExact.empty.put ⟨trivial, trivial⟩

theorem Operation.Edits.isExact {op : Operation} {key : String} {value : Option Json}
    (h : op.Edits params key value) : ∀ v ∈ value, v.IsExact := by
  cases h with
  | option key value hv => exact hv
  | feature f => exact isExact_value f

/-- Whatever an operation edits, it is the edit of one option. -/
theorem Operation.Edits.program {op : Operation} {key : String} {value : Option Json}
    (h : op.Edits params key value) :
    op.program = (do let e ← Client.setOption params key value; .done (.edited e)) := by
  cases h <;> rfl

/-- An edit calls no other functions than these two. -/
theorem calls_setOption {ok : String → Prop} (hget : ok optionsGetter.symbol)
    (hset : ok optionsSetter.symbol) (params : Address) (key : String) (value : Option Json) :
    (setOption params key value).Calls ok := by
  refine (Program.calls_native _ hget).bind fun current => ?_
  cases Options.edit (readCString current.memory) key value with
  | error e => trivial
  | ok x => exact (Program.calls_native _ hset).bind fun _ => trivial

/-- **An edit in a session** in which the library is loaded and no script waits for these functions
does what it does on the simulated library. -/
theorem Operation.Edits.perform {S : Type} {st : Simulation.State S} {op : Operation} {key : String}
    {value : Option Json} (h : op.Edits params key value) (hst : st.failure = none)
    (hget : Simulation.takeScript optionsGetter.symbol st.scripts = none)
    (hset : Simulation.takeScript optionsSetter.symbol st.scripts = none)
    (inner : Simulation.Inner S) (handler : Simulation.Handler S) :
    Simulation.perform inner (.call op handler) st =
      (.returned (op.answer Objects.machine st.objects)
          (Simulation.recordsOf (op.calls Objects.machine st.objects)),
        { st with objects := op.after Objects.machine st.objects }) := by
  have hmaker : Simulation.isMaker optionsGetter.symbol = false ∧
      Simulation.isMaker optionsSetter.symbol = false := by
    decide +kernel
  refine Simulation.perform_of_calls hst ?_ inner handler
  rw [h.program]
  exact (calls_setOption ⟨hmaker.1, hget⟩ ⟨hmaker.2, hset⟩ params key value).bind fun _ => trivial

/-- **So does whoever asks for the options.** -/
theorem perform_getOptions {S : Type} {st : Simulation.State S} (hst : st.failure = none)
    (hget : Simulation.takeScript optionsGetter.symbol st.scripts = none)
    (inner : Simulation.Inner S) (handler : Simulation.Handler S) :
    Simulation.perform inner (.call (.direct optionsGetter [.handle params]) handler) st =
      (.returned
        ((Operation.direct optionsGetter [.handle params]).answer Objects.machine st.objects)
          (Simulation.recordsOf
            ((Operation.direct optionsGetter [.handle params]).calls Objects.machine st.objects)),
        { st with
          objects :=
            (Operation.direct optionsGetter [.handle params]).after
              Objects.machine st.objects }) := by
  have hmaker : Simulation.isMaker optionsGetter.symbol = false := by decide +kernel
  refine Simulation.perform_of_calls hst ?_ inner handler
  exact (Program.calls_native _ ⟨hmaker, hget⟩).bind fun _ => trivial

namespace Shows

variable {key : String} {value : Option Json}

/-- An edit of options that cannot be edited asks for them, and for nothing else. -/
theorem runOn_setOption_of_error (hlib : Shows lib params text) {e : Options.Error}
    (h : Options.edit (readCString (text s)) key value = .error e) :
    (setOption params key value).runOn lib s =
      (.error e, [(optionsGetter.symbol, [.handle params])],
        (lib optionsGetter.symbol [.handle params] s).1) := by
  rw [setOption, Program.runOn_bind]
  simp only [Program.native, Program.runOn]
  rw [show "Cronet_EngineParams_experimental_options_get" = optionsGetter.symbol from rfl,
    hlib.answers s, h]
  rfl

/-- An edit of options that can be edited asks for them, and stores the text that was edited. -/
theorem runOn_setOption_of_ok (hlib : Shows lib params text) {x : String}
    (h : Options.edit (readCString (text s)) key value = .ok x) :
    (setOption params key value).runOn lib s =
      (.ok (), [(optionsGetter.symbol, [.handle params]),
          (optionsSetter.symbol, [.handle params, (CString.ofText x).toWord])],
        (lib optionsSetter.symbol [.handle params, (CString.ofText x).toWord]
          (lib optionsGetter.symbol [.handle params] s).1).1) := by
  rw [setOption, Program.runOn_bind]
  simp only [Program.native, Program.runOn]
  rw [show "Cronet_EngineParams_experimental_options_get" = optionsGetter.symbol from rfl,
    hlib.answers s, h]
  rfl

end Shows

namespace Keeps

/-- **What one edit does**: it answers as the text says that the library keeps, and where it
succeeds, the library keeps the text that was edited. -/
theorem runOn_setOption (hlib : Keeps lib params text) (key : String) (value : Option Json)
    (s : σ) : match Options.edit (readCString (text s)) key value with
    | .error e => ((setOption params key value).runOn lib s).1 = .error e ∧
        text ((setOption params key value).runOn lib s).2.2 = text s
    | .ok x => ((setOption params key value).runOn lib s).1 = .ok () ∧
        text ((setOption params key value).runOn lib s).2.2 = some (CString.ofText x).kept := by
  cases hedit : Options.edit (readCString (text s)) key value with
  | error e =>
      rw [hlib.shows.runOn_setOption_of_error hedit]
      exact ⟨rfl, hlib.get s⟩
  | ok x =>
      rw [hlib.shows.runOn_setOption_of_ok hedit]
      exact ⟨rfl, hlib.set _ (CString.ofText x)⟩

variable {op : Operation} {key : String} {value : Option Json} {m : Json.Members}

/-- An edit of options that read succeeds, and what it stores is the object with that edit. -/
theorem edit_of_read (hlib : Keeps lib params text) (hop : op.Edits params key value)
    (hread : Options.read (readCString (text s)) = .ok m) :
    (op.program.runOn lib s).1 = .edited (.ok ()) ∧
      text (op.program.runOn lib s).2.2 = some (stored (apply key value m)) := by
  have hedit : Options.edit (readCString (text s)) key value =
      .ok (Json.object (apply key value m)).render := by
    rw [Options.edit, hread]
    rfl
  have hset := hlib.runOn_setOption key value s
  rw [hedit] at hset
  obtain ⟨hok, htext⟩ := hset
  rw [hop.program, Program.runOn_bind, hok]
  simp only [Program.runOn]
  exact ⟨trivial, htext⟩

/-- An edit of options that do not read fails. -/
theorem edit_of_error {e : Options.Error} (hlib : Keeps lib params text)
    (hop : op.Edits params key value) (hread : Options.read (readCString (text s)) = .error e) :
    (op.program.runOn lib s).1 = .edited (.error e) := by
  have hedit : Options.edit (readCString (text s)) key value = .error e := by
    rw [Options.edit, hread]
    rfl
  have hset := hlib.runOn_setOption key value s
  rw [hedit] at hset
  rw [hop.program, Program.runOn_bind, hset.1]
  rfl

/-- Whoever asks for the options gets the text that the library keeps. -/
theorem get_options (hlib : Keeps lib params text) (s : σ) :
    ((Operation.direct optionsGetter [.handle params]).program.runOn lib s).1 =
      .value (.text (readCString (text s))) := by
  rw [hlib.keepsText.runOn_get]

end Keeps

/-! ### Runs of edits -/

/-- **What is stored after edits that succeed**: the object that they add up to, whether what was
there before read as an object or was stored as one. -/
theorem Edited.text_eq (hlib : Keeps lib params text) {es : List (String × Option Json)}
    {m : Json.Members} (hm : (Json.object m).IsExact) (h : Edited lib params s es t) (hne : es ≠ [])
    (hs : Options.read (readCString (text s)) = .ok m ∨ text s = some (stored m)) :
    text t = some (stored (applyAll es m)) := by
  induction h generalizing m with
  | nil s => exact absurd rfl hne
  | @cons s t op key value es hop hok hrest ih =>
      -- the edit succeeded, so in either case the options did read
      have hread : Options.read (readCString (text s)) = .ok m := by
        rcases hs with hread | hstored
        · exact hread
        · have hread := Options.read_stored hm
          rw [← hstored] at hread
          by_cases hf : Fits m
          · rwa [if_pos hf] at hread
          · rw [if_neg hf] at hread
            rw [hlib.edit_of_error hop hread] at hok
            cases hok
      obtain ⟨-, htext⟩ := hlib.edit_of_read hop hread
      rw [Options.applyAll_cons]
      cases es with
      | nil =>
          cases hrest
          exact htext
      | cons e es =>
          exact ih (Options.isExact_apply hm hop.isExact) (List.cons_ne_nil _ _) (Or.inr htext)

/-- **Edits succeed as long as what each leaves for the next can be read.** -/
theorem Keeps.exists_edited (hlib : Keeps lib params text) {es : List (String × Option Json)}
    {m : Json.Members} (hm : (Json.object m).IsExact)
    (hread : Options.read (readCString (text s)) = .ok m) (hv : ∀ e ∈ es, ∀ v ∈ e.2, v.IsExact)
    (hfits : ∀ i < es.length, 0 < i → Fits (applyAll (es.take i) m)) :
    ∃ t, Edited lib params s es t := by
  induction es generalizing m s with
  | nil => exact ⟨s, .nil s⟩
  | cons e es ih =>
      obtain ⟨key, value⟩ := e
      have hvalue := hv (key, value) List.mem_cons_self
      have hop : (Operation.setOption params key value).Edits params key value :=
        .option key value hvalue
      obtain ⟨hok, htext⟩ := hlib.edit_of_read hop hread
      cases es with
      | nil => exact ⟨_, .cons hop hok (.nil _)⟩
      | cons e es =>
          have hm' : (Json.object (apply key value m)).IsExact := Options.isExact_apply hm hvalue
          have hfit : Fits (apply key value m) := hfits 1 (by simp) Nat.one_pos
          have hread' := Options.read_stored hm'
          rw [← htext, if_pos hfit] at hread'
          obtain ⟨t, ht⟩ := ih hm' hread' (fun e he => hv e (List.mem_cons_of_mem _ he))
            fun i hi _ => hfits (i + 1) (Nat.succ_lt_succ hi) (Nat.succ_pos i)
          exact ⟨t, .cons hop hok ht⟩

theorem Edited.isExact {es : List (String × Option Json)} (h : Edited lib params s es t) :
    ∀ e ∈ es, ∀ v ∈ e.2, v.IsExact := by
  induction h with
  | nil s => exact fun e he => by cases he
  | cons hop _ _ ih =>
      intro e he
      rcases List.mem_cons.1 he with rfl | he
      · exact hop.isExact
      · exact ih e he

section Readers

variable {es : List (String × Option Json)} {m : Json.Members}

/-- **Whoever asks for the options after edits that succeed** gets a text that reads as what the
edits add up to, if that fits, and as nothing if it does not. -/
theorem Edited.get_options (hlib : Keeps lib params text) (hm : (Json.object m).IsExact)
    (h : Edited lib params s es t) (hne : es ≠ [])
    (hs : Options.read (readCString (text s)) = .ok m) :
    ∃ x, ((Operation.direct optionsGetter [.handle params]).program.runOn lib t).1 =
        .value (.text x) ∧
      Json.parse? x = if Fits (applyAll es m) then some (.object (applyAll es m)) else none := by
  have hall := Options.isExact_applyAll hm h.isExact
  refine ⟨_, hlib.get_options t, ?_⟩
  rw [h.text_eq hlib hm hne (Or.inl hs), Options.parse?_stored hall]

/-- **And so it is with whoever edits them once more.** -/
theorem Edited.edit_again (hlib : Keeps lib params text) (hm : (Json.object m).IsExact)
    (h : Edited lib params s es t) (hne : es ≠ [])
    (hs : Options.read (readCString (text s)) = .ok m) {op : Operation} {key : String}
    {value : Option Json} (hop : op.Edits params key value) :
    (op.program.runOn lib t).1 =
      .edited (if Fits (applyAll es m) then .ok () else .error .malformed) := by
  have hread := Options.read_stored (Options.isExact_applyAll hm h.isExact)
  rw [← h.text_eq hlib hm hne (Or.inl hs)] at hread
  by_cases hf : Fits (applyAll es m)
  · rw [if_pos hf] at hread ⊢
    exact (hlib.edit_of_read hop hread).1
  · rw [if_neg hf] at hread ⊢
    exact hlib.edit_of_error hop hread

end Readers

/-- **Edits last as long as their text can be read.** Let the text that is stored of the options of
an engine's parameters be no longer than the cap, and read as an object, and let edits that all
succeed be made to it. Then they add up to an object with what they do to the map from keys to
values. If its text is short and shallow enough, whoever asks for the options gets a text that reads
as that object, and every further edit succeeds. If it is not, the text reads as nothing, and every
further edit fails. In a session with the simulated library, each of these operations does what it
does on that library, if no script waits for the functions that it calls. These functions are those
of the operations that get and set the options. -/
theorem edits_last_while_readable (hlib : Keeps lib params text) {x : String}
    {es : List (String × Option Json)} {start : Json.Members} (hstored : IsTextOf (text s) x)
    (hcap : (encode x.toList).length ≤ maxTextLength) (hstart : Options.read x = .ok start)
    (hwhole : (Json.object start).IsWhole) (hne : es ≠ []) (hedits : Edited lib params s es t) :
    (fun k => (applyAll es start).get? k) =
        es.foldl (fun f e => Function.update f e.1 e.2) (fun k => start.get? k) ∧
      (applyAll es start).IsAscending ∧
      (∃ y, ((Operation.direct optionsGetter [.handle params]).program.runOn lib t).1 =
          .value (.text y) ∧
        Json.parse? y = if Fits (applyAll es start) then some (.object (applyAll es start))
          else none) ∧
      (∀ (op : Operation) (key : String) (value : Option Json), op.Edits params key value →
        (op.program.runOn lib t).1 =
          .edited (if Fits (applyAll es start) then .ok () else .error .malformed)) ∧
      (Symbol.slot? optionsGetter.operation = some optionsGetter ∧
        Symbol.slot? optionsSetter.operation = some optionsSetter) ∧
      ∀ (S : Type) (inner : Simulation.Inner S) (handler : Simulation.Handler S)
        (st : Simulation.State S) (op : Operation),
        op = .direct optionsGetter [.handle params] ∨ (∃ key value, op.Edits params key value) →
        st.failure = none → Simulation.takeScript optionsGetter.symbol st.scripts = none →
        Simulation.takeScript optionsSetter.symbol st.scripts = none →
        Simulation.perform inner (.call op handler) st =
          (.returned (op.answer Objects.machine st.objects)
              (Simulation.recordsOf (op.calls Objects.machine st.objects)),
            { st with objects := op.after Objects.machine st.objects }) := by
  have hexact : (Json.object start).IsExact := ⟨Options.isOrdered_of_read hstart, hwhole⟩
  have hall := Options.isExact_applyAll hexact hedits.isExact
  rw [← hstored.readCString_eq hcap] at hstart
  refine ⟨Options.get?_applyAll hexact hedits.isExact, (Json.IsExact.object_iff.1 hall).1,
    hedits.get_options hlib hexact hne hstart,
    fun _ _ _ hop => hedits.edit_again hlib hexact hne hstart hop, slot?_options, ?_⟩
  rintro S inner handler st op (rfl | ⟨key, value, hop⟩) hst hget hset
  · exact perform_getOptions hst hget inner handler
  · exact hop.perform hst hget hset inner handler

/-- The options of an engine's parameters are edited three times, and the last edit takes back the
first. Whoever asks for them in a session is told so. -/
theorem options_read_after_edits :
    let es : List (String × Option Json) :=
      [("AsyncDNS", some (.object [("enable", .bool true)])), ("a", some (.string "\x00")),
        ("AsyncDNS", none)]
    IsTextOf (simulatedOptions 1 {}) "" ∧ Options.read "" = .ok [] ∧ (Json.object []).IsWhole ∧
      ∃ t x, Edited Objects.machine 1 {} es t ∧
        (Simulation.perform (fun _ _ => pure (.scripted ""))
          (.call (.direct optionsGetter [.handle 1]) ⟨[], 0⟩)
          ({ objects := t } : Simulation.State Unit)).1 =
            .returned (.value (.text x)) [.call optionsGetter.symbol [.handle 1]] ∧
        Json.parse? x = some (.object [("a", .string "\x00")]) ∧
        ((Operation.setFeature 1 (.httpsRecords true)).program.runOn Objects.machine t).1 =
          .edited (.ok ()) := by
  intro es
  have hlib := keeps_simulatedOptions 1
  have hstored : IsTextOf (simulatedOptions 1 {}) "" := by
    rw [simulatedOptions_empty]
    exact .null
  have hstart : Options.read "" = .ok [] := rfl
  have hwhole : (Json.object []).IsWhole := ⟨trivial, trivial⟩
  have hexact : ∀ e ∈ es, ∀ v ∈ e.2, v.IsExact := by
    intro e he v hv
    simp only [es, List.mem_cons, List.not_mem_nil, or_false] at he
    rcases he with rfl | rfl | rfl
    · exact isExact_value (.asyncDns true) v hv
    · cases hv
      exact ⟨trivial, trivial⟩
    · cases hv
  have hfits : Fits (applyAll es []) := by decide +kernel
  obtain ⟨t, ht⟩ := hlib.exists_edited Json.IsExact.empty (read_simulatedOptions_empty 1) hexact
    (by decide +kernel)
  obtain ⟨-, -, ⟨x, hget, hparse⟩, hmore, -, hsession⟩ :=
    edits_last_while_readable hlib hstored (Nat.zero_le _) hstart hwhole (List.cons_ne_nil _ _) ht
  rw [if_pos hfits] at hparse
  refine ⟨hstored, hstart, hwhole, t, x, ht, ?_, hparse, ?_⟩
  · have hcall := hsession Unit (fun _ _ => pure (.scripted "")) ⟨[], 0⟩ { objects := t } _
      (Or.inl rfl) rfl rfl rfl
    rw [hcall, Operation.answer, hget]
    rfl
  · rw [hmore _ _ _ (.feature (.httpsRecords true)), if_pos hfits]

/-- Arrays that stand inside one another, the innermost of them empty. -/
def nestedArrays : Nat → Json
  | 0 => .array []
  | n + 1 => .array [nestedArrays n]

theorem nesting_nestedArrays (n : Nat) : (nestedArrays n).nesting = n + 1 := by
  induction n with
  | zero => rfl
  | succ n ih => simp [nestedArrays, Json.nesting, Json.itemsNesting, ih]

theorem isExact_nestedArrays (n : Nat) : (nestedArrays n).IsExact := by
  induction n with
  | zero => exact Json.IsExact.array_iff.2 nofun
  | succ n ih =>
      refine Json.IsExact.array_iff.2 fun v hv => ?_
      rw [List.mem_singleton.1 hv]
      exact ih

/-- Two ways to lose options by an edit that succeeds. An option may be set to arrays that stand
inside one another, with the object around them one more than the reader allows: the text that is
stored does not read, and no further edit succeeds. And the options may stand behind blanks that
fill what the cap allows: the edit does not see them, and stores its own option only. -/
theorem options_lost_after_edit :
    (∃ t, Options.read (readCString (simulatedOptions 1 {})) = .ok [] ∧
      Edited Objects.machine 1 {} [("k", some (nestedArrays 126))] t ∧
      (∃ x, ((Operation.direct optionsGetter [.handle 1]).program.runOn Objects.machine t).1 =
          .value (.text x) ∧ Json.parse? x = none) ∧
      ((Operation.setOption 1 "a" (some (.bool true))).program.runOn Objects.machine t).1 =
        .edited (.error .malformed)) ∧
    let x := Options.behindBlanks (Json.object [("a", .bool true)]).renderChars
    Options.read x = .ok [("a", .bool true)] ∧
      ∃ s t, simulatedOptions 1 s = some (CString.ofText x).kept ∧
        Edited Objects.machine 1 s [("k", some (.bool true))] t ∧
        ∃ y, ((Operation.direct optionsGetter [.handle 1]).program.runOn Objects.machine t).1 =
            .value (.text y) ∧ Json.parse? y = some (.object [("k", .bool true)]) := by
  have hlib := keeps_simulatedOptions 1
  have hone : ∀ {v : Json}, v.IsExact → ∀ w ∈ some v, w.IsExact := by
    rintro v hv w ⟨⟩
    exact hv
  have htrue : (Json.bool true).IsExact := ⟨trivial, trivial⟩
  constructor
  · have hstart := read_simulatedOptions_empty 1
    have hop : (Operation.setOption 1 "k" (some (nestedArrays 126))).Edits 1 "k" _ :=
      .option _ _ (hone (isExact_nestedArrays 126))
    have hdeep : ¬ Fits (applyAll [("k", some (nestedArrays 126))] []) := by
      rintro ⟨hle, -⟩
      simp [applyAll, apply, Json.Members.put, Json.nesting, Json.membersNesting,
        nesting_nestedArrays, Json.maxDepth] at hle
    have ht : Edited Objects.machine 1 {} [("k", some (nestedArrays 126))] _ :=
      .cons hop (hlib.edit_of_read hop hstart).1 (.nil _)
    obtain ⟨x, hget, hparse⟩ :=
      ht.get_options hlib Json.IsExact.empty (List.cons_ne_nil _ _) hstart
    have hagain := ht.edit_again hlib Json.IsExact.empty (List.cons_ne_nil _ _) hstart
      (.option "a" _ (hone htrue))
    rw [if_neg hdeep] at hparse hagain
    exact ⟨_, hstart, ht, ⟨x, hget, hparse⟩, hagain⟩
  · intro x
    have hobject : (Json.object [("a", .bool true)]).IsExact :=
      Json.IsExact.empty.put htrue
    have hread : Options.read x = .ok [("a", .bool true)] :=
      (Options.read_behindBlanks_eq _).trans (Options.read_render hobject)
    have htext := hlib.set {} (CString.ofText x)
    have hstart := Options.read_behindBlanks (Json.object [("a", .bool true)]).renderChars
    rw [← htext] at hstart
    have hop : (Operation.setOption 1 "k" (some (.bool true))).Edits 1 "k" _ :=
      .option _ _ (hone htrue)
    have ht : Edited Objects.machine 1 _ [("k", some (.bool true))] _ :=
      .cons hop (hlib.edit_of_read hop hstart).1 (.nil _)
    obtain ⟨y, hget, hparse⟩ :=
      ht.get_options hlib Json.IsExact.empty (List.cons_ne_nil _ _) hstart
    rw [if_pos (by decide +kernel)] at hparse
    exact ⟨hread, _, _, htext, ht, y, hget, hparse⟩

end LateBinding.Client
