import LateBinding.Proofs.Callback.Wiring
import LateBinding.Proofs.Simulation.Enactment

/-!
**The library keeps the functions that are meant for an object.**

When an object is made, the library keeps the functions that it is passed, and later it calls the
one at the place of a callback. Nothing but the creation of an object passes functions, whatever
else happens in a session: so what is kept for an object leads where the functions of its kind lead,
in their order.

Main definitions:

* `LateBinding.Simulation.State.IsWired` — what is kept are the functions of objects;
* `LateBinding.Simulation.KeepsWires` — an action leaves it so.

Main results:

* `LateBinding.Simulation.answerCall_keepsWires` — what is kept of one call;
* `LateBinding.Simulation.interpret_keepsWires` — an operation keeps only what it may pass;
* `LateBinding.Simulation.performIn_keepsWires` — **every step leaves the wires as they are meant**;
* `LateBinding.Simulation.State.IsWired.kept_eq` — where the functions kept for an object lead.
-/

set_option autoImplicit false

namespace LateBinding.Simulation

open Native (Address Word targetsIn)
open Callback (Incoming Job Key ObjectKind Target passed)
open Client (Backing IsWired Program)

variable {S α β : Type}

/-! ### Entries -/

/-- A value is found where it was put. -/
theorem find?_put {κ α : Type} [DecidableEq κ] (key : κ) (value : α) (entries : List (κ × α)) :
    find? key (put key value entries) = some value := by
  simp [find?, put]

theorem mem_of_mem_put {κ α : Type} [DecidableEq κ] {key : κ} {value : α} {entries : List (κ × α)}
    {e : κ × α} (he : e ∈ put key value entries) : e = (key, value) ∨ e ∈ entries := by
  rcases List.mem_cons.1 he with rfl | he
  · exact Or.inl rfl
  · exact Or.inr (List.mem_of_mem_filter he)

theorem mem_of_find? {κ α : Type} [DecidableEq κ] {key : κ} {value : α} {entries : List (κ × α)}
    (h : find? key entries = some value) : (key, value) ∈ entries := by
  obtain ⟨e, he, rfl⟩ := Option.map_eq_some_iff.1 h
  have hkey : e.1 = key := by simpa using List.find?_some he
  rw [← hkey]
  exact List.mem_of_find?_eq_some he

/-! ### What is kept -/

/-- What the library keeps are the functions of objects, each under the function that made the
object. -/
def State.IsWired (st : State S) : Prop :=
  ∀ f ∈ st.functions, ∃ (kind : ObjectKind) (backing : Backing),
    f.1.2 = kind.createSymbol ∧ f.2 = (passed kind).map backing.target

/-- An action leaves it so. -/
def KeepsWires (a : Act S α) : Prop := ∀ st : State S, st.IsWired → (a st).2.IsWired

theorem keepsWires_of_functions {a : Act S α} (h : ∀ st, (a st).2.functions = st.functions) :
    KeepsWires a := by
  intro st hst f hf
  rw [h] at hf
  exact hst f hf

/-- A change of the state that leaves the functions alone. -/
theorem keepsWires_modifyGet {f : State S → α × State S}
    (hf : ∀ st, (f st).2.functions = st.functions) : KeepsWires (modifyGet f : Act S α) :=
  keepsWires_of_functions hf

theorem keepsWires_modify {f : State S → State S} (hf : ∀ st, st.IsWired → (f st).IsWired) :
    KeepsWires (modify f : Act S Unit) := hf

theorem keepsWires_pure (x : α) : KeepsWires (pure x : Act S α) :=
  keepsWires_of_functions fun _ => rfl

theorem KeepsWires.bind {a : Act S α} {f : α → Act S β} (ha : KeepsWires a)
    (hf : ∀ x, KeepsWires (f x)) : KeepsWires (a >>= f) :=
  fun st hst => hf (a st).1 (a st).2 (ha st hst)

theorem composes_keepsWires : Program.Composes fun (α : Type) (a : Act S α) => KeepsWires a :=
  ⟨keepsWires_pure, KeepsWires.bind⟩

theorem keepsWires_mapM {T : Type} {f : T → Act S β} (hf : ∀ x, KeepsWires (f x)) (xs : List T) :
    KeepsWires (xs.mapM f) := by
  induction xs with
  | nil => exact keepsWires_pure []
  | cons x xs ih =>
      rw [List.mapM_cons]
      exact (hf x).bind fun _ => ih.bind fun _ => keepsWires_pure _

theorem keepsWires_record (r : Record) : KeepsWires (record (S := S) r) :=
  keepsWires_of_functions fun _ => rfl

theorem keepsWires_advance (j : Job (Handler S) Incoming) : KeepsWires (advance j) :=
  keepsWires_of_functions fun _ => rfl

theorem recorded_keepsWires {a : Act S α} (ha : KeepsWires a) : KeepsWires (recorded a) :=
  fun st hst => ha { st with log := [] } hst

theorem keepsWires_get : KeepsWires (get : Act S (State S)) := keepsWires_of_functions fun _ => rfl

/-! ### Native calls -/

theorem keepsWires_popScript (symbol : String) : KeepsWires (popScript (S := S) symbol) := by
  refine keepsWires_modifyGet fun st => ?_
  cases takeScript symbol st.scripts <;> rfl

/-- What is kept of the functions in a call. -/
theorem keepFunctions_keepsWires {symbol : String} {args : List Word} (hcall : IsWired symbol args)
    (object : Address) : KeepsWires (keepFunctions (S := S) symbol args object) := by
  refine keepsWires_modify fun st hst => ?_
  split
  · next hkeep =>
      intro f hf
      rcases mem_of_mem_put hf with rfl | hf
      · -- functions were passed, so they are those of an object
        rcases hcall with hnone | ⟨kind, backing, hsymbol, htargets⟩
        · rw [hnone] at hkeep
          simp at hkeep
        · exact ⟨kind, backing, hsymbol, htargets⟩
      · exact hst f hf
  · exact hst

theorem answerCall_keepsWires {symbol : String} {args : List Word} (hcall : IsWired symbol args)
    (scripted : Option Word) : KeepsWires (answerCall (S := S) symbol args scripted) := by
  have hkeep : ∀ object : Address, KeepsWires (do
      keepFunctions (S := S) symbol args object
      return Word.handle object) := fun object =>
    (keepFunctions_keepsWires hcall object).bind fun _ => keepsWires_pure _
  unfold answerCall
  by_cases hm : isMaker symbol = true
  · rw [if_pos hm]
    cases scripted with
    | none => exact (keepsWires_of_functions fun _ => rfl).bind hkeep
    | some w => exact (keepsWires_pure w.address).bind hkeep
  · rw [if_neg hm]
    exact (keepsWires_of_functions fun _ => rfl).bind fun _ => keepsWires_pure _

section Inside

variable {inner : Inner S} (hinner : ∀ c x, KeepsWires (inner c x))

include hinner

theorem nativeCall_keepsWires {symbol : String} {args : List Word} (hcall : IsWired symbol args) :
    KeepsWires (nativeCall inner symbol args) := by
  unfold nativeCall
  refine (keepsWires_record _).bind fun _ => (keepsWires_popScript symbol).bind fun found => ?_
  cases found with
  | none => exact answerCall_keepsWires hcall none
  | some script =>
      have hanswer : KeepsWires (answerCall (S := S) symbol args script.answer) :=
        answerCall_keepsWires hcall script.answer
      by_cases hempty : (!script.steps.isEmpty) = true
      · simp only [if_pos hempty]
        exact (keepsWires_mapM (hinner _) script.steps).bind fun _ =>
          (keepsWires_record _).bind fun _ => hanswer
      · simp only [if_neg hempty]
        exact hanswer

theorem destroyObject_keepsWires (key : Key) {symbol : String} {args : List Word}
    (hcall : IsWired symbol args) : KeepsWires (destroyObject inner key symbol args) := by
  intro st hst
  rw [destroyObject_apply]
  exact nativeCall_keepsWires hinner hcall _ hst

/-! ### Callbacks -/

theorem callHandler_keepsWires (x : Handler S) (e : Callback.Event) :
    KeepsWires (callHandler inner x e) := by
  unfold callHandler
  cases x.on.find? fun o => o.1 = e.name with
  | none => exact keepsWires_record _
  | some o =>
      exact (keepsWires_mapM (hinner _) o.2).bind fun _ => keepsWires_record _

theorem deliver_keepsWires (c : Incoming) : KeepsWires (deliver inner c) := by
  unfold deliver
  refine (keepsWires_advance _).bind fun t => (keepsWires_advance t).bind fun t => ?_
  cases t with
  | calling d id =>
      refine keepsWires_get.bind fun st => ?_
      cases st.registry.handler? id with
      | none => exact keepsWires_pure _
      | some x =>
          exact (keepsWires_advance _).bind fun t =>
            (callHandler_keepsWires hinner x _).bind fun _ =>
            (keepsWires_advance t).bind fun t => (keepsWires_advance t).bind fun _ =>
              keepsWires_pure _
  | _ => exact keepsWires_pure _

theorem fireHandler_keepsWires (c : Incoming) : KeepsWires (fireHandler inner c) := by
  unfold fireHandler
  refine (deliver_keepsWires hinner c).bind fun x => ?_
  split <;> exact keepsWires_pure _

theorem fire_keepsWires (c : Issued) (via : Address) : KeepsWires (fire inner c via) := by
  unfold fire
  refine keepsWires_get.bind fun st => ?_
  cases find? (via, c.name.owner.createSymbol) st.functions with
  | none => exact keepsWires_pure _
  | some targets =>
      dsimp only
      cases targets[c.name.place]?.getD .null with
      | null => exact keepsWires_pure _
      | caller => exact (keepsWires_record _).bind fun _ => keepsWires_pure _
      | own t => exact fireHandler_keepsWires hinner _

/-! ### Steps -/

/-- **An operation keeps only what it may pass.** -/
theorem interpret_keepsWires {may : Key → Prop} (x : Handler S) {p : Program α}
    (hp : p.Asks IsWired may) : KeepsWires (p.interpret (grant inner x)).run := by
  have hdemand : KeepsWires (grant inner x).demand.run := by
    refine keepsWires_of_functions ?_
    rintro ⟨objects, scripts, functions, registry, failure, log⟩
    cases failure <;> rfl
  have hregister : ∀ key, KeepsWires (do let _ ← advance (S := S) (.inserting key x)) :=
    fun key => (keepsWires_advance _).bind fun _ => keepsWires_pure ()
  exact hp.interpret (composes_keepsWires.exceptT String) hdemand
    (fun _ _ hcall => composes_keepsWires.run_lift (nativeCall_keepsWires hinner hcall))
    (fun key _ => composes_keepsWires.run_lift (hregister key))
    (fun key _ _ hcall => composes_keepsWires.run_lift (destroyObject_keepsWires hinner key hcall))

theorem perform_keepsWires (command : Command S) : KeepsWires (perform inner command) := by
  cases command with
  | call operation x =>
      refine (recorded_keepsWires (interpret_keepsWires hinner x operation.asks)).bind ?_
      rintro ⟨r, log⟩
      cases r <;> exact keepsWires_pure _
  | fire c via =>
      exact (recorded_keepsWires (fire_keepsWires hinner c via)).bind fun _ => keepsWires_pure _
  | script s => exact (keepsWires_of_functions fun _ => rfl).bind fun _ => keepsWires_pure _

end Inside

/-- **Every step leaves the wires as they are meant**, with the steps inside it. -/
theorem performIn_keepsWires (resolve : Context → S → Command S) (depth : Nat) (c : Context)
    (x : S) : KeepsWires (performIn resolve depth c x) := by
  induction depth generalizing c x with
  | zero => exact keepsWires_pure _
  | succ depth ih => exact perform_keepsWires ih (resolve c x)

theorem createSymbol_injective {kind kind' : ObjectKind}
    (h : kind.createSymbol = kind'.createSymbol) : kind = kind' := by
  cases kind <;> cases kind' <;> first | rfl | exact absurd h (by decide)

/-- Where the functions kept for an object lead: to the client's own, or to those of its caller. -/
theorem State.IsWired.kept_eq {st : State S} (hst : st.IsWired) {kind : ObjectKind} {via : Address}
    {targets : List Target} (h : find? (via, kind.createSymbol) st.functions = some targets) :
    ∃ backing : Backing, targets = (passed kind).map backing.target := by
  obtain ⟨kind', backing, hsymbol, htargets⟩ := hst _ (mem_of_find? h)
  obtain rfl : kind = kind' := createSymbol_injective hsymbol
  exact ⟨backing, htargets⟩

end LateBinding.Simulation
