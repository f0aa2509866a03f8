import LateBinding.Client.Operation

/-!
**A run goes on where its first part ends.**

What a library that is a state machine answers in the course of a program is what it answers in its
parts. So the operations of a client can be taken one after the other: each answers something, and
leaves the library in a state from which the next one goes on.

Main definitions:

* `LateBinding.Client.Operation.answer`, `LateBinding.Client.Operation.calls`,
  `LateBinding.Client.Operation.after` — what an operation answers, the calls that it makes, and the
  library after it;
* `LateBinding.Client.Program.tableMachine` — a library that finds what to do by the symbol.

Main results:

* `LateBinding.Client.Program.runOn_bind` — **the run of a program by the runs of its parts**;
* `LateBinding.Client.answer_direct` — what an operation answers that is one call.
-/

set_option autoImplicit false

namespace LateBinding.Client

open Native (Word Value Address)
open LateBinding.Symbol (Slot)

namespace Program

variable {σ α β : Type}

/-- **A run goes on where its first part ends.** -/
theorem runOn_bind (lib : Machine σ) (p : Program α) (f : α → Program β) (s : σ) :
    (p >>= f).runOn lib s =
      (((f (p.runOn lib s).1).runOn lib (p.runOn lib s).2.2).1,
        (p.runOn lib s).2.1 ++ ((f (p.runOn lib s).1).runOn lib (p.runOn lib s).2.2).2.1,
        ((f (p.runOn lib s).1).runOn lib (p.runOn lib s).2.2).2.2) := by
  change (p.bind f).runOn lib s = _
  induction p generalizing s with
  | done a => rfl
  | demand next ih => exact ih s
  | call symbol args next ih => simp only [Program.bind, runOn, ih, List.cons_append]
  | register key next ih => exact ih s
  | destroy key symbol args next ih => simp only [Program.bind, runOn, ih, List.cons_append]

theorem runOn_native (lib : Machine σ) (symbol : String) (args : List Word) (s : σ) :
    (Program.native symbol args).runOn lib s =
      ((lib symbol args s).2, [(symbol, args)], (lib symbol args s).1) :=
  rfl

/-- A library that finds what to do by the symbol. It does nothing for a symbol that it does not
have. -/
def tableMachine {κ : Type} (table : List (String × κ)) (respond : σ → List Word → κ → σ × Word) :
    Machine σ :=
  fun symbol args s =>
    match table.lookup symbol with
    | some known => respond s args known
    | none => (s, .unit)

theorem tableMachine_eq {κ : Type} {table : List (String × κ)}
    (htable : ∀ c ∈ table, table.lookup c.1 = some c.2)
    (respond : σ → List Word → κ → σ × Word) {symbol : String} {call : κ}
    (h : (symbol, call) ∈ table)
    (args : List Word) (s : σ) :
    tableMachine table respond symbol args s = respond s args call := by
  have hcall : table.lookup symbol = some call := htable _ h
  rw [tableMachine, hcall]

end Program

open Program (Machine)

variable {σ : Type}

/-- What an operation answers with a library in some state. -/
def Operation.answer (lib : Machine σ) (op : Operation) (s : σ) : Result :=
  (op.program.runOn lib s).1

/-- The calls that it makes, in order. -/
def Operation.calls (lib : Machine σ) (op : Operation) (s : σ) : List (String × List Word) :=
  (op.program.runOn lib s).2.1

/-- The library after an operation. -/
def Operation.after (lib : Machine σ) (op : Operation) (s : σ) : σ := (op.program.runOn lib s).2.2

theorem answer_direct (lib : Machine σ) (slot : Slot) (args : List Value) (s : σ) :
    (Operation.direct slot args).answer lib s =
      .value ((lib slot.symbol (args.map Value.toWord) s).2.decode slot.result) :=
  rfl

/-- A handle that is answered is that of the word which came back. -/
theorem address_eq_of_answer {lib : Machine σ} {slot : Slot} {args : List Value} {s : σ}
    {a : Address}
    {type : Symbol.HandleType} (hslot : slot.result = .handle type)
    (h : (Operation.direct slot args).answer lib s = .value (.handle a)) :
    (lib slot.symbol (args.map Value.toWord) s).2.address = a := by
  rw [answer_direct, hslot, Result.value.injEq] at h
  cases hw : (lib slot.symbol (args.map Value.toWord) s).2 with
  | handle b =>
      rw [hw] at h
      cases h
      rfl
  | _ =>
      rw [hw] at h
      cases h

end LateBinding.Client
