import LateBinding.Client.Operation

/-!
**What an operation passes, and what it registers.**

Whatever the library answers, an operation passes functions only to the function that makes an
object: one for each callback of its kind, in their order. And it registers at most the handler of
the object that it has just made, and only if that object is not null.

Main definitions:

* `LateBinding.Client.Program.Registers` — with some answers of the library, a program registers a
  handler for an object;
* `LateBinding.Client.Program.Asks` — whatever the library answers, all calls of a program are of
  some sort, and so are all objects that it registers handlers for;
* `LateBinding.Client.Program.Composes` — what holds of actions one after the other if it holds of
  each;
* `LateBinding.Client.IsWired` — functions among the words of a call are those of an object.

Main results:

* `LateBinding.Client.Program.Asks.interpret` — what holds of all that a program may ask for holds
  of the program;
* `LateBinding.Client.Operation.asks` — **only the creation of an object passes functions, and only
  with a handler does it register one**, for the object of its kind that was made, unless it is
  null.
-/

set_option autoImplicit false

namespace LateBinding.Client

open Native (Address Word Value targetsIn)
open Callback (Key ObjectKind)

namespace Program

variable {α β : Type} {ok : String → List Word → Prop} {may : Key → Prop}

/-- With some answers of the library, a program registers a handler for an object. -/
def Registers (key : Key) : Program α → Prop
  | .done _ => False
  | .demand next => next.Registers key
  | .call _ _ next => ∃ w, (next w).Registers key
  | .register k next => k = key ∨ next.Registers key
  | .destroy _ _ _ next => ∃ w, (next w).Registers key

/-- Whatever the library answers, all calls of a program are of some sort, and so are all objects
that it registers handlers for. -/
def Asks (ok : String → List Word → Prop) (may : Key → Prop) : Program α → Prop
  | .done _ => True
  | .demand next => next.Asks ok may
  | .call symbol args next => ok symbol args ∧ ∀ w, (next w).Asks ok may
  | .register key next => may key ∧ next.Asks ok may
  | .destroy _ symbol args next => ok symbol args ∧ ∀ w, (next w).Asks ok may

theorem Asks.bind {p : Program α} {f : α → Program β} (hp : p.Asks ok may)
    (hf : ∀ a, (f a).Asks ok may) : (p >>= f).Asks ok may := by
  change (p.bind f).Asks ok may
  induction p with
  | done a => exact hf a
  | demand next ih => exact ih hp
  | call symbol args next ih => exact ⟨hp.1, fun w => ih w (hp.2 w)⟩
  | register key next ih => exact ⟨hp.1, ih hp.2⟩
  | destroy key symbol args next ih => exact ⟨hp.1, fun w => ih w (hp.2 w)⟩

/-- A program that asks for less. -/
theorem Asks.mono {ok' : String → List Word → Prop} {may' : Key → Prop} {p : Program α}
    (hp : p.Asks ok may) (hok : ∀ symbol args, ok symbol args → ok' symbol args)
    (hmay : ∀ key, may key → may' key) : p.Asks ok' may' := by
  induction p with
  | done a => trivial
  | demand next ih => exact ih hp
  | call symbol args next ih => exact ⟨hok _ _ hp.1, fun w => ih w (hp.2 w)⟩
  | register key next ih => exact ⟨hmay key hp.1, ih hp.2⟩
  | destroy key symbol args next ih => exact ⟨hok _ _ hp.1, fun w => ih w (hp.2 w)⟩

/-- What a program registers handlers for is of that sort. -/
theorem Asks.of_registers {key : Key} {p : Program α} (hp : p.Asks ok may) (h : p.Registers key) :
    may key := by
  induction p with
  | done a => exact h.elim
  | demand next ih => exact ih hp h
  | call symbol args next ih =>
      obtain ⟨w, h⟩ := h
      exact ih w (hp.2 w) h
  | register k next ih =>
      rcases h with rfl | h
      · exact hp.1
      · exact ih hp.2 h
  | destroy k symbol args next ih =>
      obtain ⟨w, h⟩ := h
      exact ih w (hp.2 w) h

theorem asks_anything (p : Program α) : p.Asks (fun _ _ => True) fun _ => True := by
  induction p with
  | done a => trivial
  | demand next ih => exact ih
  | call symbol args next ih => exact ⟨trivial, ih⟩
  | register key next ih => exact ⟨trivial, ih⟩
  | destroy key symbol args next ih => exact ⟨trivial, ih⟩

section Interpretation

variable {m : Type → Type} [Monad m] {P : ∀ α : Type, m α → Prop}

/-- Something that holds of an action which only gives a value, and of two actions one after the
other if it holds of both. -/
structure Composes (P : ∀ α : Type, m α → Prop) : Prop where
  pure : ∀ {α : Type} (x : α), P α (Pure.pure x)
  bind : ∀ {α β : Type} {a : m α} {f : α → m β}, P α a → (∀ x, P β (f x)) → P β (a >>= f)

/-- It composes where actions may fail, too. -/
theorem Composes.exceptT (hP : Composes P) (ε : Type) :
    Composes fun (α : Type) (a : ExceptT ε m α) => P (Except ε α) a.run where
  pure x := hP.pure (Except.ok x)
  bind ha hf := by
    rw [ExceptT.run_bind]
    refine hP.bind ha fun r => ?_
    cases r with
    | ok y => exact hf y
    | error e => exact hP.pure _

theorem Composes.run_lift [LawfulMonad m] (hP : Composes P) {ε : Type} {a : m α} (ha : P α a) :
    P (Except ε α) (ExceptT.run (liftM a)) := by
  have hlift : ExceptT.run (liftM a : ExceptT ε m α) = Except.ok <$> a := rfl
  rw [hlift, ← bind_pure_comp]
  exact hP.bind ha fun y => hP.pure _

/-- **What holds of all that a program may ask for holds of the program.** -/
theorem Asks.interpret (hP : Composes P) {g : Grant m} {p : Program α} (hp : p.Asks ok may)
    (hdemand : P Unit g.demand)
    (hcall : ∀ symbol args, ok symbol args → P Word (g.call symbol args))
    (hregister : ∀ key, may key → P Unit (g.register key))
    (hdestroy : ∀ key symbol args, ok symbol args → P Word (g.destroy key symbol args)) :
    P α (p.interpret g) := by
  induction p with
  | done a => exact hP.pure a
  | demand next ih => exact hP.bind hdemand fun _ => ih hp
  | call symbol args next ih => exact hP.bind (hcall symbol args hp.1) fun w => ih w (hp.2 w)
  | register key next ih => exact hP.bind (hregister key hp.1) fun _ => ih hp.2
  | destroy key symbol args next ih =>
      exact hP.bind (hdestroy key symbol args hp.1) fun w => ih w (hp.2 w)

end Interpretation

/-- Whatever the library answers, a program passes no functions and registers no handler. -/
def IsPlain (p : Program α) : Prop := p.Asks (fun _ args => targetsIn args = []) fun _ => False

theorem isPlain_done (a : α) : (done a).IsPlain := trivial

theorem isPlain_native {symbol : String} {args : List Word} (hargs : targetsIn args = []) :
    (native symbol args).IsPlain :=
  ⟨hargs, fun _ => trivial⟩

theorem IsPlain.bind {p : Program α} {f : α → Program β} (hp : p.IsPlain)
    (hf : ∀ a, (f a).IsPlain) : (p >>= f).IsPlain :=
  Asks.bind hp hf

/-- A native call without functions goes on with what it answers. -/
theorem isPlain_native_bind {symbol : String} {args : List Word} {f : Word → Program β}
    (hargs : targetsIn args = []) (hf : ∀ w, (f w).IsPlain) : (native symbol args >>= f).IsPlain :=
  (isPlain_native hargs).bind hf

end Program

open Program

/-- Values of the client are not functions. -/
theorem targetsIn_toWord (args : List Value) : targetsIn (args.map Value.toWord) = [] := by
  have hone : ∀ v : Value, v.toWord.targets = [] := fun v => by cases v <;> rfl
  induction args with
  | nil => rfl
  | cons v args ih =>
      rw [targetsIn] at ih
      rw [targetsIn, List.map_cons, List.flatMap_cons, hone, ih, List.nil_append]

/-- The functions that an object is made from lead where they are meant to, in the order in which
they are passed. -/
theorem targetsIn_functions (kind : ObjectKind) (backing : Backing) :
    targetsIn (functions kind backing) = (Callback.passed kind).map backing.target := by
  cases kind <;> rfl

/-- The functions among the words of a creation are those that the object is made from. -/
theorem targetsIn_creation (kind : ObjectKind) (backing : Backing) (args : List Value) :
    targetsIn (args.map Value.toWord ++ functions kind backing) =
      (Callback.passed kind).map backing.target := by
  rw [targetsIn, List.flatMap_append, ← targetsIn, ← targetsIn, targetsIn_toWord,
    targetsIn_functions, List.nil_append]

/-! ### Operations without functions -/

theorem isPlain_copyBufferBytes (buffer : Address) (length : Nat) :
    (copyBufferBytes buffer length).IsPlain :=
  isPlain_native_bind rfl fun _ => isPlain_native_bind rfl fun _ => isPlain_done _

theorem isPlain_makeKeyVerifier (hashes : List (List UInt8)) :
    (makeKeyVerifier hashes).IsPlain := by
  cases hashes with
  | nil => exact isPlain_done nullHandle
  | cons x xs => exact ⟨rfl, fun _ => trivial⟩

theorem isPlain_installKeyVerifier (engine : Address) (hashes : List (List UInt8)) :
    (installKeyVerifier engine hashes).IsPlain := by
  refine (isPlain_makeKeyVerifier hashes).bind fun verifier => ?_
  by_cases hv : verifier = nullHandle
  · simpa only [if_pos hv] using isPlain_done false
  · simpa only [if_neg hv] using isPlain_native_bind rfl fun _ => isPlain_done true

theorem isPlain_headersAt (info : Address) (indices : List Nat) :
    (headersAt info indices).IsPlain := by
  induction indices with
  | nil => exact isPlain_done []
  | cons index rest ih =>
      have hone : (headerAt info index).IsPlain :=
        isPlain_native_bind rfl fun _ => isPlain_native_bind rfl fun _ =>
          isPlain_native_bind rfl fun _ => isPlain_done _
      exact hone.bind fun _ => ih.bind fun _ => isPlain_done _

theorem isPlain_responseHeaders (info : Address) : (responseHeaders info).IsPlain :=
  isPlain_native_bind rfl fun _ => isPlain_headersAt info _

theorem isPlain_dateTimeMillis (date : Address) : (dateTimeMillis date).IsPlain := by
  unfold dateTimeMillis
  by_cases hd : date = nullHandle
  · rw [if_pos hd]
    exact isPlain_done none
  · rw [if_neg hd]
    exact isPlain_native_bind rfl fun _ => isPlain_done _

theorem isPlain_timestampDates (metrics : Address) (getters : List String) :
    (timestampDates metrics getters).IsPlain := by
  induction getters with
  | nil => exact isPlain_done []
  | cons getter rest ih => exact isPlain_native_bind rfl fun _ => ih.bind fun _ => isPlain_done _

theorem isPlain_namedMillis (dates : List (String × Address)) : (namedMillis dates).IsPlain := by
  induction dates with
  | nil => exact isPlain_done []
  | cons x rest ih =>
      exact (isPlain_dateTimeMillis x.2).bind fun _ => ih.bind fun _ => isPlain_done _

theorem isPlain_timestamps (metrics : Address) : (timestamps metrics).IsPlain :=
  (isPlain_timestampDates metrics _).bind fun _ => isPlain_namedMillis _

theorem isPlain_setOption (params : Address) (key : String) (value : Option Json) :
    (setOption params key value).IsPlain := by
  refine isPlain_native_bind rfl fun current => ?_
  cases Options.edit (Native.readCString current.memory) key value with
  | error e => exact isPlain_done _
  | ok text => exact isPlain_native_bind rfl fun _ => isPlain_done _

/-! ### All operations -/

/-- Functions among the words of a call are those of an object, passed to the function that makes
it. -/
def IsWired (symbol : String) (args : List Word) : Prop :=
  targetsIn args = [] ∨ ∃ (kind : ObjectKind) (backing : Backing), symbol = kind.createSymbol ∧
    targetsIn args = (Callback.passed kind).map backing.target

/-- A creation passes the functions of its kind, and registers a handler for what was made, unless
this is null. -/
theorem create_asks (kind : ObjectKind) (backing : Backing) (args : List Value) :
    (create kind backing args).Asks IsWired fun key =>
      backing = .handler ∧ key.kind = kind ∧ key.address ≠ nullHandle := by
  have hwired : IsWired kind.createSymbol (args.map Value.toWord ++ functions kind backing) :=
    Or.inr ⟨kind, backing, rfl, targetsIn_creation kind backing args⟩
  refine Asks.bind (p := native _ _) ⟨hwired, fun _ => trivial⟩ fun w => ?_
  cases backing with
  | raw => trivial
  | handler =>
      by_cases hw : w.address = nullHandle
      · simp only [if_pos hw]
        trivial
      · simp only [if_neg hw]
        exact ⟨⟨trivial, rfl, hw⟩, trivial⟩

/-- **Only the creation of an object passes functions, and only with a handler does it register
one**, for the object of its kind that was made, unless it is null. -/
theorem Operation.asks (op : Operation) : op.program.Asks IsWired fun key =>
    (∃ args, op = .create key.kind .handler args) ∧ key.address ≠ nullHandle := by
  have plain : ∀ {p : Program Result}, p.IsPlain → p.Asks IsWired fun key =>
      (∃ args, op = .create key.kind .handler args) ∧ key.address ≠ nullHandle :=
    fun hp => hp.mono (fun _ _ hargs => Or.inl hargs) fun _ h => h.elim
  cases op with
  | create kind backing args =>
      refine (create_asks kind backing args).mono (fun _ _ h => h) ?_
      rintro key ⟨rfl, rfl, hkey⟩
      exact ⟨⟨args, rfl⟩, hkey⟩
  | direct slot args =>
      exact plain (isPlain_native_bind (targetsIn_toWord args) fun _ => isPlain_done _)
  | destroy kind object => exact ⟨Or.inl rfl, fun _ => trivial⟩
  | copyBufferBytes buffer length => exact plain (isPlain_copyBufferBytes buffer length)
  | makeKeyVerifier hashes =>
      exact plain ((isPlain_makeKeyVerifier hashes).bind fun _ => isPlain_done _)
  | installKeyVerifier engine hashes =>
      exact plain ((isPlain_installKeyVerifier engine hashes).bind fun _ => isPlain_done _)
  | responseHeaders info =>
      exact plain ((isPlain_responseHeaders info).bind fun _ => isPlain_done _)
  | dateTimeMillis date =>
      exact plain ((isPlain_dateTimeMillis date).bind fun _ => isPlain_done _)
  | timestamps metrics =>
      exact plain ((isPlain_timestamps metrics).bind fun _ => isPlain_done _)
  | setOption params k value =>
      exact plain ((isPlain_setOption params k value).bind fun _ => isPlain_done _)
  | setFeature params feature =>
      exact plain ((isPlain_setOption params _ _).bind fun _ => isPlain_done _)
  | _ => exact plain (isPlain_native_bind rfl fun _ => isPlain_done _)

end LateBinding.Client
