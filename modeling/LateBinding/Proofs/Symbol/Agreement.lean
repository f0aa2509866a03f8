import LateBinding.Library.Open
import LateBinding.Proofs.Symbol.Distinct

/-!
**Auditing, opening and binding agree about what is missing.**

An audit goes through both tables and lists every symbol that a source lacks; binding asks for one
symbol after the other and stops at the first that it cannot get. **The symbol that stops the
binding is the first one that an audit lists**, for every source: one that does not know a symbol,
knows it at the null address, or knows it at another one. So a library can be bound exactly if an
audit lists nothing, and the symbols that were asked for until then are the registered ones in their
order, first those of the main table and then those that pass floating-point numbers.

Main definitions:

* `LateBinding.Symbol.lacking` — what an audit of both tables lists;
* `LateBinding.Symbol.AsksInOrder` — the symbols that a traversal asks for until one is missing.

Main results:

* `LateBinding.Symbol.stop_eq_head?`, `LateBinding.Symbol.asksInOrder_bindAll` — what stops a
  binding, and what it asks for;
* `LateBinding.Library.outcome_resolve` — what binding comes to;
* `LateBinding.Library.registered_nodup` — no symbol is registered twice;
* `LateBinding.Library.binding_stops_where_audit_begins` — all of it together.
-/

set_option autoImplicit false

namespace LateBinding.Symbol

variable {source : Source} {names rest : List String} {symbol : String}

/-! ### What a source has -/

/-- A symbol at the null address counts as missing. -/
theorem isBound_iff : isBound source symbol = true ↔ ∃ a, source symbol = some a ∧ a ≠ 0 := by
  unfold isBound
  cases source symbol with
  | none => simp
  | some a => simp

theorem not_isBound_iff :
    (!isBound source symbol) = true ↔ ∀ a, source symbol = some a → a = 0 := by
  rw [Bool.not_eq_true', ← Bool.not_eq_true, isBound_iff]
  simp

/-! ### Traversals -/

/-- The names that a traversal asks for: all of them if the source has all, and otherwise those up
to and including the first one that the source lacks. -/
inductive AsksInOrder (source : Source) (names : List String) : List String → Prop
  | all (hall : ∀ s ∈ names, isBound source s = true) : AsksInOrder source names names
  | upTo (before after : List String) (symbol : String) (hnames : names = before ++ symbol :: after)
      (hbefore : ∀ s ∈ before, isBound source s = true) (hsymbol : isBound source symbol = false) :
      AsksInOrder source names (before ++ [symbol])

theorem bindAll_cons_of_isBound (hs : isBound source symbol = true) :
    bindAll source (symbol :: rest) =
      (symbol :: (bindAll source rest).1, (bindAll source rest).2) := by
  rw [bindAll, if_pos hs]

theorem bindAll_cons_of_not_isBound (hs : isBound source symbol = false) :
    bindAll source (symbol :: rest) = ([symbol], some symbol) := by
  rw [bindAll, hs, if_neg Bool.false_ne_true]

/-- **What stops a binding is the first name that the source lacks.** -/
theorem stop_eq_head? (source : Source) (names : List String) :
    (bindAll source names).2 = (names.filter fun s => !isBound source s).head? := by
  induction names with
  | nil => rfl
  | cons symbol rest ih =>
      cases hs : isBound source symbol with
      | true => rw [bindAll_cons_of_isBound hs, List.filter_cons_of_neg (by simp [hs]), ih]
      | false => rw [bindAll_cons_of_not_isBound hs, List.filter_cons_of_pos (by simp [hs])]; rfl

/-- **A binding asks for the names in order**, through the first one that the source lacks. -/
theorem asksInOrder_bindAll (source : Source) (names : List String) :
    AsksInOrder source names (bindAll source names).1 := by
  induction names with
  | nil => exact .all (by simp)
  | cons symbol rest ih =>
      cases hs : isBound source symbol with
      | false =>
          rw [bindAll_cons_of_not_isBound hs]
          exact .upTo [] rest symbol rfl (by simp) hs
      | true =>
          rw [bindAll_cons_of_isBound hs]
          -- what the rest of the traversal asks for comes after this name
          generalize (bindAll source rest).1 = asked at ih
          cases ih with
          | all hall => exact .all (List.forall_mem_cons.2 ⟨hs, hall⟩)
          | upTo before after stop hnames hbefore hstop =>
              exact .upTo (symbol :: before) after stop (by rw [hnames]; rfl)
                (List.forall_mem_cons.2 ⟨hs, hbefore⟩) hstop

/-! ### Both tables -/

/-- What an audit of both tables lists: first the missing symbols of the main table, then those that
pass floating-point numbers. -/
def lacking (source : Source) : List String :=
  missing source mainTable ++ missing source FloatSupport.active.table

end LateBinding.Symbol

namespace LateBinding.Library

open LateBinding.Symbol (Source isBound lacking bindAll AsksInOrder mainTable)

theorem lacking_eq_filter (source : Source) :
    lacking source = (registered .active).filter fun s => !isBound source s := by
  rw [lacking, Symbol.missing, Symbol.missing, registered, List.map_append, List.filter_append]

/-- No symbol is registered twice. -/
theorem registered_nodup : (registered .active).Nodup := Symbol.symbols_nodup

theorem length_registered : (registered .active).length = 254 := by decide +kernel

/-- What binding comes to: the library if nothing is lacking, and otherwise the error that names the
first symbol that is. -/
theorem outcome_resolve (origin : Path) (source : Source) :
    (resolve .active origin source).outcome =
      match lacking source with
      | [] => .ok ⟨origin, true, false⟩
      | symbol :: _ => .error (.symbolMissing symbol) := by
  have hstop := Symbol.stop_eq_head? source (registered .active)
  rw [← lacking_eq_filter] at hstop
  unfold resolve
  generalize bindAll source (registered .active) = traversal at hstop
  obtain ⟨asked, stop⟩ := traversal
  obtain rfl : stop = (lacking source).head? := hstop
  cases lacking source <;> rfl

theorem asked_resolve (origin : Path) (source : Source) :
    (resolve .active origin source).asked = (bindAll source (registered .active)).1 := by
  unfold resolve
  obtain ⟨asked, stop⟩ := bindAll source (registered .active)
  cases stop <;> rfl

/-- A symbol is lacking if it is registered and has no address but the null one. -/
theorem mem_lacking {source : Source} {symbol : String} :
    symbol ∈ lacking source ↔
      symbol ∈ registered .active ∧ ∀ a, source symbol = some a → a = 0 := by
  rw [lacking_eq_filter, List.mem_filter, Symbol.not_isBound_iff]

/-- A file's library has every registered symbol but those that it lacks. -/
theorem isBound_sourceLacking {lacks : List String} {symbol : String}
    (hs : symbol ∈ registered .active) :
    isBound (sourceLacking lacks) symbol = !lacks.contains symbol := by
  have hknown : (Symbol.allSlots.any fun slot => slot.symbol == symbol) = true := by
    obtain ⟨slot, hslot, rfl⟩ := List.mem_map.1 hs
    exact List.any_eq_true.2 ⟨slot, hslot, beq_self_eq_true _⟩
  unfold isBound sourceLacking Symbol.sourceOf
  rw [hknown]
  cases lacks.contains symbol <;> rfl

/-- What a file's library lacks is listed in the order of registration. -/
theorem lacking_sourceLacking (lacks : List String) :
    lacking (sourceLacking lacks) = (registered .active).filter fun s => lacks.contains s := by
  rw [lacking_eq_filter]
  refine List.filter_congr fun s hs => ?_
  rw [isBound_sourceLacking hs, Bool.not_not]

section Files

variable {fs : FileSystem} {libraryPath : Option (List UInt8)} {p : Path} {source : Source}

theorem audit_of_exportsAt (h : exportsAt fs libraryPath p = .ok source) :
    audit fs libraryPath p = .ok (lacking source) := by
  rw [audit, h]
  rfl

theorem openAt_of_exportsAt (h : exportsAt fs libraryPath p = .ok source) :
    openAt fs libraryPath p =
      match lacking source with
      | [] => .ok ⟨p, true, true⟩
      | symbol :: _ => .error (.symbolMissing symbol) := by
  rw [openAt, h]
  simp only [outcome_resolve]
  cases lacking source <;> rfl

/-- A library that can be opened is bound exactly if an audit lists nothing. -/
theorem audit_eq_nil_iff (h : exportsAt fs libraryPath p = .ok source) :
    audit fs libraryPath p = .ok [] ↔ ∃ b, openAt fs libraryPath p = .ok b := by
  rw [audit_of_exportsAt h, openAt_of_exportsAt h]
  cases lacking source <;> simp

end Files

/-! ### Agreement -/

/-- **Binding stops where an audit begins.** For every source of symbols: it lacks the registered
symbols that have no address but the null one; a library can be bound exactly if nothing is lacking,
and otherwise the error names the first of what is lacking. What was asked for are the registered
symbols in their order, the main table before the other one and each of the 254 once, through the
first missing one. And whatever can be opened as a library is bound exactly if an audit of it lists
nothing; otherwise the error names the first symbol of that list. -/
theorem binding_stops_where_audit_begins (source : Source) (origin : Path) :
    (∀ symbol, symbol ∈ lacking source ↔
      symbol ∈ registered .active ∧ ∀ a, source symbol = some a → a = 0) ∧
    ((∃ b, (resolve .active origin source).outcome = .ok b) ↔ lacking source = []) ∧
    (∀ e, (resolve .active origin source).outcome = .error e ↔
      ∃ symbol rest, lacking source = symbol :: rest ∧ e = .symbolMissing symbol) ∧
    AsksInOrder source (registered .active) (resolve .active origin source).asked ∧
    (lacking source = [] → (resolve .active origin source).asked = registered .active) ∧
    registered .active =
      mainTable.map Symbol.Slot.symbol ++ Symbol.floatTable.map Symbol.Slot.symbol ∧
    (registered .active).Nodup ∧ (registered .active).length = 254 ∧
    ∀ fs libraryPath p, exportsAt fs libraryPath p = .ok source →
      audit fs libraryPath p = .ok (lacking source) ∧
      (audit fs libraryPath p = .ok [] ↔ ∃ b, openAt fs libraryPath p = .ok b) ∧
      ∀ symbol rest, audit fs libraryPath p = .ok (symbol :: rest) →
        openAt fs libraryPath p = .error (.symbolMissing symbol) := by
  have hasks : AsksInOrder source (registered .active) (resolve .active origin source).asked := by
    rw [asked_resolve]
    exact Symbol.asksInOrder_bindAll source _
  refine ⟨fun symbol => mem_lacking, ?_, fun e => ?_, hasks, fun hnone => ?_, List.map_append,
    registered_nodup, length_registered,
    fun fs libraryPath p h => ⟨audit_of_exportsAt h, audit_eq_nil_iff h, ?_⟩⟩
  · rw [outcome_resolve]
    cases lacking source <;> simp
  · rw [outcome_resolve]
    cases lacking source with
    | nil => simp
    | cons symbol rest => simp [eq_comm]
  · generalize (resolve .active origin source).asked = asked at hasks
    cases hasks with
    | all hall => rfl
    | upTo before after symbol hnames hbefore hsymbol =>
        -- the symbol that stopped the traversal would be lacking
        have hmem : symbol ∈ lacking source := by
          rw [lacking_eq_filter, hnames]
          simp [hsymbol]
        rw [hnone] at hmem
        cases hmem
  · intro symbol rest haudit
    rw [audit_of_exportsAt h] at haudit
    rw [openAt_of_exportsAt h, Except.ok.inj haudit]

/-- A library lacks a symbol of either table: the audit lists both, and opening it names the
first. -/
theorem audit_of_incomplete_library :
    let lacks := ["Cronet_EngineParams_network_thread_priority_get", "bidirectional_stream_flush"]
    let fs : FileSystem := ⟨[], [([[108]], .library ⟨lacks, none, none⟩)]⟩
    audit fs none ⟨[47, 108]⟩ =
      .ok ["bidirectional_stream_flush", "Cronet_EngineParams_network_thread_priority_get"] ∧
    openAt fs none ⟨[47, 108]⟩ = .error (.symbolMissing "bidirectional_stream_flush") := by
  intro lacks fs
  have hexports : exportsAt fs none ⟨[47, 108]⟩ = .ok (sourceLacking lacks) := rfl
  have hlacking : lacking (sourceLacking lacks) =
      ["bidirectional_stream_flush", "Cronet_EngineParams_network_thread_priority_get"] := by
    rw [lacking_sourceLacking]
    decide +kernel
  obtain ⟨-, -, -, -, -, -, -, -, hfiles⟩ :=
    binding_stops_where_audit_begins (sourceLacking lacks) ⟨[47, 108]⟩
  obtain ⟨haudit, -, hopen⟩ := hfiles fs none ⟨[47, 108]⟩ hexports
  rw [hlacking] at haudit
  exact ⟨haudit, hopen _ _ haudit⟩

end LateBinding.Library
