import LateBinding.CommandLine.Inspect
import LateBinding.Proofs.Symbol.Agreement

/-!
**The report on symbols is exact.**

An audit lists the missing symbols of both tables by their names alone, and the report keeps those
of a group by looking the names up again, while it counts the group by the tables' own labels. **The
two agree**, because no name is registered twice: the name of a slot leads back to that slot, and so
to its group. So the lines of the report are those slots of the group that the library lacks, in the
order of registration, and the totals are the numbers of these and of all slots of the group, which
is what the plain listing lists.

Main definitions:

* `LateBinding.CommandLine.lackedSlots` — the slots of a group, or of all groups, that a library
  lacks.

Main results:

* `LateBinding.Symbol.groupOf?_of_mem` — the name of a slot leads to its group;
* `LateBinding.CommandLine.filter_lacking` — what is kept of an audit;
* `LateBinding.CommandLine.checkReport_of_exportsAt` — the report, for any library;
* `LateBinding.CommandLine.code_checkReport_iff` — **without a group, it succeeds exactly if the
  library opens**;
* `LateBinding.CommandLine.symbol_report_exact` — all of it together.
-/

set_option autoImplicit false

namespace LateBinding

/-! ### Groups -/

namespace Symbol

variable {s : Slot}

/-- **The name of a slot leads to its group.** -/
theorem groupOf?_of_mem (hs : s ∈ allSlots) : groupOf? s.symbol = some s.group := by
  rw [groupOf?, find?_of_mem symbols_nodup hs, Option.map_some]

end Symbol

namespace CommandLine

open LateBinding.Symbol (Slot Source allSlots isBound lacking)
open LateBinding.Library (exportsAt openAt audit)
open Text.Utf8 (bytes)

variable {h : Host} {library : Path} {group : Option String} {source : Source} {s : Slot}
  {file : Option Path} {args : List Argument} {c : Config}

/-- A name is wanted if the group of its slot is. -/
theorem wantsSymbol_of_mem (hs : s ∈ allSlots) :
    wantsSymbol group s.symbol = wants group s.group := by
  cases group with
  | none => rfl
  | some wanted =>
      rw [wantsSymbol, wants, Symbol.groupOf?_of_mem hs]
      rfl

/-! ### What a library lacks -/

/-- The slots of a group, or of all groups, that a library lacks, in the order of registration. -/
def lackedSlots (source : Source) (group : Option String) : List Slot :=
  allSlots.filter fun s => wants group s.group && !isBound source s.symbol

/-- **What is kept of an audit**: the names of the slots that the library lacks. -/
theorem filter_lacking (source : Source) (group : Option String) :
    (lacking source).filter (wantsSymbol group) = (lackedSlots source group).map Slot.symbol := by
  rw [Library.lacking_eq_filter]
  change ((allSlots.map Slot.symbol).filter _).filter _ = _
  rw [List.filter_filter, List.filter_map, lackedSlots]
  refine congrArg (List.map Slot.symbol) (List.filter_congr fun s hs => ?_)
  rw [Function.comp_apply, wantsSymbol_of_mem hs]

/-- What a library lacks of a group is part of the group. -/
theorem lackedSlots_sublist (source : Source) (group : Option String) :
    (lackedSlots source group).Sublist (wantedSlots group) := by
  have hsplit :
      lackedSlots source group = (wantedSlots group).filter fun s => !isBound source s.symbol := by
    rw [lackedSlots, wantedSlots, List.filter_filter]
    exact List.filter_congr fun s _ => Bool.and_comm _ _
  rw [hsplit]
  exact List.filter_sublist

/-- A library opens exactly if it lacks nothing of any group. -/
theorem opens_iff (hlibrary : exportsAt h.files h.environment.libraryPath library = .ok source) :
    (∃ b, openAt h.files h.environment.libraryPath library = .ok b) ↔
      lackedSlots source none = [] := by
  have hall : (lacking source).filter (wantsSymbol none) = lacking source :=
    List.filter_eq_self.2 fun _ _ => rfl
  rw [← Library.audit_eq_nil_iff hlibrary, Library.audit_of_exportsAt hlibrary, Except.ok.injEq,
    ← hall, filter_lacking, List.map_eq_nil_iff]

/-- What a library lacks of a group it lacks. -/
theorem lackedSlots_none_ne_nil (hsome : lackedSlots source group ≠ []) :
    lackedSlots source none ≠ [] := by
  obtain ⟨s, hs⟩ := List.exists_mem_of_ne_nil _ hsome
  rw [lackedSlots, List.mem_filter, Bool.and_eq_true] at hs
  exact List.ne_nil_of_mem (List.mem_filter.2 ⟨hs.1, hs.2.2⟩)

/-- What a library of a file lacks of a group. -/
theorem lackedSlots_sourceLacking (lacks : List String) (group : Option String) :
    lackedSlots (Library.sourceLacking lacks) group =
      allSlots.filter fun s => wants group s.group && lacks.contains s.symbol := by
  refine List.filter_congr fun s hs => ?_
  rw [Library.isBound_sourceLacking (List.mem_map_of_mem hs), Bool.not_not]

/-! ### The report -/

/-- The line for a slot that a library lacks. -/
def missingLine (s : Slot) : String := "missing  " ++ s.symbol

/-- **The report**, for any library: all is there, or a line for each slot that is lacking. -/
theorem checkReport_of_exportsAt
    (hlibrary : exportsAt h.files h.environment.libraryPath library = .ok source) :
    checkReport h library group =
      if lackedSlots source group = [] then
        { lines := [library.display ++ ": all " ++ toString (wantedSlots group).length ++
          " symbols present"] }
      else
        .fail ((lackedSlots source group).map missingLine)
          (library.display ++ ": " ++ toString (lackedSlots source group).length ++ " of " ++
            toString (wantedSlots group).length ++ " symbols missing") none := by
  rw [checkReport, Library.audit_of_exportsAt hlibrary]
  simp only [filter_lacking, List.isEmpty_map, List.isEmpty_iff, List.map_map, List.length_map]
  rfl

theorem code_fail (lines : List String) (what : String) (cause : Option Cause) :
    (Report.fail lines what cause).code = 1 := rfl

/-- **Without a group, the check succeeds exactly if the library opens.** -/
theorem code_checkReport_iff :
    (checkReport h library none).code = 0 ↔
      ∃ b, openAt h.files h.environment.libraryPath library = .ok b := by
  cases hlibrary : exportsAt h.files h.environment.libraryPath library with
  | error reason =>
      rw [checkReport, audit, openAt, hlibrary]
      exact iff_of_false (by simp [code_fail]) (by simp)
  | ok source =>
      rw [checkReport_of_exportsAt hlibrary, opens_iff hlibrary]
      by_cases hnone : lackedSlots source none = []
      · rw [if_pos hnone]
        exact iff_of_true rfl hnone
      · rw [if_neg hnone, code_fail]
        exact iff_of_false Nat.one_ne_zero hnone

/-- An invocation that checks symbols, under any configuration that can be read. -/
theorem run_symbols {library : Option Path}
    (hargs : Invocation.read args = .ok ⟨file, .symbols library group⟩)
    (hc : configuration h file = .ok c) : run h args = .report (symbolsReport h library group) := by
  rw [run, hargs]
  simp only [Invocation.report, hc]
  rfl

theorem mem_wantedSlots :
    s ∈ wantedSlots group ↔ s ∈ allSlots ∧ ∀ wanted, group = some wanted → s.group = wanted := by
  rw [wantedSlots, List.mem_filter]
  cases group <;> simp [wants]

/-- A slot is lacking if it is one of the group, and its symbol has no address but the null one. -/
theorem mem_lackedSlots :
    s ∈ lackedSlots source group ↔
      s ∈ wantedSlots group ∧ ∀ a, source s.symbol = some a → a = 0 := by
  rw [lackedSlots, wantedSlots, List.mem_filter, List.mem_filter, Bool.and_eq_true,
    Symbol.not_isBound_iff, and_assoc]

/-- **The report on symbols is exact.** For every library that can be opened and every group, a
check prints a line for each slot of the group that the library lacks, in the order of registration,
and the number of these and of all slots of the group; it succeeds exactly if there is none, and
says so. Without a group it succeeds exactly if the library opens. The plain listing lists the same
slots, and their number. -/
theorem symbol_report_exact :
    (∀ h args file library group c source,
      Invocation.read args = .ok ⟨file, .symbols (some library) group⟩ →
      configuration h file = .ok c →
      exportsAt h.files h.environment.libraryPath library = .ok source →
      (lackedSlots source group = [] → (run h args).code = 0 ∧
        run h args = .report { lines := [library.display ++ ": all " ++
          toString (wantedSlots group).length ++ " symbols present"] }) ∧
      (lackedSlots source group ≠ [] → (run h args).code = 1 ∧
        run h args = .report ⟨(lackedSlots source group).map missingLine,
          some ⟨library.display ++ ": " ++ toString (lackedSlots source group).length ++ " of " ++
            toString (wantedSlots group).length ++ " symbols missing", none⟩⟩)) ∧
    (∀ h args file library c, Invocation.read args = .ok ⟨file, .symbols (some library) none⟩ →
      configuration h file = .ok c →
      ((run h args).code = 0 ↔ ∃ b, openAt h.files h.environment.libraryPath library = .ok b)) ∧
    (∀ h args file group c, Invocation.read args = .ok ⟨file, .symbols none group⟩ →
      configuration h file = .ok c →
      run h args = .report { lines :=
        (wantedSlots group).map slotLine ++ [toString (wantedSlots group).length ++ " symbols"] }) ∧
    ∀ source group,
      (∀ s, s ∈ lackedSlots source group ↔
        s ∈ wantedSlots group ∧ ∀ a, source s.symbol = some a → a = 0) ∧
      (∀ s, s ∈ wantedSlots group ↔
        s ∈ allSlots ∧ ∀ wanted, group = some wanted → s.group = wanted) ∧
      (lackedSlots source group).Sublist (wantedSlots group) ∧
      (wantedSlots group).Sublist allSlots ∧
      (lackedSlots source group).length ≤ (wantedSlots group).length ∧
      ((wantedSlots group).map Slot.symbol).Nodup := by
  refine ⟨?_, ?_, ?_, fun source group => ⟨fun s => mem_lackedSlots, fun s => mem_wantedSlots, ?_⟩⟩
  · intro h args file library group c source hargs hc hlibrary
    have hrun : run h args = .report (checkReport h library group) := run_symbols hargs hc
    rw [hrun, checkReport_of_exportsAt hlibrary]
    refine ⟨fun hnone => ?_, fun hsome => ?_⟩
    · rw [if_pos hnone]
      exact ⟨rfl, rfl⟩
    · rw [if_neg hsome]
      exact ⟨rfl, rfl⟩
  · intro h args file library c hargs hc
    have hrun : run h args = .report (checkReport h library none) := run_symbols hargs hc
    rw [hrun]
    exact code_checkReport_iff
  · intro h args file group c hargs hc
    exact run_symbols hargs hc
  · have hwanted : (wantedSlots group).Sublist allSlots := List.filter_sublist
    have hlacked := lackedSlots_sublist source group
    exact ⟨hlacked, hwanted, hlacked.length_le,
      (hwanted.map Slot.symbol).nodup Symbol.symbols_nodup⟩

/-- A library that lacks a symbol of either table, in different groups. -/
def incomplete : FileSystem.Image :=
  ⟨["Cronet_EngineParams_network_thread_priority_get", "bidirectional_stream_flush"], none, none⟩

/-- A host with that library. -/
def withIncomplete : Host where
  files := ⟨[], [([[108]], .library incomplete)]⟩

/-- The arguments for a check of it. -/
def checking : List Argument := [bytes "symbols", bytes "--check", bytes "/l"]

/-- Of a group, the check names only the symbol of that group, which is in the other table; nothing
is missing of a group that there is not; and without a group the check fails, as the library does
not open. -/
theorem one_symbol_missing_of_group :
    run withIncomplete (checking ++ [bytes "--group", bytes "engine_params"]) =
      .report ⟨["missing  Cronet_EngineParams_network_thread_priority_get"],
        some ⟨"/l: 1 of 34 symbols missing", none⟩⟩ ∧
    run withIncomplete (checking ++ [bytes "--group", bytes "none"]) =
      .report ⟨["/l: all 0 symbols present"], none⟩ ∧
    (run withIncomplete checking).code ≠ 0 := by
  obtain ⟨hcheck, hopens, -, -⟩ := symbol_report_exact
  have hconfig : configuration withIncomplete none = .ok {} := by decide +kernel
  have hlibrary :
      exportsAt withIncomplete.files withIncomplete.environment.libraryPath ⟨[47, 108]⟩ =
      .ok (Library.sourceLacking incomplete.lacks) := by rfl
  have hlacked : lackedSlots (Library.sourceLacking incomplete.lacks) (some "engine_params") =
      [⟨"engine_params", "engine_params_network_thread_priority_get",
        "Cronet_EngineParams_network_thread_priority_get", [.handle .engineParams], .double⟩] := by
    rw [lackedSlots_sourceLacking]
    decide +kernel
  have hsome :
      lackedSlots (Library.sourceLacking incomplete.lacks) (some "engine_params") ≠ [] := by
    rw [hlacked]
    exact List.cons_ne_nil _ _
  have hnothing : lackedSlots (Library.sourceLacking incomplete.lacks) (some "none") = [] := by
    rw [lackedSlots_sourceLacking]
    decide +kernel
  have hargs : Invocation.read (checking ++ [bytes "--group", bytes "engine_params"]) =
      .ok ⟨none, .symbols (some ⟨[47, 108]⟩) (some "engine_params")⟩ := by decide +kernel
  have hargs' : Invocation.read (checking ++ [bytes "--group", bytes "none"]) =
      .ok ⟨none, .symbols (some ⟨[47, 108]⟩) (some "none")⟩ := by decide +kernel
  have hargs'' : Invocation.read checking =
      .ok ⟨none, .symbols (some ⟨[47, 108]⟩) none⟩ := by decide +kernel
  refine ⟨?_, ?_, ?_⟩
  · rw [((hcheck _ _ _ _ _ _ _ hargs hconfig hlibrary).2 hsome).2, hlacked]
    decide +kernel
  · rw [((hcheck _ _ _ _ _ _ _ hargs' hconfig hlibrary).1 hnothing).2]
    decide +kernel
  · intro hcode
    have hopen := (hopens _ _ _ _ _ hargs'' hconfig).1 hcode
    exact lackedSlots_none_ne_nil hsome ((opens_iff hlibrary).1 hopen)

end CommandLine

end LateBinding
