import LateBinding.Proofs.Load.Precedence

/-!
**The inspector's diagnosis is what a load does.**

`locate` searches and shows what the search took; `info` goes through a guard, which searches and
opens what it took. They get to the search on different ways: `locate` with the plan of the
configuration, `info` with a guard that is made from it. **The path that `locate` selects is the one
that `info` hands to the opener**, and where the search takes nothing both fail with the same words.
What an opener is handed is seen by giving `info` one that notes it.

Main definitions:

* `LateBinding.Library.findVia`, `LateBinding.CommandLine.infoVia` — finding and opening, and what
  `info` reports on it, with an opener of any kind;
* `LateBinding.CommandLine.handed` — the paths that `info` hands to its opener;
* `LateBinding.CommandLine.Selects`, `LateBinding.CommandLine.IsMarkedFound` — what a report shows.

Main results:

* `LateBinding.CommandLine.infoVia_noting` — noting what is handed over changes no report;
* `LateBinding.CommandLine.diagnosed` — **the three ways that both commands may go**, side by side;
* `LateBinding.Error.eq_notFound_of_message` — the words of a search without success are its own;
* `LateBinding.CommandLine.isMarkedFound_numbered` — the marks of a listing;
* `LateBinding.CommandLine.diagnosis_matches_loading` — all of it together.
-/

set_option autoImplicit false

namespace LateBinding

open Library (Environment FirstLoad Locator openAt)

/-! ### Openers -/

namespace Library

variable {m : Type → Type} [Monad m]

/-- Finding and opening the library with an opener of any kind. -/
def findVia (opener : Path → m Outcome) (l : Locator) (fs : FileSystem) (env : Environment)
    (request : Option Path) : m Outcome :=
  match l.locate request env fs with
  | .error searched => pure (.error (.notFound searched))
  | .ok p => opener p

/-- An opener that notes the paths that it gets. -/
def noting (opener : Path → Outcome) (p : Path) : StateM (List Path) Outcome :=
  modifyGet fun noted => (opener p, noted ++ [p])

variable {l : Locator} {fs : FileSystem} {env : Environment} {request : Option Path}

theorem findVia_of_located {opener : Path → m Outcome} {p : Path}
    (h : l.locate request env fs = .ok p) : findVia opener l fs env request = opener p := by
  rw [findVia, h]

theorem findVia_of_not_located {opener : Path → m Outcome} {searched : List Path}
    (h : l.locate request env fs = .error searched) :
    findVia opener l fs env request = pure (.error (.notFound searched)) := by
  rw [findVia, h]

/-- A guard finds and opens with the system's opener. -/
theorem firstLoad_findVia (l : Locator) (fs : FileSystem) (env : Environment)
    (request : Option Path) :
    FirstLoad l fs env request
      (findVia (m := Id) (openAt fs env.libraryPath) l fs env request) := by
  cases h : l.locate request env fs with
  | ok p => exact (firstLoad_iff_of_located h).2 (findVia_of_located h)
  | error searched => exact (firstLoad_iff_of_not_located h).2 (findVia_of_not_located h)

end Library

/-! ### The search without success -/

/-- Texts that begin differently differ. -/
theorem append_ne_append_of_starts {a b : String}
    (h : ¬(a.toList <+: b.toList ∨ b.toList <+: a.toList)) (s t : String) : a ++ s ≠ b ++ t := by
  intro he
  have hchars : a.toList ++ s.toList = b.toList ++ t.toList := by
    rw [← String.toList_append, he, String.toList_append]
  have ha : a.toList <+: b.toList ++ t.toList := ⟨_, hchars⟩
  exact h <| List.prefix_or_prefix_of_prefix ha <| List.prefix_append _ _

/-- Texts that end differently differ. -/
theorem append_ne_append_of_ends {a b : String}
    (h : ¬(a.toList <:+ b.toList ∨ b.toList <:+ a.toList)) (s t : String) : s ++ a ≠ t ++ b := by
  intro he
  have hchars : s.toList ++ a.toList = t.toList ++ b.toList := by
    rw [← String.toList_append, he, String.toList_append]
  have ha : a.toList <:+ t.toList ++ b.toList := ⟨_, hchars⟩
  exact h (List.suffix_or_suffix_of_suffix ha (List.suffix_append _ _))

theorem Error.message_notFound (searched : List Path) :
    (Error.notFound searched).message =
      "cronet: library not found (searched: " ++ (displayPlaces searched ++ ")") :=
  String.append_assoc

/-- **The words of a search without success are its own.** -/
theorem Error.eq_notFound_of_message {e : Error} {searched : List Path}
    (h : e.message = (Error.notFound searched).message) : ∃ places, e = .notFound places := by
  rw [message_notFound] at h
  cases e with
  | notFound places => exact ⟨places, rfl⟩
  | openFailed path reason =>
      change "cronet: failed to load library " ++ path.display ++ ": " ++ reason = _ at h
      rw [String.append_assoc, String.append_assoc] at h
      exact (append_ne_append_of_starts (by decide) _ _ h).elim
  | symbolMissing symbol =>
      change "cronet: symbol " ++ symbol ++ " not found" = _ at h
      rw [String.append_assoc] at h
      exact (append_ne_append_of_starts (by decide) _ _ h).elim
  | platformUnsupported operation =>
      -- what is not supported may be any text, so only the ends tell the two apart
      change "cronet: " ++ operation ++ " not supported on 32-bit platforms" = _ at h
      rw [← String.append_assoc] at h
      exact (append_ne_append_of_ends (by decide) _ _ h).elim
  | nativeCallFailure code name =>
      change "cronet: native call failed with " ++ name ++ " (" ++ toString code ++ ")" = _ at h
      rw [String.append_assoc, String.append_assoc, String.append_assoc] at h
      exact (append_ne_append_of_starts (by decide) _ _ h).elim

/-- A configuration that cannot be used is not described in the words of a search. -/
theorem Config.Error.message_ne_notFound (e : Config.Error) (searched : List Path) :
    e.message ≠ (LateBinding.Error.notFound searched).message := by
  rw [LateBinding.Error.message_notFound]
  cases e with
  | io cause =>
      change "Failed to read config file: " ++ cause.message ≠ _
      exact append_ne_append_of_starts (by decide) _ _
  | malformed =>
      change "Failed to parse config:" ++ "" ≠ _
      exact append_ne_append_of_starts (by decide) _ _
  | notFound path =>
      change "Config file not found: " ++ path.display ≠ _
      exact append_ne_append_of_starts (by decide) _ _

namespace FileSystem

variable {fs : FileSystem} {places : List Path} {p : Path}

/-- The first place at which anything stands, by its number. -/
theorem first_iff_getElem? : fs.First places p ↔
    ∃ i : Nat, places[i]? = some p ∧ fs.exists? p = true ∧
      ∀ (j : Nat) (q : Path), j < i → places[j]? = some q → fs.exists? q = false := by
  constructor
  · rintro ⟨before, after, rfl, hp, hbefore⟩
    refine ⟨before.length, by simp, hp, fun j q hj hq => hbefore q ?_⟩
    rw [List.getElem?_append_left hj] at hq
    exact List.mem_of_getElem? hq
  · rintro ⟨i, hi, hp, hbefore⟩
    obtain ⟨hlt, rfl⟩ := List.getElem?_eq_some_iff.1 hi
    refine ⟨places.take i, places.drop (i + 1), by simp, hp, fun q hq => ?_⟩
    obtain ⟨j, hj⟩ := List.getElem?_of_mem hq
    obtain ⟨hji, -⟩ := List.getElem?_eq_some_iff.1 hj
    have hji : j < i := by
      rw [List.length_take] at hji
      omega
    rw [List.getElem?_take_of_lt hji] at hj
    exact hbefore j q hji hj

end FileSystem

namespace CommandLine

variable {m : Type → Type} [Monad m] {h : Host} {file : Option Path} {verbose : Bool}

/-- What `info` reports when it is given an opener of any kind, and no path of the library. -/
def infoVia (opener : Path → m Library.Outcome) (h : Host) (file : Option Path) : m Report :=
  match configuration h file with
  | .ok c => loadReport h <$> Library.findVia opener c.locator h.files h.environment none
  | .error failure => pure ⟨[], some failure⟩

/-- The paths that `info` hands to its opener, in order. -/
def handed (h : Host) (file : Option Path) : List Path :=
  (StateT.run (infoVia (Library.noting (openAt h.files h.environment.libraryPath)) h file) []).2

/-- **The report of `info` is that with the system's opener.** -/
theorem infoVia_openAt (h : Host) (file : Option Path) :
    infoVia (m := Id) (openAt h.files h.environment.libraryPath) h file =
      Invocation.report h ⟨file, .info none⟩ := by
  cases hc : configuration h file with
  | error failure => rw [infoVia, Invocation.report, hc]; rfl
  | ok c =>
      rw [infoVia, Invocation.report, hc]
      exact (infoReport_of_firstLoad (Library.firstLoad_findVia _ _ _ _)).symm

/-- **Noting what is handed over changes no report.** -/
theorem infoVia_noting (h : Host) (file : Option Path) :
    StateT.run (infoVia (Library.noting (openAt h.files h.environment.libraryPath)) h file) [] =
      (Invocation.report h ⟨file, .info none⟩, handed h file) := by
  refine Prod.ext ?_ rfl
  rw [← infoVia_openAt]
  cases hc : configuration h file with
  | error failure => rw [infoVia, infoVia, hc]; rfl
  | ok c =>
      simp only [infoVia, hc]
      cases hl : c.locator.locate none h.environment h.files with
      | ok p => rw [Library.findVia_of_located hl, Library.findVia_of_located hl]; rfl
      | error searched =>
          rw [Library.findVia_of_not_located hl, Library.findVia_of_not_located hl]; rfl

/-! ### Both commands side by side -/

/-- Why there is no configuration is a fault of the configuration. -/
theorem configuration_eq_error {failure : Failure} (hc : configuration h file = .error failure) :
    ∃ what e, failure = ⟨what, some (.config e)⟩ := by
  cases file with
  | some path =>
      cases hl : Config.load h.files path with
      | ok c => simp [configuration, hl] at hc
      | error e =>
          simp only [configuration, hl, Except.error.injEq] at hc
          exact ⟨_, e, hc.symm⟩
  | none =>
      cases hl : Config.loadNearest h.files h.pathOverride with
      | ok c => simp [configuration, hl] at hc
      | error e =>
          simp only [configuration, hl, Except.error.injEq] at hc
          exact ⟨_, e, hc.symm⟩

/-- The reports of `locate` and of `info`, and what `info` hands to its opener: there is no
configuration, the search takes a path, or it takes nothing. -/
inductive Diagnosed (h : Host) (file : Option Path) (verbose : Bool) :
    Report → Report → List Path → Prop
  | unconfigured (what : String) (e : Config.Error)
      (hc : configuration h file = .error ⟨what, some (.config e)⟩) :
      Diagnosed h file verbose ⟨[], some ⟨what, some (.config e)⟩⟩
        ⟨[], some ⟨what, some (.config e)⟩⟩ []
  | located (c : Config) (p : Path) (hc : configuration h file = .ok c)
      (hl : c.locator.locate none h.environment h.files = .ok p) :
      Diagnosed h file verbose
        { lines := planLines h c.locator verbose ++ ["Selected: " ++ p.display] }
        (loadReport h (openAt h.files h.environment.libraryPath p)) [p]
  | notLocated (c : Config) (searched : List Path) (hc : configuration h file = .ok c)
      (hl : c.locator.locate none h.environment h.files = .error searched) :
      Diagnosed h file verbose
        (.fail (planLines h c.locator verbose) (Error.notFound searched).message none)
        (loadReport h (.error (.notFound searched))) []

/-- **The three ways that both commands may go.** -/
theorem diagnosed (h : Host) (file : Option Path) (verbose : Bool) :
    Diagnosed h file verbose (Invocation.report h ⟨file, .locate verbose⟩)
      (Invocation.report h ⟨file, .info none⟩) (handed h file) := by
  rw [← infoVia_openAt, handed]
  cases hc : configuration h file with
  | error failure =>
      obtain ⟨what, e, rfl⟩ := configuration_eq_error hc
      simp only [infoVia, Invocation.report, hc]
      exact .unconfigured what e hc
  | ok c =>
      simp only [infoVia, Invocation.report, hc, Command.report, locateReport]
      cases hl : c.locator.locate none h.environment h.files with
      | ok p =>
          rw [Library.findVia_of_located hl, Library.findVia_of_located hl]
          exact .located c p hc hl
      | error searched =>
          rw [Library.findVia_of_not_located hl, Library.findVia_of_not_located hl]
          exact .notLocated c searched hc hl

/-! ### What a report shows -/

/-- A report of success that shows a path as the one selected. -/
def Selects (r : Report) (shown : String) : Prop :=
  r.code = 0 ∧ "Selected: " ++ shown ∈ r.lines

/-- A line of a listing that says that something stands there. -/
def IsMarkedFound (line : String) : Prop := ∃ text, line = text ++ " [found]"

/-- A numbered line begins with blanks. -/
theorem exists_numbered_eq (i : Nat) (text : String) : ∃ rest, numbered i text = "  " ++ rest :=
  ⟨_, by rw [numbered, String.append_assoc, String.append_assoc]⟩

/-- No line of the plan shows a path as selected. -/
theorem selected_not_mem_planLines (h : Host) (l : Locator) (verbose : Bool) (shown : String) :
    "Selected: " ++ shown ∉ planLines h l verbose := by
  intro hmem
  simp only [planLines, List.cons_append, List.mem_cons, List.mem_append, List.mem_map] at hmem
  rcases hmem with he | ⟨path, -, he⟩ | he | hline
  · exact append_ne_append_of_starts (by decide) _ _ he
  · exact append_ne_append_of_starts (by decide) _ _ he
  · change _ = "Search order:" ++ "" at he
    exact append_ne_append_of_starts (by decide) _ _ he
  · have hnumbered : ∃ i text, numbered i text = "Selected: " ++ shown := by
      cases verbose with
      | false =>
          obtain ⟨i, hi, he⟩ := List.mem_mapIdx.1 hline
          exact ⟨i, _, he⟩
      | true =>
          obtain ⟨i, hi, he⟩ := List.mem_mapIdx.1 hline
          exact ⟨i, _, he⟩
    obtain ⟨i, text, he⟩ := hnumbered
    obtain ⟨rest, hrest⟩ := exists_numbered_eq i text
    exact append_ne_append_of_starts (by decide) _ _ (hrest.symm.trans he)

theorem selects_located {p : Path} {c : Config} {shown : String} :
    Selects { lines := planLines h c.locator verbose ++ ["Selected: " ++ p.display] } shown ↔
      p.display = shown := by
  have hplan := selected_not_mem_planLines h c.locator verbose shown
  simp only [Selects, Report.code, Option.isSome_none, Bool.false_eq_true, if_false, true_and,
    List.mem_append, List.mem_singleton, hplan, false_or]
  constructor
  · intro he
    have hchars := congrArg String.toList he
    rw [String.toList_append, String.toList_append, List.append_cancel_left_eq] at hchars
    exact (String.toList_injective hchars).symm
  · rintro rfl
    rfl

theorem not_selects_of_failure {r : Report} {f : Failure} {shown : String}
    (hf : r.failure = some f) : ¬Selects r shown := by
  rintro ⟨hcode, -⟩
  simp [Report.code, hf] at hcode

/-- **The mark of a candidate's line says whether anything stands there.** -/
theorem isMarkedFound_numbered {i : Nat} {fs : FileSystem} {p : Path} :
    IsMarkedFound (numbered i (markedCandidate fs p)) ↔ fs.exists? p = true := by
  rw [numbered, markedCandidate, ← String.append_assoc]
  cases fs.exists? p with
  | true => exact iff_of_true ⟨_, rfl⟩ rfl
  | false =>
      refine iff_of_false ?_ Bool.false_ne_true
      rintro ⟨text, he⟩
      exact append_ne_append_of_ends (by decide) _ _ he

theorem getElem?_listing {l : Locator} (i : Nat) :
    (searchLines h l true)[i]? =
      (l.candidates h.environment)[i]?.map fun p => numbered i (markedCandidate h.files p) := by
  rw [searchLines, if_pos rfl, List.getElem?_mapIdx]

/-! ### What the two commands have in common -/

section Diagnosed

variable {located loaded : Report} {paths : List Path} {c : Config} {shown : String}

/-- The configuration of an invocation is one. -/
theorem configuration_unique {c' : Config} (hc : configuration h file = .ok c)
    (hc' : configuration h file = .ok c') : c' = c :=
  Except.ok.inj (hc'.symm.trans hc)

theorem Diagnosed.selects_iff (hd : Diagnosed h file verbose located loaded paths) :
    Selects located shown ↔ ∃ p, p.display = shown ∧ paths = [p] := by
  cases hd with
  | unconfigured what e hc => exact iff_of_false (not_selects_of_failure rfl) (by simp)
  | located c p hc hl => simp [selects_located]
  | notLocated c searched hc hl => exact iff_of_false (not_selects_of_failure rfl) (by simp)

/-- `locate` succeeds exactly if `info` gets as far as to open anything. -/
theorem Diagnosed.code_eq_zero_iff (hd : Diagnosed h file verbose located loaded paths) :
    located.code = 0 ↔ ∃ p, paths = [p] := by
  cases hd with
  | unconfigured what e hc => simp [Report.code]
  | located c p hc hl => simp [Report.code]
  | notLocated c searched hc hl => simp [Report.code, Report.fail]

/-- An opener does not say that nothing was found. -/
theorem openAt_ne_notFound (fs : FileSystem) (libraryPath : Option (List UInt8)) (p : Path)
    (searched : List Path) : openAt fs libraryPath p ≠ .error (.notFound searched) := by
  cases hsource : Library.exportsAt fs libraryPath p with
  | error reason => simp [openAt, hsource]
  | ok source =>
      rw [Library.openAt_of_exportsAt hsource]
      cases Symbol.lacking source <;> simp

/-- A load that fails in the words of a search without success is one whose search took nothing. -/
theorem loadReport_failure_iff {o : Library.Outcome} {searched : List Path} :
    (∃ what cause, (loadReport h o).failure = some ⟨what, some cause⟩ ∧
      cause.chain = [(Error.notFound searched).message]) ↔
      ∃ places, o = .error (.notFound places) ∧
        (Error.notFound places).message = (Error.notFound searched).message := by
  cases o with
  | ok b => simp [loadReport]
  | error e =>
      constructor
      · rintro ⟨what, cause, hf, hchain⟩
        obtain ⟨-, rfl⟩ : "Failed to load cronet" = what ∧ Cause.library e = cause := by
          simpa [loadReport, Report.fail] using hf
        have hmessage : e.message = (Error.notFound searched).message := by
          simpa [Cause.chain] using hchain
        obtain ⟨places, rfl⟩ := Error.eq_notFound_of_message hmessage
        exact ⟨places, rfl, hmessage⟩
      · rintro ⟨places, he, hmessage⟩
        cases he
        exact ⟨_, _, rfl, congrArg (fun text => [text]) hmessage⟩

/-- **Both fail in the same words** where the search takes nothing. -/
theorem Diagnosed.failure_iff (hd : Diagnosed h file verbose located loaded paths)
    (searched : List Path) :
    located.failure = some ⟨(Error.notFound searched).message, none⟩ ↔
      ∃ what cause, loaded.failure = some ⟨what, some cause⟩ ∧
        cause.chain = [(Error.notFound searched).message] := by
  cases hd with
  | unconfigured what e hc =>
      refine iff_of_false (by simp) ?_
      rintro ⟨what, cause, hf, hchain⟩
      obtain ⟨-, rfl⟩ : _ ∧ Cause.config e = cause := by simpa using hf
      cases e with
      | io cause => cases hchain
      | malformed => exact Config.Error.message_ne_notFound _ _ (List.singleton_inj.1 hchain)
      | notFound path => exact Config.Error.message_ne_notFound _ _ (List.singleton_inj.1 hchain)
  | located c p hc hl =>
      rw [loadReport_failure_iff]
      refine iff_of_false (by simp) ?_
      rintro ⟨places, ho, -⟩
      exact openAt_ne_notFound _ _ _ _ ho
  | notLocated c places hc hl =>
      rw [loadReport_failure_iff]
      simp [Report.fail]

/-- Where no path is configured, the search goes through the candidates. -/
theorem places_of_path_eq_none (hpath : c.path = none) (env : Environment) :
    c.locator.places none env = c.locator.candidates env := by
  have hrequired : c.locator.required none = none := hpath
  rw [Locator.places, hrequired]

/-- The first line that is marked is that of the first candidate at which anything stands. -/
theorem first_marked_iff {l : Locator} :
    (∃ (i : Nat) (line : String) (p : Path), (searchLines h l true)[i]? = some line ∧
      (l.candidates h.environment)[i]? = some p ∧ p.display = shown ∧ IsMarkedFound line ∧
      ∀ (j : Nat) (line' : String), j < i → (searchLines h l true)[j]? = some line' →
        ¬IsMarkedFound line') ↔
      ∃ p, h.files.First (l.candidates h.environment) p ∧ p.display = shown := by
  constructor
  · rintro ⟨i, line, p, hline, hp, hshown, hmark, hbefore⟩
    rw [getElem?_listing, hp] at hline
    cases hline
    refine ⟨p, FileSystem.first_iff_getElem?.2 ⟨i, hp, isMarkedFound_numbered.1 hmark, ?_⟩, hshown⟩
    intro j q hj hq
    have hnot := hbefore j _ hj (by rw [getElem?_listing, hq]; rfl)
    rwa [isMarkedFound_numbered, Bool.not_eq_true] at hnot
  · rintro ⟨p, hfirst, hshown⟩
    obtain ⟨i, hp, hexists, hbefore⟩ := FileSystem.first_iff_getElem?.1 hfirst
    have hline : (searchLines h l true)[i]? = some (numbered i (markedCandidate h.files p)) := by
      rw [getElem?_listing, hp]
      rfl
    refine ⟨i, _, p, hline, hp, hshown, isMarkedFound_numbered.2 hexists, ?_⟩
    intro j line' hj hline'
    rw [getElem?_listing, Option.map_eq_some_iff] at hline'
    obtain ⟨q, hq, rfl⟩ := hline'
    rw [isMarkedFound_numbered, hbefore j q hj hq]
    exact Bool.false_ne_true

/-- No line is marked exactly if nothing stands at any candidate. -/
theorem none_marked_iff {l : Locator} :
    (∀ line ∈ searchLines h l true, ¬IsMarkedFound line) ↔
      ∀ q ∈ l.candidates h.environment, h.files.exists? q = false := by
  constructor
  · intro hnone q hq
    obtain ⟨i, hi⟩ := List.getElem?_of_mem hq
    have hline : (searchLines h l true)[i]? = some (numbered i (markedCandidate h.files q)) := by
      rw [getElem?_listing, hi]
      rfl
    have hnot := hnone _ (List.mem_of_getElem? hline)
    rwa [isMarkedFound_numbered, Bool.not_eq_true] at hnot
  · intro hnone line hline
    obtain ⟨i, hi⟩ := List.getElem?_of_mem hline
    rw [getElem?_listing, Option.map_eq_some_iff] at hi
    obtain ⟨q, hq, rfl⟩ := hi
    rw [isMarkedFound_numbered, hnone q (List.mem_of_getElem? hq)]
    exact Bool.false_ne_true

/-- **The first line that is marked is that of the path selected**, where no path is configured. -/
theorem Diagnosed.selects_iff_first
    (hd : Diagnosed h file verbose located loaded paths) (hc : configuration h file = .ok c)
    (hpath : c.path = none) :
    Selects located shown ↔
      ∃ p, h.files.First (c.locator.candidates h.environment) p ∧ p.display = shown := by
  rw [← places_of_path_eq_none hpath]
  cases hd with
  | unconfigured what e hc' => cases hc.symm.trans hc'
  | located c' p hc' hl =>
      obtain rfl := configuration_unique hc hc'
      have hfirst := Locator.locate_eq_ok_iff.1 hl
      rw [selects_located]
      constructor
      · intro hshown
        exact ⟨p, hfirst, hshown⟩
      · rintro ⟨q, hq, hshown⟩
        rwa [hfirst.unique hq]
  | notLocated c' searched hc' hl =>
      obtain rfl := configuration_unique hc hc'
      obtain ⟨hnone, -⟩ := Locator.locate_eq_error_iff.1 hl
      refine iff_of_false (not_selects_of_failure rfl) ?_
      rintro ⟨p, hfirst, -⟩
      exact FileSystem.not_first_of_none hnone hfirst

/-- The search fails exactly if nothing stands at any candidate, where no path is configured. -/
theorem Diagnosed.code_ne_zero_iff
    (hd : Diagnosed h file verbose located loaded paths) (hc : configuration h file = .ok c)
    (hpath : c.path = none) :
    located.code ≠ 0 ↔
      ∀ q ∈ c.locator.candidates h.environment, h.files.exists? q = false := by
  rw [← places_of_path_eq_none hpath]
  cases hd with
  | unconfigured what e hc' => cases hc.symm.trans hc'
  | located c' p hc' hl =>
      obtain rfl := configuration_unique hc hc'
      refine iff_of_false (by simp [Report.code]) fun hnone => ?_
      exact FileSystem.not_first_of_none hnone (Locator.locate_eq_ok_iff.1 hl)
  | notLocated c' searched hc' hl =>
      obtain rfl := configuration_unique hc hc'
      obtain ⟨hnone, -⟩ := Locator.locate_eq_error_iff.1 hl
      exact iff_of_true (by simp [Report.code, Report.fail]) hnone

theorem exists_planLines_eq (h : Host) (l : Locator) (verbose : Bool) :
    ∃ before, planLines h l verbose = before ++ "Search order:" :: searchLines h l verbose :=
  ⟨_, rfl⟩

/-- What `locate` shows of its candidates. -/
theorem Diagnosed.exists_lines_eq (hd : Diagnosed h file true located loaded paths)
    (hc : configuration h file = .ok c) :
    ∃ before after,
      located.lines = before ++ "Search order:" :: (searchLines h c.locator true ++ after) := by
  cases hd with
  | unconfigured what e hc' => cases hc.symm.trans hc'
  | located c' p hc' hl =>
      obtain rfl := configuration_unique hc hc'
      obtain ⟨before, hplan⟩ := exists_planLines_eq h c'.locator true
      exact ⟨before, ["Selected: " ++ p.display], by simp [hplan]⟩
  | notLocated c' searched hc' hl =>
      obtain rfl := configuration_unique hc hc'
      obtain ⟨before, hplan⟩ := exists_planLines_eq h c'.locator true
      exact ⟨before, [], by simp [hplan, Report.fail]⟩

end Diagnosed

/-! ### Diagnosis -/

/-- **Diagnosis matches loading.** Whatever the configuration, the environment and the files are:
giving `info` an opener that notes its paths changes nothing in its report; `locate` exits with zero
and shows a path as selected exactly if `info` hands this one path to its opener, and exits with
zero exactly if `info` hands over any; and `locate` fails in the words of a search without success
exactly if these words are the cause that `info` gives. With all its candidates `locate` lists them
in order, one a line, each marked as found exactly if anything stands there; and where no path is
configured or comes from the variable, the path selected is that of the first line so marked, and
`locate` fails exactly if no line is. -/
theorem diagnosis_matches_loading (h : Host) (file : Option Path) (verbose : Bool) :
    let located := Invocation.report h ⟨file, .locate verbose⟩
    let loaded := Invocation.report h ⟨file, .info none⟩
    StateT.run (infoVia (Library.noting (openAt h.files h.environment.libraryPath)) h file) [] =
      (loaded, handed h file) ∧
    (∀ shown, Selects located shown ↔ ∃ p, p.display = shown ∧ handed h file = [p]) ∧
    (located.code = 0 ↔ ∃ p, handed h file = [p]) ∧
    (∀ searched, located.failure = some ⟨(Error.notFound searched).message, none⟩ ↔
      ∃ what cause, loaded.failure = some ⟨what, some cause⟩ ∧
        cause.chain = [(Error.notFound searched).message]) ∧
    ∀ c, configuration h file = .ok c →
      let listing := searchLines h c.locator true
      let candidates := c.locator.candidates h.environment
      (∃ before after, (Invocation.report h ⟨file, .locate true⟩).lines =
        before ++ "Search order:" :: (listing ++ after)) ∧
      listing.length = candidates.length ∧
      (∀ (i : Nat) (p : Path), candidates[i]? = some p →
        ∃ line mark, listing[i]? = some line ∧ line = numbered i (p.display ++ mark) ∧
          (IsMarkedFound line ↔ h.files.exists? p = true)) ∧
      (c.path = none →
        (∀ shown, Selects located shown ↔
          ∃ (i : Nat) (line : String) (p : Path), listing[i]? = some line ∧
            candidates[i]? = some p ∧ p.display = shown ∧ IsMarkedFound line ∧
            ∀ (j : Nat) (line' : String), j < i → listing[j]? = some line' →
              ¬IsMarkedFound line') ∧
        (located.code ≠ 0 ↔ ∀ line ∈ listing, ¬IsMarkedFound line)) := by
  intro located loaded
  have hd : Diagnosed h file verbose located loaded (handed h file) := diagnosed h file verbose
  refine ⟨infoVia_noting h file, fun shown => hd.selects_iff, hd.code_eq_zero_iff,
    fun searched => hd.failure_iff searched, ?_⟩
  intro c hc listing candidates
  refine ⟨(diagnosed h file true).exists_lines_eq hc, ?_, fun i p hp => ?_,
    fun hpath => ⟨fun shown => ?_, ?_⟩⟩
  · exact List.length_mapIdx
  · refine ⟨_, _, ?_, rfl, isMarkedFound_numbered⟩
    change (searchLines h c.locator true)[i]? = _
    rw [getElem?_listing, hp]
    rfl
  · exact (hd.selects_iff_first hc hpath).trans first_marked_iff.symm
  · exact (hd.code_ne_zero_iff hc hpath).trans none_marked_iff.symm

/-- A host with the library in the second of its directories. -/
def secondOfTwo : Host where
  files :=
    { cwd := []
      entries := [([Text.Utf8.bytes "d"], .directory), ([Text.Utf8.bytes "e"], .directory),
        ([Text.Utf8.bytes "e", Text.Utf8.bytes "libcronet.so"], .library { lacks := [] })] }
  environment :=
    { exeDir := some (Path.ofString "/d"), libraryPath := some (Text.Utf8.bytes "/e") }

/-- The second directory is shown as the one selected, its line is the first one marked, and `info`
opens what is there. -/
theorem second_of_two_selected :
    handed secondOfTwo none = [Path.ofString "/e/libcronet.so"] ∧
      Selects (Invocation.report secondOfTwo ⟨none, .locate true⟩) "/e/libcronet.so" ∧
      ∃ (i : Nat) (line : String),
        (searchLines secondOfTwo ({} : Config).locator true)[i]? = some line ∧
          IsMarkedFound line := by
  have hhanded : handed secondOfTwo none = [Path.ofString "/e/libcronet.so"] := by decide +kernel
  have hc : configuration secondOfTwo none = .ok {} := by decide +kernel
  have hshown : (Path.ofString "/e/libcronet.so").display = "/e/libcronet.so" := by decide +kernel
  obtain ⟨-, hselects, -, -, hlisting⟩ := diagnosis_matches_loading secondOfTwo none true
  have hselected := (hselects "/e/libcronet.so").2 ⟨_, hshown, hhanded⟩
  obtain ⟨-, -, -, hfirst⟩ := hlisting {} hc
  obtain ⟨i, line, p, hline, -, -, hmark, -⟩ := ((hfirst rfl).1 "/e/libcronet.so").1 hselected
  exact ⟨hhanded, hselected, i, line, hline, hmark⟩

end CommandLine

end LateBinding
