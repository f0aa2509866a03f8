import LateBinding.CommandLine.Inspect
import LateBinding.Proofs.Config.Nearest

/-!
**Which path of the library counts.**

The path of the library may come from the call, from the environment variable and from the
configuration. The highest of these that is there is *in force*, and **it alone decides**: what it
leads to is opened, and if it leads to nothing, then that is the outcome; a lower one never steps
in, and neither does the search. Only where none is in force are the directories searched. The
variable replaces the configured path and leaves the directories as they are.

The inspector follows the same rule: its switch `--library` is the path of the call.

Main definitions:

* `LateBinding.Config.InForce` — the path that counts;
* `LateBinding.CommandLine.Reads` — the configuration that an invocation reads;
* `LateBinding.CommandLine.loadReport` — what is reported on a first load.

Main results:

* `LateBinding.Config.inForce_iff` — the path in force is the one that the search must take;
* `LateBinding.CommandLine.read_info_library` — how the inspector is given a path;
* `LateBinding.CommandLine.run_info` — the report on the library is that on a first load;
* `LateBinding.path_in_force_decides` — all of it together.
-/

set_option autoImplicit false

namespace LateBinding

open Library (Environment FirstLoad Locator Outcome openAt)

/-! ### The path in force -/

namespace Config

variable {c : Config} {value : Option (List UInt8)} {request : Option Path} {env : Environment}
  {fs : FileSystem} {p : Path} {o : Outcome}

/-- The path that counts: the one of the call; else the value of the variable, if it is not empty;
else the configured one. -/
inductive InForce (c : Config) : Option (List UInt8) → Option Path → Path → Prop
  | requested (value : Option (List UInt8)) (p : Path) : InForce c value (some p) p
  | overriding (b : UInt8) (bs : List UInt8) : InForce c (some (b :: bs)) none ⟨b :: bs⟩
  | configured (value : Option (List UInt8)) (p : Path) (hv : value.getD [] = [])
      (hp : c.path = some p) : InForce c value none p

/-- **The path in force is the one that the search must take.** -/
theorem inForce_iff :
    InForce c value request p ↔ (c.override value).locator.required request = some p := by
  constructor
  · intro h
    cases h with
    | requested value p => rfl
    | overriding b bs => rfl
    | configured value p hv hp =>
        rw [override_of_empty hv]
        exact hp
  · intro h
    match request, value, h with
    | some r, value, h =>
        obtain rfl : r = p := Option.some.inj h
        exact .requested value r
    | none, some (b :: bs), h =>
        obtain rfl : (⟨b :: bs⟩ : Path) = p := Option.some.inj h
        exact .overriding b bs
    | none, some [], h => exact .configured _ p rfl h
    | none, none, h => exact .configured _ p rfl h

/-- The path in force is the only place of the search. -/
theorem InForce.places (h : InForce c value request p) (env : Environment) :
    (c.override value).locator.places request env = [p] := by
  rw [Locator.places, inForce_iff.1 h]

/-- Where no path is in force the places are the candidates. -/
theorem places_of_none (h : ∀ p, ¬InForce c value request p) (env : Environment) :
    (c.override value).locator.places request env = (c.override value).locator.candidates env := by
  have hnone : (c.override value).locator.required request = none :=
    Option.eq_none_iff_forall_ne_some.2 fun p hp => h p (inForce_iff.2 hp)
  rw [Locator.places, hnone]

/-- What the path in force leads to is opened. -/
theorem InForce.firstLoad_of_exists (h : InForce c value request p) (hp : fs.exists? p = true) :
    FirstLoad (c.override value).locator fs env request o ↔ o = openAt fs env.libraryPath p := by
  refine Library.firstLoad_iff_of_located (Locator.locate_eq_ok_iff.2 ?_)
  rw [h.places env]
  exact ⟨[], [], rfl, hp, List.forall_mem_nil _⟩

/-- If the path in force leads to nothing, then it is all that was looked at. -/
theorem InForce.firstLoad_of_not_exists (h : InForce c value request p)
    (hp : fs.exists? p = false) :
    FirstLoad (c.override value).locator fs env request o ↔ o = .error (.notFound [p]) := by
  refine Library.firstLoad_iff_of_not_located (Locator.locate_eq_error_iff.2 ?_)
  rw [h.places env]
  exact ⟨List.forall_mem_singleton.2 hp, rfl⟩

/-- Where no path is in force, the first candidate that is there is opened. -/
theorem firstLoad_of_first (h : ∀ p, ¬InForce c value request p)
    (hp : fs.First ((c.override value).locator.candidates env) p) :
    FirstLoad (c.override value).locator fs env request o ↔ o = openAt fs env.libraryPath p := by
  refine Library.firstLoad_iff_of_located (Locator.locate_eq_ok_iff.2 ?_)
  rwa [places_of_none h env]

/-- Where no path is in force and no candidate is there, all candidates were looked at. -/
theorem firstLoad_of_none (h : ∀ p, ¬InForce c value request p)
    (hnone : ∀ q ∈ (c.override value).locator.candidates env, fs.exists? q = false) :
    FirstLoad (c.override value).locator fs env request o ↔
      o = .error (.notFound ((c.override value).locator.candidates env)) := by
  refine Library.firstLoad_iff_of_not_located (Locator.locate_eq_error_iff.2 ?_)
  rw [places_of_none h env]
  exact ⟨hnone, rfl⟩

/-- A library that is loaded while a path is in force is the one at that path. -/
theorem InForce.path_of_firstLoad {b : Library.Bound} (h : InForce c value request p)
    (hb : FirstLoad (c.override value).locator fs env request (.ok b)) : b.path = p := by
  cases hp : fs.exists? p with
  | false => cases (h.firstLoad_of_not_exists hp).1 hb
  | true => rw [Library.eq_of_openAt ((h.firstLoad_of_exists hp).1 hb).symm]

/-- The variable changes the path of a plan and nothing else. -/
theorem locator_override (c : Config) (value : Option (List UInt8)) :
    (c.override value).locator =
      { c.locator with explicit := (c.override value).locator.explicit } := by
  match value with
  | none => rfl
  | some [] => rfl
  | some (b :: bs) => rfl

/-- The directories of a plan are the standard ones and then those of the configuration. -/
theorem searchDirs_override (c : Config) (value : Option (List UInt8)) (env : Environment) :
    (c.override value).locator.searchDirs env =
      env.exeDir.toList ++ Locator.variableDirs env.libraryPath ++ Library.defaultSystemDirs ++
        c.searchPaths := by
  rw [locator_override, Locator.searchDirs, locator]
  simp only [Bool.false_eq_true, if_false, List.append_nil]

end Config

/-! ### The inspector -/

namespace CommandLine

open Text.Utf8 (bytes)

variable {h : Host} {file library : Option Path} {c : Config} {o : Library.Outcome}

/-- What is reported on a first load. -/
def loadReport (h : Host) : Library.Outcome → Report
  | .ok b => { lines := loadedLines h b }
  | .error e => .fail [] "Failed to load cronet" (some (.library e))

theorem infoReport_of_firstLoad
    (ho : FirstLoad c.locator h.files h.environment library o) :
    infoReport h c library = loadReport h o := by
  rw [FirstLoad] at ho
  rw [infoReport, ho]
  cases o <;> rfl

/-- The configuration that an invocation reads, before the variable is applied: that of the given
file, else that of the nearest one. -/
inductive Reads (fs : FileSystem) : Option Path → Config → Prop
  | given (p : Path) (c : Config) (hc : Config.load fs p = .ok c) : Reads fs (some p) c
  | nearest (c : Config) (hc : Config.findAndLoad fs (Config.workingDirectory fs) = .ok c) :
      Reads fs none c

theorem configuration_of_reads (hc : Reads h.files file c) :
    configuration h file = .ok (c.override h.pathOverride) := by
  cases hc with
  | given p c hc => rw [configuration, hc]
  | nearest c hc => rw [configuration, Config.loadNearest, hc]

/-- **The report on the library is that on a first load**, the variable being applied to the
configuration that was read. -/
theorem run_info {args : List Argument} (hargs : Invocation.read args = .ok ⟨file, .info library⟩)
    (hc : Reads h.files file c)
    (ho : FirstLoad (c.override h.pathOverride).locator h.files h.environment library o) :
    run h args = .report (loadReport h o) := by
  rw [run, hargs]
  change Outcome.report (Invocation.report h ⟨file, .info library⟩) = _
  rw [Invocation.report, configuration_of_reads hc]
  change Outcome.report (infoReport h (c.override h.pathOverride) library) = _
  rw [infoReport_of_firstLoad ho]

/-- What follows the name `info` is read at one level. -/
theorem read_info (args : List Argument) :
    Invocation.read (bytes "info" :: args) =
      match infoLevel.read args with
      | .error stop => .error stop
      | .ok (g, _) => .ok ⟨g.path? "config", .info (g.path? "library")⟩ := by
  have htop : topLevel.read (bytes "info" :: args) = .ok ({}, bytes "info" :: args) := rfl
  have hhelp : ¬bytes "info" = bytes "help" := by decide
  rw [Invocation.read, htop]
  simp only [if_neg hhelp, Command.read, if_pos]
  cases infoLevel.read args with
  | error stop => rfl
  | ok r =>
      obtain ⟨g, rest⟩ := r
      change Except.ok (Invocation.mk ((g.path? "config").or none) _) = _
      rw [Option.or_none]

/-- A path that is not empty is given behind an equals sign, or by itself if it does not look like a
switch. -/
theorem read_info_library {x : Argument} (hx : x ≠ []) :
    Invocation.read [bytes "info", bytes "--library=" ++ x] = .ok ⟨none, .info (some ⟨x⟩)⟩ ∧
      (looksLikeSwitch x = false →
        Invocation.read [bytes "info", bytes "--library", x] = .ok ⟨none, .info (some ⟨x⟩)⟩) := by
  have hgiven : ({} : Given).give ⟨"library", .path, none⟩ x = .ok ⟨[("library", x)], none⟩ := by
    simp [Given.give, Given.has, Given.value?, Shape.accepts, hx]
  refine ⟨?_, fun hswitch => ?_⟩
  · have hnext : infoLevel.read [bytes "--library=" ++ x] = .ok (⟨[("library", x)], none⟩, []) := by
      match x, hx with
      | b :: bs, _ => rfl
    rw [read_info, hnext]
    rfl
  · have hpending : infoLevel.readFrom [bytes "--library", x] {} =
        infoLevel.readFrom [x] { pending := some ⟨"library", .path, none⟩ } := rfl
    have hnext : infoLevel.read [bytes "--library", x] = .ok (⟨[("library", x)], none⟩, []) := by
      rw [Level.read, hpending]
      simp [Level.readFrom, Progress.next, hswitch, hgiven, Except.map, infoLevel]
    rw [read_info, hnext]
    rfl

end CommandLine

/-! ### The main result -/

open CommandLine (Argument Invocation Reads loadReport looksLikeSwitch)
open Config (InForce)
open Text.Utf8 (bytes)

/-- **The path in force decides.** The first load opens the path in force if anything is there, and
otherwise answers that this one path was looked at; a library that is loaded is the one at that
path. Where no path is in force, the first load opens the first candidate that is there, and
otherwise answers all candidates. The variable changes the path of the plan and nothing else, and
the directories are always the standard ones followed by those of the configuration. The inspector
reports this very outcome, its switch `--library` giving the path of the call. -/
theorem path_in_force_decides (c : Config) (value : Option (List UInt8)) (request : Option Path)
    (env : Environment) (fs : FileSystem) :
    let l := (c.override value).locator
    (∀ p, InForce c value request p →
      (fs.exists? p = true →
        ∀ o, FirstLoad l fs env request o ↔ o = openAt fs env.libraryPath p) ∧
      (fs.exists? p = false → ∀ o, FirstLoad l fs env request o ↔ o = .error (.notFound [p])) ∧
      ∀ b, FirstLoad l fs env request (.ok b) → b.path = p) ∧
    ((∀ p, ¬InForce c value request p) →
      (∀ p, fs.First (l.candidates env) p →
        ∀ o, FirstLoad l fs env request o ↔ o = openAt fs env.libraryPath p) ∧
      ((∀ p ∈ l.candidates env, fs.exists? p = false) →
        ∀ o, FirstLoad l fs env request o ↔ o = .error (.notFound (l.candidates env)))) ∧
    (l = { c.locator with explicit := l.explicit } ∧
      l.searchDirs env = env.exeDir.toList ++ Locator.variableDirs env.libraryPath ++
        Library.defaultSystemDirs ++ c.searchPaths) ∧
    (∀ args file, Invocation.read args = .ok ⟨file, .info request⟩ → Reads fs file c →
      ∀ o, FirstLoad l fs env request o →
        CommandLine.run ⟨fs, env, value⟩ args = .report (loadReport ⟨fs, env, value⟩ o)) ∧
    ∀ x, x ≠ [] →
      Invocation.read [bytes "info", bytes "--library=" ++ x] = .ok ⟨none, .info (some ⟨x⟩)⟩ ∧
      (looksLikeSwitch x = false →
        Invocation.read [bytes "info", bytes "--library", x] = .ok ⟨none, .info (some ⟨x⟩)⟩) := by
  intro l
  refine ⟨fun p hp => ⟨?_, ?_, ?_⟩, fun hnone => ⟨?_, ?_⟩, ⟨?_, ?_⟩, ?_, ?_⟩
  · exact fun hexists o => hp.firstLoad_of_exists hexists
  · exact fun hexists o => hp.firstLoad_of_not_exists hexists
  · exact fun b hb => hp.path_of_firstLoad hb
  · exact fun p hfirst o => Config.firstLoad_of_first hnone hfirst
  · exact fun hall o => Config.firstLoad_of_none hnone hall
  · exact Config.locator_override c value
  · exact Config.searchDirs_override c value env
  · exact fun args file hargs hc o ho => CommandLine.run_info hargs hc ho
  · exact fun x hx => CommandLine.read_info_library hx

/-- A host whose variable leads to nothing, while the library is both at the configured path and in
the directory of the program. -/
def dangling : Host where
  files :=
    { cwd := []
      entries := [([bytes "cronet.toml"], .file (bytes "[library]\npath = \"/c\"\n")),
        ([bytes "c"], .library { lacks := [] }), ([bytes "d"], .directory),
        ([bytes "d", bytes "libcronet.so"], .library { lacks := [] })] }
  environment := { exeDir := some (Path.ofString "/d") }
  pathOverride := some [103, 111, 110, 101]

/-- A value that leads to nothing is not replaced by the configured path or by the search. -/
theorem dangling_value_not_replaced :
    dangling.files.exists? (Path.ofString "/c") = true ∧
      dangling.files.exists? (Path.ofString "/d/libcronet.so") = true ∧
      CommandLine.run dangling [bytes "info"] =
        .report (.fail [] "Failed to load cronet"
          (some (.library (.notFound [⟨[103, 111, 110, 101]⟩])))) := by
  have hfile : Config.findAndLoad dangling.files (Config.workingDirectory dangling.files) =
      .ok ⟨some (Path.ofString "/c"), []⟩ := by decide +kernel
  have hargs : Invocation.read [bytes "info"] = .ok ⟨none, .info none⟩ := by decide +kernel
  have hgone : dangling.files.exists? ⟨[103, 111, 110, 101]⟩ = false := by decide +kernel
  obtain ⟨hforce, -, -, hrun, -⟩ := path_in_force_decides ⟨some (Path.ofString "/c"), []⟩
    dangling.pathOverride none dangling.environment dangling.files
  obtain ⟨-, hnot, -⟩ := hforce _ (.overriding 103 [111, 110, 101])
  have hload := (hnot hgone _).2 rfl
  refine ⟨by decide +kernel, by decide +kernel, ?_⟩
  exact hrun [bytes "info"] none hargs (.nearest _ hfile) _ hload

end LateBinding
