import LateBinding.Host
import LateBinding.Proofs.Load.Search

/-!
**The nearest configuration, and the variable that replaces its path.**

The file that counts is the first one on the way from the working directory upward. The environment
variable replaces the path of the library in what this file says, and in the default where there is
no such file. A file that is there and cannot be used stops this: **the process-wide guard then
searches as if there were neither a file nor a variable**, so that the variable reaches the guard
exactly if the nearest file, if there is one, can be used.

Main definitions:

* `LateBinding.Config.places` — where the configuration for a directory may be;
* `LateBinding.Host.Nearest` — the first of these places where anything stands.

Main results:

* `LateBinding.Config.findAndLoad_of_first`, `LateBinding.Config.findAndLoad_of_none` — the nearest
  file is the one that counts;
* `LateBinding.Config.error_of_load` — why a file that is there cannot be used;
* `LateBinding.Host.ambientConfig_cases` — the configuration of the process-wide guard;
* `LateBinding.Host.override_reaches_shared_guard_iff` — what reaches the process-wide guard.
-/

set_option autoImplicit false

namespace LateBinding

namespace Config

variable {fs : FileSystem} {start p : Path} {c : Config} {value : Option (List UInt8)}

/-- Where the configuration for a directory may be: in the directory, in its parent, and so on. -/
def places (start : Path) : List Path :=
  start.ancestors.map fun dir => dir.join (Path.ofString fileName)

theorem findAndLoad_of_first (h : fs.First (places start) p) :
    findAndLoad fs start = load fs p := by
  have hfind : (places start).find? fs.exists? = some p := FileSystem.find?_eq_some_iff.2 h
  unfold places at hfind
  rw [findAndLoad, hfind]

theorem findAndLoad_of_none (h : ∀ q ∈ places start, fs.exists? q = false) :
    findAndLoad fs start = .ok {} := by
  have hfind : (places start).find? fs.exists? = none := FileSystem.find?_eq_none_iff.2 h
  unfold places at hfind
  rw [findAndLoad, hfind]

/-- A file that is there cannot be used only because it cannot be read or says nothing valid. -/
theorem error_of_load {e : Error} (hp : fs.exists? p = true) (h : load fs p = .error e) :
    (∃ cause, fs.readText p = .error cause ∧ e = .io cause) ∨
      ∃ s, fs.readText p = .ok s ∧ parse? s = none ∧ e = .malformed := by
  rw [load, if_pos hp] at h
  split at h
  · next cause hread => exact Or.inl ⟨cause, hread, (Except.error.inj h).symm⟩
  · next s hread =>
      split at h
      · cases h
      · next hparse => exact Or.inr ⟨s, hread, hparse, (Except.error.inj h).symm⟩

/-! ### The variable -/

theorem override_of_empty (h : value.getD [] = []) : c.override value = c := by
  match value, h with
  | none, _ => rfl
  | some [], _ => rfl

theorem override_of_cons (c : Config) (b : UInt8) (bs : List UInt8) :
    c.override (some (b :: bs)) = { c with path := some ⟨b :: bs⟩ } := rfl

end Config

/-! ### The process-wide guard -/

namespace Host

open Config (places workingDirectory load)

/-- The first configuration file on the way from the working directory upward. -/
def Nearest (h : Host) (p : Path) : Prop :=
  h.files.First (places (workingDirectory h.files)) p

variable {h : Host} {p : Path}

/-- A nearest file that cannot be used takes the variable away as well. -/
theorem ambientConfig_of_error {e : Config.Error}
    (hp : h.Nearest p) (he : load h.files p = .error e) : h.ambientConfig = {} := by
  rw [ambientConfig, Config.loadNearest, Config.findAndLoad_of_first hp, he]

/-- The nearest file counts, with the variable applied to what it says, or it cannot be used; where
there is no file, the variable is applied to the default. -/
theorem ambientConfig_cases (h : Host) :
    (∃ p c, h.Nearest p ∧ load h.files p = .ok c ∧
      h.ambientConfig = c.override h.pathOverride) ∨
    (∃ p e, h.Nearest p ∧ load h.files p = .error e ∧ h.ambientConfig = {}) ∨
    ((∀ p, ¬h.Nearest p) ∧ h.ambientConfig = Config.override {} h.pathOverride) := by
  rcases h.files.first_or_none (places (workingDirectory h.files)) with ⟨p, hp⟩ | hnone
  · cases hload : load h.files p with
    | ok c =>
        refine Or.inl ⟨p, c, hp, hload, ?_⟩
        rw [ambientConfig, Config.loadNearest, Config.findAndLoad_of_first hp, hload]
    | error e =>
        exact Or.inr (Or.inl ⟨p, e, hp, hload, ambientConfig_of_error hp hload⟩)
  · refine Or.inr (Or.inr ⟨fun p => FileSystem.not_first_of_none hnone, ?_⟩)
    rw [ambientConfig, Config.loadNearest, Config.findAndLoad_of_none hnone]

/-- A value that is not empty reaches the process-wide guard exactly if no file is in its way. -/
theorem explicit_of_override {b : UInt8} {bs : List UInt8} (hv : h.pathOverride = some (b :: bs)) :
    h.sharedGuard.locator.explicit = some ⟨b :: bs⟩ ↔
      ∀ p, h.Nearest p → ∃ c, load h.files p = .ok c := by
  change h.ambientConfig.path = _ ↔ _
  rcases h.ambientConfig_cases with ⟨p, c, hp, hload, hc⟩ | ⟨p, e, hp, hload, hc⟩ | ⟨hnone, hc⟩
  · rw [hc, hv, Config.override_of_cons]
    exact iff_of_true rfl fun q hq => ⟨c, hp.unique hq ▸ hload⟩
  · rw [hc]
    refine iff_of_false (Option.not_mem_none _) fun husable => ?_
    obtain ⟨c, hc⟩ := husable p hp
    cases hload.symm.trans hc
  · rw [hc, hv, Config.override_of_cons]
    exact iff_of_true rfl fun p hp => absurd hp (hnone p)

/-- Without a value the process-wide guard has the path that the nearest file sets. -/
theorem explicit_of_no_override (hv : h.pathOverride.getD [] = []) (q : Path) :
    h.sharedGuard.locator.explicit = some q ↔
      ∃ p c, h.Nearest p ∧ load h.files p = .ok c ∧ c.path = some q := by
  change h.ambientConfig.path = _ ↔ _
  rcases h.ambientConfig_cases with ⟨p, c, hp, hload, hc⟩ | ⟨p, e, hp, hload, hc⟩ | ⟨hnone, hc⟩
  · rw [hc, Config.override_of_empty hv]
    refine ⟨fun hq => ⟨p, c, hp, hload, hq⟩, ?_⟩
    rintro ⟨p', c', hp', hload', hq⟩
    rw [hp'.unique hp, hload] at hload'
    rwa [Except.ok.inj hload']
  · rw [hc]
    refine iff_of_false (Option.not_mem_none q) ?_
    rintro ⟨p', c', hp', hload', -⟩
    rw [hp'.unique hp, hload] at hload'
    cases hload'
  · rw [hc, Config.override_of_empty hv]
    refine iff_of_false (Option.not_mem_none q) ?_
    rintro ⟨p, c, hp, -⟩
    exact hnone p hp

/-- **What reaches the process-wide guard.** A value of the variable that is not empty reaches it
exactly if the nearest file, if there is one, can be used. With the variable unset or empty, the
guard's path is the one that the nearest file sets, and there is none if that file cannot be used or
sets none. A nearest file that cannot be used is unreadable or malformed, and then the guard has the
default plan, whatever the variable says. -/
theorem override_reaches_shared_guard_iff (h : Host) :
    (∀ b bs, h.pathOverride = some (b :: bs) →
      (h.sharedGuard.locator.explicit = some ⟨b :: bs⟩ ↔
        ∀ p, h.Nearest p → ∃ c, load h.files p = .ok c)) ∧
    (h.pathOverride.getD [] = [] → ∀ q, h.sharedGuard.locator.explicit = some q ↔
      ∃ p c, h.Nearest p ∧ load h.files p = .ok c ∧ c.path = some q) ∧
    ∀ p e, h.Nearest p → load h.files p = .error e →
      ((∃ cause, h.files.readText p = .error cause ∧ e = .io cause) ∨
        ∃ s, h.files.readText p = .ok s ∧ Config.parse? s = none ∧ e = .malformed) ∧
      h.sharedGuard.locator = {} := by
  refine ⟨fun b bs hv => explicit_of_override hv, explicit_of_no_override,
    fun p e hp he => ⟨Config.error_of_load hp.exists he, ?_⟩⟩
  rw [sharedGuard, ambientConfig_of_error hp he]
  rfl

/-- A host with a configuration in its working directory, the variable naming the file
`x/stub.so`. -/
def configured (content : String) : Host where
  files :=
    { cwd := [[119]]
      entries := [([[119]], .directory),
        ([[119], Text.Utf8.bytes Config.fileName], .file (Text.Utf8.bytes content))] }
  pathOverride := some (Text.Utf8.bytes "x/stub.so")

/-- The variable replaces the path of a file that can be used. -/
theorem override_beside_valid_file :
    let h := configured "[library]\npath = \"y.so\"\n"
    h.sharedGuard.locator.explicit = some (Path.ofString "x/stub.so") := by
  intro h
  have hfirst : h.Nearest (Path.ofString "/w/cronet.toml") :=
    FileSystem.find?_eq_some_iff.1 (by decide +kernel)
  obtain ⟨hover, -, -⟩ := override_reaches_shared_guard_iff h
  refine (hover 120 [47, 115, 116, 117, 98, 46, 115, 111] rfl).2 fun p hp => ?_
  obtain rfl := hp.unique hfirst
  exact ⟨⟨some (Path.ofString "y.so"), []⟩, by decide +kernel⟩

/-- A malformed file keeps the variable from the process-wide guard. -/
theorem override_lost_beside_malformed_file :
    let h := configured "broken = "
    h.pathOverride = some (Text.Utf8.bytes "x/stub.so") ∧
      h.sharedGuard.locator.explicit = none := by
  exact ⟨rfl, by decide +kernel⟩

end Host

end LateBinding
