import LateBinding.Proofs.Load.Search
import LateBinding.Proofs.Path.Pieces

/-!
**The places of a search, in order.**

Where no path is required, the library is looked for in the program's own directory, in those that
the search variables list, in the system's and in further ones. **No place is left out, put in twice
or moved**, so a search takes the first place at which anything stands, and further directories do
not change what an earlier place has decided.

Main definitions:

* `LateBinding.Library.Locator.InSearchOrder` — the directories of a search in their order.

Main results:

* `LateBinding.Library.Locator.searchDirs_eq_iff` — a search goes through them in this order;
* `LateBinding.Library.Locator.candidates_append` — further directories come last;
* `LateBinding.Library.Locator.first_candidate_decides` — **the first candidate at which anything
  stands decides a search**.
-/

set_option autoImplicit false

namespace LateBinding

namespace FileSystem

variable {fs : FileSystem} {places : List Path} {p : Path}

/-- Places after a first one do not matter. -/
theorem First.append (h : fs.First places p) (more : List Path) : fs.First (places ++ more) p := by
  obtain ⟨before, after, rfl, hp, hbefore⟩ := h
  exact ⟨before, after ++ more, by rw [List.append_assoc, List.cons_append], hp, hbefore⟩

end FileSystem

namespace Library.Locator

open LateBinding.Path (Lists splitList colon)

variable {l : Locator} {env : Environment} {fs : FileSystem} {p : Path}

/-! ### The order of a search -/

/-- The directories of a search in their order: the program's own if it is known, those that the
search variables list, the system's, and further ones. -/
inductive InSearchOrder (l : Locator) (env : Environment) : List Path → Prop
  | intro {libraryDirs dyldDirs : List Path} (hlibrary : Lists env.libraryPath libraryDirs)
      (hdyld : Lists (if l.useDyldPath then env.dyldLibraryPath else none) dyldDirs) :
      InSearchOrder l env
        (env.exeDir.toList ++ libraryDirs ++ dyldDirs ++ l.systemDirs ++ l.extraDirs)

/-- What a search variable lists is what is taken from it. -/
theorem lists_variableDirs_iff {value : Option (List UInt8)} {dirs : List Path} :
    Lists value dirs ↔ variableDirs value = dirs := by
  cases value with
  | none =>
      constructor
      · rintro ⟨⟩
        rfl
      · rintro rfl
        exact .unset
  | some v => exact Path.lists_iff

/-- **A search goes through its directories in this order.** -/
theorem searchDirs_eq_iff {dirs : List Path} :
    l.searchDirs env = dirs ↔ InSearchOrder l env dirs := by
  have hdyld : (if l.useDyldPath then variableDirs env.dyldLibraryPath else []) =
      variableDirs (if l.useDyldPath then env.dyldLibraryPath else none) := by
    cases l.useDyldPath <;> rfl
  rw [searchDirs, hdyld]
  constructor
  · rintro rfl
    exact .intro (lists_variableDirs_iff.2 rfl) (lists_variableDirs_iff.2 rfl)
  · rintro ⟨hlibrary, hdyld⟩
    rw [lists_variableDirs_iff.1 hlibrary, lists_variableDirs_iff.1 hdyld]

/-- Further directories come last. -/
theorem candidates_append (l : Locator) (env : Environment) (more : List Path) :
    ({ l with extraDirs := l.extraDirs ++ more } : Locator).candidates env =
      l.candidates env ++ more.map fun dir => dir.join (Path.ofString l.filename) := by
  rw [candidates, candidates, ← List.map_append]
  congr 1
  simp only [searchDirs, List.append_assoc]

/-- Where no path is required the candidates are the places. -/
theorem places_eq_candidates (h : l.explicit = none) : l.places none env = l.candidates env := by
  rw [places, required, h]
  rfl

/-- **The first candidate at which anything stands decides a search.** Where no path is given or
configured, the candidates are the file name joined to the directories in search order, and the
search variables are split part by part. A search takes a candidate exactly if something stands
there and at no earlier one; otherwise it answers all of them. A search that took a place takes it
with further directories as well. -/
theorem first_candidate_decides (l : Locator) (env : Environment) (fs : FileSystem)
    (hexplicit : l.explicit = none) :
    (∀ places, l.candidates env = places ↔ ∃ dirs, InSearchOrder l env dirs ∧
      places = dirs.map fun dir => dir.join (Path.ofString l.filename)) ∧
    (∀ v w : List UInt8, splitList (v ++ colon :: w) = splitList v ++ splitList w) ∧
    (∀ p, l.locate none env fs = .ok p ↔ ∃ before after, l.candidates env = before ++ p :: after ∧
      fs.exists? p = true ∧ ∀ q ∈ before, fs.exists? q = false) ∧
    ((∀ p, l.locate none env fs ≠ .ok p) → l.locate none env fs = .error (l.candidates env)) ∧
    ∀ p more, l.locate none env fs = .ok p →
      ({ l with extraDirs := l.extraDirs ++ more } : Locator).locate none env fs = .ok p := by
  refine ⟨fun places => ?_, Path.splitList_append, fun p => ?_, fun hnone => ?_,
    fun p more hp => ?_⟩
  · constructor
    · rintro rfl
      exact ⟨_, searchDirs_eq_iff.1 rfl, rfl⟩
    · rintro ⟨dirs, hdirs, rfl⟩
      rw [candidates, searchDirs_eq_iff.2 hdirs]
  · rw [locate_eq_ok_iff, places_eq_candidates hexplicit]
    rfl
  · cases hl : l.locate none env fs with
    | ok p => exact absurd hl (hnone p)
    | error searched => rw [(locate_eq_error_iff.1 hl).2, places_eq_candidates hexplicit]
  · rw [locate_eq_ok_iff, places_eq_candidates hexplicit] at hp
    have hplaces : ({ l with extraDirs := l.extraDirs ++ more } : Locator).places none env =
        ({ l with extraDirs := l.extraDirs ++ more } : Locator).candidates env :=
      places_eq_candidates hexplicit
    rw [locate_eq_ok_iff, hplaces, candidates_append]
    exact hp.append _

/-- A search variable with empty parts and a byte that is no text, and a host where the second
directory and the last one hold the file. -/
theorem second_directory_decides :
    let named (name : String) : Locator :=
      { systemDirs := [], extraDirs := [Path.ofString "/x"], filename := name }
    let env : Environment := { libraryPath := some [58, 97, 58, 58, 47, 98, 255, 58] }
    let fs : FileSystem :=
      { cwd := []
        entries := [([[98, 255]], .directory), ([[120]], .directory),
          ([[98, 255], Text.Utf8.bytes "l.so"], .file []),
          ([[120], Text.Utf8.bytes "l.so"], .file [])] }
    (named "l.so").explicit = none ∧
      (named "l.so").locate none env fs = .ok ⟨[47, 98, 255, 47, 108, 46, 115, 111]⟩ ∧
      ({ named "l.so" with
        extraDirs := [Path.ofString "/x", Path.ofString "/y"] } : Locator).locate none env fs =
          .ok ⟨[47, 98, 255, 47, 108, 46, 115, 111]⟩ ∧
      (∀ p, (named "m.so").locate none env fs ≠ .ok p) ∧
      (named "m.so").locate none env fs = .error [Path.ofString "a/m.so",
        ⟨[47, 98, 255, 47, 109, 46, 115, 111]⟩, Path.ofString "/x/m.so"] := by
  intro named env fs
  obtain ⟨-, -, hfirst, -, hmore⟩ := first_candidate_decides (named "l.so") env fs rfl
  obtain ⟨-, -, htaken, hnone, -⟩ := first_candidate_decides (named "m.so") env fs rfl
  have hok : (named "l.so").locate none env fs = .ok ⟨[47, 98, 255, 47, 108, 46, 115, 111]⟩ :=
    (hfirst _).2 ⟨[Path.ofString "a/l.so"], [Path.ofString "/x/l.so"], by decide +kernel⟩
  have hmissing : ∀ p, (named "m.so").locate none env fs ≠ .ok p := by
    have hnothing : ∀ q ∈ (named "m.so").candidates env, fs.exists? q = false := by decide +kernel
    intro p hp
    obtain ⟨before, after, hcandidates, hexists, -⟩ := (htaken p).1 hp
    have hmem : p ∈ (named "m.so").candidates env :=
      hcandidates ▸ List.mem_append_right _ List.mem_cons_self
    rw [hnothing p hmem] at hexists
    cases hexists
  refine ⟨rfl, hok, hmore _ [Path.ofString "/y"] hok, hmissing, ?_⟩
  rw [hnone hmissing]
  decide +kernel

end Library.Locator

end LateBinding
