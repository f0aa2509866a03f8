import LateBinding.Proofs.Load.Standing
import LateBinding.Proofs.Symbol.Agreement

/-!
**The search for the library, and the first load.**

A search goes through places in order and takes the first at which anything stands. A path that is
required is the only place; otherwise the places are the library's file name in one directory after
the other. **The first call at a guard opens the place that the search took, and nothing else**; if
the search took none, it answers the places that were looked at.

Main definitions:

* `LateBinding.FileSystem.First` — the first of some places at which anything stands;
* `LateBinding.Library.Locator.places` — the places that a search looks at;
* `LateBinding.Library.FirstLoad` — what the first call at a guard answers, and the guard keeps.

Main results:

* `LateBinding.Library.Locator.locate_eq_ok_iff`, `LateBinding.Library.Locator.locate_eq_error_iff`
  — what a search takes, and what it answers if it takes nothing;
* `LateBinding.Library.firstLoad_iff_of_located`, `LateBinding.Library.firstLoad_iff_of_not_located`
  — the first load.
-/

set_option autoImplicit false

namespace LateBinding

/-! ### The first place at which anything stands -/

namespace FileSystem

variable {fs : FileSystem} {places : List Path} {p q : Path}

/-- The first of some places at which anything stands. -/
def First (fs : FileSystem) (places : List Path) (p : Path) : Prop :=
  ∃ before after, places = before ++ p :: after ∧ fs.exists? p = true ∧
    ∀ q ∈ before, fs.exists? q = false

theorem find?_eq_some_iff : places.find? fs.exists? = some p ↔ fs.First places p := by
  rw [List.find?_eq_some_iff_append]
  constructor
  · rintro ⟨hp, before, after, hplaces, hbefore⟩
    exact ⟨before, after, hplaces, hp, fun q hq => by simpa using hbefore q hq⟩
  · rintro ⟨before, after, hplaces, hp, hbefore⟩
    exact ⟨hp, before, after, hplaces, fun q hq => by simpa using hbefore q hq⟩

theorem find?_eq_none_iff :
    places.find? fs.exists? = none ↔ ∀ q ∈ places, fs.exists? q = false := by
  simp only [List.find?_eq_none, Bool.not_eq_true]

theorem First.exists (h : fs.First places p) : fs.exists? p = true := by
  obtain ⟨before, after, -, hp, -⟩ := h
  exact hp

theorem not_first_of_none (h : ∀ q ∈ places, fs.exists? q = false) : ¬fs.First places p := by
  rw [← find?_eq_some_iff, find?_eq_none_iff.2 h]
  exact Option.not_mem_none p

theorem First.unique (hp : fs.First places p) (hq : fs.First places q) : p = q :=
  Option.some.inj ((find?_eq_some_iff.2 hp).symm.trans (find?_eq_some_iff.2 hq))

/-- Nothing stands at any of the places, or there is a first one. -/
theorem first_or_none (fs : FileSystem) (places : List Path) :
    (∃ p, fs.First places p) ∨ ∀ q ∈ places, fs.exists? q = false := by
  cases h : places.find? fs.exists? with
  | some p => exact Or.inl ⟨p, find?_eq_some_iff.1 h⟩
  | none => exact Or.inr (find?_eq_none_iff.1 h)

/-- Something stands at a path exactly if the path leads to a node. -/
theorem exists_iff : fs.exists? p = true ↔ ∃ name node, fs.find p = .ok (name, node) := by
  unfold exists?
  cases fs.find p with
  | ok found => exact iff_of_true rfl ⟨found.1, found.2, rfl⟩
  | error e => simp [Except.toOption]

end FileSystem

namespace Library

variable {l : Locator} {request : Option Path} {env : Environment} {fs : FileSystem} {p : Path}

/-! ### The search -/

namespace Locator

/-- The places that a search looks at: a path that is required is the only one. -/
def places (l : Locator) (request : Option Path) (env : Environment) : List Path :=
  match l.required request with
  | some p => [p]
  | none => l.candidates env

/-- Every search goes through its places and takes the first at which anything stands. -/
theorem locate_eq_find? (l : Locator) (request : Option Path) (env : Environment)
    (fs : FileSystem) :
    l.locate request env fs =
      match (l.places request env).find? fs.exists? with
      | some p => .ok p
      | none => .error (l.places request env) := by
  unfold locate places
  cases l.required request with
  | none => rfl
  | some p => cases hp : fs.exists? p <;> simp [List.find?, hp]

/-- **A search takes the first of its places at which anything stands.** -/
theorem locate_eq_ok_iff :
    l.locate request env fs = .ok p ↔ fs.First (l.places request env) p := by
  rw [locate_eq_find?, ← FileSystem.find?_eq_some_iff]
  cases (l.places request env).find? fs.exists? <;> simp

/-- A search that takes nothing answers all its places, and nothing stands at any of them. -/
theorem locate_eq_error_iff {searched : List Path} :
    l.locate request env fs = .error searched ↔
      (∀ q ∈ l.places request env, fs.exists? q = false) ∧ searched = l.places request env := by
  rw [locate_eq_find?, ← FileSystem.find?_eq_none_iff]
  cases (l.places request env).find? fs.exists? <;> simp [eq_comm]

end Locator

/-! ### The first load -/

/-- The first call at a guard with a plan answers an outcome, and the guard keeps it. -/
def FirstLoad (l : Locator) (fs : FileSystem) (env : Environment) (request : Option Path)
    (o : Outcome) : Prop :=
  ({ locator := l } : Guard).load fs env request = (Guard.finished l (.ended o), .returned o)

/-- The first call settles the attempt as what finding and opening the library came to. -/
theorem load_fresh (l : Locator) (fs : FileSystem) (env : Environment) (request : Option Path) :
    FirstLoad l fs env request ((Guard.find l fs env request).settled l) := rfl

theorem firstLoad_iff {o : Outcome} :
    FirstLoad l fs env request o ↔ o = (Guard.find l fs env request).settled l := by
  constructor
  · intro h
    have h' := (load_fresh l fs env request).symm.trans h
    exact (Caller.returned.inj (Prod.mk.inj h').2).symm
  · rintro rfl
    exact load_fresh l fs env request

/-- **The first load opens the place that the search took.** -/
theorem firstLoad_iff_of_located (h : l.locate request env fs = .ok p) {o : Outcome} :
    FirstLoad l fs env request o ↔ o = openAt fs env.libraryPath p := by
  rw [firstLoad_iff, Guard.find, h]
  rfl

/-- If the search took nothing, then nothing is opened. -/
theorem firstLoad_iff_of_not_located {searched : List Path}
    (h : l.locate request env fs = .error searched) {o : Outcome} :
    FirstLoad l fs env request o ↔ o = .error (.notFound searched) := by
  rw [firstLoad_iff, Guard.find, h]
  rfl

/-- A library that was opened at a path is the one at this path, with all its functions bound. -/
theorem eq_of_openAt {libraryPath : Option (List UInt8)} {b : Bound}
    (h : openAt fs libraryPath p = .ok b) : b = ⟨p, true, true⟩ := by
  cases hsource : exportsAt fs libraryPath p with
  | error reason =>
      rw [openAt, hsource] at h
      cases h
  | ok source =>
      rw [openAt_of_exportsAt hsource] at h
      split at h
      · exact (Except.ok.inj h).symm
      · cases h

end Library

end LateBinding
