import LateBinding.Proofs.Config.Nearest
import LateBinding.Proofs.Path.Parent

/-!
**The way up to a configuration.**

From a directory the file is looked for in the directory itself, in its parent, and so on. The walk
stands at one directory at a time, asks once whether the file is there, and goes to the parent until
there is none. It asks for no more files than the way up has directories, and **the first file that
is there decides**, also where it cannot be used: no file further up and no default takes its place.

Main definitions:

* `LateBinding.Config.Walk`, `LateBinding.Config.Walk.step` — the walk, one directory a step;
* `LateBinding.Config.Decided` — the configuration that some places decide on.

Main results:

* `LateBinding.Config.Walk.exists_after` — a walk ends, and what it has asked for until then;
* `LateBinding.Config.findAndLoad_eq_iff` — what is loaded is what the places decide on;
* `LateBinding.Config.nearest_file_decides` — **the nearest file decides, and the walk to it ends**.
-/

set_option autoImplicit false

namespace LateBinding.Config

variable {fs : FileSystem} {dir start p : Path} {ps qs : List Path} {r r' : Except Error Config}

/-! ### What places decide -/

/-- `Decided fs ps r`: at the first of the places `ps` where anything stands a configuration is
loaded, with the result `r`; where nothing stands at any of them, `r` is the default. -/
inductive Decided (fs : FileSystem) (ps : List Path) : Except Error Config → Prop
  | found {p : Path} (h : fs.First ps p) : Decided fs ps (load fs p)
  | absent (h : ∀ q ∈ ps, fs.exists? q = false) : Decided fs ps (.ok {})

theorem Decided.unique (h : Decided fs ps r) (h' : Decided fs ps r') : r = r' := by
  cases h with
  | found hp =>
      cases h' with
      | found hq => rw [hp.unique hq]
      | absent hnone => exact absurd hp (FileSystem.not_first_of_none hnone)
  | absent hnone =>
      cases h' with
      | found hp => exact absurd hp (FileSystem.not_first_of_none hnone)
      | absent => rfl

/-- A place where nothing stands does not decide. -/
theorem Decided.cons (h : Decided fs ps r) (hp : fs.exists? p = false) :
    Decided fs (p :: ps) r := by
  cases h with
  | found hfirst =>
      obtain ⟨before, after, rfl, hq, hbefore⟩ := hfirst
      exact .found ⟨p :: before, after, rfl, hq, List.forall_mem_cons.2 ⟨hp, hbefore⟩⟩
  | absent hnone => exact .absent (List.forall_mem_cons.2 ⟨hp, hnone⟩)

theorem decided_findAndLoad (fs : FileSystem) (start : Path) :
    Decided fs (places start) (findAndLoad fs start) := by
  rcases fs.first_or_none (places start) with ⟨p, hp⟩ | hnone
  · rw [findAndLoad_of_first hp]
    exact .found hp
  · rw [findAndLoad_of_none hnone]
    exact .absent hnone

/-- **What is loaded is what the places decide on.** -/
theorem findAndLoad_eq_iff : findAndLoad fs start = r ↔ Decided fs (places start) r := by
  constructor
  · rintro rfl
    exact decided_findAndLoad fs start
  · exact (decided_findAndLoad fs start).unique

/-! ### The walk -/

/-- Where the configuration for a directory may be. -/
def placeIn (dir : Path) : Path := dir.join (Path.ofString fileName)

/-- A walk stands at a directory or has ended, and has asked for files. -/
inductive Walk where
  | standing (dir : Path) (asked : List Path)
  | ended (result : Except Error Config) (asked : List Path)

namespace Walk

/-- A walk asks whether the file is there. If so, it is loaded; if not, the walk goes on at the
parent, and where there is none it ends with the default. -/
def step (fs : FileSystem) : Walk → Walk
  | .standing dir asked =>
    if fs.exists? (placeIn dir) then .ended (load fs (placeIn dir)) (asked ++ [placeIn dir])
    else
      match dir.parent? with
      | some up => .standing up (asked ++ [placeIn dir])
      | none => .ended (.ok {}) (asked ++ [placeIn dir])
  | .ended result asked => .ended result asked

/-- A walk after some steps. -/
def after (fs : FileSystem) : Nat → Walk → Walk
  | 0, w => w
  | n + 1, w => after fs n (w.step fs)

variable {asked : List Path}

theorem after_add (m n : Nat) (w : Walk) : after fs (m + n) w = after fs n (after fs m w) := by
  induction m generalizing w with
  | zero => rw [Nat.zero_add, after]
  | succ m ih => rw [Nat.succ_add, after, after, ih]

/-- A walk that has ended stays as it is. -/
theorem after_ended (n : Nat) (asked : List Path) :
    after fs n (.ended r asked) = .ended r asked := by
  induction n with
  | zero => rfl
  | succ n ih => exact ih

/-- **A walk asks for one file a step, the first ones on the way up, and ends with what the places
on the way decide on.** -/
theorem exists_after (h : Path.Upward dir ps) (asked : List Path) :
    ∃ r new, new <+: ps.map placeIn ∧ Decided fs (ps.map placeIn) r ∧
      after fs new.length (.standing dir asked) = .ended r (asked ++ new) := by
  -- on the way up: the file is there, or the walk goes on at the parent
  induction h generalizing asked with
  | @top dir htop =>
      refine ⟨if fs.exists? (placeIn dir) then load fs (placeIn dir) else .ok {}, [placeIn dir],
        List.prefix_refl _, ?_, ?_⟩
      · cases hthere : fs.exists? (placeIn dir) with
        | true => exact .found ⟨[], [], rfl, hthere, nofun⟩
        | false => exact .absent (List.forall_mem_singleton.2 hthere)
      · rw [List.length_singleton, after, after, step, Path.parent?_eq_none_iff.2 htop]
        cases fs.exists? (placeIn dir) <;> rfl
  | @up dir up ps hup hps ih =>
      cases hthere : fs.exists? (placeIn dir) with
      | true =>
          refine ⟨load fs (placeIn dir), [placeIn dir], List.prefix_append [_] _, ?_, ?_⟩
          · exact .found ⟨[], ps.map placeIn, rfl, hthere, nofun⟩
          · rw [List.length_singleton, after, after, step, hthere, if_pos rfl]
      | false =>
          obtain ⟨r, new, hnew, hr, hafter⟩ := ih (asked ++ [placeIn dir])
          refine ⟨r, placeIn dir :: new, List.cons_prefix_cons.2 ⟨rfl, hnew⟩, hr.cons hthere, ?_⟩
          rw [List.length_cons, after, step, hthere, Path.parent?_eq_some_iff.2 hup]
          rw [List.append_assoc] at hafter
          exact hafter

end Walk

/-! ### Files that cannot be used -/

theorem load_of_readText_error {cause : FileSystem.Error} (hp : fs.exists? p = true)
    (h : fs.readText p = .error cause) : load fs p = .error (.io cause) := by
  rw [load, if_pos hp, h]

theorem load_of_readText {s : String} (hp : fs.exists? p = true) (h : fs.readText p = .ok s) :
    load fs p = (parse? s).elim (.error .malformed) .ok := by
  rw [load, if_pos hp, h]
  cases hparse : parse? s <;> simp [hparse]

/-- **The nearest file decides.** The way up from any path goes from a path to its parent until it
is at the root or empty, and is at most one longer than the path has components. The walk has ended
after as many steps as there are directories on the way; it has asked for the first files on the
way, for each of them once, and its result is what is loaded. That is what the first file on the way
says that is there, an error if it cannot be read or says nothing valid, and the default only if
there is no file at all. -/
theorem nearest_file_decides (fs : FileSystem) (start : Path) :
    Path.Upward start start.ancestors ∧
      start.ancestors.length ≤ start.components.length + 1 ∧
      (∃ asked, asked <+: places start ∧
        Walk.after fs start.ancestors.length (.standing start []) =
          .ended (findAndLoad fs start) asked) ∧
      (∀ r, findAndLoad fs start = r ↔ Decided fs (places start) r) ∧
      ∀ p, fs.First (places start) p →
        (∀ cause, fs.readText p = .error cause → findAndLoad fs start = .error (.io cause)) ∧
        ∀ s, fs.readText p = .ok s →
          findAndLoad fs start = (parse? s).elim (.error .malformed) .ok := by
  have hup := Path.upward_ancestors start
  refine ⟨hup, hup.length_le, ?_, fun r => findAndLoad_eq_iff, fun p hp => ?_⟩
  · obtain ⟨r, asked, hasked, hr, hafter⟩ := Walk.exists_after hup []
    obtain rfl := hr.unique (decided_findAndLoad fs start)
    refine ⟨asked, hasked, ?_⟩
    have hle := hasked.length_le
    rw [List.length_map] at hle
    rw [← Nat.add_sub_cancel' hle, Walk.after_add, hafter, Walk.after_ended, List.nil_append]
  · rw [findAndLoad_of_first hp]
    exact ⟨fun cause => load_of_readText_error hp.exists, fun s => load_of_readText hp.exists⟩

/-- Three files near to three odd paths, and a fourth one at the root: the first is a directory, the
second says nothing valid, and neither is passed over for the one at the root. -/
theorem unusable_file_not_passed_over :
    let file (text : String) : FileSystem.Node := .file (Text.Utf8.bytes text)
    let name := Text.Utf8.bytes fileName
    let fs : FileSystem :=
      { cwd := [[120]]
        entries := [([[120]], .directory), ([[120], [255]], .directory),
          ([[120], [255], name], .directory), ([[120], name], file "library = "),
          ([[121]], .directory), ([[121], name], file "[library]\npath = \"y.so\"\n"),
          ([name], file "")] }
    findAndLoad fs ⟨[255, 47, 46, 47, 113, 47]⟩ = .error (.io .isADirectory) ∧
      findAndLoad fs (Path.ofString "./q/..") = .error .malformed ∧
      findAndLoad fs (Path.ofString "//y/.//q") = .ok ⟨some (Path.ofString "y.so"), []⟩ := by
  intro file name fs
  obtain ⟨-, -, -, -, hnear⟩ := nearest_file_decides fs ⟨[255, 47, 46, 47, 113, 47]⟩
  obtain ⟨-, -, -, -, hnear'⟩ := nearest_file_decides fs (Path.ofString "./q/..")
  obtain ⟨-, -, -, -, hnear''⟩ := nearest_file_decides fs (Path.ofString "//y/.//q")
  have hfirst : fs.First (places ⟨[255, 47, 46, 47, 113, 47]⟩) (placeIn ⟨[255]⟩) :=
    FileSystem.find?_eq_some_iff.1 (by decide +kernel)
  have hfirst' : fs.First (places (Path.ofString "./q/..")) (placeIn (Path.ofString ".")) :=
    FileSystem.find?_eq_some_iff.1 (by decide +kernel)
  have hfirst'' : fs.First (places (Path.ofString "//y/.//q")) (placeIn (Path.ofString "//y")) :=
    FileSystem.find?_eq_some_iff.1 (by decide +kernel)
  refine ⟨(hnear _ hfirst).1 _ (by decide +kernel), ?_, ?_⟩
  · rw [(hnear' _ hfirst').2 "library = " (by decide +kernel)]
    decide +kernel
  · rw [(hnear'' _ hfirst'').2 "[library]\npath = \"y.so\"\n" (by decide +kernel)]
    decide +kernel

end LateBinding.Config
