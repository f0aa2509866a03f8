import LateBinding.Proofs.Load.Search

/-!
**The file that was found is the one that is loaded, if its path has a slash.**

The search asks the file system whether anything stands at a path; the system's loader opens the
path by its own rules. They agree about paths with a slash: these mean one file for both, and this
file alone decides how the load ends. **A path without a slash is a file of the working directory
for the search and a bare name for the loader**, which looks it up in other places. A candidate has
a slash unless its directory is the empty path; a path that is requested or configured may have
none.

Main definitions:

* `LateBinding.FileSystem.Image.IsComplete`, `LateBinding.FileSystem.Image.FirstLacking` — what a
  library exports of the registered symbols;
* `LateBinding.Library.DecidedBy` — how a node decides the end of a load.

Main results:

* `LateBinding.Library.openAt_of_slash`, `LateBinding.Library.openAt_of_bare` — what is opened at a
  path;
* `LateBinding.Library.slash_mem_join` — candidates have a slash;
* `LateBinding.Library.found_file_decides_of_slash` — all of it together.
-/

set_option autoImplicit false

namespace LateBinding

open LateBinding.Library (registered)
open LateBinding.Symbol (lacking)

/-! ### What a library exports -/

namespace FileSystem.Image

variable {image : Image} {s : String}

/-- All registered symbols are exported. -/
def IsComplete (image : Image) : Prop := ∀ s ∈ registered .active, s ∉ image.lacks

/-- The first registered symbol that is not exported. -/
def FirstLacking (image : Image) (s : String) : Prop :=
  ∃ before after, registered .active = before ++ s :: after ∧ s ∈ image.lacks ∧
    ∀ t ∈ before, t ∉ image.lacks

theorem isComplete_iff : image.IsComplete ↔ lacking (Library.sourceLacking image.lacks) = [] := by
  rw [Library.lacking_sourceLacking, List.filter_eq_nil_iff]
  simp only [IsComplete, List.contains_iff_mem]

theorem firstLacking_iff :
    image.FirstLacking s ↔ ∃ rest, lacking (Library.sourceLacking image.lacks) = s :: rest := by
  simp only [Library.lacking_sourceLacking, List.filter_eq_cons_iff, List.contains_iff_mem,
    FirstLacking]
  constructor
  · rintro ⟨before, after, hnames, hs, hbefore⟩
    exact ⟨_, before, after, hnames, hbefore, hs, rfl⟩
  · rintro ⟨rest, before, after, hnames, hbefore, hs, -⟩
    exact ⟨before, after, hnames, hs, hbefore⟩

end FileSystem.Image

namespace Library

open FileSystem (Name Node Image)

variable {l : Locator} {request : Option Path} {env : Environment} {fs : FileSystem} {p q : Path}
  {libraryPath : Option (List UInt8)}

/-! ### What is opened -/

/-- What opening a path comes to, given what stands at the place that is opened. -/
def outcomeAt (p : Path) (found : Except FileSystem.Error (List Name × Node)) : Outcome :=
  match imageOf found with
  | .error reason => .error (.openFailed p (p.display ++ ": " ++ reason))
  | .ok image =>
    match lacking (sourceLacking image.lacks) with
    | [] => .ok ⟨p, true, true⟩
    | symbol :: _ => .error (.symbolMissing symbol)

/-- The place that the system's loader opens for a path. -/
def openedPlace (fs : FileSystem) (libraryPath : Option (List UInt8)) (p : Path) : Option Path :=
  if p.bytes.contains Path.slash then some p
  else (loaderPlaces libraryPath p).find? fs.exists?

theorem imageAt_eq_mapError (hzero : p.bytes.contains 0 = false)
    (hempty : p.bytes.isEmpty = false) :
    imageAt fs libraryPath p =
      (imageOf (((openedPlace fs libraryPath p).map fs.find).getD (.error .missing))).mapError
        fun reason => p.display ++ ": " ++ reason := by
  simp only [imageAt, openedPlace, hzero, hempty, Bool.false_eq_true, if_false]
  split <;> next hfound => rw [hfound]; rfl

theorem openAt_eq_outcomeAt (hzero : p.bytes.contains 0 = false)
    (hempty : p.bytes.isEmpty = false) :
    openAt fs libraryPath p =
      outcomeAt p (((openedPlace fs libraryPath p).map fs.find).getD (.error .missing)) := by
  unfold outcomeAt
  cases hfound : imageOf (((openedPlace fs libraryPath p).map fs.find).getD (.error .missing)) with
  | error reason =>
      rw [openAt, exportsAt, imageAt_eq_mapError hzero hempty, hfound]
      rfl
  | ok image =>
      have hsource : exportsAt fs libraryPath p = .ok (sourceLacking image.lacks) := by
        rw [exportsAt, imageAt_eq_mapError hzero hempty, hfound]
        rfl
      exact openAt_of_exportsAt hsource

/-- A path at which something stands has bytes, and none of them is zero. -/
theorem bytes_of_exists (h : fs.exists? p = true) :
    p.bytes.contains 0 = false ∧ p.bytes.isEmpty = false := by
  obtain ⟨name, node, hfind⟩ := FileSystem.exists_iff.1 h
  unfold FileSystem.find FileSystem.flaw? at hfind
  grind

section Opening

variable {name : List Name} {node : Node}

/-- **A path with a slash is opened where it was found.** -/
theorem openAt_of_slash (hslash : Path.slash ∈ p.bytes) (hp : fs.find p = .ok (name, node)) :
    openAt fs libraryPath p = outcomeAt p (.ok (name, node)) := by
  obtain ⟨hzero, hempty⟩ := bytes_of_exists (FileSystem.exists_iff.2 ⟨name, node, hp⟩)
  have hplace : openedPlace fs libraryPath p = some p :=
    if_pos (List.contains_iff_mem.2 hslash)
  rw [openAt_eq_outcomeAt hzero hempty, hplace, Option.map_some, Option.getD_some, hp]

/-- A bare name is opened at the first place of the loader's own where anything stands, or
nowhere. -/
theorem openAt_of_bare (hbare : Path.slash ∉ p.bytes) (hp : fs.exists? p = true) :
    openAt fs libraryPath p =
      outcomeAt p ((((loaderPlaces libraryPath p).find? fs.exists?).map fs.find).getD
        (.error .missing)) := by
  obtain ⟨hzero, hempty⟩ := bytes_of_exists hp
  have hplace : openedPlace fs libraryPath p = (loaderPlaces libraryPath p).find? fs.exists? :=
    if_neg fun h => hbare (List.contains_iff_mem.1 h)
  rw [openAt_eq_outcomeAt hzero hempty, hplace]

theorem openAt_of_bare_first (hbare : Path.slash ∉ p.bytes) (hp : fs.exists? p = true)
    (hfirst : fs.First (loaderPlaces libraryPath p) q) (hq : fs.find q = .ok (name, node)) :
    openAt fs libraryPath p = outcomeAt p (.ok (name, node)) := by
  rw [openAt_of_bare hbare hp, FileSystem.find?_eq_some_iff.2 hfirst, Option.map_some,
    Option.getD_some, hq]

theorem openAt_of_bare_none (hbare : Path.slash ∉ p.bytes) (hp : fs.exists? p = true)
    (hnone : ∀ q ∈ loaderPlaces libraryPath p, fs.exists? q = false) :
    openAt fs libraryPath p =
      .error (.openFailed p (p.display ++ ": " ++ openFlaw .missing)) := by
  rw [openAt_of_bare hbare hp, FileSystem.find?_eq_none_iff.2 hnone]
  rfl

end Opening

/-! ### What decides -/

/-- A node alone decides the end of a load from a path: it succeeds if the node is a complete
library, names the first symbol that an incomplete one lacks, and fails to open what is no
library. -/
structure DecidedBy (p : Path) (node : Node) (answers : Outcome → Prop) : Prop where
  ok_iff : ∀ b, answers (.ok b) ↔
    b = ⟨p, true, true⟩ ∧ ∃ image, node = .library image ∧ image.IsComplete
  symbolMissing_iff : ∀ s, answers (.error (.symbolMissing s)) ↔
    ∃ image, node = .library image ∧ image.FirstLacking s
  openFailed_iff : (∃ reason, answers (.error (.openFailed p reason))) ↔
    ∀ image, node ≠ .library image
  path_of_openFailed : ∀ q reason, answers (.error (.openFailed q reason)) → q = p
  unique : ∀ o o', answers o → answers o' → o = o'

/-- The name under which a node was found does not count. -/
theorem outcomeAt_congr (p : Path) (name name' : List Name) (node : Node) :
    outcomeAt p (.ok (name, node)) = outcomeAt p (.ok (name', node)) := by
  cases node <;> rfl

theorem decidedBy_of_library (p : Path) (name : List Name) (image : Image) :
    DecidedBy p (.library image) (· = outcomeAt p (.ok (name, .library image))) := by
  have houtcome : outcomeAt p (.ok (name, .library image)) =
    match lacking (sourceLacking image.lacks) with
    | [] => .ok ⟨p, true, true⟩
    | symbol :: _ => .error (.symbolMissing symbol) := rfl
  have hlibrary : ¬∀ image', Node.library image ≠ .library image' := fun h => h image rfl
  rw [houtcome]
  constructor
  · intro b
    simp only [Node.library.injEq, exists_eq_left', Image.isComplete_iff]
    cases lacking (sourceLacking image.lacks) <;> simp
  · intro s
    simp only [Node.library.injEq, exists_eq_left', Image.firstLacking_iff]
    cases lacking (sourceLacking image.lacks) <;> simp [eq_comm]
  · refine iff_of_false ?_ hlibrary
    cases lacking (sourceLacking image.lacks) <;> simp
  · intro q reason
    cases lacking (sourceLacking image.lacks) <;> simp
  · rintro o o' rfl rfl
    rfl

theorem decidedBy_of_not_library {node : Node} (h : ∀ image, node ≠ .library image) (p : Path)
    (name : List Name) : DecidedBy p node (· = outcomeAt p (.ok (name, node))) := by
  obtain ⟨reason, houtcome⟩ : ∃ reason,
      outcomeAt p (.ok (name, node)) = .error (.openFailed p reason) := by
    cases node with
    | library image => exact absurd rfl (h image)
    | file content => exact ⟨_, rfl⟩
    | directory => exact ⟨_, rfl⟩
  rw [houtcome]
  constructor
  · exact fun b => iff_of_false (by simp) fun ⟨_, image, hnode, _⟩ => h image hnode
  · exact fun s => iff_of_false (by simp) fun ⟨image, hnode, _⟩ => h image hnode
  · exact iff_of_true ⟨reason, rfl⟩ h
  · intro q reason' heq
    cases heq
    rfl
  · rintro o o' rfl rfl
    rfl

/-- **The node that is opened decides.** -/
theorem decidedBy_outcomeAt (p : Path) (name : List Name) (node : Node) :
    DecidedBy p node (· = outcomeAt p (.ok (name, node))) := by
  by_cases h : ∃ image, node = .library image
  · obtain ⟨image, rfl⟩ := h
    exact decidedBy_of_library p name image
  · exact decidedBy_of_not_library (fun image hnode => h ⟨image, hnode⟩) p name

/-! ### The first load -/

/-- A path below a directory that is not the empty path has a slash. -/
theorem slash_mem_join {dir : Path} (h : dir.bytes ≠ []) (q : Path) :
    Path.slash ∈ (dir.join q).bytes := by
  unfold Path.join
  split
  · next habs => exact List.mem_of_mem_head? (by simpa [Path.isAbsolute] using habs)
  · split
    · next hend =>
        have hlast : dir.bytes.getLast? = some Path.slash := by simpa [h] using hend
        exact List.mem_append_left _ (List.mem_of_getLast? hlast)
    · exact List.mem_append_right _ List.mem_cons_self

/-- What a search takes has a slash, if it goes through directories none of which is the empty
path. -/
theorem slash_mem_of_located (hfound : l.locate request env fs = .ok p)
    (hsearch : l.required request = none) (hdirs : ∀ dir ∈ l.searchDirs env, dir.bytes ≠ []) :
    Path.slash ∈ p.bytes := by
  obtain ⟨before, after, hplaces, -⟩ := Locator.locate_eq_ok_iff.1 hfound
  have hmem : p ∈ l.candidates env := by
    have hcandidates : l.places request env = l.candidates env := by rw [Locator.places, hsearch]
    rw [← hcandidates, hplaces]
    exact List.mem_append_right _ List.mem_cons_self
  obtain ⟨dir, hdir, rfl⟩ := List.mem_map.1 hmem
  exact slash_mem_join (hdirs dir hdir) _

/-- **The file that was found decides the first load, if its path has a slash**: whatever the search
that found it, the other files and the environment may be. If the path has no slash, then the load
is decided by what the loader finds under this bare name in its own places, and fails if that is
nothing; the file that was found does not count. A search through directories finds a path with a
slash, unless one of the directories is the empty path. -/
theorem found_file_decides_of_slash (hfound : l.locate request env fs = .ok p) :
    ∃ name node, fs.find p = .ok (name, node) ∧
      (Path.slash ∈ p.bytes → DecidedBy p node (FirstLoad l fs env request) ∧
        ∀ l' request' env' fs' name', l'.locate request' env' fs' = .ok p →
          fs'.find p = .ok (name', node) →
          ∀ o, FirstLoad l' fs' env' request' o ↔ FirstLoad l fs env request o) ∧
      (Path.slash ∉ p.bytes →
        (∀ q name' node', fs.First (loaderPlaces env.libraryPath p) q →
          fs.find q = .ok (name', node') → DecidedBy p node' (FirstLoad l fs env request)) ∧
        ((∀ q ∈ loaderPlaces env.libraryPath p, fs.exists? q = false) →
          ∃ reason, FirstLoad l fs env request (.error (.openFailed p reason)))) ∧
      (l.required request = none → (∀ dir ∈ l.searchDirs env, dir.bytes ≠ []) →
        Path.slash ∈ p.bytes) := by
  have hp : fs.exists? p = true := (Locator.locate_eq_ok_iff.1 hfound).exists
  obtain ⟨name, node, hfind⟩ := FileSystem.exists_iff.1 hp
  have hload : FirstLoad l fs env request = (· = openAt fs env.libraryPath p) :=
    funext fun o => propext (firstLoad_iff_of_located hfound)
  refine ⟨name, node, hfind, fun hslash => ⟨?_, ?_⟩, fun hbare => ⟨?_, ?_⟩,
    slash_mem_of_located hfound⟩
  · rw [hload, openAt_of_slash hslash hfind]
    exact decidedBy_outcomeAt p name node
  · intro l' request' env' fs' name' hfound' hfind' o
    rw [firstLoad_iff_of_located hfound', firstLoad_iff_of_located hfound,
      openAt_of_slash hslash hfind', openAt_of_slash hslash hfind, outcomeAt_congr p name' name]
  · intro q name' node' hfirst hq
    rw [hload, openAt_of_bare_first hbare hp hfirst hq]
    exact decidedBy_outcomeAt p name' node'
  · intro hnone
    rw [hload, openAt_of_bare_none hbare hp hnone]
    exact ⟨_, rfl⟩

/-- A working directory that holds the library. -/
def besideLibrary : FileSystem where
  cwd := []
  entries := [([Text.Utf8.bytes "libcronet.so"], .library { lacks := [] })]

/-- A plan with the path of the library. -/
def planFor (name : String) : Locator := { explicit := some (Path.ofString name) }

/-- The library is found and loaded under a path with a slash. -/
theorem dotted_path_loaded :
    FirstLoad (planFor "./libcronet.so") besideLibrary {} none
      (.ok ⟨Path.ofString "./libcronet.so", true, true⟩) := by
  have hfind : besideLibrary.find (Path.ofString "./libcronet.so") =
      .ok ([Text.Utf8.bytes "libcronet.so"], .library { lacks := [] }) := by decide +kernel
  have hfound : (planFor "./libcronet.so").locate none {} besideLibrary =
      .ok (Path.ofString "./libcronet.so") := by decide +kernel
  obtain ⟨name, node, hfind', hslash, -⟩ := found_file_decides_of_slash hfound
  obtain ⟨-, rfl⟩ := Prod.mk.inj (Except.ok.inj (hfind'.symm.trans hfind))
  obtain ⟨hdecided, -⟩ := hslash (by decide)
  exact (hdecided.ok_iff _).2 ⟨rfl, _, rfl, fun s _ => List.not_mem_nil⟩

/-- The same library is found under its bare name, and not loaded. -/
theorem bare_name_found_not_loaded :
    (planFor "libcronet.so").locate none {} besideLibrary = .ok (Path.ofString "libcronet.so") ∧
      besideLibrary.find (Path.ofString "libcronet.so") =
        .ok ([Text.Utf8.bytes "libcronet.so"], .library { lacks := [] }) ∧
      FirstLoad (planFor "libcronet.so") besideLibrary {} none
        (.error (.openFailed (Path.ofString "libcronet.so")
          "libcronet.so: cannot open shared object file: No such file or directory")) := by
  have hfound : (planFor "libcronet.so").locate none {} besideLibrary =
      .ok (Path.ofString "libcronet.so") := by decide +kernel
  refine ⟨hfound, by decide +kernel, (firstLoad_iff_of_located hfound).2 ?_⟩
  decide +kernel

end Library

end LateBinding
