import LateBinding.Config
import LateBinding.Proofs.FileSystem.Writing
import LateBinding.Proofs.Toml.Table

/-!
**A saved configuration is the same when it is loaded.**

A configuration is saved as a document of one table, in which each path that is a text stands in a
form that holds it. The document is read back as the configuration, whatever characters its paths
have. A path that is no text cannot stand in a document: then saving stops before anything is
written, so that it does not matter what writing would leave behind where it fails.

Main definitions:

* `LateBinding.Path.IsText`, `LateBinding.Config.IsText` — paths that are texts;
* `LateBinding.Config.document` — the table that a configuration is saved as;
* `LateBinding.Config.Writer`, `LateBinding.Config.saveVia` — saving with a way of writing of any
  kind.

Main results:

* `LateBinding.Config.render?_ofTexts`, `LateBinding.Config.parse?_document` — what is saved, and
  that it is read back;
* `LateBinding.Config.render?_eq_none_iff` — which configurations cannot be saved;
* `LateBinding.Config.saveVia_of_not_isText` — they leave every file as it is;
* `LateBinding.Config.saved_config_reloads` — **all of it together**.
-/

set_option autoImplicit false

namespace LateBinding

/-! ### Paths that are texts -/

namespace Path

/-- A path that a text writes. -/
def IsText (p : Path) : Prop := ∃ s, p = ofString s

theorem toText?_eq_some_iff {p : Path} {s : String} : p.toText? = some s ↔ p = ofString s := by
  rw [toText?, Text.Utf8.toText?_eq_some_iff, ofString, Path.mk.injEq]

theorem toText?_ofString (s : String) : (ofString s).toText? = some s := toText?_eq_some_iff.2 rfl

theorem toText?_eq_none_iff {p : Path} : p.toText? = none ↔ ¬p.IsText := by
  rw [Option.eq_none_iff_forall_ne_some, IsText, not_exists]
  exact forall_congr' fun s => not_congr toText?_eq_some_iff

end Path

namespace Config

variable {c : Config} {fs fs' : FileSystem} {p : Path}

/-- The paths of a configuration. -/
def paths (c : Config) : List Path := c.path.toList ++ c.searchPaths

/-- A configuration of which all paths are texts. -/
def IsText (c : Config) : Prop := ∀ q ∈ c.paths, q.IsText

/-- The configuration of some texts. -/
def ofTexts (path : Option String) (dirs : List String) : Config :=
  ⟨path.map Path.ofString, dirs.map Path.ofString⟩

/-- **Paths that are texts are those of some texts.** -/
theorem IsText.exists_texts (h : c.IsText) : ∃ path dirs, c = ofTexts path dirs := by
  obtain ⟨path, dirs⟩ := c
  have hpath : ∃ t : Option String, path = t.map Path.ofString := by
    cases path with
    | none => exact ⟨none, rfl⟩
    | some p =>
        obtain ⟨s, rfl⟩ := h p List.mem_cons_self
        exact ⟨some s, rfl⟩
  have hdirs : ∃ ts : List String, dirs = ts.map Path.ofString := by
    have htexts : ∀ q ∈ dirs, q.IsText := fun q hq => h q (List.mem_append_right _ hq)
    clear h
    induction dirs with
    | nil => exact ⟨[], rfl⟩
    | cons q dirs ih =>
        obtain ⟨⟨s, rfl⟩, hrest⟩ := List.forall_mem_cons.1 htexts
        obtain ⟨ts, rfl⟩ := ih hrest
        exact ⟨s :: ts, rfl⟩
  obtain ⟨t, rfl⟩ := hpath
  obtain ⟨ts, rfl⟩ := hdirs
  exact ⟨t, ts, rfl⟩

theorem isText_ofTexts (path : Option String) (dirs : List String) :
    (ofTexts path dirs).IsText := by
  intro q hq
  simp only [ofTexts, paths, List.mem_append, Option.mem_toList, Option.map_eq_some_iff,
    List.mem_map] at hq
  rcases hq with ⟨s, -, rfl⟩ | ⟨s, -, rfl⟩
  · exact ⟨s, rfl⟩
  · exact ⟨s, rfl⟩

/-! ### The document of a configuration -/

/-- The line with the path of the library. -/
def pathLine (s : String) : Toml.Line where
  key := "path".toList
  text := Toml.renderString s
  value := .string s
  isBareKey := ⟨by decide, List.all_eq_true.1 (by decide)⟩
  front := by
    obtain ⟨q, t, hq, hmark⟩ := Toml.renderString_eq_cons s
    exact ⟨q, t, hq, by rcases hmark with rfl | rfl <;> decide⟩
  reads := fun rest => Toml.readValue_renderString (by decide)

/-- The line with the further directories. -/
def dirsLine (dirs : List String) : Toml.Line where
  key := "search_paths".toList
  text := Toml.renderStrings dirs
  value := .array (dirs.map .string)
  isBareKey := ⟨by decide, List.all_eq_true.1 (by decide)⟩
  front := by
    obtain ⟨t, ht⟩ := Toml.renderStrings_eq_cons dirs
    exact ⟨'[', t, ht, by decide⟩
  reads := fun rest => Toml.readValue_renderStrings dirs

theorem entry_pathLine (s : String) : (pathLine s).entry = ("path", .string s) :=
  Prod.ext String.ofList_toList rfl

theorem entry_dirsLine (dirs : List String) :
    (dirsLine dirs).entry = ("search_paths", .array (dirs.map .string)) :=
  Prod.ext String.ofList_toList rfl

theorem render_pathLine (s : String) :
    (pathLine s).render = "path = ".toList ++ Toml.renderString s ++ ['\n'] := rfl

theorem render_dirsLine (dirs : List String) :
    (dirsLine dirs).render = "search_paths = ".toList ++ Toml.renderStrings dirs ++ ['\n'] := rfl

/-- The lines that a configuration is saved as. -/
def lines (path : Option String) (dirs : List String) : List Toml.Line :=
  (path.map pathLine).toList ++ [dirsLine dirs]

/-- The document that a configuration is saved as. -/
def document (path : Option String) (dirs : List String) : String :=
  String.ofList (Toml.renderTable "library".toList (lines path dirs))

/-- **What a configuration of texts is saved as.** -/
theorem render?_ofTexts (path : Option String) (dirs : List String) :
    (ofTexts path dirs).render? = some (document path dirs) := by
  have hdirs : (dirs.map Path.ofString).mapM Path.toText? = some dirs :=
    (mapM_eq_some_iff_eq_map fun _ _ => Path.toText?_eq_some_iff).2 rfl
  have hheader : "[library]\n".toList = '[' :: ("library".toList ++ [']', '\n']) := by decide
  cases path with
  | none =>
      simp only [render?, ofTexts, Option.map_none, hdirs, Option.bind_eq_bind, Option.bind_some]
      refine congrArg (fun t => some (String.ofList t)) ?_
      simp only [Toml.renderTable, lines, Option.map_none, Option.toList_none, List.nil_append,
        List.flatMap_cons, List.flatMap_nil, render_dirsLine, hheader, List.append_assoc,
        List.cons_append, List.append_nil]
  | some s =>
      simp only [render?, ofTexts, Option.map_some, Path.toText?_ofString, hdirs,
        Option.bind_eq_bind, Option.bind_some]
      refine congrArg (fun t => some (String.ofList t)) ?_
      simp only [Toml.renderTable, lines, Option.map_some, Option.toList_some, List.nil_append,
        List.flatMap_cons, List.flatMap_nil, render_pathLine, render_dirsLine, hheader,
        List.append_assoc, List.cons_append, List.append_nil]

/-- **The document is read back as the configuration.** -/
theorem parse?_document (path : Option String) (dirs : List String) :
    parse? (document path dirs) = some (ofTexts path dirs) := by
  have hname : Toml.IsBareKey "library".toList := ⟨by decide, List.all_eq_true.1 (by decide)⟩
  have hdirs : (dirs.map Toml.string).mapM pathOfToml? = some (dirs.map Path.ofString) := by
    induction dirs with
    | nil => rfl
    | cons s dirs ih => simp [List.mapM_cons, ih, pathOfToml?]
  cases path with
  | none =>
      have hentries : (lines none dirs).map Toml.Line.entry =
          [("search_paths", .array (dirs.map .string))] := by
        simp [lines, entry_dirsLine]
      have hkeys : ((lines none dirs).map fun l => l.entry.1).Nodup := by simp [lines]
      rw [parse?, document, Toml.parse?_renderTable hname hkeys, hentries, String.ofList_toList]
      simp [ofToml?, Toml.lookup, field, libraryOfToml?, pathsOfToml?, hdirs, ofTexts]
  | some s =>
      have hentries : (lines (some s) dirs).map Toml.Line.entry =
          [("path", .string s), ("search_paths", .array (dirs.map .string))] := by
        simp [lines, entry_pathLine, entry_dirsLine]
      have hkeys : ((lines (some s) dirs).map fun l => l.entry.1).Nodup := by
        simp [lines, entry_pathLine, entry_dirsLine]
      rw [parse?, document, Toml.parse?_renderTable hname hkeys, hentries, String.ofList_toList]
      simp [ofToml?, Toml.lookup, field, libraryOfToml?, pathOfToml?, pathsOfToml?, hdirs, ofTexts]

/-- **Only a configuration of texts can be saved.** -/
theorem isText_of_render? {s : String} (h : c.render? = some s) : c.IsText := by
  have htexts : ∀ {dirs : List Path} {ts : List String}, dirs.mapM Path.toText? = some ts →
      dirs = ts.map Path.ofString :=
    (mapM_eq_some_iff_eq_map fun _ _ => Path.toText?_eq_some_iff).1
  obtain ⟨path, dirs⟩ := c
  cases path with
  | none =>
      simp only [render?, Option.bind_eq_bind, Option.bind_some] at h
      obtain ⟨ts, hts, -⟩ := Option.bind_eq_some_iff.1 h
      rw [htexts hts]
      exact isText_ofTexts none ts
  | some p =>
      simp only [render?, Option.bind_eq_bind] at h
      obtain ⟨t, ht, h⟩ := Option.bind_eq_some_iff.1 h
      obtain ⟨u, hu, -⟩ := Option.map_eq_some_iff.1 ht
      obtain ⟨ts, hts, -⟩ := Option.bind_eq_some_iff.1 h
      rw [htexts hts, Path.toText?_eq_some_iff.1 hu]
      exact isText_ofTexts (some u) ts

theorem render?_eq_none_iff : c.render? = none ↔ ¬c.IsText := by
  constructor
  · intro hnone htext
    obtain ⟨path, dirs, rfl⟩ := htext.exists_texts
    rw [render?_ofTexts] at hnone
    cases hnone
  · intro htext
    rw [Option.eq_none_iff_forall_ne_some]
    exact fun s hs => htext (isText_of_render? hs)

/-- **What is saved is read back.** -/
theorem parse?_of_render? {s : String} (h : c.render? = some s) : parse? s = some c := by
  obtain ⟨path, dirs, rfl⟩ := (isText_of_render? h).exists_texts
  rw [render?_ofTexts] at h
  rw [← Option.some.inj h, parse?_document]

/-! ### Saving and loading -/

/-- **What is saved is loaded.** -/
theorem load_of_save (h : save c fs p = .ok fs') : load fs' p = .ok c := by
  rw [save] at h
  split at h
  · cases h
  next s hs =>
  split at h
  · next hwrite =>
    cases h
    rw [load, if_pos (FileSystem.exists?_of_write hwrite), FileSystem.readText_of_write hwrite]
    dsimp only
    rw [parse?_of_render? hs]
  · cases h

/-- What can be written to takes every configuration of texts. -/
theorem IsText.save (h : c.IsText) (hp : fs.Writable p) : ∃ fs', save c fs p = .ok fs' := by
  obtain ⟨path, dirs, rfl⟩ := h.exists_texts
  obtain ⟨fs', hwrite⟩ := hp.write (Text.Utf8.bytes (document path dirs))
  refine ⟨fs', ?_⟩
  rw [Config.save, render?_ofTexts]
  dsimp only
  rw [hwrite]

/-- A way of writing: whether it succeeded, and the file system that it leaves, also where it
failed. -/
abbrev Writer := Path → List UInt8 → StateM FileSystem (Except FileSystem.Error Unit)

/-- The way of writing that leaves the file system as it is where it fails. -/
def plainly : Writer := fun p content fs =>
  match fs.write p content with
  | .ok fs' => (.ok (), fs')
  | .error e => (.error e, fs)

/-- Saving with a way of writing of any kind. -/
def saveVia (write : Writer) (c : Config) (p : Path) : StateM FileSystem (Except Error Unit) :=
  match c.render? with
  | none => return .error (.io .pathNotUtf8)
  | some s => return (← write p (Text.Utf8.bytes s)).mapError .io

/-- Whether saving succeeded, and the file system afterwards, which is another one only if it
did. -/
def outcome (fs : FileSystem) : Except Error FileSystem → Except Error Unit × FileSystem
  | .ok fs' => (.ok (), fs')
  | .error e => (.error e, fs)

/-- A configuration that has a document is saved as the way of writing has it. -/
theorem run_saveVia {s : String} (h : c.render? = some s) (write : Writer) :
    (saveVia write c p).run fs =
      ((write p (Text.Utf8.bytes s) fs).1.mapError .io, (write p (Text.Utf8.bytes s) fs).2) := by
  rw [saveVia, h]
  rfl

/-- **Saving is saving plainly.** -/
theorem run_saveVia_plainly (c : Config) (fs : FileSystem) (p : Path) :
    (saveVia plainly c p).run fs = outcome fs (save c fs p) := by
  cases h : c.render? with
  | none =>
      rw [saveVia, save, h]
      rfl
  | some s =>
      rw [run_saveVia h, plainly, save, h]
      dsimp only
      cases fs.write p (Text.Utf8.bytes s) <;> rfl

/-- **A configuration that is no text leaves every file as it is**, however files are written. -/
theorem saveVia_of_not_isText (h : ¬c.IsText) (write : Writer) :
    (saveVia write c p).run fs = (.error (.io .pathNotUtf8), fs) := by
  rw [saveVia, render?_eq_none_iff.2 h]
  rfl

/-- **A saved configuration is the same when it is loaded.** Where all its paths are texts, a file
that can be written takes it, and loading the file then gives it. Where one is no text, saving is
refused, and the file system is left as it is, whatever way of writing is at hand and whatever that
would leave behind; saving with the plain way of writing is saving. -/
theorem saved_config_reloads (c : Config) (fs : FileSystem) (p : Path) :
    (c.IsText → fs.Writable p → ∃ fs', save c fs p = .ok fs' ∧ load fs' p = .ok c) ∧
      (¬c.IsText → save c fs p = .error (.io .pathNotUtf8) ∧
        ∀ write, (saveVia write c p).run fs = (.error (.io .pathNotUtf8), fs)) ∧
      (saveVia plainly c p).run fs = outcome fs (save c fs p) := by
  refine ⟨fun htext hp => ?_, fun htext => ⟨?_, saveVia_of_not_isText htext⟩,
    run_saveVia_plainly c fs p⟩
  · obtain ⟨fs', hsave⟩ := htext.save hp
    exact ⟨fs', hsave, load_of_save hsave⟩
  · rw [save, render?_eq_none_iff.2 htext]

/-- A configuration that needs every form of a string, and one with a byte that is no text. -/
theorem marks_and_controls_survive :
    let fs : FileSystem := { cwd := [], entries := [] }
    let place := Path.ofString fileName
    let c : Config := ⟨some (Path.ofString "it's \"\"\"\\\r\n\x07é"),
      [Path.ofString "", Path.ofString "\\'", Path.ofString "\"\\", Path.ofString "'\"",
      Path.ofString "'\\\n"]⟩
    let broken : Config := ⟨none, [⟨[255]⟩]⟩
    c.IsText ∧ fs.Writable place ∧ (∃ fs', save c fs place = .ok fs' ∧ load fs' place = .ok c) ∧
      ¬broken.IsText ∧ save broken fs place = .error (.io .pathNotUtf8) := by
  intro fs place c broken
  have htext : c.IsText := isText_ofTexts (some _) [_, _, _, _, _]
  have hwritable : fs.Writable place := ⟨[], _, rfl⟩
  have hbroken : ¬broken.IsText := fun h =>
    Path.toText?_eq_none_iff.1 (by decide) (h ⟨[255]⟩ List.mem_cons_self)
  exact ⟨htext, hwritable, (saved_config_reloads c fs place).1 htext hwritable, hbroken,
    ((saved_config_reloads broken fs place).2.1 hbroken).1⟩

end Config

end LateBinding
