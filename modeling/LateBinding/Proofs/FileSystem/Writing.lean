import LateBinding.FileSystem
import LateBinding.Proofs.Text.Strict

/-!
**What was written to a path is found there.**

Writing follows a path to the directory of its last component and puts a file there. Whether that
succeeds does not depend on what is written. Afterwards the path leads to the file: on the way to it
only directories are looked up, and the file takes the place of none.

Main definitions:

* `LateBinding.FileSystem.Target` — the name under which a file at a path is written;
* `LateBinding.FileSystem.Writable` — the file at a path can be written.

Main results:

* `LateBinding.FileSystem.write_eq_ok_iff` — when writing succeeds, and what it puts where;
* `LateBinding.FileSystem.follow_put` — a path leads on as before;
* `LateBinding.FileSystem.find_of_write`, `LateBinding.FileSystem.readText_of_write` — **what is
  found, and read, after writing**.
-/

set_option autoImplicit false

namespace LateBinding.FileSystem

variable {fs fs' : FileSystem} {p : Path} {name other dir above here : List Name} {last : Name}
  {node stands : Node} {content : List UInt8}

/-! ### A node put at a name -/

theorem node?_put_self (hne : name ≠ []) : (fs.put name node).node? name = some node := by
  simp [node?, put, hne]

/-- What stands at other names stays. -/
theorem node?_put_of_ne (hne : other ≠ name) : (fs.put name node).node? other = fs.node? other := by
  have hfind : (fs.put name node).entries.find? (fun e => e.1 == other) =
      fs.entries.find? (fun e => e.1 == other) := by
    rw [put, List.find?_cons_of_neg (by simpa using hne.symm), List.find?_filter]
    refine congrArg (fun q => fs.entries.find? q) (funext fun e => ?_)
    by_cases he : e.1 = other
    · simp [he, hne]
    · simp [he]
  rw [node?, node?, hfind]

/-! ### Following a path -/

/-- A component that leads from a directory to an entry of it. -/
structure Proper (c : Name) : Prop where
  named : Path.isNameless c = false
  onward : c ≠ [Path.dot, Path.dot]
  short : c.length ≤ maxName

/-- A component followed from a directory. -/
theorem follow_directory_cons (c : Name) (rest : List Name) :
    fs.follow here .directory (c :: rest) =
      if Path.isNameless c then fs.follow here .directory rest
      else if c = [Path.dot, Path.dot] then fs.follow here.dropLast .directory rest
      else if c.length > maxName then .error .nameTooLong
      else (fs.node? (here ++ [c])).elim (.error .missing)
        fun stands => fs.follow (here ++ [c]) stands rest := by
  rw [follow]
  by_cases hc : c = []
  · -- an empty component is passed over, as the last one too
    subst hc
    simp [Path.isNameless]
  · rw [if_neg (by simp [hc]), if_neg (by simp)]
    cases fs.node? (here ++ [c]) <;> rfl

/-- The last component is looked up in the directory that was reached. -/
theorem follow_last (hc : Proper last) :
    fs.follow here .directory [last] =
      (fs.node? (here ++ [last])).elim (.error .missing) fun stands =>
        .ok (here ++ [last], stands) := by
  rw [follow_directory_cons, if_neg (by simp [hc.named]), if_neg hc.onward,
    if_neg (Nat.not_lt.2 hc.short)]
  rfl

/-- Only a directory has a dot in it. -/
theorem eq_directory_of_follow {r : List Name × Node}
    (h : fs.follow here stands (above ++ [[Path.dot]]) = .ok r) : stands = .directory := by
  refine Decidable.byContradiction fun hne => ?_
  -- empty components are passed over, up to the dot or to another component
  induction above with
  | nil => simp [follow, hne] at h
  | cons c above ih =>
      rw [List.cons_append, follow] at h
      split at h
      · exact ih h
      · rw [if_pos (by simpa using hne)] at h
        cases h

/-- **A path leads on as before**: where it led to a directory, it leads to the same one after
something else than a directory was replaced. -/
theorem follow_put (hfree : fs.node? name ≠ some .directory)
    (h : fs.follow here stands (above ++ [[Path.dot]]) = .ok (dir, node)) :
    (fs.put name (.file content)).follow here stands (above ++ [last]) =
      (fs.put name (.file content)).follow dir .directory [last] := by
  induction above generalizing here stands with
  | nil =>
      obtain rfl := eq_directory_of_follow h
      simp only [List.nil_append, follow_directory_cons, Path.isNameless] at h
      cases h
      rfl
  | cons c above ih =>
      obtain rfl := eq_directory_of_follow h
      rw [List.cons_append, follow_directory_cons] at h ⊢
      by_cases hc : Path.isNameless c = true
      · rw [if_pos hc] at h ⊢
        exact ih h
      rw [if_neg hc] at h ⊢
      by_cases hup : c = [Path.dot, Path.dot]
      · rw [if_pos hup] at h ⊢
        exact ih h
      rw [if_neg hup] at h ⊢
      by_cases hlong : c.length > maxName
      · rw [if_pos hlong] at h
        cases h
      rw [if_neg hlong] at h ⊢
      cases hnode : fs.node? (here ++ [c]) with
      | none =>
          rw [hnode] at h
          cases h
      | some stands =>
          rw [hnode] at h
          -- a directory stands there, so it is not the name that was replaced
          have hkept : (fs.put name (.file content)).node? (here ++ [c]) = some stands := by
            rw [node?_put_of_ne, hnode]
            rintro rfl
            rw [eq_directory_of_follow h] at hnode
            exact hfree hnode
          rw [hkept]
          exact ih h

/-! ### Writing -/

/-- `Target fs p dir last`: a file written at the path `p` stands under the name `last` in the
directory `dir`. -/
structure Target (fs : FileSystem) (p : Path) (dir : List Name) (last : Name) : Prop where
  sound : flaw? p = none
  leads : ∃ above node, Path.pieces p.bytes = above ++ [last] ∧
    fs.follow (fs.origin p) .directory (above ++ [[Path.dot]]) = .ok (dir, node)
  proper : Proper last
  free : fs.node? (dir ++ [last]) ≠ some .directory

/-- Components of which the last is not empty. -/
theorem eq_append_of_dropWhile {cs backward : List Name}
    (h : cs.reverse.dropWhile List.isEmpty = last :: backward)
    (hhead : cs.reverse.head? ≠ some []) : cs = backward.reverse ++ [last] ∧ last ≠ [] := by
  cases hrev : cs.reverse with
  | nil =>
      rw [hrev] at h
      cases h
  | cons c rest =>
      rw [hrev] at h hhead
      have hc : c ≠ [] := by simpa using hhead
      rw [List.dropWhile_cons_of_neg (by simpa using hc)] at h
      cases h
      exact ⟨by rw [← List.reverse_reverse cs, hrev, List.reverse_cons], hc⟩

theorem target_of_write (h : fs.write p content = .ok fs') :
    ∃ dir last, Target fs p dir last ∧ fs' = fs.put (dir ++ [last]) (.file content) := by
  rw [write] at h
  split at h
  · cases h
  next hsound =>
  dsimp only at h
  split at h
  · cases h
  next last backward hlast =>
  split at h
  · cases h
  next dir node hfollow =>
  split at h
  · cases h
  next hbad =>
  split at h
  · cases h
  next hshort =>
  split at h
  · cases h
  next hfree =>
  cases h
  simp only [Bool.or_eq_true, beq_iff_eq, decide_eq_true_eq, not_or] at hbad
  obtain ⟨hpieces, hne⟩ := eq_append_of_dropWhile hlast hbad.1.1
  have hproper : Proper last :=
    ⟨by simp [Path.isNameless, hne, hbad.1.2], hbad.2, Nat.not_lt.1 hshort⟩
  exact ⟨dir, last, ⟨hsound, ⟨backward.reverse, node, hpieces, hfollow⟩, hproper, hfree⟩, rfl⟩

theorem Target.write (h : Target fs p dir last) (content : List UInt8) :
    fs.write p content = .ok (fs.put (dir ++ [last]) (.file content)) := by
  obtain ⟨above, node, hpieces, hfollow⟩ := h.leads
  have hnamed := h.proper.named
  rw [Path.isNameless, Bool.or_eq_false_iff, beq_eq_false_iff_ne, beq_eq_false_iff_ne] at hnamed
  rw [FileSystem.write, h.sound]
  dsimp only
  rw [hpieces, List.reverse_append, List.reverse_singleton, List.singleton_append,
    List.dropWhile_cons_of_neg (by simpa using hnamed.1)]
  dsimp only
  rw [List.reverse_reverse, hfollow]
  dsimp only
  rw [if_neg (by simp [hnamed, h.proper.onward]), if_neg (Nat.not_lt.2 h.proper.short)]
  split
  · next hdir => exact absurd hdir h.free
  · rfl

/-- **When writing succeeds, and what it puts where.** -/
theorem write_eq_ok_iff : fs.write p content = .ok fs' ↔
    ∃ dir last, Target fs p dir last ∧ fs' = fs.put (dir ++ [last]) (.file content) := by
  constructor
  · exact target_of_write
  · rintro ⟨dir, last, ht, rfl⟩
    exact ht.write content

/-! ### Reading what was written -/

/-- The file at a path can be written: it is there or can be made. -/
def Writable (fs : FileSystem) (p : Path) : Prop := ∃ content fs', fs.write p content = .ok fs'

/-- What can be written to takes any content. -/
theorem Writable.write (h : fs.Writable p) (content : List UInt8) :
    ∃ fs', fs.write p content = .ok fs' := by
  obtain ⟨other, fs', hother⟩ := h
  obtain ⟨dir, last, ht, -⟩ := write_eq_ok_iff.1 hother
  exact ⟨_, ht.write content⟩

/-- **What is found after writing.** -/
theorem find_of_write (h : fs.write p content = .ok fs') :
    ∃ name, fs'.find p = .ok (name, .file content) := by
  obtain ⟨dir, last, ht, rfl⟩ := write_eq_ok_iff.1 h
  obtain ⟨above, node, hpieces, hfollow⟩ := ht.leads
  refine ⟨dir ++ [last], ?_⟩
  have horigin : (fs.put (dir ++ [last]) (.file content)).origin p = fs.origin p := rfl
  rw [find, ht.sound, hpieces, horigin, follow_put ht.free hfollow, follow_last ht.proper,
    node?_put_self (by simp)]
  rfl

theorem exists?_of_write (h : fs.write p content = .ok fs') : fs'.exists? p = true := by
  obtain ⟨name, hfind⟩ := find_of_write h
  rw [exists?, hfind]
  rfl

/-- **What is read after writing a text.** -/
theorem readText_of_write {s : String} (h : fs.write p (Text.Utf8.bytes s) = .ok fs') :
    fs'.readText p = .ok s := by
  obtain ⟨name, hfind⟩ := find_of_write h
  rw [readText, hfind]
  dsimp only
  rw [Text.Utf8.toText?_eq_some_iff.2 rfl]

end LateBinding.FileSystem
