import LateBinding.Proofs.Path.Pieces

/-!
**The names in the body of a path.**

The body of a path is read from its end: pieces that name nothing are taken off with the slashes
before them. What is left is the shortest beginning of the body with the same names, and without its
last piece it is, after the same again, the shortest beginning with all names but the last.

Main definitions:

* `LateBinding.Path.names` — the pieces of a body that name something;
* `LateBinding.Path.IsWhole` — a beginning of a body that ends where a piece does;
* `LateBinding.Path.IsShortest` — **the shortest beginning with some names**;
* `LateBinding.Path.above` — a body without its last name.

Main results:

* `LateBinding.Path.names_append` — the names of a beginning and of what follows it;
* `LateBinding.Path.isShortest_dropNameless` — what the reading from the end leaves;
* `LateBinding.Path.isShortest_above` — **what stands above the last name**.
-/

set_option autoImplicit false

namespace LateBinding.Path

/-! ### Names in a body -/

/-- The pieces of a path's body that name something, in order. -/
def names (b : List UInt8) : List (List UInt8) := (pieces b).filter fun c => !isNameless c

theorem names_nil : names [] = [] := rfl

theorem names_append_slash (a b : List UInt8) : names (a ++ slash :: b) = names a ++ names b := by
  rw [names, pieces, List.splitOn_append_cons_self, List.filter_append]
  rfl

theorem names_of_notMem {c : List UInt8} (hc : slash ∉ c) :
    names c = if isNameless c then [] else [c] := by
  rw [names, pieces, List.splitOn_eq_singleton hc]
  cases h : isNameless c <;> simp [h]

/-- The beginning of a body that ends where a piece does: it is empty, or ends with a slash. -/
def IsWhole (d : List UInt8) : Prop := d = [] ∨ ∃ a, d = a ++ [slash]

variable {a b c d q t : List UInt8}

/-- Every body is a beginning and its last piece. -/
theorem exists_last_piece (b : List UInt8) : ∃ d c, b = d ++ c ∧ IsWhole d ∧ slash ∉ c := by
  induction b with
  | nil => exact ⟨[], [], rfl, Or.inl rfl, List.not_mem_nil⟩
  | cons x b ih =>
      obtain ⟨d, c, rfl, hd, hc⟩ := ih
      rcases hd with rfl | ⟨a, rfl⟩
      · by_cases hx : x = slash
        · exact ⟨[x], c, rfl, Or.inr ⟨[], by rw [hx]; rfl⟩, hc⟩
        · refine ⟨[], x :: c, rfl, Or.inl rfl, ?_⟩
          rw [List.mem_cons, not_or]
          exact ⟨fun he => hx he.symm, hc⟩
      · exact ⟨x :: (a ++ [slash]), c, rfl, Or.inr ⟨x :: a, rfl⟩, hc⟩

theorem names_append (hd : IsWhole d) (c : List UInt8) : names (d ++ c) = names d ++ names c := by
  rcases hd with rfl | ⟨a, rfl⟩
  · rfl
  · rw [List.append_assoc, List.singleton_append, names_append_slash, names_append_slash, names_nil,
      List.append_nil]

/-- The slash at the end names nothing. -/
theorem names_dropLast (hd : IsWhole d) : names d.dropLast = names d := by
  rcases hd with rfl | ⟨a, rfl⟩
  · rfl
  · rw [List.dropLast_concat, names_append_slash, names_nil, List.append_nil]

/-- What names something goes on naming something when it gets longer. -/
theorem isNameless_append (hc : isNameless c = false) (u : List UInt8) :
    isNameless (c ++ u) = false := by
  match c, hc with
  | [x], hc => cases u <;> simp_all [isNameless]
  | x :: y :: c, _ => simp [isNameless]

theorem names_append_ne_nil (hc : slash ∉ c) (hnamed : isNameless c = false) (u : List UInt8) :
    names (c ++ u) ≠ [] := by
  by_cases hu : slash ∈ u
  · obtain ⟨v, w, rfl, hv⟩ := List.eq_append_cons_of_mem hu
    have hcv : slash ∉ c ++ v := fun h => (List.mem_append.1 h).elim hc hv
    rw [← List.append_assoc, names_append_slash, names_of_notMem hcv, isNameless_append hnamed]
    simp
  · have hcu : slash ∉ c ++ u := fun h => (List.mem_append.1 h).elim hc hu
    rw [names_of_notMem hcu, isNameless_append hnamed]
    simp

/-- A beginning of a body has no more names than the body. -/
theorem length_names_le (h : q <+: b) : (names q).length ≤ (names b).length := by
  obtain ⟨u, rfl⟩ := h
  obtain ⟨d, c, rfl, hd, hc⟩ := exists_last_piece q
  rw [names_append hd, List.append_assoc, names_append hd, List.length_append, List.length_append,
    names_of_notMem hc]
  cases hnamed : isNameless c with
  | true => simp
  | false =>
      have hpos := List.length_pos_iff.2 (names_append_ne_nil hc hnamed u)
      simp only [Bool.false_eq_true, if_false, List.length_singleton]
      omega

/-- A body that ends with a name has more names than what it begins with. -/
theorem eq_of_names_eq (hd : IsWhole d) (hc : slash ∉ c) (hnamed : isNameless c = false)
    (hq : q <+: d ++ c) (h : names q = names (d ++ c)) : q = d ++ c := by
  have hlast : names c = [c] := by
    rw [names_of_notMem hc, hnamed]
    rfl
  rw [names_append hd, hlast] at h
  rcases List.prefix_or_prefix_of_prefix hq (List.prefix_append d c) with hqd | ⟨e, rfl⟩
  · have hle := length_names_le hqd
    rw [h, List.length_append, List.length_singleton] at hle
    omega
  · have he : e <+: c := (List.prefix_append_right_inj d).1 hq
    have hslash : slash ∉ e := fun hmem => hc (he.subset hmem)
    rw [names_append hd, List.append_cancel_left_eq, names_of_notMem hslash] at h
    split at h
    · cases h
    · rw [List.singleton_inj.1 h]

/-! ### The shortest beginning -/

/-- `IsShortest b ns t`: of the beginnings of `b` that have the names `ns`, `t` is the shortest. -/
structure IsShortest (b : List UInt8) (ns : List (List UInt8)) (t : List UInt8) : Prop where
  isPrefix : t <+: b
  names_eq : names t = ns
  length_le : ∀ q, q <+: b → names q = ns → t.length ≤ q.length

theorem IsShortest.extend {ns : List (List UInt8)} (h : IsShortest a ns t) (hab : a <+: b) :
    IsShortest b ns t := by
  refine ⟨h.isPrefix.trans hab, h.names_eq, fun q hq hnames => ?_⟩
  rcases List.prefix_or_prefix_of_prefix hq hab with hqa | haq
  · exact h.length_le q hqa hnames
  · exact Nat.le_trans h.isPrefix.length_le haq.length_le

theorem isNameless_reverse (c : List UInt8) : isNameless c.reverse = isNameless c := by
  rcases c with _ | ⟨x, _ | ⟨y, c⟩⟩
  · rfl
  · rfl
  · have hlong : ∀ c : List UInt8, 1 < c.length → isNameless c = false := by
      intro c hc
      match c, hc with
      | x :: y :: c, _ => simp [isNameless]
    rw [hlong _ (by simp), hlong _ (by simp)]

section LastPiece

variable (hd : IsWhole d) (hc : slash ∉ c)
include hd hc

/-- The reading from the end stops before the last piece. -/
theorem dropWhile_reverse : (d ++ c).reverse.takeWhile (· != slash) = c.reverse ∧
    ((d ++ c).reverse.dropWhile (· != slash)).drop 1 = d.dropLast.reverse := by
  have hpiece : ∀ x ∈ c.reverse, (x != slash) = true := by
    intro x hx
    rw [bne_iff_ne]
    rintro rfl
    exact hc (List.mem_reverse.1 hx)
  have hrest :
      d.reverse.takeWhile (· != slash) = [] ∧ d.reverse.dropWhile (· != slash) = d.reverse := by
    rcases hd with rfl | ⟨a, rfl⟩
    · exact ⟨rfl, rfl⟩
    · rw [List.reverse_concat]
      exact ⟨rfl, rfl⟩
  rw [List.reverse_append, List.takeWhile_append_of_pos hpiece, List.dropWhile_append_of_pos hpiece,
    hrest.1, hrest.2, List.append_nil, List.drop_one, List.tail_reverse]
  exact ⟨rfl, rfl⟩

/-- A last piece that names nothing is taken off with the slash before it. -/
theorem dropNameless_succ (fuel : Nat) (hne : d ++ c ≠ []) :
    dropNameless (fuel + 1) (d ++ c).reverse =
      if isNameless c then dropNameless fuel d.dropLast.reverse else (d ++ c).reverse := by
  have hempty : (d ++ c).reverse.isEmpty = false := by
    rw [List.isEmpty_reverse, List.isEmpty_eq_false_iff]
    exact hne
  obtain ⟨htake, hdrop⟩ := dropWhile_reverse hd hc
  rw [dropNameless, hempty, htake, hdrop, isNameless_reverse]
  rfl

theorem names_of_nameless (hnamed : isNameless c = true) : names (d ++ c) = names d.dropLast := by
  rw [names_append hd, names_of_notMem hc, hnamed, if_pos rfl, List.append_nil, names_dropLast hd]

end LastPiece

theorem length_dropLast_lt (hne : d ++ c ≠ []) : d.dropLast.length < (d ++ c).length := by
  have hpos := List.length_pos_iff.2 hne
  rw [List.length_append] at hpos ⊢
  rw [List.length_dropLast]
  omega

theorem dropLast_prefix_append (d c : List UInt8) : d.dropLast <+: d ++ c :=
  (List.dropLast_prefix d).trans (List.prefix_append d c)

/-- **Taking off the pieces that name nothing leaves the shortest beginning with the same
names.** -/
theorem isShortest_dropNameless {fuel : Nat} (hfuel : b.length < fuel) :
    IsShortest b (names b) (dropNameless fuel b.reverse).reverse := by
  induction fuel generalizing b with
  | zero => cases hfuel
  | succ fuel ih =>
      obtain ⟨d, c, rfl, hd, hc⟩ := exists_last_piece b
      by_cases hne : d ++ c = []
      · rw [hne]
        exact ⟨List.nil_prefix, rfl, fun q _ _ => Nat.zero_le _⟩
      rw [dropNameless_succ hd hc fuel hne]
      cases hnamed : isNameless c with
      | true =>
          have hshorter := length_dropLast_lt (c := c) hne
          rw [names_of_nameless hd hc hnamed, if_pos rfl]
          exact (ih (by omega)).extend (dropLast_prefix_append d c)
      | false =>
          rw [if_neg (by decide), List.reverse_reverse]
          refine ⟨List.prefix_refl _, rfl, fun q hq hnames => ?_⟩
          exact Nat.le_of_eq (congrArg _ (eq_of_names_eq hd hc hnamed hq hnames).symm)

theorem dropNameless_eq_nil_iff : dropNameless (b.length + 1) b.reverse = [] ↔ names b = [] := by
  obtain ⟨-, hnames, hleast⟩ := isShortest_dropNameless (b := b) (Nat.lt_succ_self _)
  constructor
  · intro h
    rw [← hnames, h]
    rfl
  · intro h
    have hle := hleast [] List.nil_prefix h.symm
    rw [List.length_reverse, List.length_nil, Nat.le_zero_eq] at hle
    exact List.eq_nil_of_length_eq_zero hle

/-- A body without its last name, and without what names nothing before it. -/
def above (b : List UInt8) : List UInt8 :=
  let front := ((dropNameless (b.length + 1) b.reverse).dropWhile (· != slash)).drop 1
  (dropNameless (front.length + 1) front).reverse

/-- **What stands above the last name of a body** is the shortest beginning that has the other
names. -/
theorem isShortest_above (hb : names b ≠ []) :
    ∃ ns c, names b = ns ++ [c] ∧ IsShortest b ns (above b) := by
  have hshort := isShortest_dropNameless (b := b) (Nat.lt_succ_self _)
  have hne := mt dropNameless_eq_nil_iff.1 hb
  unfold above
  generalize hr : dropNameless (b.length + 1) b.reverse = r at hshort hne ⊢
  obtain ⟨d, c, ht, hd, hc⟩ := exists_last_piece r.reverse
  obtain rfl : r = (d ++ c).reverse := by rw [← ht, List.reverse_reverse]
  rw [List.reverse_reverse] at hshort
  have hne : d ++ c ≠ [] := fun h => hne (by rw [h]; rfl)
  have hnamed : isNameless c = false := by
    -- else the beginning would not be the shortest one
    rw [← Bool.not_eq_true]
    intro hnamed
    have hle := hshort.length_le d.dropLast ((dropLast_prefix_append d c).trans hshort.isPrefix)
      (by rw [← names_of_nameless hd hc hnamed, hshort.names_eq])
    have hlt := length_dropLast_lt (c := c) hne
    omega
  refine ⟨names d, c, ?_, ?_⟩
  · rw [← hshort.names_eq, names_append hd, names_of_notMem hc, hnamed]
    rfl
  · simp only [(dropWhile_reverse hd hc).2, List.length_reverse]
    rw [← names_dropLast hd]
    exact (isShortest_dropNameless (Nat.lt_succ_self _)).extend
      ((dropLast_prefix_append d c).trans hshort.isPrefix)

end LateBinding.Path
