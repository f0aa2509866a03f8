import LateBinding.Proofs.Path.Body

/-!
**The parent of a path.**

The parent of a path has its components but for the last one, and of the beginnings of the path that
have these it is the shortest. The root and the empty path have no parent. A parent is shorter than
the path, so that the way up from any path ends, and it has at most one path more than the path has
components.

Main definitions:

* `LateBinding.Path.Splits` — a path as what it begins with and its body;
* `LateBinding.Path.IsParent` — **what the parent of a path is**;
* `LateBinding.Path.Upward` — the way up from a path.

Main results:

* `LateBinding.Path.Splits.of_components_eq` — the components determine both parts;
* `LateBinding.Path.parent?_eq_some_iff`, `LateBinding.Path.parent?_eq_none_iff` — **which path is
  the parent, and which paths have none**;
* `LateBinding.Path.upward_ancestors`, `LateBinding.Path.Upward.length_le` — the ancestors of a path
  are its way up, and how long that is.
-/

set_option autoImplicit false

namespace LateBinding.Path

variable {b t : List UInt8}

/-! ### What a path begins with -/

/-- `Splits bs lead b`: the bytes `bs` of a path are what it begins with outside its body, the
root's slash or a leading dot, and its body `b`. -/
inductive Splits : List UInt8 → Option Component → List UInt8 → Prop
  | root (b : List UInt8) : Splits (slash :: b) (some .root) b
  | here {b : List UInt8} (hb : ∀ x ∈ b.head?, x = slash) : Splits (dot :: b) (some .here) b
  | plain {b : List UInt8} (habs : b.head? ≠ some slash) (hdot : (pieces b).head? ≠ some [dot]) :
      Splits b none b

theorem head?_pieces_dot {b : List UInt8} :
    (pieces (dot :: b)).head? = some [dot] ↔ ∀ x ∈ b.head?, x = slash := by
  have hne : (dot == slash) = false := by decide
  rw [pieces, List.splitOn_cons_eq_if_modifyHead, hne, if_neg (by decide)]
  cases b with
  | nil => simp
  | cons x b =>
      rw [List.splitOn_cons_eq_if_modifyHead]
      by_cases hx : x = slash
      · simp [hx]
      · obtain ⟨first, rest, hsplit⟩ := List.exists_cons_of_ne_nil (List.splitOn_ne_nil slash b)
        simp [hx, hsplit]

theorem eq_dot_cons_of_head? {bs : List UInt8} (h : (pieces bs).head? = some [dot]) :
    ∃ b, bs = dot :: b := by
  cases bs with
  | nil => cases h
  | cons x b =>
      rw [pieces, List.splitOn_cons_eq_if_modifyHead] at h
      split at h
      · cases h
      · obtain ⟨first, rest, hsplit⟩ := List.exists_cons_of_ne_nil (List.splitOn_ne_nil slash b)
        rw [hsplit, List.modifyHead_cons, List.head?_cons] at h
        exact ⟨b, by rw [(List.cons.inj (Option.some.inj h)).1]⟩

/-- The bytes that a path begins with outside its body. -/
def leadBytes : Option Component → List UInt8
  | some .root => [slash]
  | some .here => [dot]
  | _ => []

namespace Splits

variable {bs bs' : List UInt8} {lead lead' : Option Component}

theorem bytes_eq (h : Splits bs lead b) : bs = leadBytes lead ++ b := by
  cases h <;> rfl

/-- What a path splits into is determined. -/
theorem eq (h : Splits bs lead b) : (Path.mk bs).lead = lead ∧
    bs.take (Path.mk bs).leadLength = leadBytes lead ∧ bs.drop (Path.mk bs).leadLength = b := by
  cases h with
  | root b => exact ⟨rfl, rfl, rfl⟩
  | here hb =>
      have habs : (Path.mk (dot :: b)).isAbsolute = false := rfl
      have hlength : (Path.mk (dot :: b)).leadLength = 1 := by
        rw [leadLength, habs, head?_pieces_dot.2 hb]
        rfl
      rw [Path.lead, habs, hlength]
      exact ⟨rfl, rfl, rfl⟩
  | plain habs hdot =>
      have habs : (Path.mk b).isAbsolute = false := by
        rw [isAbsolute, beq_eq_false_iff_ne]
        exact habs
      have hlength : (Path.mk b).leadLength = 0 := by
        rw [leadLength, habs, beq_eq_false_iff_ne.2 hdot]
        rfl
      rw [Path.lead, habs, hlength]
      exact ⟨rfl, rfl, rfl⟩

end Splits

/-- Every path splits into these two. -/
theorem exists_splits (bs : List UInt8) : ∃ lead b, Splits bs lead b := by
  by_cases habs : bs.head? = some slash
  · obtain ⟨b, rfl⟩ := List.head?_eq_some_iff.1 habs
    exact ⟨_, _, .root b⟩
  by_cases hdot : (pieces bs).head? = some [dot]
  · obtain ⟨b, rfl⟩ := eq_dot_cons_of_head? hdot
    exact ⟨_, _, .here (head?_pieces_dot.1 hdot)⟩
  · exact ⟨_, _, .plain habs hdot⟩

/-! ### Components -/

/-- The component of a piece that names something. -/
def component (c : List UInt8) : Component := if c = [dot, dot] then .above else .name c

theorem component_inj {c d : List UInt8} (h : component c = component d) : c = d := by
  unfold component at h
  split at h <;> split at h
  · next hc hd => rw [hc, hd]
  · cases h
  · cases h
  · exact Component.name.inj h

/-- The components that a path may begin with outside its body. -/
def Component.isLead : Component → Bool
  | .root => true
  | .here => true
  | _ => false

theorem isLead_component (c : List UInt8) : (component c).isLead = false := by
  unfold component
  split <;> rfl

namespace Splits

variable {bs bs' b' : List UInt8} {lead lead' : Option Component}

theorem components_eq (h : Splits bs lead b) :
    (Path.mk bs).components = lead.toList ++ (names b).map component := by
  obtain ⟨hlead, -, hbody⟩ := h.eq
  rw [components, hlead, hbody]
  rfl

/-- Paths with the same components begin alike and have the same names. -/
theorem of_components_eq (h : Splits bs lead b) (h' : Splits bs' lead' b')
    (he : (Path.mk bs).components = (Path.mk bs').components) :
    lead = lead' ∧ names b = names b' := by
  have hparts : ∀ {bs b : List UInt8} {lead : Option Component}, Splits bs lead b →
      (Path.mk bs).components.takeWhile Component.isLead = lead.toList ∧
        (Path.mk bs).components.dropWhile Component.isLead = (names b).map component := by
    intro bs b lead h
    have hlead : ∀ c ∈ lead.toList, c.isLead = true := by cases h <;> simp [Component.isLead]
    have hnames : ((names b).map component).takeWhile Component.isLead = [] ∧
        ((names b).map component).dropWhile Component.isLead = (names b).map component := by
      cases names b <;> simp [isLead_component]
    rw [h.components_eq, List.takeWhile_append_of_pos hlead, List.dropWhile_append_of_pos hlead,
      hnames.1, hnames.2, List.append_nil]
    exact ⟨rfl, rfl⟩
  obtain ⟨htake, hdrop⟩ := hparts h
  obtain ⟨htake', hdrop'⟩ := hparts h'
  rw [he] at htake hdrop
  refine ⟨?_, List.map_inj_right (fun _ _ => component_inj) |>.1 (hdrop.symm.trans hdrop')⟩
  simpa using congrArg List.head? (htake.symm.trans htake')

end Splits

/-! ### Parents -/

/-- `q` is the parent of `p`: the shortest beginning of `p` that has the components of `p` but for
the last one, which is not the root. -/
structure IsParent (p q : Path) : Prop where
  exists_last : ∃ c, p.components = q.components ++ [c] ∧ c ≠ .root
  isPrefix : q.bytes <+: p.bytes
  length_le : ∀ r : Path, r.bytes <+: p.bytes → r.components = q.components →
    q.bytes.length ≤ r.bytes.length

/-- A shortest beginning of the body leaves what stands before it as it is. -/
theorem Splits.of_isShortest {bs : List UInt8} {lead : Option Component} {ns : List (List UInt8)}
    (h : Splits bs lead b) (ht : IsShortest b ns t) : Splits (leadBytes lead ++ t) lead t := by
  have hhead : ∀ x ∈ t.head?, x ∈ b.head? := by
    intro x hx
    obtain ⟨u, hu⟩ := ht.isPrefix
    obtain ⟨t', rfl⟩ := List.head?_eq_some_iff.1 hx
    rw [← hu]
    rfl
  cases h with
  | root b => exact .root t
  | here hb => exact .here fun x hx => hb x (hhead x hx)
  | plain habs hdot =>
      refine .plain (fun hx => habs (hhead slash hx)) fun hx => ?_
      -- a dot alone would not be the shortest, and with a slash behind it the body would begin with
      -- it
      obtain ⟨t', rfl⟩ := eq_dot_cons_of_head? hx
      obtain ⟨u, rfl⟩ := ht.isPrefix
      cases t' with
      | nil =>
          have hle := ht.length_le [] List.nil_prefix ht.names_eq
          cases hle
      | cons x t' =>
          have hx' : x = slash := head?_pieces_dot.1 hx x rfl
          exact hdot (head?_pieces_dot.2 fun y hy => by cases hy; exact hx')

/-- Where its body has no name, a plain path is empty. -/
theorem eq_nil_of_names_eq_nil (habs : b.head? ≠ some slash) (hdot : (pieces b).head? ≠ some [dot])
    (hnames : names b = []) : b = [] := by
  obtain ⟨first, rest, hsplit⟩ := List.exists_cons_of_ne_nil (List.splitOn_ne_nil slash b)
  have hfirst : isNameless first = true := by
    rw [names, pieces, hsplit, List.filter_eq_nil_iff] at hnames
    simpa using hnames first List.mem_cons_self
  rw [pieces, hsplit, List.head?_cons] at hdot
  have hempty : first = [] := by
    simp only [isNameless, Bool.or_eq_true, beq_iff_eq] at hfirst
    exact hfirst.resolve_right fun he => hdot (by rw [he])
  cases b with
  | nil => rfl
  | cons x b =>
      rw [List.splitOn_cons_eq_if_modifyHead] at hsplit
      split at hsplit
      · next hx => exact absurd (by rw [List.head?_cons, beq_iff_eq.1 hx]) habs
      · obtain ⟨first', rest', hsplit'⟩ := List.exists_cons_of_ne_nil (List.splitOn_ne_nil slash b)
        rw [hsplit', List.modifyHead_cons, hempty] at hsplit
        cases hsplit

section

variable {bs : List UInt8} {lead : Option Component}

theorem Splits.parent?_of_nameless (h : Splits bs lead b) (hnames : names b = []) :
    (Path.mk bs).parent? = if lead = some .here then some ⟨[]⟩ else none := by
  obtain ⟨hlead, -, hdrop⟩ := h.eq
  simp only [parent?, hlead, hdrop, List.length_reverse, dropNameless_eq_nil_iff.2 hnames]

theorem Splits.parent?_of_named (h : Splits bs lead b) (hnames : names b ≠ []) :
    (Path.mk bs).parent? = some ⟨leadBytes lead ++ above b⟩ := by
  obtain ⟨-, htake, hdrop⟩ := h.eq
  have hne := mt dropNameless_eq_nil_iff.1 hnames
  obtain ⟨x, r, hr⟩ := List.exists_cons_of_ne_nil hne
  simp only [parent?, above, hdrop, htake, List.length_reverse, hr]

end

/-- **What the parent of a path is, and which paths have none.** -/
theorem parent?_cases (p : Path) : (∃ q, p.parent? = some q ∧ IsParent p q) ∨
    (p.parent? = none ∧ (p.bytes = [] ∨ p.components = [.root])) := by
  obtain ⟨bs⟩ := p
  obtain ⟨lead, b, h⟩ := exists_splits bs
  by_cases hnames : names b = []
  · rw [h.parent?_of_nameless hnames]
    have hcomponents : (Path.mk bs).components = lead.toList := by
      rw [h.components_eq, hnames, List.map_nil, List.append_nil]
    cases h with
    | root b => exact Or.inr ⟨rfl, Or.inr hcomponents⟩
    | here hb =>
        exact Or.inl ⟨⟨[]⟩, rfl, ⟨.here, hcomponents, nofun⟩, List.nil_prefix,
          fun r _ _ => Nat.zero_le _⟩
    | plain habs hdot => exact Or.inr ⟨rfl, Or.inl (eq_nil_of_names_eq_nil habs hdot hnames)⟩
  · obtain ⟨ns, c, hlast, ht⟩ := isShortest_above hnames
    have habove := h.of_isShortest ht
    refine Or.inl ⟨_, h.parent?_of_named hnames, ⟨component c, ?_, ?_⟩, ?_, ?_⟩
    · rw [h.components_eq, habove.components_eq, hlast, ht.names_eq, List.map_append,
        List.map_singleton, List.append_assoc]
    · intro he
      have hlead := isLead_component c
      rw [he] at hlead
      cases hlead
    · rw [h.bytes_eq]
      exact (List.prefix_append_right_inj _).2 ht.isPrefix
    · rintro ⟨rs⟩ hr hcomponents
      obtain ⟨lead', b', h'⟩ := exists_splits rs
      obtain ⟨rfl, hsame⟩ := h'.of_components_eq habove hcomponents
      rw [h.bytes_eq, h'.bytes_eq] at hr
      rw [h'.bytes_eq, List.length_append, List.length_append]
      have hle := ht.length_le b' ((List.prefix_append_right_inj _).1 hr) (hsame.trans ht.names_eq)
      omega

namespace IsParent

variable {p r s : Path}

/-- A path has one parent. -/
theorem unique (h : IsParent p r) (h' : IsParent p s) : r = s := by
  obtain ⟨c, hlast, -⟩ := h.exists_last
  obtain ⟨c', hlast', -⟩ := h'.exists_last
  have hcomponents : r.components = s.components :=
    (List.append_inj' (hlast.symm.trans hlast') rfl).1
  have hle := h.length_le s h'.isPrefix hcomponents.symm
  have hle' := h'.length_le r h.isPrefix hcomponents
  have hbegins := List.prefix_of_prefix_length_le h.isPrefix h'.isPrefix hle
  exact congrArg Path.mk (hbegins.eq_of_length (Nat.le_antisymm hle hle'))

/-- A parent is shorter. -/
theorem length_lt (h : IsParent p r) : r.bytes.length < p.bytes.length := by
  obtain ⟨c, hlast, -⟩ := h.exists_last
  refine Nat.lt_of_le_of_ne h.isPrefix.length_le fun hlen => ?_
  have hsame : r = p := congrArg Path.mk (h.isPrefix.eq_of_length hlen)
  rw [hsame] at hlast
  simpa using congrArg List.length hlast

end IsParent

/-- The empty path and the root have no parent. -/
theorem not_isParent {p r : Path} (hp : p.bytes = [] ∨ p.components = [.root]) : ¬IsParent p r := by
  intro h
  obtain ⟨c, hlast, hc⟩ := h.exists_last
  rcases hp with hp | hp
  · have hlt := h.length_lt
    rw [hp] at hlt
    cases hlt
  · rw [hp] at hlast
    have hroot := congrArg List.getLast? hlast
    rw [List.getLast?_concat] at hroot
    exact hc (Option.some.inj hroot).symm

/-- **The parent of a path.** -/
theorem parent?_eq_some_iff {p r : Path} : p.parent? = some r ↔ IsParent p r := by
  rcases parent?_cases p with ⟨q, hq, hparent⟩ | ⟨hnone, hp⟩
  · rw [hq, Option.some_inj]
    exact ⟨fun he => he ▸ hparent, hparent.unique⟩
  · rw [hnone]
    exact iff_of_false nofun (not_isParent hp)

/-- **Only the empty path and the root have no parent.** -/
theorem parent?_eq_none_iff {p : Path} :
    p.parent? = none ↔ p.bytes = [] ∨ p.components = [.root] := by
  rcases parent?_cases p with ⟨q, hq, hparent⟩ | ⟨hnone, hp⟩
  · rw [hq]
    exact iff_of_false nofun fun hp => not_isParent hp hparent
  · exact iff_of_true hnone hp

/-! ### The way up -/

/-- `Upward p ps`: the way up from `p` is `ps`, a path followed by its parent each time, up to the
root or the empty path. -/
inductive Upward : Path → List Path → Prop
  | top {p : Path} (h : p.bytes = [] ∨ p.components = [.root]) : Upward p [p]
  | up {p q : Path} {ps : List Path} (h : IsParent p q) (hq : Upward q ps) : Upward p (p :: ps)

theorem upward_ancestorsFrom {fuel : Nat} {p : Path} (hfuel : p.bytes.length < fuel) :
    Upward p (ancestorsFrom fuel p) := by
  induction fuel generalizing p with
  | zero => cases hfuel
  | succ fuel ih =>
      rcases parent?_cases p with ⟨q, hq, hparent⟩ | ⟨hnone, hp⟩
      · rw [ancestorsFrom, hq]
        exact .up hparent (ih (by have hlt := hparent.length_lt; omega))
      · rw [ancestorsFrom, hnone]
        exact .top hp

/-- **The ancestors of a path are its way up.** -/
theorem upward_ancestors (p : Path) : Upward p p.ancestors :=
  upward_ancestorsFrom (Nat.lt_succ_self _)

/-- The way up has at most one path more than the path has components. -/
theorem Upward.length_le {p : Path} {ps : List Path} (h : Upward p ps) :
    ps.length ≤ p.components.length + 1 := by
  induction h with
  | top h => simp
  | up h hq ih =>
      obtain ⟨c, hlast, -⟩ := h.exists_last
      rw [hlast, List.length_append, List.length_singleton, List.length_cons]
      omega

end LateBinding.Path
