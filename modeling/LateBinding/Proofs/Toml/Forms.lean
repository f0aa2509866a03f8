import LateBinding.Proofs.Toml.Strings

/-!
**A text is written in a form that holds it, and read back from it.**

The forms with escapes hold every text, those without them only some. The form that is chosen for a
text holds it, and from every form that holds it the text is read back, whatever follows but another
mark. So the rule by which a form is chosen may change: the reading is the same as long as the form
holds the text.

Main definitions:

* `LateBinding.Toml.RunsWithin` — how many marks stand in a row in a text;
* `LateBinding.Toml.Form.Fits` — **the texts that a form can hold**.

Main results:

* `LateBinding.Toml.written_escapeText`, `LateBinding.Toml.written_literal` — what is written over
  several lines never has three marks in a row;
* `LateBinding.Toml.Form.fits_choose` — the form that is chosen holds the text;
* `LateBinding.Toml.readString_render` — a text is read back from a form that holds it;
* `LateBinding.Toml.readString_renderString` — **what is written as a string is read back**.
-/

set_option autoImplicit false

namespace LateBinding.Toml

variable {c mark : Char} {s t rest : List Char} {bound run fuel : Nat}

/-! ### Texts as they are written -/

/-- **A text with its escapes is never three marks in a row.** -/
theorem written_escapeText (lines : Bool) (hrun : run < 3) :
    Written '"' (EscapedAs true) run s (escapeText lines 2 run s) := by
  induction s generalizing run with
  | nil => exact .nil hrun
  | cons c s ih =>
      rw [escapeText]
      by_cases hc : c = '"'
      · subst hc
        rw [if_pos rfl]
        by_cases hfree : run < 2
        · rw [if_pos hfree]
          exact .mark (ih (by omega))
        · rw [if_neg hfree]
          exact .char hrun (escapedAs_mark true) (ih (by omega))
      · rw [if_neg hc]
        exact .char hrun (escapedAs_escapeChar lines hc).in_lines (ih (by omega))

/-- In `s`, after `run` marks, no more than `bound` marks stand in a row. -/
def RunsWithin (mark : Char) (bound : Nat) : Nat → List Char → Prop
  | run, [] => run ≤ bound
  | run, c :: s => run ≤ bound ∧ RunsWithin mark bound (if c = mark then run + 1 else 0) s

theorem RunsWithin.le (h : RunsWithin mark bound run s) : run ≤ bound := by
  cases s with
  | nil => exact h
  | cons c s => exact h.1

/-- **The longest run is counted.** -/
theorem runsWithin_of_longestRun_le (h : longestRun mark s ≤ bound) :
    RunsWithin mark bound 0 s := by
  -- along the text, with the marks just counted and the longest run until then
  suffices hcount : ∀ run most, run ≤ most →
      (s.foldl (fun (r : Nat × Nat) c =>
        let now := if c = mark then r.1 + 1 else 0
        (now, max r.2 now)) (run, most)).2 ≤ bound → most ≤ bound ∧ RunsWithin mark bound run s from
    (hcount 0 0 (Nat.le_refl 0) h).2
  clear h
  induction s with
  | nil => exact fun run most hle h => ⟨h, Nat.le_trans hle h⟩
  | cons c s ih =>
      intro run most hle h
      obtain ⟨hmost, hruns⟩ := ih _ _ (Nat.le_max_right _ _) h
      have hbound : most ≤ bound := Nat.le_trans (Nat.le_max_left _ _) hmost
      exact ⟨hbound, Nat.le_trans hle hbound, hruns⟩

/-- Where no mark may stand there is none. -/
theorem RunsWithin.notMem (h : RunsWithin mark 0 run s) : mark ∉ s := by
  induction s generalizing run with
  | nil => simp
  | cons c s ih =>
      rw [List.mem_cons, not_or]
      refine ⟨?_, ih h.2⟩
      rintro rfl
      have hle := h.2.le
      rw [if_pos rfl] at hle
      omega

/-- A text without three apostrophes in a row stands for itself. -/
theorem written_literal (hruns : RunsWithin '\'' 2 run s)
    (hs : ∀ c ∈ s, c = '\'' ∨ isLiteral c = true ∨ c = '\n') : Written '\'' StandsFor run s s := by
  induction s generalizing run with
  | nil => exact .nil (Nat.lt_succ_of_le hruns)
  | cons c s ih =>
      rw [List.forall_mem_cons] at hs
      obtain ⟨hc, hs⟩ := hs
      by_cases hmark : c = '\''
      · subst hmark
        exact .mark (ih hruns.2 hs)
      · have hrest := hruns.2
        rw [if_neg hmark] at hrest
        exact .char (w := [c]) (Nat.lt_succ_of_le hruns.1) ⟨rfl, hc.resolve_left hmark⟩
          (ih hrest hs)

/-! ### The form of a text -/

/-- A character that is no control character stands in a literal string. -/
theorem isLiteral_of_not_isControl (h : isControl c = false) :
    c = '\'' ∨ isLiteral c = true ∨ c = '\n' := by
  by_cases hmark : c = '\''
  · exact Or.inl hmark
  by_cases hline : c = '\n'
  · exact Or.inr (Or.inr hline)
  refine Or.inr (Or.inl ?_)
  simp only [isControl, Bool.and_eq_false_iff, Bool.or_eq_false_iff, decide_eq_false_iff_not,
    bne_eq_false_iff_eq] at h
  simp only [isLiteral, isWide, Bool.or_eq_true, Bool.and_eq_true, decide_eq_true_eq, bne_iff_ne,
    beq_iff_eq]
  rcases h with (htab | hline') | ⟨hlow, hdelete⟩
  · exact Or.inl (Or.inl htab)
  · exact absurd hline' hline
  · by_cases hwide : 0x80 ≤ c.toNat
    · exact Or.inr hwide
    · exact Or.inl (Or.inr ⟨⟨by omega, by omega⟩, hmark⟩)

/-- The texts that a form can hold. -/
def Form.Fits : Form → List Char → Prop
  | .basic, _ => True
  | .literal, s => s ≠ [] ∧ ∀ c ∈ s, isLiteral c = true
  | .basicLines, _ => True
  | .literalLines, s =>
    RunsWithin '\'' 2 0 s ∧ ∀ c ∈ s, c = '\'' ∨ isLiteral c = true ∨ c = '\n'

/-- **The form that is chosen holds the text.** -/
theorem Form.fits_choose (s : List Char) : (Form.choose s).Fits s := by
  have hliteral : ∀ c ∈ s, s.any isControl = false → c = '\'' ∨ isLiteral c = true ∨ c = '\n' :=
    fun c hc hcontrol =>
      isLiteral_of_not_isControl (by simpa using List.any_eq_false.1 hcontrol c hc)
  unfold Form.choose
  dsimp only
  split
  · trivial
  next hbasic =>
  split
  · next h =>
    simp only [Bool.and_eq_true, Bool.not_eq_true', decide_eq_true_eq] at h
    obtain ⟨⟨hcontrol, hnone⟩, hlines⟩ := h
    refine ⟨?_, fun c hc => ?_⟩
    · rintro rfl
      exact hbasic rfl
    · have hmark : '\'' ∉ s := (runsWithin_of_longestRun_le (Nat.le_of_eq hnone)).notMem
      rcases hliteral c hc hcontrol with rfl | hc' | rfl
      · exact absurd hc hmark
      · exact hc'
      · rw [List.contains_iff_mem.2 hc] at hlines
        cases hlines
  split
  · trivial
  split
  · next h =>
    simp only [Bool.and_eq_true, Bool.not_eq_true', decide_eq_true_eq] at h
    exact ⟨runsWithin_of_longestRun_le h.2, fun c hc => hliteral c hc h.1⟩
  split
  · trivial
  · trivial

/-! ### Reading what was written -/

/-- A string on one line is none of several lines. -/
theorem readString_of_single {q : Char} (h : ∀ u, t ≠ q :: q :: u) :
    readString (q :: t) = readLine (q :: t) := by
  rw [readString]
  · intro rest he
    cases he
    exact h rest rfl
  · intro rest he
    cases he
    exact h rest rfl

/-- The text after the opening of a string of several lines. -/
theorem dropNewline_opening (h : ∀ d ∈ t.head?, d ≠ '\r' ∧ (d = '\n' → '\n' ∈ s)) :
    dropNewline ((if s.contains '\n' then ['\n'] else []) ++ t) = t := by
  by_cases hlines : s.contains '\n' = true
  · rw [if_pos hlines]
    rfl
  · rw [if_neg hlines, List.nil_append]
    cases t with
    | nil => rfl
    | cons d t =>
        obtain ⟨hreturn, hline⟩ := h d rfl
        have hne : d ≠ '\n' := fun he => hlines (List.contains_iff_mem.2 (hline he))
        simp [dropNewline, newline, hreturn, hne]

/-- The text after the opening, as far as its closing, is read back. -/
theorem ReadsLines.read_opening {one : Char → List Char → Prop}
    {read : Nat → List Char → Reader String}
    (hread : ReadsLines mark one read) (h : Written mark one 0 s t)
    (hmark : mark ≠ '\r' ∧ mark ≠ '\n')
    (hrest : rest.head? ≠ some mark) (hfuel : t.length < fuel) :
    read fuel [] (dropNewline ((if s.contains '\n' then ['\n'] else []) ++
      (t ++ (List.replicate 3 mark ++ rest)))) = some (String.ofList s, rest) := by
  have hhead :
      ∀ d ∈ (t ++ (List.replicate 3 mark ++ rest)).head?, d ≠ '\r' ∧ (d = '\n' → '\n' ∈ s) := by
    intro d hd
    cases h with
    | nil =>
        cases hd
        exact ⟨hmark.1, fun he => absurd he hmark.2⟩
    | mark h =>
        cases hd
        exact ⟨hmark.1, fun he => absurd he hmark.2⟩
    | char hrun hc h =>
        obtain ⟨e, u, rfl, -, hreturn, hline⟩ := hread.front hc
        cases hd
        exact ⟨hreturn, fun he => by rw [hline he]; exact List.mem_cons_self⟩
  rw [dropNewline_opening hhead]
  exact hread.read_eq h hrest hfuel

/-- **A text is read back from every form that holds it.** -/
theorem readString_render {f : Form} (hf : f.Fits s) (hquote : rest.head? ≠ some '"')
    (hapostrophe : rest.head? ≠ some '\'') :
    readString (f.render s ++ rest) = some (String.ofList s, rest) := by
  cases f with
  | basic =>
      have hsingle : ∀ u, escapeText false 0 0 s ++ '"' :: rest ≠ '"' :: '"' :: u := by
        intro u he
        cases s with
        | nil =>
            cases he
            exact hquote rfl
        | cons c s =>
            obtain ⟨w, hw, hcons⟩ := escapeText_cons c s 0
            obtain ⟨d, v, rfl, hd, -⟩ := hw.exists_cons
            rw [hcons, List.cons_append, List.cons_append] at he
            exact hd (List.cons.inj he).1
      rw [Form.render, List.cons_append, List.append_assoc, List.singleton_append,
        readString_of_single hsingle, readLine,
        basicOnto_escapeText (by rw [List.length_append]; omega)]
      rfl
  | literal =>
      obtain ⟨hne, hs⟩ := hf
      have hsingle : ∀ u, s ++ '\'' :: rest ≠ '\'' :: '\'' :: u := by
        intro u he
        obtain ⟨c, s, rfl⟩ := List.exists_cons_of_ne_nil hne
        obtain rfl := (List.cons.inj he).1
        exact absurd (hs '\'' List.mem_cons_self) (by decide)
      rw [Form.render, List.cons_append, List.append_assoc, List.singleton_append,
        readString_of_single hsingle, readLine, literal_append hs]
  | basicLines =>
      have hrender : Form.basicLines.render s ++ rest = '"' :: '"' :: '"' ::
          ((if s.contains '\n' then ['\n'] else []) ++
            (escapeText (s.contains '\n') 2 0 s ++ (List.replicate 3 '"' ++ rest))) := by
        simp only [Form.render, List.append_assoc]
        rfl
      rw [hrender, readString]
      exact readsLines_basic.read_opening (written_escapeText _ (by decide)) (by decide) hquote
        (by rw [List.length_append, List.length_append]; omega)
  | literalLines =>
      have hrender : Form.literalLines.render s ++ rest = '\'' :: '\'' :: '\'' ::
          ((if s.contains '\n' then ['\n'] else []) ++ (s ++ (List.replicate 3 '\'' ++ rest))) := by
        simp only [Form.render, List.append_assoc]
        rfl
      rw [hrender, readString]
      exact readsLines_literal.read_opening (written_literal hf.1 hf.2) (by decide) hapostrophe
        (by rw [List.length_append, List.length_append]; omega)

/-- **What is written as a string is read back**, whatever follows it but another mark. -/
theorem readString_renderString {s : String} (hquote : rest.head? ≠ some '"')
    (hapostrophe : rest.head? ≠ some '\'') :
    readString (renderString s ++ rest) = some (s, rest) := by
  rw [renderString, readString_render (Form.fits_choose s.toList) hquote hapostrophe,
    String.ofList_toList]

end LateBinding.Toml
