import LateBinding.Pin.Pem

/-!
**What sections a text holds.**

The rules for armoured sections are stated here by themselves, apart from the reader that goes
through a text once and keeps what is open. Lines hold sections if they are lines outside, whole
sections, and sections that were given up because another one begins, one after the other; a text
holds the sections that its lines hold. The reader finds **exactly these sections, in order**, and
where it fails the text holds none. So a text that ends with a line and another one behind it hold
the sections of both.

Main definitions:

* `LateBinding.Pem.Lines` — the lines of a text;
* `LateBinding.Pem.Opens`, `LateBinding.Pem.Closes`, `LateBinding.Pem.IsBody` — what a line does to
  a section;
* `LateBinding.Pem.Holds` — **the sections that lines hold**;
* `LateBinding.Pem.IsArmoured` — the sections that a text holds.

Main results:

* `LateBinding.Pem.lines_eq_iff` — every text has one list of lines;
* `LateBinding.Pem.Holds.readOn`, `LateBinding.Pem.exists_holds` — the reader follows the rules, and
  only these;
* `LateBinding.Pem.sections?_eq_some_iff`, `LateBinding.Pem.sections?_eq_none_iff` — **what is read
  of a text**;
* `LateBinding.Pem.IsArmoured.append_iff` — a text behind another one.
-/

set_option autoImplicit false

namespace LateBinding.Pem

/-! ### Lines -/

/-- The lines of a text: each goes up to the next line end, and what stands behind the last line end
is a line if it is anything. -/
inductive Lines : List Char → List (List Char) → Prop
  | nothing : Lines [] []
  | unended {line : List Char} (hne : line ≠ []) (hplain : ∀ c ∈ line, endsLine c = false) :
      Lines line [line]
  | ended {line rest : List Char} {ls : List (List Char)} {c : Char}
      (hplain : ∀ c ∈ line, endsLine c = false)
      (hc : endsLine c = true) (hrest : Lines rest ls) :
      Lines (line ++ c :: rest) ((line ++ [c]) :: ls)

variable {s t : List Char} {ls ms : List (List Char)}

/-- One character more: the lines that are done, and the characters of the one that is not, newest
first. -/
def gather (r : List (List Char) × List Char) (c : Char) : List (List Char) × List Char :=
  if endsLine c then ((c :: r.2).reverse :: r.1, []) else (r.1, c :: r.2)

/-- The lines when there are no more characters. -/
def gathered (r : List (List Char) × List Char) : List (List Char) :=
  (if r.2.isEmpty then r.1 else r.2.reverse :: r.1).reverse

theorem lines_eq_gathered (s : List Char) : lines s = gathered (s.foldl gather ([], [])) := rfl

/-- The characters of a line up to its end are kept. -/
theorem foldl_gather_plain {line : List Char} (hplain : ∀ c ∈ line, endsLine c = false)
    (done : List (List Char)) (now : List Char) :
    line.foldl gather (done, now) = (done, line.reverse ++ now) := by
  induction line generalizing now with
  | nil => rfl
  | cons c line ih =>
      obtain ⟨hc, hplain⟩ := List.forall_mem_cons.1 hplain
      rw [List.foldl_cons, gather, hc, if_neg Bool.false_ne_true, ih hplain, List.reverse_cons,
        List.append_assoc]
      rfl

/-- Going through a text adds its lines to those that are done. -/
theorem Lines.gathered_foldl (h : Lines s ls) (done : List (List Char)) :
    gathered (s.foldl gather (done, [])) = done.reverse ++ ls := by
  induction h generalizing done with
  | nothing => simp [gathered]
  | unended hne hplain => simp [foldl_gather_plain hplain, gathered, hne]
  | @ended line rest ls c hplain hc hrest ih =>
      have hgather : gather (done, line.reverse) c = ((line ++ [c]) :: done, []) := by
        simp [gather, hc]
      rw [List.foldl_append, foldl_gather_plain hplain, List.append_nil, List.foldl_cons, hgather,
        ih, List.reverse_cons, List.append_assoc]
      rfl

theorem Lines.lines_eq (h : Lines s ls) : lines s = ls :=
  (lines_eq_gathered s).trans (h.gathered_foldl [])

/-- Every text has lines: a character is a line by itself, or it belongs to the first of the lines
behind it. -/
theorem exists_lines (s : List Char) : ∃ ls, Lines s ls := by
  induction s with
  | nil => exact ⟨[], .nothing⟩
  | cons c s ih =>
      obtain ⟨ls, hls⟩ := ih
      cases hc : endsLine c with
      | true => exact ⟨[c] :: ls, @Lines.ended [] s ls c (by simp) hc hls⟩
      | false =>
          cases hls with
          | nothing => exact ⟨[[c]], .unended (by simp) (by simp [hc])⟩
          | unended hne hplain =>
            exact ⟨[c :: s], .unended (by simp) (List.forall_mem_cons.2 ⟨hc, hplain⟩)⟩
          | @ended line rest ls d hplain hd hrest =>
              have hplain' : ∀ x ∈ c :: line, endsLine x = false :=
                List.forall_mem_cons.2 ⟨hc, hplain⟩
              exact ⟨(c :: line ++ [d]) :: ls, .ended hplain' hd hrest⟩

/-- **Every text has one list of lines.** -/
theorem lines_eq_iff : lines s = ls ↔ Lines s ls := by
  constructor
  · rintro rfl
    obtain ⟨ls, hls⟩ := exists_lines s
    rwa [hls.lines_eq]
  · exact Lines.lines_eq

/-- A text is at its end, or at that of a line: what follows begins a line. -/
def IsEnded (s : List Char) : Prop := ∀ c ∈ s.getLast?, endsLine c = true

theorem isEnded_of_getLast? {c : Char} (hs : s.getLast? = some c) (hc : endsLine c = true) :
    IsEnded s := by
  intro d hd
  rw [hs, Option.mem_some_iff] at hd
  rwa [← hd]

/-- Behind a text that is at the end of a line come the lines of what follows. -/
theorem Lines.append (hs : Lines s ls) (ht : Lines t ms) (hended : IsEnded s) :
    Lines (s ++ t) (ls ++ ms) := by
  induction hs with
  | nothing => exact ht
  | unended hne hplain =>
      have hlast := hended _ (List.getLast?_eq_some_getLast hne)
      rw [hplain _ (List.getLast_mem hne)] at hlast
      cases hlast
  | @ended line rest ls c hplain hc hrest ih =>
      rw [List.append_assoc, List.cons_append, List.cons_append]
      refine .ended hplain hc (ih ?_)
      intro d hd
      refine hended d ?_
      rw [List.getLast?_append, List.getLast?_cons]
      simp [Option.mem_def.1 hd]

/-! ### Sections -/

/-- A line begins a section with a label: at its end stand dashes and blanks, five dashes in all,
and the label goes up to the first of these dashes. -/
def Opens (line label : List Char) : Prop :=
  ∃ core tail, line = opening ++ core ++ tail ∧ (∀ c ∈ core.getLast?, isTail c = false) ∧
    (∀ c ∈ tail, isTail c = true) ∧ tail.count '-' = 5 ∧ label = core ++ tail.takeWhile (· != '-')

/-- A line ends the section that is open. -/
def Closes (line label : List Char) : Prop := (closingOf label).isPrefixOf line = true

/-- A line belongs to the body of the section that is open: it neither begins a section nor ends
this one. -/
def IsBody (line label : List Char) : Prop :=
  isOpening line = false ∧ (closingOf label).isPrefixOf line = false

/-- The sections that lines hold, in order. -/
inductive Holds : List (List Char) → List Section → Prop
  | nothing : Holds [] []
  | outside {line : List Char} {rest : List (List Char)} {ss : List Section}
      (hline : isOpening line = false)
      (hrest : Holds rest ss) : Holds (line :: rest) ss
  | whole {first last label : List Char} {body rest : List (List Char)} {content : List UInt8}
      {ss : List Section} (hfirst : Opens first label) (hbody : ∀ line ∈ body, IsBody line label)
      (hlast : Closes last label) (hcontent : Base64.decodeLenient? body.flatten = some content)
      (hrest : Holds rest ss) : Holds (first :: (body ++ last :: rest)) (⟨label, content⟩ :: ss)
  | givenUp {first next label : List Char} {body rest : List (List Char)} {ss : List Section}
      (hfirst : Opens first label) (hbody : ∀ line ∈ body, IsBody line label)
        (hnext : isOpening next = true)
      (hrest : Holds (next :: rest) ss) : Holds (first :: (body ++ next :: rest)) ss

/-- The sections that a text holds, in order. -/
def IsArmoured (s : List Char) (ss : List Section) : Prop := ∃ ls, Lines s ls ∧ Holds ls ss

variable {done ss ts : List Section} {line label : List Char} {body rest : List (List Char)}

/-- A line that ends a section begins none. -/
theorem Closes.isOpening (h : Closes line label) : isOpening line = false := by
  obtain ⟨rest, rfl⟩ := List.isPrefixOf_iff_prefix.1 h
  rfl

/-! ### Labels -/

/-- The label of a line that is cut where the dashes and blanks at its end begin. -/
theorem label?_append {front tail : List Char} (hfront : ∀ c ∈ front.getLast?, isTail c = false)
    (htail : ∀ c ∈ tail, isTail c = true) :
    label? (front ++ tail) =
      if tail.count '-' = 5 then some ((front ++ tail.takeWhile (· != '-')).drop opening.length)
      else none := by
  have hstop : front.reverse.takeWhile isTail = [] := by
    cases hrev : front.reverse with
    | nil => rfl
    | cons c cs =>
        have hlast : c ∈ front.getLast? := by simp [← List.head?_reverse, hrev]
        simp [hfront c hlast]
  have htaken : (front ++ tail).reverse.takeWhile isTail = tail.reverse := by
    rw [List.reverse_append, List.takeWhile_append_of_pos (by simpa using htail), hstop,
      List.append_nil]
  have hcount : (tail.reverse.filter (· == '-')).length = tail.count '-' := by
    rw [← List.count_eq_length_filter, List.count_reverse]
  -- what is left of the line when its end is cut off at the first dash
  have htake : (front ++ tail).take ((front ++ tail).length - (tail.dropWhile (· != '-')).length) =
      front ++ tail.takeWhile (· != '-') := by
    have hsplit :
        front ++ tail = front ++ tail.takeWhile (· != '-') ++ tail.dropWhile (· != '-') := by
      rw [List.append_assoc, List.takeWhile_append_dropWhile]
    rw [hsplit, List.length_append, Nat.add_sub_cancel, List.take_left]
  rw [label?]
  simp only [htaken, hcount, List.reverse_reverse, htake]

/-- The label of a line that begins a section. -/
theorem label?_opening {core tail : List Char} (hcore : ∀ c ∈ core.getLast?, isTail c = false)
    (htail : ∀ c ∈ tail, isTail c = true) :
    label? (opening ++ core ++ tail) =
      if tail.count '-' = 5 then some (core ++ tail.takeWhile (· != '-')) else none := by
  by_cases hnil : core = []
  · -- the blank of the opening belongs to the end of the line
    subst hnil
    have htail' : ∀ c ∈ ' ' :: tail, isTail c = true := List.forall_mem_cons.2 ⟨rfl, htail⟩
    have hfront : ∀ c ∈ "-----BEGIN".toList.getLast?, isTail c = false := by
      intro c hc
      obtain rfl : 'N' = c := by simpa using hc
      rfl
    have hlabel := label?_append hfront htail'
    exact hlabel
  · have hlast : ∀ c ∈ (opening ++ core).getLast?, isTail c = false := by
      rwa [List.getLast?_append, List.getLast?_eq_some_getLast hnil, Option.some_or,
        ← List.getLast?_eq_some_getLast hnil]
    rw [label?_append hlast htail, List.append_assoc, List.drop_left]

/-- Every text can be cut where the dashes and blanks at its end begin. -/
theorem exists_tail (s : List Char) :
    ∃ core tail, s = core ++ tail ∧ (∀ c ∈ core.getLast?, isTail c = false) ∧
      ∀ c ∈ tail, isTail c = true := by
  induction s with
  | nil => exact ⟨[], [], rfl, by simp, by simp⟩
  | cons c s ih =>
      obtain ⟨core, tail, rfl, hcore, htail⟩ := ih
      cases core with
      | cons d core => exact ⟨c :: d :: core, tail, rfl, by simpa using hcore, htail⟩
      | nil =>
          cases hc : isTail c with
          | true => exact ⟨[], c :: tail, rfl, by simp, List.forall_mem_cons.2 ⟨hc, htail⟩⟩
          | false => exact ⟨[c], tail, rfl, by simp [hc], htail⟩

/-- **The label that is found** is the one that the line begins a section with. -/
theorem opens_iff : Opens line label ↔ isOpening line = true ∧ label? line = some label := by
  constructor
  · rintro ⟨core, tail, rfl, hcore, htail, hcount, rfl⟩
    refine ⟨?_, by rw [label?_opening hcore htail, if_pos hcount]⟩
    rw [List.append_assoc]
    exact List.isPrefixOf_iff_prefix.2 (List.prefix_append _ _)
  · rintro ⟨hopen, hlabel⟩
    obtain ⟨rest, rfl⟩ := List.isPrefixOf_iff_prefix.1 hopen
    obtain ⟨core, tail, rfl, hcore, htail⟩ := exists_tail rest
    rw [← List.append_assoc, label?_opening hcore htail, Option.ite_none_right_eq_some] at hlabel
    obtain ⟨hcount, hlabel⟩ := hlabel
    exact ⟨core, tail, (List.append_assoc ..).symm, hcore, htail, hcount,
      (Option.some.inj hlabel).symm⟩

/-! ### The reader -/

theorem readOn_outside (hline : isOpening line = false) :
    readOn done none (line :: rest) = readOn done none rest := by
  simp [readOn, hline]

theorem readOn_opens (h : Opens line label) (o : Option Open) :
    readOn done o (line :: rest) = readOn done (some ⟨label, []⟩) rest := by
  obtain ⟨hopen, hlabel⟩ := opens_iff.1 h
  cases o <;> simp [readOn, hopen, hlabel]

/-- A line that begins a section without a label cannot be read. -/
theorem readOn_unlabelled (hopen : isOpening line = true) (hlabel : label? line = none)
    (o : Option Open) : readOn done o (line :: rest) = none := by
  cases o <;> simp [readOn, hopen, hlabel]

/-- A line of the body is kept. -/
theorem readOn_kept (h : IsBody line label) (before : List (List Char)) :
    readOn done (some ⟨label, before⟩) (line :: rest) =
      readOn done (some ⟨label, line :: before⟩) rest := by
  simp [readOn, h.1, h.2]

/-- The end of a section gives the section if its body is base64, and nothing at all if it is
not. -/
theorem readOn_closes (h : Closes line label) (body : List (List Char)) :
    readOn done (some ⟨label, body.reverse⟩) (line :: rest) =
      (Base64.decodeLenient? body.flatten).bind fun content =>
        readOn (⟨label, content⟩ :: done) none rest := by
  have hcloses : (closingOf label).isPrefixOf line = true := h
  cases hcontent : Base64.decodeLenient? body.flatten <;>
    simp [readOn, h.isOpening, hcloses, hcontent]

/-- The lines of a body are gathered. -/
theorem readOn_body (hbody : ∀ line ∈ body, IsBody line label) (before : List (List Char)) :
    readOn done (some ⟨label, before⟩) (body ++ rest) =
      readOn done (some ⟨label, body.reverse ++ before⟩) rest := by
  induction body generalizing before with
  | nil => rfl
  | cons line body ih =>
      obtain ⟨hline, hbody⟩ := List.forall_mem_cons.1 hbody
      rw [List.cons_append, readOn_kept hline, ih hbody, List.reverse_cons, List.append_assoc]
      rfl

/-- **The reader finds what lines hold**, and goes on behind them with nothing open. -/
theorem Holds.readOn (h : Holds ls ss) (done : List Section) (rest : List (List Char)) :
    Pem.readOn done none (ls ++ rest) = Pem.readOn (ss.reverse ++ done) none rest := by
  induction h generalizing done with
  | nothing => rfl
  | outside hline _ ih => rw [List.cons_append, readOn_outside hline, ih]
  | @whole first last label body after content ss hfirst hbody hlast hcontent _ ih =>
      rw [List.cons_append, readOn_opens hfirst, List.append_assoc, readOn_body hbody,
        List.append_nil, List.cons_append, readOn_closes hlast, hcontent, Option.bind_some, ih,
        List.reverse_cons, List.append_assoc]
      rfl
  | @givenUp first next label body after ss hfirst hbody hnext _ ih =>
      rw [List.cons_append, readOn_opens hfirst, List.append_assoc, readOn_body hbody, ← ih]
      -- the line that begins the next section is read alike, whether one is open or not
      cases hlabel : label? next with
      | none =>
        rw [List.cons_append, readOn_unlabelled hnext hlabel, readOn_unlabelled hnext hlabel]
      | some label' =>
          have hopens : Opens next label' := opens_iff.2 ⟨hnext, hlabel⟩
          rw [List.cons_append, readOn_opens hopens, readOn_opens hopens]

/-- **The reader finds nothing else.** A section that is open stands for its first line and its
body. -/
theorem exists_holds {o : Option Open} (hread : readOn done o ls = some ts)
    (before : List (List Char))
    (ho : (o = none ∧ before = []) ∨ ∃ first label body, o = some ⟨label, body.reverse⟩ ∧
      before = first :: body ∧ Opens first label ∧ ∀ line ∈ body, IsBody line label) :
    ∃ ss, Holds (before ++ ls) ss ∧ ts = done.reverse ++ ss := by
  induction ls generalizing done o before with
  | nil =>
      obtain ⟨rfl, rfl⟩ | ⟨first, label, body, rfl, rfl, -⟩ := ho
      · rw [readOn, Option.some.injEq] at hread
        exact ⟨[], .nothing, by simp [hread]⟩
      · cases hread
  | cons line rest ih =>
      cases hopen : isOpening line with
      | true =>
          cases hlabel : label? line with
          | none =>
              rw [readOn_unlabelled hopen hlabel] at hread
              cases hread
          | some label =>
              have hopens : Opens line label := opens_iff.2 ⟨hopen, hlabel⟩
              rw [readOn_opens hopens] at hread
              obtain ⟨ss, hss, hts⟩ :=
                ih hread [line] (.inr ⟨line, label, [], rfl, rfl, hopens, by simp⟩)
              obtain ⟨-, rfl⟩ | ⟨first, label', body, -, rfl, hfirst, hbody⟩ := ho
              · exact ⟨ss, hss, hts⟩
              · exact ⟨ss, .givenUp hfirst hbody hopen hss, hts⟩
      | false =>
          obtain ⟨rfl, rfl⟩ | ⟨first, label, body, rfl, rfl, hfirst, hbody⟩ := ho
          · rw [readOn_outside hopen] at hread
            obtain ⟨ss, hss, hts⟩ := ih hread [] (.inl ⟨rfl, rfl⟩)
            exact ⟨ss, .outside hopen hss, hts⟩
          · cases hclose : (closingOf label).isPrefixOf line with
            | true =>
                rw [readOn_closes hclose, Option.bind_eq_some_iff] at hread
                obtain ⟨content, hcontent, hread⟩ := hread
                obtain ⟨ss, hss, hts⟩ := ih hread [] (.inl ⟨rfl, rfl⟩)
                exact ⟨⟨label, content⟩ :: ss, .whole hfirst hbody hclose hcontent hss,
                  by simp [hts]⟩
            | false =>
                have hline : IsBody line label := ⟨hopen, hclose⟩
                rw [readOn_kept hline] at hread
                obtain ⟨ss, hss, hts⟩ := ih hread (first :: (body ++ [line]))
                  (.inr ⟨first, label, body ++ [line], by simp, rfl, hfirst, by
                    simpa [or_imp, forall_and] using ⟨hbody, hline⟩⟩)
                exact ⟨ss, by simpa using hss, hts⟩

theorem readOn_eq_some_iff : readOn [] none ls = some ss ↔ Holds ls ss := by
  constructor
  · intro hread
    obtain ⟨ts, hts, rfl⟩ := exists_holds hread [] (.inl ⟨rfl, rfl⟩)
    exact hts
  · intro h
    have hread := h.readOn [] []
    rwa [List.append_nil, List.append_nil, readOn, List.reverse_reverse] at hread

/-- **What is read of a text** are the sections that it holds. -/
theorem sections?_eq_some_iff : sections? s = some ss ↔ IsArmoured s ss := by
  rw [sections?, readOn_eq_some_iff]
  constructor
  · intro h
    exact ⟨lines s, lines_eq_iff.1 rfl, h⟩
  · rintro ⟨ls, hls, h⟩
    rwa [hls.lines_eq]

/-- Where nothing is read, the text breaks the rules. -/
theorem sections?_eq_none_iff : sections? s = none ↔ ∀ ss, ¬IsArmoured s ss := by
  simp only [← sections?_eq_some_iff, Option.eq_none_iff_forall_ne_some]

/-! ### One text behind another -/

theorem Holds.append_iff (h : Holds ls ss) :
    Holds (ls ++ ms) ts ↔ ∃ us, Holds ms us ∧ ts = ss ++ us := by
  rw [← readOn_eq_some_iff, h.readOn]
  constructor
  · intro hread
    obtain ⟨us, hus, rfl⟩ := exists_holds hread [] (.inl ⟨rfl, rfl⟩)
    exact ⟨us, hus, by simp⟩
  · rintro ⟨us, hus, rfl⟩
    have hread := hus.readOn (ss.reverse ++ []) []
    rw [List.append_nil ms, Pem.readOn] at hread
    simpa using hread

/-- **A text that ends with a line and another one behind it** hold the sections of both; they break
the rules if the second one does. -/
theorem IsArmoured.append_iff (h : IsArmoured s ss) (hended : IsEnded s) :
    IsArmoured (s ++ t) ts ↔ ∃ us, IsArmoured t us ∧ ts = ss ++ us := by
  obtain ⟨ls, hls, hss⟩ := h
  constructor
  · rintro ⟨ks, hks, hts⟩
    obtain ⟨ms, hms⟩ := exists_lines t
    obtain rfl : ls ++ ms = ks := by rw [← (hls.append hms hended).lines_eq, hks.lines_eq]
    obtain ⟨us, hus, rfl⟩ := hss.append_iff.1 hts
    exact ⟨us, ⟨ms, hms, hus⟩, rfl⟩
  · rintro ⟨us, ⟨ms, hms, hus⟩, rfl⟩
    exact ⟨ls ++ ms, hls.append hms hended, hss.append_iff.2 ⟨us, hus, rfl⟩⟩

end LateBinding.Pem
