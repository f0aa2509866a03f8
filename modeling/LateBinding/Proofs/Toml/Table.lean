import LateBinding.Proofs.Toml.Values
import LateBinding.Toml.Document

/-!
**A document of one table is read back.**

A table is written as its header and a line for each of its entries: a bare key, and a text that is
read as a value. Whatever these values are, the document is read as the table of these entries, in
their order, if no key stands twice.

Main definitions:

* `LateBinding.Toml.IsBareKey` — keys that need no marks;
* `LateBinding.Toml.Line` — **a line of a table**, with what its text is read as;
* `LateBinding.Toml.renderTable` — a table as it is written;
* `LateBinding.Toml.inTable` — how far a document of one table is read.

Main results:

* `LateBinding.Toml.readKey_bare`, `LateBinding.Toml.Line.readEntry_render` — a key, and an entry;
* `LateBinding.Toml.readStatement_header`, `LateBinding.Toml.readStatement_line` — what one
  statement does;
* `LateBinding.Toml.readLines_lines` — what the lines of a table do;
* `LateBinding.Toml.parse?_renderTable` — **the document is the table**.
-/

set_option autoImplicit false

namespace LateBinding.Toml

variable {c : Char} {t rest : List Char} {fuel : Nat}

/-! ### Lines -/

/-- A key of one part without marks. -/
structure IsBareKey (k : List Char) : Prop where
  ne_nil : k ≠ []
  bare : ∀ c ∈ k, isBare c = true

theorem isFiller_of_isBare (hc : isBare c = true) : isFiller c = false := by
  simp only [isFiller, isBlank, Bool.or_eq_false_iff, beq_eq_false_iff_ne]
  exact ⟨⟨⟨⟨ne_of_class hc (by decide), ne_of_class hc (by decide)⟩, ne_of_class hc (by decide)⟩,
    ne_of_class hc (by decide)⟩, ne_of_class hc (by decide)⟩

/-- A bare key begins with a character of its own. -/
theorem IsBareKey.exists_cons {k : List Char} (hk : IsBareKey k) :
    ∃ d u, k = d :: u ∧ isBare d = true := by
  obtain ⟨d, u, rfl⟩ := List.exists_cons_of_ne_nil hk.ne_nil
  exact ⟨d, u, rfl, hk.bare d List.mem_cons_self⟩

/-- A part of a key without marks goes up to what cannot belong to it. -/
theorem readKeyPart_bare {k : List Char} (hk : IsBareKey k) (ht : isBare c = false) :
    readKeyPart (k ++ c :: t) = some (String.ofList k, c :: t) := by
  have htake : (k ++ c :: t).takeWhile isBare = k := by
    rw [List.takeWhile_append_of_pos hk.bare, List.takeWhile_cons_of_neg (by simp [ht]),
      List.append_nil]
  have hdrop : (k ++ c :: t).dropWhile isBare = c :: t := by
    rw [List.dropWhile_append_of_pos hk.bare, List.dropWhile_cons_of_neg (by simp [ht])]
  obtain ⟨d, u, he, hd⟩ := hk.exists_cons
  have hhead : ∀ {q : Char} {v : List Char}, isBare q = false → k ++ c :: t ≠ q :: v := by
    intro q v hq hmark
    rw [he, List.cons_append] at hmark
    exact ne_of_class hd hq (List.cons.inj hmark).1
  unfold readKeyPart
  split
  · next hquote => exact absurd hquote (hhead (by decide))
  · next hquote => exact absurd hquote (hhead (by decide))
  · rw [htake, hdrop]
    split
    · exact absurd rfl hk.ne_nil
    · rfl

/-- A bare key is read up to what cannot belong to it. -/
theorem readKey_bare {k : List Char} (hk : IsBareKey k) (ht : isBare c = false)
    (hdot : (skipBlank (c :: t)).head? ≠ some '.') :
    readKey (k ++ c :: t) = some ([String.ofList k], skipBlank (c :: t)) := by
  have hblank : skipBlank (k ++ c :: t) = k ++ c :: t := by
    obtain ⟨d, u, he, hd⟩ := hk.exists_cons
    rw [he]
    exact skipBlank_cons (isBlank_of_not_isFiller (isFiller_of_isBare hd))
  have hparts : readKeyParts ((k ++ c :: t).length + 1) [] (k ++ c :: t) =
      some ([String.ofList k], skipBlank (c :: t)) := by
    rw [readKeyParts, hblank, readKeyPart_bare hk ht]
    dsimp only
    split
    · next hdot' =>
      rw [hdot'] at hdot
      exact absurd rfl hdot
    · rfl
  rw [readKey, hparts]
  rfl

/-- A line of a table: a bare key, and a text that is read as a value. -/
structure Line where
  key : List Char
  text : List Char
  value : Toml
  isBareKey : IsBareKey key
  front : ∃ c t, text = c :: t ∧ isBlank c = false
  reads : ∀ rest, readValue (depthLimit - 1) (text ++ '\n' :: rest) = some (value, '\n' :: rest)

namespace Line

/-- A line as it is written. -/
def render (l : Line) : List Char := l.key ++ [' ', '=', ' '] ++ l.text ++ ['\n']

/-- The entry that a line makes. -/
def entry (l : Line) : String × Toml := (String.ofList l.key, l.value)

theorem exists_cons (l : Line) (rest : List Char) :
    ∃ d u, l.render ++ rest = d :: u ∧ isBare d = true := by
  obtain ⟨d, u, hkey, hd⟩ := l.isBareKey.exists_cons
  refine ⟨d, u ++ ([' ', '=', ' '] ++ l.text ++ ['\n'] ++ rest), ?_, hd⟩
  simp [render, hkey]

/-- **A line is read as its entry.** -/
theorem readEntry_render (l : Line) (rest : List Char) :
    readEntry (readValue (depthLimit - 1)) (l.render ++ rest) =
      some (([], l.entry.1, l.value), '\n' :: rest) := by
  obtain ⟨d, u, hfront, hd⟩ := l.front
  have htext : l.render ++ rest = l.key ++ ' ' :: '=' :: ' ' :: (l.text ++ '\n' :: rest) := by
    simp [render]
  have hblank : skipBlank (' ' :: (l.text ++ '\n' :: rest)) = l.text ++ '\n' :: rest := by
    rw [hfront]
    exact skipBlank_cons hd
  have hkey : readKey (l.key ++ ' ' :: '=' :: ' ' :: (l.text ++ '\n' :: rest)) =
      some ([String.ofList l.key], '=' :: ' ' :: (l.text ++ '\n' :: rest)) :=
    readKey_bare l.isBareKey (by decide) (by simp [skipBlank, isBlank])
  rw [htext, readEntry, hkey]
  simp only [Option.bind_eq_bind, Option.bind_some, splitLast]
  rw [hblank, l.reads]
  rfl

end Line

/-! ### A table -/

theorem lineEnd_newline : lineEnd ('\n' :: rest) = some rest := rfl

/-- A statement is read from where it begins. -/
theorem readLines_of_readStatement {r r' : Reading} {s : List Char} (hc : isFiller c = false)
    (h : readStatement r (c :: t) = some (r', s)) :
    readLines (fuel + 1) r (c :: t) = readLines fuel r' s := by
  have hhash : c ≠ '#' := ne_of_not_isFiller hc (by decide)
  have hline : c ≠ '\n' := ne_of_not_isFiller hc (by decide)
  have hreturn : c ≠ '\r' := ne_of_not_isFiller hc (by decide)
  rw [readLines, skipBlank_cons (isBlank_of_not_isFiller hc)]
  simp [hline, hreturn, h]

/-- A value is added under a key that is new. -/
theorem addEntry_of_notMem {α : Type} {key : String} {v : α} {es : List (String × α)}
    (h : key ∉ es.map Prod.fst) : addEntry key v es = some (es ++ [(key, v)]) := by
  induction es with
  | nil => rfl
  | cons e es ih =>
      rw [List.map_cons, List.mem_cons, not_or] at h
      rw [addEntry, if_neg (Ne.symm h.1), ih h.2]
      rfl

/-- A document while it is read that has one table, to which entries go. -/
def inTable (name : String) (entries : List (String × Node)) : Reading :=
  ⟨[(name, .table .defined entries)], [name]⟩

/-- A line adds its entry to the table. -/
theorem readStatement_line {name : String} {entries : List (String × Node)} (l : Line)
    (rest : List Char)
    (hnew : l.entry.1 ∉ entries.map Prod.fst) :
    readStatement (inTable name entries) (l.render ++ rest) =
      some (inTable name (entries ++ [(l.entry.1, .value l.value)]), rest) := by
  have hadd := addEntry_of_notMem (v := Node.value l.value) hnew
  have hchange :
      changeAt (insertValue l.entry.1 l.value []) [name] [(name, .table .defined entries)] =
        some [(name, .table .defined (entries ++ [(l.entry.1, .value l.value)]))] := by
    simp [changeAt, alterEntry, insertValue, hadd]
  have hentry := l.readEntry_render rest
  obtain ⟨d, u, hcons, hd⟩ := l.exists_cons rest
  have hbracket : d ≠ '[' := ne_of_class hd (by decide)
  rw [hcons] at hentry ⊢
  rw [readStatement, hentry]
  · simp only [Option.bind_eq_bind, Option.bind_some, lineEnd_newline, inTable]
    rw [hchange]
    rfl
  · intro s he
    exact hbracket (List.cons.inj he).1
  · intro s he
    exact hbracket (List.cons.inj he).1

/-- **The lines of a table are read as its entries.** -/
theorem readLines_lines {name : String} {lines : List Line} {entries : List (String × Node)}
    (hnew : (entries.map Prod.fst ++ lines.map fun l => l.entry.1).Nodup)
    (hfuel : (lines.flatMap Line.render).length < fuel) :
    readLines fuel (inTable name entries) (lines.flatMap Line.render) =
      some (inTable name (entries ++ lines.map fun l => (l.entry.1, .value l.value))) := by
  induction lines generalizing entries fuel with
  | nil =>
      obtain ⟨fuel, rfl⟩ : ∃ n, fuel = n + 1 := ⟨fuel - 1, by omega⟩
      rw [List.map_nil, List.append_nil]
      rfl
  | cons l lines ih =>
      obtain ⟨fuel, rfl⟩ : ∃ n, fuel = n + 1 := ⟨fuel - 1, by omega⟩
      have hrender : 0 < l.render.length := by
        rw [Line.render, List.length_append]
        exact Nat.succ_pos _
      rw [List.flatMap_cons, List.length_append] at hfuel
      have hl : l.entry.1 ∉ entries.map Prod.fst := by
        rw [List.map_cons, List.nodup_append] at hnew
        exact fun hmem => hnew.2.2 _ hmem _ List.mem_cons_self rfl
      have hstatement :
          readStatement (inTable name entries) (l.render ++ lines.flatMap Line.render) = _ :=
        readStatement_line l _ hl
      obtain ⟨d, u, hcons, hd⟩ := l.exists_cons (lines.flatMap Line.render)
      rw [hcons] at hstatement
      rw [List.flatMap_cons, hcons, readLines_of_readStatement (isFiller_of_isBare hd) hstatement,
        ih _ (by omega)]
      · simp
      · simpa using hnew

/-- A header defines its table. -/
theorem readStatement_header {name : List Char} (hname : IsBareKey name) :
    readStatement ⟨[], []⟩ ('[' :: (name ++ ']' :: '\n' :: rest)) =
      some (inTable (String.ofList name) [], rest) := by
  have hkey :
      readKey (name ++ ']' :: '\n' :: rest) = some ([String.ofList name], ']' :: '\n' :: rest) :=
    readKey_bare hname (by decide) (by simp [skipBlank, isBlank])
  have hheader :
      readHeader [']'] (name ++ ']' :: '\n' :: rest) = some (([], String.ofList name), rest) := by
    rw [readHeader, hkey]
    rfl
  obtain ⟨d, u, hcons, hd⟩ := hname.exists_cons
  have hbracket : d ≠ '[' := ne_of_class hd (by decide)
  rw [hcons, List.cons_append] at hheader ⊢
  rw [readStatement, hheader]
  · rfl
  · intro s he
    exact hbracket (List.cons.inj he).1

/-- The entries of a table whose values are finished. -/
theorem finishNodes_lines (lines : List Line) :
    finishNodes (lines.map fun l => (l.entry.1, .value l.value)) = lines.map Line.entry := by
  induction lines with
  | nil => rfl
  | cons l lines ih =>
      rw [List.map_cons, List.map_cons, finishNodes, Node.finish, ih]
      rfl

/-- A table as it is written: its header and its lines. -/
def renderTable (name : List Char) (lines : List Line) : List Char :=
  '[' :: (name ++ ']' :: '\n' :: lines.flatMap Line.render)

/-- **A document of one table is read back.** -/
theorem parse?_renderTable {name : List Char} {lines : List Line} (hname : IsBareKey name)
    (hkeys : (lines.map fun l => l.entry.1).Nodup) :
    parse? (String.ofList (renderTable name lines)) =
      some [(String.ofList name, .table (lines.map Line.entry))] := by
  have hmark : dropMark (renderTable name lines) = renderTable name lines := rfl
  have hheader : readLines ((renderTable name lines).length + 1) ⟨[], []⟩ (renderTable name lines) =
      readLines (renderTable name lines).length (inTable (String.ofList name) [])
        (lines.flatMap Line.render) :=
    readLines_of_readStatement (by decide) (readStatement_header hname)
  have hlength : (lines.flatMap Line.render).length < (renderTable name lines).length := by
    rw [renderTable, List.length_cons, List.length_append, List.length_cons, List.length_cons]
    omega
  rw [parse?, String.toList_ofList, hmark, hheader, readLines_lines (by simpa using hkeys) hlength,
    List.nil_append, Option.map_some, inTable, finishNodes, Node.finish, finishNodes_lines]
  rfl

end LateBinding.Toml
