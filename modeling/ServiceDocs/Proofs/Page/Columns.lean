import Mathlib.Algebra.Group.Nat.Even
import Mathlib.Algebra.GroupWithZero.Nat
import Mathlib.Data.List.Induction
import Mathlib.Tactic.Common
import ServiceDocs.Page.Table
import ServiceDocs.Proofs.Page.Cell

/-!
# Columns of tables

Where a row is shown as a table, a bar separates two cells unless an odd number of backslashes
stands right in front of it. In a cell a backslash is put in front of each bar, and the backslashes
that are there already stay as they are. So a bar that is escaped in a text cuts the cell of the
text in two, and a text with an odd number of backslashes at its end runs into the next cell. All
other texts keep to their cells.
-/

namespace ServiceDocs.Page

/-! ### Cells of a line -/

/-- The number of backslashes in a row next to some place, where `before` are the characters in
front of the place, the nearest one first. -/
def backslashes (before : List Char) : ℕ :=
  (before.takeWhile (· = '\\')).length

/-- The cells of a line behind the characters `before`, the nearest one first. -/
def cellsBehind (before : List Char) : List Char → List (List Char)
  | []      => [[]]
  | c :: cs =>
    if c = '|' ∧ Even (backslashes before) then [] :: cellsBehind (c :: before) cs
    else Text.consHead c (cellsBehind (c :: before) cs)

/-- The cells of a line. -/
def cells (line : String) : List (List Char) :=
  cellsBehind [] line.toList

/-- The number of bars that separate cells. -/
def separators (before : List Char) : List Char → ℕ
  | []      => 0
  | c :: cs =>
    (if c = '|' ∧ Even (backslashes before) then 1 else 0) + separators (c :: before) cs

/-- The number of bars that separate no cells. -/
def escapedBars (before : List Char) : List Char → ℕ
  | []      => 0
  | c :: cs =>
    (if c = '|' ∧ ¬ Even (backslashes before) then 1 else 0) + escapedBars (c :: before) cs

/-- A bar behind the text separates no cells. -/
def EndsInEscape (cs : List Char) : Prop :=
  ¬ Even (backslashes cs.reverse)

instance (cs : List Char) : Decidable (EndsInEscape cs) :=
  inferInstanceAs (Decidable (¬ Even (backslashes cs.reverse)))

/-! ### Backslashes -/

@[simp] lemma backslashes_nil : backslashes [] = 0 := rfl

@[simp] lemma backslashes_cons_self (before : List Char) :
    backslashes ('\\' :: before) = backslashes before + 1 := by
  simp [backslashes]

lemma backslashes_cons_of_ne {c : Char} (hc : c ≠ '\\') (before : List Char) :
    backslashes (c :: before) = 0 := by
  simp [backslashes, hc]

/-- Of what stands in front of a line only this matters: whether the number of backslashes is
even. -/
lemma even_backslashes_cons {before before' : List Char}
    (h : Even (backslashes before) ↔ Even (backslashes before')) (c : Char) :
    Even (backslashes (c :: before)) ↔ Even (backslashes (c :: before')) := by
  by_cases hc : c = '\\'
  · subst hc
    simp only [backslashes_cons_self, Nat.even_add_one, h]
  · simp only [backslashes_cons_of_ne hc]

lemma separators_congr {before before' : List Char}
    (h : Even (backslashes before) ↔ Even (backslashes before')) (cs : List Char) :
    separators before cs = separators before' cs := by
  induction cs generalizing before before' with
  | nil => rfl
  | cons c cs ih => simp only [separators, h, ih (even_backslashes_cons h c)]

lemma cellsBehind_congr {before before' : List Char}
    (h : Even (backslashes before) ↔ Even (backslashes before')) (cs : List Char) :
    cellsBehind before cs = cellsBehind before' cs := by
  induction cs generalizing before before' with
  | nil => rfl
  | cons c cs ih => simp only [cellsBehind, h, ih (even_backslashes_cons h c)]

lemma backslashes_reverse_append {xs : List Char} (hne : xs ≠ []) (h : '\\' ∉ xs)
    (before : List Char) : backslashes (xs.reverse ++ before) = 0 := by
  induction xs using List.reverseRecOn with
  | nil => exact absurd rfl hne
  | append_singleton xs x _ =>
    have hx : x ≠ '\\' := by
      rintro rfl
      exact h (by simp)
    simpa using backslashes_cons_of_ne hx (xs.reverse ++ before)

lemma not_endsInEscape_of_notMem {cs : List Char} (h : '\\' ∉ cs) : ¬ EndsInEscape cs := by
  cases cs with
  | nil => simp [EndsInEscape]
  | cons c cs =>
    have hnone := backslashes_reverse_append (List.cons_ne_nil c cs) h []
    rw [List.append_nil] at hnone
    rw [EndsInEscape, hnone]
    exact not_not_intro Even.zero

/-! ### Separators and cells -/

lemma cellsBehind_ne_nil (before cs : List Char) : cellsBehind before cs ≠ [] := by
  cases cs with
  | nil => simp [cellsBehind]
  | cons c cs =>
    rw [cellsBehind]
    split_ifs
    · simp
    · cases cellsBehind (c :: before) cs <;> simp [Text.consHead]

lemma length_cellsBehind (before cs : List Char) :
    (cellsBehind before cs).length = separators before cs + 1 := by
  induction cs generalizing before with
  | nil => rfl
  | cons c cs ih =>
    rw [cellsBehind, separators]
    split_ifs
    · rw [List.length_cons, ih]
      omega
    · rw [Text.length_consHead c (cellsBehind_ne_nil _ _), ih]
      omega

lemma separators_append (before xs ys : List Char) :
    separators before (xs ++ ys) =
      separators before xs + separators (xs.reverse ++ before) ys := by
  induction xs generalizing before with
  | nil => simp [separators]
  | cons x xs ih => simp [separators, ih, Nat.add_assoc]

/-- Behind a bar a line starts anew; the bar separates cells unless the text in front of it ends in
an escape. -/
lemma separators_append_bar (xs ys : List Char) :
    separators [] (xs ++ '|' :: ys) + (if EndsInEscape xs then 1 else 0) =
      separators [] xs + 1 + separators [] ys := by
  -- The bar itself is no backslash, whether or not it separates cells.
  have hanew : separators ('|' :: xs.reverse) ys = separators [] ys :=
    separators_congr (by simp [backslashes_cons_of_ne]) ys
  rw [separators_append, List.append_nil, separators, hanew]
  by_cases h : Even (backslashes xs.reverse)
  · have hend : ¬ EndsInEscape xs := not_not_intro h
    rw [if_pos ⟨rfl, h⟩, if_neg hend]
    omega
  · have hend : EndsInEscape xs := h
    have hbar : ¬ ('|' = '|' ∧ Even (backslashes xs.reverse)) := fun hand => h hand.2
    rw [if_neg hbar, if_pos hend]
    omega

lemma cellsBehind_append_bar {before xs : List Char}
    (h : Even (backslashes (xs.reverse ++ before))) (ys : List Char) :
    cellsBehind before (xs ++ '|' :: ys) = cellsBehind before xs ++ cellsBehind [] ys := by
  induction xs generalizing before with
  | nil =>
    have hanew : cellsBehind ('|' :: before) ys = cellsBehind [] ys :=
      cellsBehind_congr (by simp [backslashes_cons_of_ne]) ys
    have hbar : '|' = '|' ∧ Even (backslashes before) := ⟨rfl, h⟩
    rw [List.nil_append, cellsBehind.eq_2, if_pos hbar, hanew]
    rfl
  | cons x xs ih =>
    have hrest : cellsBehind (x :: before) (xs ++ '|' :: ys) =
        cellsBehind (x :: before) xs ++ cellsBehind [] ys := ih (by simpa using h)
    rw [List.cons_append, cellsBehind, cellsBehind, hrest]
    split_ifs
    · rfl
    · exact Text.consHead_append x (cellsBehind_ne_nil _ _) _

lemma cellsBehind_of_separators_eq_zero {before cs : List Char} (h : separators before cs = 0) :
    cellsBehind before cs = [cs] := by
  induction cs generalizing before with
  | nil => rfl
  | cons c cs ih =>
    rw [separators, Nat.add_eq_zero_iff] at h
    have hc : ¬ (c = '|' ∧ Even (backslashes before)) := by simpa using h.1
    rw [cellsBehind, if_neg hc, ih h.2]
    rfl

lemma separators_of_notMem {cs : List Char} (h : '|' ∉ cs) (before : List Char) :
    separators before cs = 0 := by
  induction cs generalizing before with
  | nil => rfl
  | cons c cs ih =>
    rw [List.mem_cons, not_or] at h
    simp [separators, ih h.2, Ne.symm h.1]

/-! ### Texts with bars between them -/

lemma join_cons_concat (y : List Char) (ys : List (List Char)) (x : List Char) :
    Text.join ['|'] (y :: ys ++ [x]) = y ++ '|' :: Text.join ['|'] (ys ++ [x]) := by
  obtain ⟨z, zs, hrest⟩ := List.exists_cons_of_ne_nil (show ys ++ [x] ≠ [] by simp)
  simp [hrest, Text.join]

lemma separators_join (xs : List (List Char)) (x : List Char) :
    separators [] (Text.join ['|'] (xs ++ [x])) + xs.countP (fun y => EndsInEscape y) =
      (xs.map (separators [])).sum + xs.length + separators [] x := by
  induction xs with
  | nil => simp [Text.join]
  | cons y ys ih =>
    have hbar := separators_append_bar y (Text.join ['|'] (ys ++ [x]))
    rw [join_cons_concat, List.countP_cons, List.map_cons, List.sum_cons, List.length_cons]
    simp only [decide_eq_true_eq]
    omega

lemma cellsBehind_join {xs : List (List Char)} {x : List Char}
    (hends : ∀ y ∈ xs, ¬ EndsInEscape y) (hxs : ∀ y ∈ xs ++ [x], separators [] y = 0) :
    cellsBehind [] (Text.join ['|'] (xs ++ [x])) = xs ++ [x] := by
  induction xs with
  | nil => exact cellsBehind_of_separators_eq_zero (hxs x (List.mem_singleton_self x))
  | cons y ys ih =>
    rw [List.forall_mem_cons] at hends
    rw [List.cons_append, List.forall_mem_cons] at hxs
    have hy : Even (backslashes (y.reverse ++ [])) := by simpa [EndsInEscape] using hends.1
    rw [join_cons_concat, cellsBehind_append_bar hy, cellsBehind_of_separators_eq_zero hxs.1,
      ih hends.2 hxs.2]
    rfl

/-! ### Escaped texts -/

lemma escaped_of_ne {c : Char} (hbar : c ≠ '|') (hbackslash : c ≠ '\\') :
    escaped escapes c ≠ [] ∧ '|' ∉ escaped escapes c ∧ '\\' ∉ escaped escapes c := by
  rcases escaped_cases escapes c with ⟨e, he, rfl, htext⟩ | ⟨_, hself⟩
  · have hentity : ∀ e ∈ escapes, e.character ≠ '|' →
        e.text ≠ [] ∧ '|' ∉ e.text ∧ '\\' ∉ e.text := by decide
    rw [htext]
    exact hentity e he hbar
  · rw [hself]
    simp [Ne.symm hbar, Ne.symm hbackslash]

/-- An escaped character is followed by an even number of backslashes if the character is, and a
bar in it separates cells if the character is a bar behind an odd number of them. -/
lemma escaped_behind {before before' : List Char}
    (h : Even (backslashes before) ↔ Even (backslashes before')) (c : Char) :
    (Even (backslashes ((escaped escapes c).reverse ++ before)) ↔
        Even (backslashes (c :: before'))) ∧
      separators before (escaped escapes c) =
        if c = '|' ∧ ¬ Even (backslashes before') then 1 else 0 := by
  by_cases hbar : c = '|'
  · -- The backslash that is put in makes an odd number even.
    subst hbar
    have htext : escaped escapes '|' = ['\\', '|'] := rfl
    constructor
    · simp [htext, backslashes_cons_of_ne]
    · simp [htext, separators, Nat.even_add_one, h]
  · by_cases hbackslash : c = '\\'
    · subst hbackslash
      have htext : escaped escapes '\\' = ['\\'] := rfl
      constructor
      · simp [htext, Nat.even_add_one, h]
      · simp [htext, separators]
    · obtain ⟨hne, hnoBar, hnoBackslash⟩ := escaped_of_ne hbar hbackslash
      rw [backslashes_reverse_append hne hnoBackslash, backslashes_cons_of_ne hbackslash,
        separators_of_notMem hnoBar]
      simp [hbar]

lemma flatMap_escaped_behind {before before' : List Char}
    (h : Even (backslashes before) ↔ Even (backslashes before')) (cs : List Char) :
    (Even (backslashes ((cs.flatMap (escaped escapes)).reverse ++ before)) ↔
        Even (backslashes (cs.reverse ++ before'))) ∧
      separators before (cs.flatMap (escaped escapes)) = escapedBars before' cs := by
  induction cs generalizing before before' with
  | nil => exact ⟨h, rfl⟩
  | cons c cs ih =>
    obtain ⟨hbehind, hbars⟩ := escaped_behind h c
    obtain ⟨hrest, hrestBars⟩ := ih hbehind
    constructor
    · simpa using hrest
    · rw [List.flatMap_cons, separators_append, hbars, hrestBars, escapedBars]

/-! ### Rows -/

/-- The number of bars in a text that are escaped already. -/
def cuts (text : String) : ℕ :=
  escapedBars [] (Text.flatten text.toList)

/-- The text ends with an odd number of backslashes, apart from white space. -/
def RunsOn (text : String) : Prop :=
  EndsInEscape (Text.flatten text.toList)

instance (text : String) : Decidable (RunsOn text) :=
  inferInstanceAs (Decidable (EndsInEscape (Text.flatten text.toList)))

lemma separators_cell (text : String) : separators [] (cell text).toList = cuts text := by
  rw [cell, String.toList_ofList, cellChars_eq]
  exact (flatMap_escaped_behind Iff.rfl _).2

lemma endsInEscape_cell {text : String} : EndsInEscape (cell text).toList ↔ RunsOn text := by
  have h : Even (backslashes
        (((Text.flatten text.toList).flatMap (escaped escapes)).reverse ++ [])) ↔
      Even (backslashes ((Text.flatten text.toList).reverse ++ [])) :=
    (flatMap_escaped_behind Iff.rfl _).1
  rw [List.append_nil, List.append_nil] at h
  rw [cell, String.toList_ofList, cellChars_eq]
  exact not_congr h

/-- The first cell of a row: the markers and the name. -/
def nameCell (level : ℕ) (f : Field) : List Char :=
  List.replicate level levelMarker ++ (nameText f).toList

lemma getD_map_cell (text : Option String) : (text.map cell).getD "" = cell (text.getD "") := by
  cases text <;> rfl

/-- The texts between the bars of a row. -/
def rowCells (level : ℕ) (f : Field) : List (List Char) :=
  [nameCell level f, (cell (typeText f)).toList, [if f.required then 'Y' else 'N'],
    (cell (f.range.getD "")).toList, (cell (f.description.getD "")).toList]

lemma toList_row (level : ℕ) (f : Field) :
    (row level f).toList = Text.join ['|'] (rowCells level f) := by
  rw [row, getD_map_cell, getD_map_cell]
  cases h : f.required <;> simp [rowCells, h, nameCell, Text.join, String.toList_append]

lemma notMem_nameCell {c : Char} {f : Field} (hname : c ∉ f.name.toList) (hmarker : c ≠ levelMarker)
    (hstar : c ≠ '*') (level : ℕ) : c ∉ nameCell level f := by
  rw [nameCell, nameText, List.mem_append, List.mem_replicate, not_or]
  refine ⟨fun h => hmarker h.2, ?_⟩
  split_ifs <;> simp [hname, hstar]

/-- The bars of a row separate its five cells, apart from those behind a type or a range that runs
on, and each bar that is escaped in a type, a range or a description separates two cells more. If
there are neither, the cells are the name, the type, the mark of required fields, the range and the
description. The name may be any text without bars and backslashes, such as an identifier. -/
theorem length_cells_row (level : ℕ) (f : Field) (hbar : '|' ∉ f.name.toList)
    (hbackslash : '\\' ∉ f.name.toList) :
    let type := typeText f
    let range := f.range.getD ""
    let description := f.description.getD ""
    (cells (row level f)).length + (if RunsOn type then 1 else 0)
        + (if RunsOn range then 1 else 0) = 5 + cuts type + cuts range + cuts description ∧
      (¬ RunsOn type → ¬ RunsOn range → cuts type = 0 → cuts range = 0 → cuts description = 0 →
        cells (row level f) = rowCells level f) := by
  intro type range description
  have hname : separators [] (nameCell level f) = 0 :=
    separators_of_notMem (notMem_nameCell hbar (by decide) (by decide) level) []
  have hnameEnds : ¬ EndsInEscape (nameCell level f) :=
    not_endsInEscape_of_notMem (notMem_nameCell hbackslash (by decide) (by decide) level)
  have hmark : separators [] [if f.required then 'Y' else 'N'] = 0 ∧
      ¬ EndsInEscape [if f.required then 'Y' else 'N'] := by
    cases f.required <;> decide
  have hcells : rowCells level f = [nameCell level f, (cell type).toList,
      [if f.required then 'Y' else 'N'], (cell range).toList] ++ [(cell description).toList] := rfl
  rw [cells, toList_row, hcells]
  constructor
  · have hjoin := separators_join [nameCell level f, (cell type).toList,
      [if f.required then 'Y' else 'N'], (cell range).toList] (cell description).toList
    simp only [List.countP_cons, List.countP_nil, List.map_cons, List.map_nil, List.sum_cons,
      List.sum_nil, List.length_cons, List.length_nil, decide_eq_true_eq, endsInEscape_cell,
      separators_cell, hname, hmark.1, if_neg hnameEnds, if_neg hmark.2] at hjoin
    rw [length_cellsBehind]
    omega
  · intro htype hrange htypeCuts hrangeCuts hdescriptionCuts
    apply cellsBehind_join
    · simp [hnameEnds, hmark.2, endsInEscape_cell, htype, hrange]
    · simp [hname, hmark.1, separators_cell, htypeCuts, hrangeCuts, hdescriptionCuts]

/-- A pattern with an escaped bar takes two cells; a backslash at the end of the description, which
is the last cell, does no harm. -/
theorem length_cells_row_pattern :
    let f : Field :=
      { name := "path", type := .ofName "String", shape := .literal,
        range := some "pattern: [a-z]+(\\|[0-9]+)?", description := some "ends in \\ " }
    '|' ∉ f.name.toList ∧ '\\' ∉ f.name.toList ∧ (cells (row 1 f)).length = 6 := by
  intro f
  have hbar : '|' ∉ f.name.toList := by decide
  have hbackslash : '\\' ∉ f.name.toList := by decide
  have htype : ¬ RunsOn (typeText f) := by decide
  have hrange : ¬ RunsOn (f.range.getD "") := by decide +kernel
  have hcuts : cuts (typeText f) = 0 ∧ cuts (f.range.getD "") = 1 ∧
      cuts (f.description.getD "") = 0 := by decide +kernel
  have hlength := (length_cells_row 1 f hbar hbackslash).1
  simp only [if_neg htype, if_neg hrange, hcuts.1, hcuts.2.1, hcuts.2.2] at hlength
  exact ⟨hbar, hbackslash, by omega⟩

/-- Backslashes in front of a bar and at the end of a range shift the columns of a row. -/
theorem backslashes_shift_columns :
    let escapedBar : Field :=
      { name := "a", type := .ofName "String", shape := .literal, description := some "x\\|y" }
    let backslashAtEnd : Field :=
      { name := "a", type := .ofName "String", shape := .literal, range := some "\\" }
    (cells (row 0 escapedBar)).length = 6 ∧ (cells (row 0 backslashAtEnd)).length = 4 := by
  decide +kernel

end ServiceDocs.Page
