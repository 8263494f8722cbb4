import Mathlib.Data.List.Forall2
import ServiceDocs.Page.Basic
import ServiceDocs.Proofs.Field.Order
import ServiceDocs.Proofs.Page.Cell

/-!
# Tables show trees

The table of a list of trees has one line for each field, in depth-first order. The markers in
front of a line are as many as there are fields above the field: whatever stands in the cells, they
hold no line feed, and a name that does not begin with the marker cannot be taken for one. So the
table shows the outlines of the trees.
-/

namespace ServiceDocs.Page

open ServiceDocs.Field

/-! ### Cells and rows -/

lemma eq_space_of_mem_getD_cell {text : Option String} {c : Char}
    (h : c ∈ ((text.map cell).getD "").toList) (hblank : Text.isBlank c = true) : c = ' ' := by
  cases text with
  | none => cases h
  | some text => exact eq_space_of_mem_cell h hblank

lemma mem_nameText {f : Field} {c : Char} (h : c ∈ (nameText f).toList) :
    c = '*' ∨ c ∈ f.name.toList := by
  rw [nameText] at h
  split at h
  · simp only [String.toList_append, List.mem_append] at h
    rcases h with (hstars | hname) | hstars
    · exact .inl (by simpa using hstars)
    · exact .inr hname
    · exact .inl (by simpa using hstars)
  · exact .inr h

/-- A row takes no other white space than spaces from anything but the name of the field. -/
lemma blank_of_mem_row {level : ℕ} {f : Field} {c : Char} (h : c ∈ (row level f).toList)
    (hblank : Text.isBlank c = true) : c = ' ' ∨ c ∈ f.name.toList := by
  have hne : ∀ d, Text.isBlank d = false → c ≠ d := by
    rintro d hd rfl
    rw [hblank] at hd
    cases hd
  have hbar : c ∉ "|".toList := by
    intro hc
    exact hne '|' (by decide) (by simpa using hc)
  rw [row] at h
  simp only [String.toList_append, List.mem_append, hbar, or_false] at h
  rcases h with ((((hmarker | hname) | htype) | hrequired) | hrange) | hdescription
  · rw [String.toList_ofList, List.mem_replicate] at hmarker
    exact absurd hmarker.2 (hne levelMarker (by decide))
  · rcases mem_nameText hname with hstar | hname
    · exact absurd hstar (hne '*' (by decide))
    · exact .inr hname
  · exact .inl (eq_space_of_mem_cell htype hblank)
  · split at hrequired
    · exact absurd (by simpa using hrequired) (hne 'Y' (by decide))
    · exact absurd (by simpa using hrequired) (hne 'N' (by decide))
  · exact .inl (eq_space_of_mem_getD_cell hrange hblank)
  · exact .inl (eq_space_of_mem_getD_cell hdescription hblank)

/-- The number of markers in front of a row. -/
def leadingMarkers (text : String) : ℕ :=
  (text.toList.takeWhile (· = levelMarker)).length

/-- A name that can stand in a table: it keeps to its line and does not begin with a marker. -/
structure PlainName (name : String) : Prop where
  noLineFeed : '\n' ∉ name.toList
  noMarker : name.toList.head? ≠ some levelMarker

lemma takeWhile_nameText {f : Field} (h : PlainName f.name) (rest : List Char) :
    ((nameText f).toList ++ '|' :: rest).takeWhile (· = levelMarker) = [] := by
  have hbar : '|' ≠ levelMarker := by decide
  have hstar : '*' ≠ levelMarker := by decide
  rw [nameText]
  split
  · simp [String.toList_append, hstar]
  · have hmarker := h.noMarker
    cases hname : f.name.toList with
    | nil => simp [hbar]
    | cons c cs =>
      rw [hname, List.head?_cons, ne_eq, Option.some.injEq] at hmarker
      simp [hmarker]

lemma leadingMarkers_row {f : Field} (h : PlainName f.name) (level : ℕ) :
    leadingMarkers (row level f) = level := by
  obtain ⟨rest, hrest⟩ : ∃ rest, (row level f).toList =
      List.replicate level levelMarker ++ ((nameText f).toList ++ '|' :: rest) := by
    simp [row, String.toList_append, List.append_assoc]
  rw [leadingMarkers, hrest, List.takeWhile_append_of_pos, takeWhile_nameText h, List.append_nil,
    List.length_replicate]
  intro c hc
  exact decide_eq_true (List.eq_of_mem_replicate hc)

/-! ### Rows in depth-first order -/

lemma rowsAll_eq_map (level : ℕ) (fs : List Field) :
    rowsAll level fs = (visitsAll level fs).map fun v => row v.depth v.field := by
  induction fs using forest_induction generalizing level with
  | nil => rfl
  | cons f fs ihChildren ih =>
    rw [rowsAll, rows_eq, ihChildren, ih, visitsAll_cons, List.map_cons, List.map_append,
      List.cons_append]

section Plain

variable {fields : List Field} {level : ℕ}
  (hfields : ∀ v ∈ visitsAll level fields, PlainName v.field.name)

include hfields

lemma noLineFeed_of_mem_rowsAll : ∀ r ∈ rowsAll level fields, '\n' ∉ r.toList := by
  rw [rowsAll_eq_map, List.forall_mem_map]
  intro v hv hmem
  rcases blank_of_mem_row hmem (by decide) with hspace | hname
  · exact absurd hspace (by decide)
  · exact (hfields v hv).noLineFeed hname

lemma map_leadingMarkers_rowsAll :
    (rowsAll level fields).map leadingMarkers = depths level fields := by
  rw [rowsAll_eq_map, depths, List.map_map]
  apply List.map_congr_left
  intro v hv
  rw [Function.comp_apply, leadingMarkers_row (hfields v hv)]

end Plain

/-! ### Tables -/

/-- The table of a list of fields as it stands on a page. Without fields there is none. -/
def table (fields : List Field) : String :=
  ofLines (if fields.isEmpty then [] else tableLines fields)

lemma ofLines_append (ls ms : List String) : ofLines (ls ++ ms) = ofLines ls ++ ofLines ms := by
  rw [ofLines, List.map_append, String.join_append]
  rfl

lemma lines_ofLines {ls : List String} (h : ∀ l ∈ ls, '\n' ∉ l.toList) :
    Text.lines (ofLines ls).toList = ls.map String.toList ++ [[]] := by
  induction ls with
  | nil => rfl
  | cons l ls ih =>
    obtain ⟨hl, hls⟩ := List.forall_mem_cons.mp h
    have htext : (ofLines (l :: ls)).toList = l.toList ++ '\n' :: (ofLines ls).toList := by
      simp [ofLines, String.toList_append]
    rw [htext, Text.lines_append_cons hl, ih hls]
    rfl

lemma ofLines_parameterLines (title : String) (fields : List Field) :
    ofLines (parameterLines title fields) =
      ofLines ["### " ++ title ++ " Parameters", ""] ++ table fields
        ++ (if fields.isEmpty then "" else "\n") := by
  rw [parameterLines, ofLines_append, table]
  split
  · simp [ofLines]
  · rw [ofLines_append, ← String.append_assoc]
    rfl

/-- The lines above the rows, if there are any rows. -/
lemma lines_table {fields : List Field}
    (hfields : ∀ v ∈ visitsAll 0 fields, PlainName v.field.name) :
    Text.lines (table fields).toList =
      ((if fields.isEmpty then [] else tableHead) ++ rowsAll 0 fields).map String.toList
        ++ [[]] := by
  have hrows := noLineFeed_of_mem_rowsAll hfields
  rw [table]
  cases fields with
  | nil => rfl
  | cons f fs =>
    apply lines_ofLines
    exact List.forall_mem_append.mpr ⟨by decide, hrows⟩

/-- Two tables are equal only if they have the same rows. -/
lemma rowsAll_eq_of_table_eq {fields others : List Field}
    (hfields : ∀ v ∈ visitsAll 0 fields, PlainName v.field.name)
    (hothers : ∀ v ∈ visitsAll 0 others, PlainName v.field.name)
    (h : table fields = table others) : rowsAll 0 fields = rowsAll 0 others := by
  have hlines := congrArg (fun text => Text.lines text.toList) h
  simp only [lines_table hfields, lines_table hothers] at hlines
  have hmap := List.map_injective_iff.mpr (fun _ _ => String.toList_injective)
    (List.append_cancel_right hlines)
  cases fields with
  | nil =>
    cases others with
    | nil => rfl
    | cons g gs => cases hmap
  | cons f fs =>
    cases others with
    | nil => cases hmap
    | cons g gs => exact List.append_cancel_left hmap

/-- The table of a list of trees has a line for each field, in depth-first order, with as many
markers in front as there are fields above the field. All white space in a line is spaces, apart
from what is in the name. Two tables are equal only if their trees have the same outlines. -/
theorem table_shows_outlines (fields : List Field)
    (hfields : ∀ v ∈ visitsAll 0 fields, PlainName v.field.name) :
    let rows := rowsAll 0 fields
    (∀ title, ofLines (parameterLines title fields) =
      ofLines ["### " ++ title ++ " Parameters", ""] ++ table fields
        ++ (if fields.isEmpty then "" else "\n")) ∧
      Text.lines (table fields).toList =
        ((if fields.isEmpty then [] else tableHead) ++ rows).map String.toList ++ [[]] ∧
      rows.length = (fields.map Field.count).sum ∧
      List.Forall₂ (fun v r => r = row v.depth v.field ∧ leadingMarkers r = v.depth ∧
          ∀ c ∈ r.toList, Text.isBlank c = true → c = ' ' ∨ c ∈ v.field.name.toList)
        (visitsAll 0 fields) rows ∧
      ∀ others, (∀ v ∈ visitsAll 0 others, PlainName v.field.name) →
        table fields = table others → outlines fields = outlines others := by
  intro rows
  have hrows : rows = (visitsAll 0 fields).map fun v => row v.depth v.field :=
    rowsAll_eq_map 0 fields
  refine ⟨fun title => ofLines_parameterLines title fields, lines_table hfields, ?_, ?_, ?_⟩
  · rw [hrows, List.length_map, length_visitsAll, countAll_eq_sum]
  · rw [hrows, List.forall₂_map_right_iff, List.forall₂_same]
    intro v hv
    exact ⟨rfl, leadingMarkers_row (hfields v hv) v.depth, fun c hc => blank_of_mem_row hc⟩
  · intro others hothers htable
    have hdepths : depths 0 fields = depths 0 others := by
      rw [← map_leadingMarkers_rowsAll hfields, ← map_leadingMarkers_rowsAll hothers,
        rowsAll_eq_of_table_eq hfields hothers htable]
    exact outlines_eq_of_depths_eq hdepths

/-- Line feeds and markers in a type or a description forge no row. -/
theorem table_shows_outlines_forged :
    let tags : Field :=
      { name := "tags", type := .named "List" [.ofName "a\n└b"], shape := .array,
        description := some "first\n└└second | third" }
    let fields := [{ name := "user", type := .ofName "User", shape := .object, children := [tags] }]
    (∀ v ∈ visitsAll 0 fields, PlainName v.field.name) ∧ (rowsAll 0 fields).length = 2 ∧
      ∀ others, (∀ v ∈ visitsAll 0 others, PlainName v.field.name) →
        table fields = table others → outlines others = [.node [.node []]] := by
  intro tags fields
  have hfields : ∀ v ∈ visitsAll 0 fields, PlainName v.field.name := by
    simp only [fields, tags, visitsAll_cons, visitsAll_nil, List.append_nil, List.forall_mem_cons]
    exact ⟨⟨by decide, by decide⟩, ⟨by decide, by decide⟩, List.forall_mem_nil _⟩
  obtain ⟨_, _, hlength, _, houtlines⟩ := table_shows_outlines fields hfields
  exact ⟨hfields, hlength, fun others hothers h => (houtlines others hothers h).symm⟩

end ServiceDocs.Page
