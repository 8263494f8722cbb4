import ServiceDocs.Proofs.Json.Parts
import ServiceDocs.Proofs.Json.PrettyLines
import ServiceDocs.Proofs.Page.Table

/-!
# Headings of pages

The lines of a page that begin with a number sign are its headings. Rows of tables begin with a
marker, a star or a name, a description is free of headings, and a payload is printed as an object
whose inner lines are indented, so none of their lines can be taken for a heading or for the end of
a fence.
-/

namespace ServiceDocs.Page

open ServiceDocs.Field

/-! ### Lines that are headings -/

/-- The line begins with a number sign. -/
def isHeading (line : List Char) : Bool :=
  line.head? = some '#'

/-- The lines of texts that stand below each other. -/
def linesOf (ls : List String) : List (List Char) :=
  ls.flatMap fun l => Text.lines l.toList

/-- The headings of texts that stand below each other. -/
def headingsOf (ls : List String) : List (List Char) :=
  (linesOf ls).filter isHeading

/-- No line of the text is a heading. -/
def NoHeading (text : String) : Prop :=
  ∀ l ∈ Text.lines text.toList, isHeading l = false

instance (text : String) : Decidable (NoHeading text) :=
  inferInstanceAs (Decidable (∀ l ∈ Text.lines text.toList, isHeading l = false))

lemma linesOf_cons (l : String) (ls : List String) :
    linesOf (l :: ls) = Text.lines l.toList ++ linesOf ls :=
  List.flatMap_cons

lemma linesOf_cons_of_notMem {l : String} (hl : '\n' ∉ l.toList) (ls : List String) :
    linesOf (l :: ls) = l.toList :: linesOf ls := by
  have hlines : Text.lines l.toList = [l.toList] := Text.pieces_of_notMem hl
  rw [linesOf_cons, hlines, List.singleton_append]

lemma linesOf_append (ls ms : List String) : linesOf (ls ++ ms) = linesOf ls ++ linesOf ms :=
  List.flatMap_append

lemma lines_eq_linesOf (ls : List String) :
    Text.lines (ofLines ls).toList = linesOf ls ++ [[]] := by
  induction ls with
  | nil => rfl
  | cons l ls ih =>
    have htext : (ofLines (l :: ls)).toList = l.toList ++ '\n' :: (ofLines ls).toList := by
      simp [ofLines, String.toList_append]
    rw [htext, Text.lines_append_lineFeed, ih, linesOf_cons, List.append_assoc]

lemma headingsOf_append (ls ms : List String) :
    headingsOf (ls ++ ms) = headingsOf ls ++ headingsOf ms := by
  rw [headingsOf, linesOf_append, List.filter_append]
  rfl

lemma headingsOf_cons_of_heading {l : String} (hl : '\n' ∉ l.toList)
    (hhead : l.toList.head? = some '#') (ls : List String) :
    headingsOf (l :: ls) = l.toList :: headingsOf ls := by
  have hheading : isHeading l.toList = true := decide_eq_true hhead
  rw [headingsOf, linesOf_cons_of_notMem hl, List.filter_cons_of_pos hheading]
  rfl

lemma headingsOf_cons_of_noHeading {l : String} (hl : NoHeading l) (ls : List String) :
    headingsOf (l :: ls) = headingsOf ls := by
  rw [headingsOf, linesOf_cons, List.filter_append, List.filter_eq_nil_iff.mpr, List.nil_append]
  · rfl
  · intro x hx
    rw [hl x hx]
    exact Bool.false_ne_true

lemma headingsOf_eq_nil {ls : List String} (h : ∀ l ∈ ls, NoHeading l) : headingsOf ls = [] := by
  induction ls with
  | nil => rfl
  | cons l ls ih =>
    rw [List.forall_mem_cons] at h
    rw [headingsOf_cons_of_noHeading h.1, ih h.2]

lemma noHeading_of_notMem {text : String} (htext : '\n' ∉ text.toList)
    (hhead : text.toList.head? ≠ some '#') : NoHeading text := by
  have hlines : Text.lines text.toList = [text.toList] := Text.pieces_of_notMem htext
  rw [NoHeading, hlines, List.forall_mem_singleton]
  exact decide_eq_false hhead

/-! ### Descriptions -/

/-- No number sign in the text is the first visible character of its line, where `fresh` says that
only white space stands in front of the text on its first line. -/
def NoVisibleHeading : Bool → List Char → Prop
  | _,     []      => True
  | fresh, c :: cs =>
    (fresh = true → c ≠ '#') ∧ NoVisibleHeading (c = '\n' || (fresh && Text.isBlank c)) cs

lemma noVisibleHeading_iff {fresh : Bool} {cs w : List Char} {ws : List (List Char)}
    (hlines : Text.lines cs = w :: ws) :
    NoVisibleHeading fresh cs ↔ (fresh = true → (Text.trimLeft w).head? ≠ some '#') ∧
      ∀ l ∈ ws, (Text.trimLeft l).head? ≠ some '#' := by
  induction cs generalizing fresh w ws with
  | nil =>
    cases hlines
    simp [NoVisibleHeading]
  | cons c cs ih =>
    by_cases hc : c = '\n'
    · subst hc
      cases hrest : Text.lines cs with
      | nil => exact absurd hrest (Text.pieces_ne_nil _ cs)
      | cons v vs =>
        have hcons : Text.lines ('\n' :: cs) = [] :: v :: vs := by
          rw [← hrest]
          rfl
        cases hlines.symm.trans hcons
        have hfeed : NoVisibleHeading fresh ('\n' :: cs) ↔ NoVisibleHeading true cs :=
          and_iff_right fun _ => by decide
        rw [hfeed, ih hrest, List.forall_mem_cons]
        simp
    · obtain ⟨v, vs, hrest, hcons⟩ := Text.exists_lines_cons hc cs
      cases hlines.symm.trans hcons
      rw [NoVisibleHeading, decide_eq_false hc, Bool.false_or]
      by_cases hblank : Text.isBlank c = true
      · have hne : c ≠ '#' := by
          rintro rfl
          revert hblank
          decide
        have htrim : Text.trimLeft (c :: v) = Text.trimLeft v := List.dropWhile_cons_of_pos hblank
        rw [hblank, Bool.and_true, ih hrest, htrim]
        exact and_iff_right fun _ => hne
      · have htrim : Text.trimLeft (c :: v) = c :: v := List.dropWhile_cons_of_neg hblank
        rw [eq_false_of_ne_true hblank, Bool.and_false, ih hrest, htrim]
        simp

section Visible

variable {fresh : Bool} {cs : List Char}

lemma NoVisibleHeading.of_append {ds : List Char} (h : NoVisibleHeading fresh (cs ++ ds)) :
    NoVisibleHeading fresh cs := by
  induction cs generalizing fresh with
  | nil => trivial
  | cons c cs ih => exact ⟨h.1, ih h.2⟩

lemma NoVisibleHeading.trimLeft (h : NoVisibleHeading true cs) :
    NoVisibleHeading true (Text.trimLeft cs) := by
  induction cs with
  | nil => trivial
  | cons c cs ih =>
    rw [Text.trimLeft, List.dropWhile_cons]
    split
    · next hblank =>
      apply ih
      have hcs := h.2
      rw [hblank, Bool.and_true, Bool.or_true] at hcs
      exact hcs
    · exact h

lemma NoVisibleHeading.trim (h : NoVisibleHeading true cs) :
    NoVisibleHeading true (Text.trim cs) := by
  obtain ⟨ds, hds⟩ : Text.trim cs <+: Text.trimLeft cs := List.rdropWhile_prefix _ _
  have hleft := h.trimLeft
  rw [← hds] at hleft
  exact hleft.of_append

end Visible

lemma head?_trimLeft_of_isHeading {l : List Char} (h : isHeading l = true) :
    (Text.trimLeft l).head? = some '#' := by
  obtain ⟨t, rfl⟩ := List.head?_eq_some_iff.mp (of_decide_eq_true h)
  rfl

/-- What is shown of a description has no heading. -/
lemma noHeading_descriptionText {description : Option String}
    (h : ∀ l ∈ Text.lines (description.getD "").toList, (Text.trimLeft l).head? ≠ some '#') :
    NoHeading (descriptionText description) := by
  obtain ⟨w, ws, hlines⟩ := List.exists_cons_of_ne_nil
    (Text.pieces_ne_nil (· = '\n') (description.getD "").toList)
  rw [Text.lines, hlines, List.forall_mem_cons] at h
  have hvisible : NoVisibleHeading true (Text.trim (description.getD "").toList) :=
    ((noVisibleHeading_iff hlines).mpr ⟨fun _ => h.1, h.2⟩).trim
  rw [descriptionText]
  split
  · decide
  · next c cs htrim =>
    rw [htrim] at hvisible
    obtain ⟨v, vs, hlines⟩ := List.exists_cons_of_ne_nil
      (Text.pieces_ne_nil (· = '\n') (c :: cs))
    obtain ⟨hv, hvs⟩ := (noVisibleHeading_iff hlines).mp hvisible
    rw [NoHeading, String.toList_ofList, Text.lines, hlines, List.forall_mem_cons]
    refine ⟨?_, ?_⟩
    · exact eq_false_of_ne_true fun hl => hv rfl (head?_trimLeft_of_isHeading hl)
    · intro l hl
      exact eq_false_of_ne_true fun hheading => hvs l hl (head?_trimLeft_of_isHeading hheading)

/-! ### Tables -/

/-- The field keeps to its lines: its name neither has a line feed nor begins with a number sign,
and its sample is one that a JSON text can give. -/
structure FitsPage (f : Field) : Prop where
  noLineFeed : '\n' ∉ f.name.toList
  noHash : f.name.toList.head? ≠ some '#'
  sample : ∀ s, f.sample = some s → s.Proper

lemma head?_row {f : Field} (h : f.name.toList.head? ≠ some '#') (level : ℕ) :
    (row level f).toList.head? ≠ some '#' := by
  obtain ⟨rest, hrest⟩ : ∃ rest, (row level f).toList =
      List.replicate level levelMarker ++ ((nameText f).toList ++ '|' :: rest) := by
    simp [row, String.toList_append, List.append_assoc]
  rw [hrest]
  cases level with
  | succ level => simp [List.replicate_succ, levelMarker]
  | zero =>
    rw [List.replicate_zero, List.nil_append, nameText]
    split
    · simp [String.toList_append]
    · cases hname : f.name.toList with
      | nil => simp
      | cons c cs =>
        rw [hname] at h
        exact h

lemma noHeading_row {f : Field} (h : FitsPage f) (level : ℕ) : NoHeading (row level f) := by
  apply noHeading_of_notMem _ (head?_row h.noHash level)
  intro hmem
  rcases blank_of_mem_row hmem (by decide) with hspace | hname
  · exact absurd hspace (by decide)
  · exact h.noLineFeed hname

lemma noHeading_tableLines {fields : List Field}
    (h : ∀ v ∈ visitsAll 0 fields, FitsPage v.field) : ∀ l ∈ tableLines fields, NoHeading l := by
  rw [tableLines, List.forall_mem_append, rowsAll_eq_map, List.forall_mem_map]
  refine ⟨by decide, ?_⟩
  intro v hv
  exact noHeading_row (h v hv) v.depth

/-! ### Payloads -/

lemma properMembers_payloadMembers {depth : ℕ} {fs : List Field}
    (h : ∀ v ∈ visitsAll depth fs, FitsPage v.field) :
    Json.ProperMembers (payloadMembers fs) := by
  induction fs using forest_induction generalizing depth with
  | nil => trivial
  | cons f fs ihChildren ih =>
    rw [visitsAll_cons, List.forall_mem_cons, List.forall_mem_append] at h
    obtain ⟨hf, hchildren, hfs⟩ := h
    have hbelow := Json.proper_ofMembers (ihChildren hchildren)
    refine ⟨?_, ih hfs⟩
    obtain ⟨name, type, shape, element, required, range, description, sample, opaqueType,
      children⟩ := f
    cases shape with
    | literal =>
      cases sample with
      | none => trivial
      | some s => exact hf.sample s rfl
    | object => exact hbelow
    | array =>
      cases sample with
      | none => exact ⟨hbelow, trivial⟩
      | some s => exact ⟨hf.sample s rfl, trivial⟩

lemma proper_samplePayload {fields : List Field}
    (h : ∀ v ∈ visitsAll 0 fields, FitsPage v.field) : (samplePayload fields).Proper :=
  Json.proper_ofMembers (properMembers_payloadMembers h)

/-- The line that opens or closes a fence. -/
def fence : List Char := "```".toList

/-- No line of a printed payload is a heading or a fence. -/
lemma lines_samplePayload {fields : List Field} (hne : fields ≠ [])
    (h : ∀ v ∈ visitsAll 0 fields, FitsPage v.field) :
    ∀ l ∈ Text.lines (samplePayload fields).pretty.toList, isHeading l = false ∧ l ≠ fence := by
  have hproper := proper_samplePayload h
  cases fields with
  | nil => exact absurd rfl hne
  | cons f fs =>
    obtain ⟨m, ms, hobj⟩ := Json.exists_ofMembers_cons (f.name, f.payload) (payloadMembers fs)
    have hpayload : samplePayload (f :: fs) = .obj (m :: ms) := hobj
    rw [hpayload] at hproper ⊢
    obtain ⟨inner, hlines, hinner⟩ := Json.lines_pretty hproper
    rw [hlines, List.forall_mem_cons, List.forall_mem_append, List.forall_mem_singleton]
    refine ⟨by decide, ?_, by decide⟩
    intro l hl
    obtain ⟨t, rfl⟩ := List.head?_eq_some_iff.mp (hinner l hl)
    refine ⟨rfl, fun heq => ?_⟩
    have hhead : some ' ' = fence.head? := congrArg List.head? heq
    exact absurd hhead (by decide)

end ServiceDocs.Page
