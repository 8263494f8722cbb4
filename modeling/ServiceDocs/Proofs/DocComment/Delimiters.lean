import ServiceDocs.Proofs.DocComment.Written

/-!
# Comments without delimiters

Between its delimiters a comment may begin and end with any white space. Its lines then have blank
lines around them, and white space in front of the first and behind the last of them; none of it is
read. So the delimiters of a comment may be left out.
-/

namespace ServiceDocs.DocComment

open Text

/-! ### White space around a text -/

/-- A blank line in front is no part of the first paragraph, and opens no tag. -/
lemma ofContent_cons_nil (ls : List (List Char)) : ofContent ([] :: ls) = ofContent ls := by
  have hleading : leadingLines ([] :: ls) = [] :: leadingLines ls := List.takeWhile_cons_of_pos rfl
  have hsummary : summaryOf ([] :: leadingLines ls) = summaryOf (leadingLines ls) := rfl
  rw [ofContent, hleading, hsummary]
  rfl

lemma ofBody_cons_of_blank {c : Char} (hc : isBlank c = true) (cs : List Char) :
    ofBody (c :: cs) = ofBody cs := by
  by_cases hfeed : c = '\n'
  · subst hfeed
    have hlines : lines ('\n' :: cs) = [] :: lines cs := lines_append_lineFeed [] cs
    rw [ofBody, hlines, List.map_cons]
    exact ofContent_cons_nil _
  · obtain ⟨w, ws, hlines, hcons⟩ := exists_lines_cons hfeed cs
    have hw : stripMargin (c :: w) = stripMargin w := stripMargin_congr (trim_cons_of_blank hc w)
    rw [ofBody, hcons, List.map_cons, hw, ← List.map_cons, ← hlines]
    rfl

lemma exists_lines_concat {c : Char} (hc : c ≠ '\n') (cs : List Char) :
    ∃ ws w, lines cs = ws ++ [w] ∧ lines (cs ++ [c]) = ws ++ [w ++ [c]] := by
  induction cs with
  | nil =>
    have hlines : lines [c] = [[c]] := pieces_of_notMem (by simpa using Ne.symm hc)
    exact ⟨[], [], rfl, hlines⟩
  | cons d cs ih =>
    obtain ⟨ws, w, hlines, hconcat⟩ := ih
    by_cases hd : d = '\n'
    · subst hd
      refine ⟨[] :: ws, w, ?_, ?_⟩
      · exact (lines_append_lineFeed [] cs).trans (congrArg ([[]] ++ ·) hlines)
      · exact (lines_append_lineFeed [] (cs ++ [c])).trans (congrArg ([[]] ++ ·) hconcat)
    · have hcons : ∀ xs, lines (d :: xs) = consHead d (lines xs) :=
        pieces_cons_of_neg (decide_eq_false hd)
      rw [List.cons_append, hcons, hcons, hlines, hconcat]
      cases ws with
      | nil => exact ⟨[], d :: w, rfl, rfl⟩
      | cons v vs => exact ⟨(d :: v) :: vs, w, rfl, rfl⟩

lemma ofBody_concat_of_blank {c : Char} (hc : isBlank c = true) (cs : List Char) :
    ofBody (cs ++ [c]) = ofBody cs := by
  by_cases hfeed : c = '\n'
  · subst hfeed
    rw [ofBody, lines_append_lineFeed, List.map_append]
    exact ofContent_concat_nil _
  · obtain ⟨ws, w, hlines, hconcat⟩ := exists_lines_concat hfeed cs
    have hw : stripMargin (w ++ [c]) = stripMargin w :=
      stripMargin_congr (trim_concat_of_blank hc w)
    rw [ofBody, hconcat, List.map_append, List.map_singleton, hw, ← List.map_singleton,
      ← List.map_append, ← hlines]
    rfl

lemma ofBody_append_blanks {bs : List Char} (h : ∀ c ∈ bs, isBlank c = true) (cs : List Char) :
    ofBody (cs ++ bs) = ofBody cs := by
  induction bs generalizing cs with
  | nil => rw [List.append_nil]
  | cons b bs ih =>
    rw [List.forall_mem_cons] at h
    rw [List.append_cons, ih h.2, ofBody_concat_of_blank h.1]

lemma ofBody_blanks_append {bs : List Char} (h : ∀ c ∈ bs, isBlank c = true) (cs : List Char) :
    ofBody (bs ++ cs) = ofBody cs := by
  induction bs with
  | nil => rfl
  | cons b bs ih =>
    rw [List.forall_mem_cons] at h
    rw [List.cons_append, ofBody_cons_of_blank h.1, ih h.2]

/-- White space around a text is not read. -/
lemma ofBody_trim (cs : List Char) : ofBody (trim cs) = ofBody cs := by
  obtain ⟨front, back, hfront, hback, hcs⟩ := trim_spec cs
  conv_rhs => rw [hcs, ofBody_append_blanks hback, ofBody_blanks_append hfront]

/-! ### Delimiters -/

lemma body_of_noDelimiters {raw : List Char} (hopening : ¬ opening <+: trim raw)
    (hclosing : ¬ closing <:+ trim raw) : body raw = trim raw := by
  have hstart : dropStart? opening (trim raw) = none :=
    if_neg (by rwa [List.isPrefixOf_iff_prefix])
  have hend : dropEnd? closing (trim raw) = none :=
    if_neg (by rwa [List.isSuffixOf_iff_suffix])
  simp only [body, hstart, Option.getD_none, hend]

/-- A text that has no delimiters of its own, apart from the white space around it, says the same
with and without delimiters. -/
theorem ofText_delimited {text : String} (hopening : ¬ opening <+: trim text.toList)
    (hclosing : ¬ closing <:+ trim text.toList) :
    ofText ("/**" ++ text ++ "*/") = ofText text := by
  have hbody : body ("/**" ++ text ++ "*/").toList = text.toList := by
    rw [String.toList_append, String.toList_append]
    exact body_delimited text.toList
  calc ofText ("/**" ++ text ++ "*/")
      = ofBody text.toList := by rw [ofText_eq, hbody]
    _ = ofBody (trim text.toList) := (ofBody_trim _).symm
    _ = ofText text := by rw [ofText_eq, body_of_noDelimiters hopening hclosing]

/-- The text begins with blank lines and a margin, and ends with a tag that goes on below a blank
line and has an asterisk for its last word. -/
theorem ofText_delimited_finds :
    let text := "\t\n\n *\u2003Finds a user.\n *\n" ++
      " * @param id the id\n\n   of the user\r\n@return *\n \u000b"
    ¬ opening <+: trim text.toList ∧ ¬ closing <:+ trim text.toList ∧
      ofText ("/**" ++ text ++ "*/") = ofText text ∧
      ofText text = {
        summary := some "Finds a user."
        parameters := [("id", "the id of the user")]
        returns := some "*" } := by
  intro text
  have hopening : ¬ opening <+: trim text.toList := by decide +kernel +zetaReduce
  have hclosing : ¬ closing <:+ trim text.toList := by decide +kernel +zetaReduce
  exact ⟨hopening, hclosing, ofText_delimited hopening hclosing, by decide +kernel⟩

end ServiceDocs.DocComment
