import Mathlib.Data.List.Forall2
import ServiceDocs.DocComment
import ServiceDocs.Proofs.Text.Words

/-!
# Lines of comments

A comment is read line by line. A blank line behind the others says nothing, so it does not matter
whether the end of the last line begins another one, nor whether a carriage return stands in front
of a line feed: the lines may be taken to be what is between line feeds.
-/

namespace ServiceDocs.DocComment

open Text

/-- What lines without delimiters and margins say. -/
def ofContent (ls : List (List Char)) : DocComment :=
  (blockTags ls).foldl apply { summary := summaryOf (leadingLines ls) }

lemma addLine_nil (tags : List BlockTag) : addLine tags [] = tags := by
  cases tags <;> rfl

/-! ### A blank line behind the others -/

lemma takeWhile_concat_of_neg {α : Type} {p : α → Bool} {b : α} (hb : p b = false) (ls : List α) :
    (ls ++ [b]).takeWhile p = ls.takeWhile p := by
  rw [List.takeWhile_append]
  split_ifs with hall
  · rw [List.takeWhile_cons_of_neg (by simp [hb]), List.append_nil]
    exact ((List.takeWhile_prefix p).eq_of_length hall).symm
  · rfl

/-- A blank line behind other lines either ends their first paragraph or stands behind it. -/
lemma paragraph_concat {b : List Char} (hb : isBlankLine b = true) (ls : List (List Char)) :
    ((ls ++ [b]).dropWhile isBlankLine).takeWhile (fun l => !isBlankLine l) =
      (ls.dropWhile isBlankLine).takeWhile fun l => !isBlankLine l := by
  rw [List.dropWhile_append]
  split_ifs with hnone
  · rw [List.isEmpty_iff] at hnone
    rw [hnone, List.dropWhile_cons_of_pos hb]
    rfl
  · exact takeWhile_concat_of_neg (by rw [hb]; rfl) _

lemma summaryOf_concat_nil (ls : List (List Char)) : summaryOf (ls ++ [[]]) = summaryOf ls := by
  rw [summaryOf, List.map_append, summaryOf]
  simp only [List.map_cons, List.map_nil]
  rw [paragraph_concat rfl]

/-- A blank line behind the others is added to no tag and to no paragraph. -/
lemma ofContent_concat_nil (ls : List (List Char)) : ofContent (ls ++ [[]]) = ofContent ls := by
  have htags : blockTags (ls ++ [[]]) = blockTags ls := by
    rw [blockTags, List.foldl_append, List.foldl_cons, List.foldl_nil, addLine_nil]
    rfl
  have hsummary : summaryOf (leadingLines (ls ++ [[]])) = summaryOf (leadingLines ls) := by
    rw [leadingLines, List.takeWhile_append]
    split_ifs with hall
    · -- No tag is opened, so the blank line is one of the leading lines.
      have hself : leadingLines ls = ls := (List.takeWhile_prefix _).eq_of_length hall
      have hblank : [[]].takeWhile (fun l : List Char => !isTagLine l) = [[]] := rfl
      rw [hself, hblank, summaryOf_concat_nil]
    · rfl
  rw [ofContent, htags, hsummary, ofContent]

/-! ### Ends of lines -/

lemma stripMargin_congr {l m : List Char} (h : trim l = trim m) :
    stripMargin l = stripMargin m := by
  rw [stripMargin, h, stripMargin]

/-- What a text between delimiters says. -/
def ofBody (cs : List Char) : DocComment :=
  ofContent ((lines cs).map stripMargin)

/-- The lines of a comment may be taken to be what is between its line feeds. -/
lemma ofText_eq (raw : String) : ofText raw = ofBody (body raw.toList) := by
  obtain ⟨rest, hrest, hlines⟩ := exists_endedLines_append (body raw.toList)
  have hmargins : (endedLines (body raw.toList) ++ rest).map stripMargin =
      (lines (body raw.toList)).map stripMargin := by
    rw [← List.forall₂_eq_eq_eq, List.forall₂_map_left_iff, List.forall₂_map_right_iff]
    refine hlines.imp fun w v hv => ?_
    rcases hv with rfl | rfl
    · rfl
    · exact (stripMargin_congr (trim_concat_of_blank (by decide) w)).symm
  have htext : ofText raw = ofContent ((endedLines (body raw.toList)).map stripMargin) := rfl
  rw [htext, ofBody, ← hmargins, List.map_append]
  rcases hrest with rfl | rfl
  · rw [List.map_nil, List.append_nil]
  · exact (ofContent_concat_nil _).symm

end ServiceDocs.DocComment
